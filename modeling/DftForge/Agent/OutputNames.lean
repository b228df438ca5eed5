import DftForge.Agent.Session

/-! # The output names of the builders

What the arguments of an accepted build step leave in the name of its output file, and
what they hand to the builder. Two names are equal exactly when their keys are.
-/
namespace DftForge.Agent
open DftForge.Runtime DftForge.Python DftForge.Engines DftForge.Tools

inductive SheetKind where
  | graphene
  | bn
  | mos2
  | ws2
  | mose2
  | wse2
  | mote2
  | wte2
  deriving DecidableEq, Repr

def SheetKind.text : SheetKind → String
  | .graphene => "graphene"
  | .bn => "bn"
  | .mos2 => "mos2"
  | .ws2 => "ws2"
  | .mose2 => "mose2"
  | .wse2 => "wse2"
  | .mote2 => "mote2"
  | .wte2 => "wte2"

def sheetKinds : List SheetKind := [.graphene,.bn,.mos2,.ws2,.mose2,.wse2,.mote2,.wte2]

def sites : List String := ["top","bridge","hollow"]

def molecules : List String := ["o2","n2","h2","cl2","co","oh","no","h2o","co2","nh3"]

section Schema

/-- A property of a schema; keys with the value `null` count as absent. -/
def optional (d : Dict) (key : String) (p : Json → Bool) : Bool :=
  match d.get? key with
  | none => true
  | some .null => true
  | some v => p v

def required (d : Dict) (key : String) (p : Json → Bool) : Bool :=
  match d.get? key with
  | none => false
  | some .null => false
  | some v => p v

def isText : Json → Bool
  | .str _ => true
  | _ => false

def isNumber : Json → Bool
  | .num _ => true
  | _ => false

def isInteger : Json → Bool
  | .num q => q.den = 1
  | _ => false

def oneOf (texts : List String) : Json → Bool
  | .str s => s ∈ texts
  | _ => false

/-- A property inside a nested object, where `null` does not count as absent. -/
def nested (d : Dict) (key : String) (p : Json → Bool) : Bool := (d.get? key).all p

def isDopant : Json → Bool
  | .str _ => true
  | .obj d => nested d "index" isInteger && nested d "element" isText
  | _ => false

def isAdsorbate : Json → Bool
  | .obj d => nested d "element" isText && nested d "site" (oneOf sites) && nested d "height" isNumber
  | _ => false

def isDopants : Json → Bool
  | .arr items => items.all isDopant
  | _ => false

/-- The input schema of a builder. -/
def accepts (d : Dict) : Builder → Bool
  | .generate => required d "source" isText && optional d "output" isText
  | .build2d =>
    required d "kind" (oneOf (sheetKinds.map SheetKind.text)) && optional d "supercell" isText &&
      optional d "vacancy" isInteger && optional d "dopants" isDopants && optional d "adsorb" isAdsorbate &&
      optional d "height" isNumber && optional d "vacuum" isNumber && optional d "output" isText
  | .dope =>
    required d "source" isText && required d "element" isText && optional d "supercell" isText &&
      optional d "index" isInteger && optional d "output" isText
  | .molecule => required d "kind" (oneOf molecules) && optional d "box" isNumber && optional d "output" isText
  | .reference => required d "element" isText && optional d "output" isText

end Schema

section Keys

/-- What the arguments leave in the name: the text after the kind of a sheet, the two
words of a doped crystal, the letters of a molecule or an element. -/
inductive NameKey where
  | generated
  | sheet (kind : SheetKind) (rest : Text)
  | doped (src : Text) (el : {text : Text // '_' ∉ text})
  | molecule (letters : Text)
  | reference (letters : Text)

def NameKey.name : NameKey → Text
  | .generated => "generated.cif".toList
  | .sheet kind rest => kind.text.toList ++ ['_'] ++ rest ++ ".cif".toList
  | .doped src el => "doped_".toList ++ src ++ ['_'] ++ el.1 ++ ".cif".toList
  | .molecule letters => "molecule_".toList ++ letters ++ ".cif".toList
  | .reference letters => "ref_".toList ++ letters ++ ".cif".toList

inductive NameShape where
  | generated
  | sheet
  | doped
  | molecule
  | reference
  deriving DecidableEq

def NameKey.shape : NameKey → NameShape
  | .generated => .generated
  | .sheet _ _ => .sheet
  | .doped _ _ => .doped
  | .molecule _ => .molecule
  | .reference _ => .reference

/-- The first three letters of a name tell its shape. -/
def shapeOf (mark : Text) : NameShape :=
  if mark = "gen".toList then .generated
  else if mark = "dop".toList then .doped
  else if mark = "mol".toList then .molecule
  else if mark = "ref".toList then .reference
  else .sheet

theorem shapeOf_append {front : Text} (h : 3 ≤ front.length) (rest : Text) :
    shapeOf ((front ++ rest).take 3) = shapeOf (front.take 3) := by
  rw [List.take_append_of_le_length h]

theorem NameKey.shapeOf_name (k : NameKey) : shapeOf (k.name.take 3) = k.shape := by
  cases k with
  | generated => decide +kernel
  | sheet kind rest =>
    change shapeOf ((kind.text.toList ++ ['_'] ++ rest ++ ".cif".toList).take 3) = .sheet
    have hlength : 3 ≤ (kind.text.toList ++ ['_']).length := by cases kind <;> decide +kernel
    rw [List.append_assoc _ rest,shapeOf_append hlength]
    cases kind <;> decide +kernel
  | doped src el =>
    change shapeOf (("doped_".toList ++ src ++ ['_'] ++ el.1 ++ ".cif".toList).take 3) = .doped
    rw [List.append_assoc,List.append_assoc,List.append_assoc,shapeOf_append (by decide +kernel)]
    decide +kernel
  | molecule letters =>
    change shapeOf (("molecule_".toList ++ letters ++ ".cif".toList).take 3) = .molecule
    rw [List.append_assoc,shapeOf_append (by decide +kernel)]
    decide +kernel
  | reference letters =>
    change shapeOf (("ref_".toList ++ letters ++ ".cif".toList).take 3) = .reference
    rw [List.append_assoc,shapeOf_append (by decide +kernel)]
    decide +kernel

theorem reverse_mark (c : Char) (x z : Text) : (x ++ [c] ++ z).reverse = z.reverse ++ c :: x.reverse := by
  simp

theorem not_mem_kind (kind : SheetKind) : '_' ∉ kind.text.toList := by
  cases kind <;> decide

theorem SheetKind.text_injective {a b : SheetKind} (h : a.text = b.text) : a = b := by
  cases a <;> cases b <;> first | rfl | (revert h; decide)

/-- Two names are equal only if what they were made from is. -/
theorem NameKey.name_injective {k k' : NameKey} (h : k.name = k'.name) : k = k' := by
  have hshape : k.shape = k'.shape := by rw [← k.shapeOf_name,h,k'.shapeOf_name]
  cases k with
  | generated =>
    cases k' <;> cases hshape
    rfl
  | sheet kind rest =>
    cases k' <;> cases hshape
    next kind' rest' =>
    have htext : kind.text.toList ++ '_' :: (rest ++ ".cif".toList) =
        kind'.text.toList ++ '_' :: (rest' ++ ".cif".toList) := by
      simpa only [List.append_assoc,List.cons_append,List.nil_append] using
        show kind.text.toList ++ ['_'] ++ rest ++ ".cif".toList =
          kind'.text.toList ++ ['_'] ++ rest' ++ ".cif".toList from h
    obtain ⟨hkind,hrest⟩ := append_cons_cancel (not_mem_kind kind) (not_mem_kind kind') htext
    rw [SheetKind.text_injective (String.toList_injective hkind),List.append_cancel_right hrest]
  | doped src el =>
    cases k' <;> cases hshape
    next src' el' =>
    have hback : el.1.reverse ++ '_' :: ("doped_".toList ++ src).reverse =
        el'.1.reverse ++ '_' :: ("doped_".toList ++ src').reverse := by
      have htext : "doped_".toList ++ src ++ ['_'] ++ el.1 = "doped_".toList ++ src' ++ ['_'] ++ el'.1 :=
        List.append_cancel_right h
      rw [← reverse_mark,← reverse_mark,htext]
    obtain ⟨hel,hsrc⟩ := append_cons_cancel (mt List.mem_reverse.mp el.2) (mt List.mem_reverse.mp el'.2) hback
    rw [List.append_cancel_left (List.reverse_injective hsrc),Subtype.ext (List.reverse_injective hel)]
  | molecule letters =>
    cases k' <;> cases hshape
    next letters' => rw [List.append_cancel_left (List.append_cancel_right h)]
  | reference letters =>
    cases k' <;> cases hshape
    next letters' => rw [List.append_cancel_left (List.append_cancel_right h)]

end Keys

section Arguments
variable (sh : Shell) (args : Dict)

def sheetKind? (text : String) : Option SheetKind := sheetKinds.find? (·.text = text)

/-- The supercell and the site in the name of a sheet. -/
def sheetRest (site : String) : Text :=
  underscored 'x' (sh.textAt args "supercell" "1x1") ++
    (if underscored '/' site = [] then [] else '_' :: underscored '/' site)

theorem not_mem_filter_isAlphanum (cs : Text) (n : ℕ) : '_' ∉ (cs.filter Char.isAlphanum).take n := by
  intro h
  have halnum := (List.mem_filter.mp (List.mem_of_mem_take h)).2
  revert halnum
  decide

/-- The first 20 characters of the source, others than letters and digits as underscores. -/
def sourceWord : Text :=
  ((sh.textAt args "source" "mat").toList.map fun c => if c.isAlphanum then c else '_').take 20

/-- The first three letters or digits of the element. -/
def elementWord : Text := ((sh.textAt args "element" "X").toList.filter Char.isAlphanum).take 3

def moleculeLetters : Text := (sh.textAt args "kind" "mol").toList.filter fun c => c.isLower || c.isDigit

def referenceLetters : Text := (sh.textAt args "element" "X").toList.filter Char.isAlpha

/-- The key of a builder's own name. -/
def nameKey : Builder → Option NameKey
  | .generate => some .generated
  | .build2d =>
    match sheetKind? (sh.textAt args "kind" "2d"), adsorbSite sh args with
    | some kind, some site => some (.sheet kind (sheetRest sh args site))
    | _, _ => none
  | .dope => some (.doped (sourceWord sh args) ⟨elementWord sh args,not_mem_filter_isAlphanum _ _⟩)
  | .molecule => some (.molecule (moleculeLetters sh args))
  | .reference => some (.reference (referenceLetters sh args))

/-- What tells output files apart: the key of a name, or a path from the plan. -/
inductive OutputKey where
  | named (key : NameKey)
  | given (path : String)

/-- `args["output"]` of the prepared step, by its key. -/
def outputKey (b : Builder) : Option OutputKey :=
  match b, args.get? "output" with
  | .molecule, some (.str s) => if s ≠ "" then some (.given s) else (nameKey sh args .molecule).map .named
  | .reference, some (.str s) => if s ≠ "" then some (.given s) else (nameKey sh args .reference).map .named
  | b, _ => (nameKey sh args b).map .named

def sessionPath (key : NameKey) : String := sh.sessionDir ++ "/" ++ String.ofList key.name

def OutputKey.path : OutputKey → String
  | .named key => sessionPath sh key
  | .given path => path

/-- The arguments of two steps leave the same in the names of their outputs. -/
def SameName : Builder → Dict → Builder → Dict → Prop
  | .generate, _, .generate, _ => True
  | .build2d, args, .build2d, args' =>
    sheetKind? (sh.textAt args "kind" "2d") = sheetKind? (sh.textAt args' "kind" "2d") ∧
      (adsorbSite sh args).map (sheetRest sh args) = (adsorbSite sh args').map (sheetRest sh args')
  | .dope, args, .dope, args' => sourceWord sh args = sourceWord sh args' ∧ elementWord sh args = elementWord sh args'
  | .molecule, args, .molecule, args' => moleculeLetters sh args = moleculeLetters sh args'
  | .reference, args, .reference, args' => referenceLetters sh args = referenceLetters sh args'
  | _, _, _, _ => False

end Arguments

section Paths
variable {sh : Shell} {args : Dict}

theorem sessionPath_injective {key key' : NameKey} (h : sessionPath sh key = sessionPath sh key') :
    key = key' := by
  have hname : String.ofList key.name = String.ofList key'.name := by
    have hlist := congrArg String.toList h
    simp only [sessionPath,String.toList_append] at hlist
    exact String.toList_injective (List.append_cancel_left hlist)
  exact NameKey.name_injective (String.ofList_injective hname)

def shapeOfBuilder : Builder → NameShape
  | .generate => .generated
  | .build2d => .sheet
  | .dope => .doped
  | .molecule => .molecule
  | .reference => .reference

/-- The name of a sheet needs its kind and its site. -/
theorem nameKey_sheet {key : NameKey} (h : nameKey sh args .build2d = some key) :
    ∃ kind site, sheetKind? (sh.textAt args "kind" "2d") = some kind ∧ adsorbSite sh args = some site ∧
      key = .sheet kind (sheetRest sh args site) := by
  rw [nameKey] at h
  split at h
  · next kind site hkind hsite => exact ⟨kind,site,hkind,hsite,(Option.some.inj h).symm⟩
  · cases h

theorem shape_of_nameKey {b : Builder} {key : NameKey} (h : nameKey sh args b = some key) :
    key.shape = shapeOfBuilder b := by
  cases b with
  | build2d =>
    obtain ⟨kind,site,-,-,rfl⟩ := nameKey_sheet h
    rfl
  | _ =>
    obtain rfl := Option.some.inj h
    rfl

theorem sameName_builder {b b' : Builder} {args args' : Dict} (h : SameName sh b args b' args') : b = b' := by
  cases b <;> cases b' <;> first | rfl | exact h.elim

/-- The arguments leave the same in the names exactly when the names are made from the same. -/
theorem sameName_iff {b b' : Builder} {args args' : Dict} {key key' : NameKey} (h : nameKey sh args b = some key)
    (h' : nameKey sh args' b' = some key') : SameName sh b args b' args' ↔ key = key' := by
  by_cases hb : b = b'
  · subst hb
    cases b with
    | build2d =>
      obtain ⟨kind,site,hkind,hsite,rfl⟩ := nameKey_sheet h
      obtain ⟨kind',site',hkind',hsite',rfl⟩ := nameKey_sheet h'
      rw [SameName,hkind,hkind',hsite,hsite',Option.map_some,Option.map_some,Option.some_inj,Option.some_inj]
      exact NameKey.sheet.injEq _ _ _ _ ▸ Iff.rfl
    | generate =>
      exact iff_of_true trivial (Option.some.inj (h.symm.trans h'))
    | dope =>
      obtain rfl := Option.some.inj h
      obtain rfl := Option.some.inj h'
      rw [SameName,NameKey.doped.injEq]
      exact and_congr_right fun _ => (Subtype.mk.injEq ..).symm ▸ Iff.rfl
    | molecule =>
      obtain rfl := Option.some.inj h
      obtain rfl := Option.some.inj h'
      rw [SameName,NameKey.molecule.injEq]
    | reference =>
      obtain rfl := Option.some.inj h
      obtain rfl := Option.some.inj h'
      rw [SameName,NameKey.reference.injEq]
  · refine iff_of_false (fun hsame => hb (sameName_builder hsame)) fun heq => hb ?_
    have hshape := (shape_of_nameKey h).symm.trans ((congrArg NameKey.shape heq).trans (shape_of_nameKey h'))
    cases b <;> cases b' <;> first | rfl | cases hshape

theorem required_congr {d d' : Dict} {key : String} (h : d'.get? key = d.get? key) (p : Json → Bool) :
    required d' key p = required d key p := by
  rw [required,required,h]

theorem optional_congr {d d' : Dict} {key : String} (h : d'.get? key = d.get? key) (p : Json → Bool) :
    optional d' key p = optional d key p := by
  rw [optional,optional,h]

/-- A kind that the schema accepts is spelled in the name. -/
theorem sheetKind?_of_required (sh : Shell) {args : Dict}
    (h : required args "kind" (oneOf (sheetKinds.map SheetKind.text)) = true) :
    ∃ kind, sheetKind? (sh.textAt args "kind" "2d") = some kind ∧
      underscored '/' (sh.textAt args "kind" "2d") = kind.text.toList := by
  unfold required at h
  split at h
  · cases h
  · cases h
  · next v _ hget =>
    unfold oneOf at h
    split at h
    · next text =>
      obtain ⟨kind,_,rfl⟩ := List.mem_map.mp (of_decide_eq_true h)
      have htext : sh.textAt args "kind" "2d" = kind.text := by rw [Shell.textAt,hget]; rfl
      refine ⟨kind,?_,?_⟩
      · rw [htext]
        cases kind <;> rfl
      · rw [htext]
        cases kind <;> decide +kernel
    · cases h

theorem adsorbSite_of_optional (sh : Shell) {args : Dict} (h : optional args "adsorb" isAdsorbate = true) :
    ∃ site, adsorbSite sh args = some site := by
  unfold optional at h
  unfold adsorbSite
  split at h
  · next hget => exact ⟨"",by rw [hget]⟩
  · next hget => exact ⟨"",by rw [hget]; rfl⟩
  · next v _ hget =>
    cases v with
    | obj fields => exact ⟨_,by rw [hget]⟩
    | _ => cases h

theorem build2dName_eq {kind : SheetKind} {site : String}
    (h : underscored '/' (sh.textAt args "kind" "2d") = kind.text.toList) :
    build2dName sh args site = (NameKey.sheet kind (sheetRest sh args site)).name := by
  change _ = kind.text.toList ++ ['_'] ++ sheetRest sh args site ++ ".cif".toList
  rw [build2dName,h,sheetRest,List.append_assoc (kind.text.toList ++ ['_'])]

/-- A builder that keeps an output of the plan, or else makes its own name. -/
theorem given_or_named {key : NameKey} {output : Json}
    (hout : (match args.get? "output" with
      | some v => if truthy v then some v else some (sh.path key.name)
      | none => some (sh.path key.name)) = some output)
    (htext : optional (args.set "output" output) "output" isText = true) :
    ∃ k, (match args.get? "output" with
      | some (.str s) => if s ≠ "" then some (OutputKey.given s) else some (.named key)
      | _ => some (.named key)) = some k ∧ output = .str (k.path sh) := by
  rw [optional,Dict.get?_set_self] at htext
  cases hget : args.get? "output" with
  | none =>
    rw [hget] at hout
    exact ⟨.named key,rfl,(Option.some_injective _ hout).symm⟩
  | some v =>
    rw [hget] at hout
    by_cases hv : truthy v = true
    · simp only [hv,if_true,Option.some.injEq] at hout
      subst hout
      cases v with
      | str s =>
        have hs : s ≠ "" := by simpa [truthy] using hv
        exact ⟨.given s,by simp [hs],rfl⟩
      | null => cases hv
      | _ => cases htext
    · simp only [hv,Bool.false_eq_true,if_false,Option.some.injEq] at hout
      refine ⟨.named key,?_,hout.symm⟩
      cases v with
      | str s =>
        have hs : s = "" := by simpa [truthy] using hv
        simp [hs]
      | _ => rfl

/-- The output of an accepted step is the path of its key. -/
theorem outputPath_key {b : Builder} {output : Json} (hout : outputPath sh args b = some output)
    (h : accepts (args.set "output" output) b = true) :
    ∃ k, outputKey sh args b = some k ∧ output = .str (k.path sh) := by
  cases b with
  | generate => exact ⟨.named .generated,rfl,(Option.some_injective _ hout).symm⟩
  | build2d =>
    simp only [accepts,Bool.and_eq_true] at h
    have hkind := h.1.1.1.1.1.1.1
    have hadsorb := h.1.1.1.2
    rw [required_congr (Dict.get?_set_of_ne (by decide) _ _)] at hkind
    rw [optional_congr (Dict.get?_set_of_ne (by decide) _ _)] at hadsorb
    obtain ⟨kind,hfind,htext⟩ := sheetKind?_of_required sh hkind
    obtain ⟨site,hsite⟩ := adsorbSite_of_optional sh hadsorb
    refine ⟨.named (.sheet kind (sheetRest sh args site)),?_,?_⟩
    · rw [outputKey,nameKey,hfind,hsite]
      rfl
      all_goals exact nofun
    · rw [outputPath,hsite,Option.map_some,build2dName_eq htext] at hout
      exact (Option.some_injective _ hout).symm
  | dope => exact ⟨_,rfl,(Option.some_injective _ hout).symm⟩
  | molecule =>
    simp only [accepts,Bool.and_eq_true] at h
    obtain ⟨k,hk,hpath⟩ := @given_or_named sh args (.molecule _) output hout h.2
    refine ⟨k,?_,hpath⟩
    rw [← hk,outputKey.eq_def]
    split <;> simp_all [nameKey,moleculeLetters]
  | reference =>
    simp only [accepts,Bool.and_eq_true] at h
    obtain ⟨k,hk,hpath⟩ := @given_or_named sh args (.reference _) output hout h.2
    refine ⟨k,?_,hpath⟩
    rw [← hk,outputKey.eq_def]
    split <;> simp_all [nameKey,referenceLetters]

end Paths
end DftForge.Agent
