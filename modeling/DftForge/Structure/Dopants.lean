import DftForge.Structure.Builder
import DftForge.Library.Overwrites

/-! # Requested dopants

Each entry of `dopants` becomes a text `ELEMENT@INDEX`, which the command parses back into a
substitution. The substitutions are writes to the symbols of the lattice, so the structure has
every requested dopant on an atom of its own exactly if the indices asked for differ, where an
entry without an index asks for the first atom.
-/
namespace DftForge.Structure
open DftForge.Library DftForge.Runtime DftForge.Python DftForge.Tools

section Texts
variable {u : Unicode}

theorem mem_piece {p : Char → Bool} {text : Text} {c : Char} (hc : c ∈ text) (hp : p c = false) :
    ∃ piece ∈ text.splitOnP p, c ∈ piece := by
  induction text with
  | nil => cases hc
  | cons d text ih =>
    obtain ⟨first,rest,hfirst⟩ := List.exists_cons_of_ne_nil (List.splitOnP_ne_nil p text)
    rw [List.splitOnP_cons_eq_if_modifyHead]
    obtain rfl | hc := List.mem_cons.mp hc
    · exact ⟨c :: first,by simp [hp, hfirst],List.mem_cons_self⟩
    · obtain ⟨piece,hpiece,hmem⟩ := ih hc
      by_cases hd : p d = true
      · exact ⟨piece,by simp [hd, hpiece],hmem⟩
      · rw [if_neg hd, hfirst, List.modifyHead_cons]
        rw [hfirst] at hpiece
        obtain rfl | hpiece := List.mem_cons.mp hpiece
        · exact ⟨d :: piece,List.mem_cons_self,List.mem_cons_of_mem d hmem⟩
        · exact ⟨piece,List.mem_cons_of_mem _ hpiece,hmem⟩

theorem not_mem_of_digitRun {text ds : Text} (h : digitRun u text = some ds) : '@' ∉ text := by
  intro hmem
  obtain ⟨piece,hpiece,hmem⟩ := mem_piece (p := (· == '_')) hmem rfl
  simp only [digitRun] at h
  split_ifs at h with hall
  have hdigits := List.all_eq_true.mp hall piece hpiece
  rw [Bool.and_eq_true, List.all_eq_true] at hdigits
  have hat := hdigits.2 '@' hmem
  cases hat

theorem not_mem_of_readInteger {text : Text} {n : ℤ} (h : readInteger u text = some n) : '@' ∉ text := by
  unfold readInteger at h
  split at h
  · obtain ⟨ds,hds,-⟩ := Option.map_eq_some_iff.mp h
    simpa using not_mem_of_digitRun hds
  · obtain ⟨ds,hds,-⟩ := Option.map_eq_some_iff.mp h
    simpa using not_mem_of_digitRun hds
  · obtain ⟨ds,hds,-⟩ := Option.map_eq_some_iff.mp h
    exact not_mem_of_digitRun hds

theorem mem_strip {c : Char} {text : Text} (hc : c ∈ text) (hspace : isSpace c = false) : c ∈ strip text := by
  have hdrop {t : Text} (h : c ∈ t) : c ∈ t.dropWhile isSpace := by
    rw [← List.takeWhile_append_dropWhile (p := isSpace) (l := t), List.mem_append] at h
    refine h.resolve_left fun h => ?_
    rw [List.mem_takeWhile_imp h] at hspace
    cases hspace
  exact List.mem_reverse.mpr (hdrop (List.mem_reverse.mpr (hdrop hc)))

/-- No integer is read in a text with an at sign. -/
theorem not_mem_of_readInt {text : Text} {n : ℤ} (h : readInt u text = some n) : '@' ∉ text :=
  fun hmem => not_mem_of_readInteger h (mem_strip hmem rfl)

theorem splitOnce_of_not_mem {c : Char} {text rest : Text} (h : c ∉ text) :
    splitOnce c (text ++ c :: rest) = some (text,rest) := by
  have hne : ∀ d ∈ text, decide (d ≠ c) = true := by
    intro d hd
    exact decide_eq_true fun heq => h (heq ▸ hd)
  rw [splitOnce, if_pos (by simp), List.takeWhile_append_of_pos hne, List.dropWhile_append_of_pos hne]
  simp

theorem splitOnce_of_mem {c : Char} {text rest : Text} (h : c ∈ text) :
    ∃ a b, splitOnce c (text ++ c :: rest) = some (a,b) ∧ c ∈ b := by
  obtain ⟨before,after,rfl,hbefore⟩ := List.eq_append_cons_of_mem h
  refine ⟨before,after ++ c :: rest,?_,by simp⟩
  rw [List.append_assoc, List.cons_append, splitOnce_of_not_mem hbefore]

end Texts

section Requests
variable (ase : Ase)

/-- The element that an entry asks for. -/
def askedElement : Json → Text
  | .str s => s.toList
  | .obj d => ((Dict.get? d "element").map ase.shown).getD ['X']
  | _ => []

/-- The index that an entry asks for, the first where it has none. -/
def askedIndex : Json → ℚ
  | .obj d =>
    match Dict.get? d "index" with
    | some (.num q) => q
    | _ => 0
  | _ => 0

def dopantEntries (args : Dict) : List Json :=
  match args.get? "dopants" with
  | some (.arr items) => items
  | _ => []

/-- The symbol that ASE reads in the element of an entry. -/
def askedSymbol (entry : Json) : Option Text := (ase.readSymbol (strip (askedElement ase entry))).toOption

/-- The symbols of the requested dopants. -/
def requested (args : Dict) : List Text := (dopantEntries args).filterMap (askedSymbol ase)

/-- What the entries ask to be written to the symbols of the lattice. -/
def requestedWrites (args : Dict) : List (ℕ × Text) :=
  (dopantEntries args).filterMap fun entry =>
    (askedSymbol ase entry).map fun s => ((askedIndex entry).num.toNat,s)

/-- The substitutions of a call, in their order. -/
def substitutions (args : Dict) : Except BuildError (List Dopant) := do
  let specs ← ase.dopantsArg args
  specs.mapM ase.parseDopant

/-- Every requested dopant is there, and no two are put on one atom. -/
structure DopantsPresent (args : Dict) (r : BuildResult) : Prop where
  count : ∀ symbol, (requested ase args).count symbol ≤ r.atoms.symbols.count symbol
  apart : ∀ ds, substitutions ase args = .ok ds → (ds.map Dopant.index).Nodup

/-- `int` reads back the number whose text it is given. -/
def ReadsBack : Prop := ∀ q n, readInt ase.unicode (ase.str (.num q)) = some n → (n : ℚ) = q

end Requests

section Parsing
variable {ase : Ase}

/-- A spec is parsed only where its element has no at sign, so it is split where it was put
together. -/
theorem parseDopant_spec {element index : Text} {d : Dopant}
    (h : ase.parseDopant (element ++ '@' :: index) = .ok d) :
    d.element = strip element ∧ readInt ase.unicode index = some d.index := by
  unfold Ase.parseDopant at h
  by_cases hmem : '@' ∈ element
  · obtain ⟨a,b,hsplit,hb⟩ : ∃ a b, splitOnce '@' (element ++ '@' :: index) = some (a,b) ∧ '@' ∈ b :=
      splitOnce_of_mem hmem
    have hnone : readInt ase.unicode b = none :=
      Option.eq_none_iff_forall_not_mem.mpr fun n hn => not_mem_of_readInt hn hb
    rw [hsplit, Option.map_some, hnone] at h
    cases h
  · rw [splitOnce_of_not_mem hmem, Option.map_some] at h
    cases hread : readInt ase.unicode index with
    | none =>
      rw [hread] at h
      cases h
    | some n =>
      rw [hread] at h
      cases h
      exact ⟨rfl,rfl⟩

theorem valid_entry {entry : Json} (h : dopantSchema.valid entry = true) :
    (∃ s, entry = .str s) ∨ ∃ d : Dict, entry = .obj d ∧ ∀ v, d.get? "index" = some v → ∃ q, v = .num q := by
  cases entry with
  | str s => exact .inl ⟨s,rfl⟩
  | obj d =>
    refine .inr ⟨d,rfl,fun v hv => ?_⟩
    have hprops : propertiesValid [("index",Schema.integer),("element",Schema.text)] d = true := by
      simp only [dopantSchema, Schema.valid, Bool.and_eq_true] at h
      exact h.1.1.2
    have hindex := propertiesValid_iff.mp hprops _ List.mem_cons_self v hv
    cases v with
    | num q => exact ⟨q,rfl⟩
    | _ => simp [Schema.integer, Schema.ofType, Schema.valid, JsonType.holds] at hindex
  | _ => simp [dopantSchema, Schema.valid, JsonType.holds] at h

/-- The substitution that is parsed from an entry is the one that it asks for. -/
theorem parseDopant_entry (hback : ReadsBack ase) {entry : Json} {spec : Text} {d : Dopant}
    (hvalid : dopantSchema.valid entry = true) (hspec : ase.dopantSpec entry = .ok spec)
    (h : ase.parseDopant spec = .ok d) :
    d.element = strip (askedElement ase entry) ∧ (d.index : ℚ) = askedIndex entry := by
  have hzero : readInt ase.unicode ['0'] = some 0 := rfl
  obtain ⟨s,rfl⟩ | ⟨fields,rfl,hindex⟩ := valid_entry hvalid
  · cases hspec
    obtain ⟨helement,hread⟩ : d.element = strip s.toList ∧ readInt ase.unicode ['0'] = some d.index :=
      parseDopant_spec h
    rw [hzero, Option.some.injEq] at hread
    exact ⟨helement,by rw [← hread]; rfl⟩
  · cases hspec
    obtain ⟨helement,hread⟩ := parseDopant_spec h
    refine ⟨helement,?_⟩
    cases hv : Dict.get? fields "index" with
    | none =>
      rw [hv, Option.map_none, Option.getD_none, hzero, Option.some.injEq] at hread
      rw [← hread, askedIndex, hv]
      rfl
    | some v =>
      obtain ⟨q,rfl⟩ := hindex v hv
      rw [hv, Option.map_some, Option.getD_some] at hread
      rw [askedIndex, hv]
      exact hback q d.index hread

theorem entries_valid {schema : Schema} (hschema : build2dTool.inputSchema = some schema) {args : Dict}
    (hvalid : schema.valid (.obj args) = true) :
    (∀ entry ∈ dopantEntries args, dopantSchema.valid entry = true) ∧
      ∀ specs, ase.dopantsArg args = .ok specs → (dopantEntries args).mapM ase.dopantSpec = .ok specs := by
  obtain rfl := Option.some.inj hschema
  obtain ⟨fields,hfields,hprops,-⟩ := record_valid_iff.mp hvalid
  obtain rfl := Json.obj.inj hfields
  have hdopants := hprops ("dopants",.listOf dopantSchema) (by simp)
  rw [dopantEntries, Ase.dopantsArg]
  cases hv : Dict.get? args "dopants" with
  | none => exact ⟨nofun,fun specs h => h⟩
  | some v =>
    have hlist := hdopants v hv
    cases v with
    | arr items =>
      refine ⟨fun entry hentry => ?_,fun specs h => h⟩
      simp only [Schema.listOf, Schema.valid, itemsValid, itemsIn, Bool.and_eq_true,
        List.all_eq_true] at hlist
      exact hlist.2 entry hentry
    | _ => simp [Schema.listOf, Schema.valid, JsonType.holds] at hlist

theorem parseDopant_entries (hback : ReadsBack ase) {entries : List Json} {specs : List Text}
    {ds : List Dopant} (hvalid : ∀ entry ∈ entries, dopantSchema.valid entry = true)
    (hspecs : List.Forall₂ (fun entry spec => ase.dopantSpec entry = .ok spec) entries specs)
    (hparsed : List.Forall₂ (fun spec d => ase.parseDopant spec = .ok d) specs ds) :
    List.Forall₂ (fun entry d => d.element = strip (askedElement ase entry) ∧
        (d.index : ℚ) = askedIndex entry)
      entries ds := by
  induction hspecs generalizing ds with
  | nil =>
    cases hparsed
    exact .nil
  | cons hspec _ ih =>
    rw [List.forall_mem_cons] at hvalid
    cases hparsed with
    | cons hd hrest => exact .cons (parseDopant_entry hback hvalid.1 hspec hd) (ih hvalid.2 hrest)

/-- The substitutions of a call, entry by entry. -/
theorem substitutions_entries (hback : ReadsBack ase) {schema : Schema}
    (hschema : build2dTool.inputSchema = some schema) {args : Dict} (hvalid : schema.valid (.obj args) = true)
    {ds : List Dopant} (h : substitutions ase args = .ok ds) :
    List.Forall₂ (fun entry d => d.element = strip (askedElement ase entry) ∧
        (d.index : ℚ) = askedIndex entry)
      (dopantEntries args) ds := by
  obtain ⟨hentries,hspecs⟩ := @entries_valid ase _ hschema _ hvalid
  obtain ⟨specs,hdopants,hparse⟩ := bind_eq_ok.mp h
  exact parseDopant_entries hback hentries (mapM_eq_ok_iff.mp (hspecs specs hdopants)) (mapM_eq_ok_iff.mp hparse)

end Parsing

section Writes
variable {ase : Ase}

@[simp] theorem symbols_setSymbol (x : Atoms) (i : ℕ) (symbol : Text) :
    (x.setSymbol i symbol).symbols = x.symbols.set i symbol := by
  refine List.ext_getElem? fun j => ?_
  by_cases hj : i = j
  · subst hj
    by_cases hi : i < x.sites.length
    · simp [Atoms.symbols, Atoms.setSymbol, hi]
    · simp [Atoms.symbols, Atoms.setSymbol, hi]
  · simp [Atoms.symbols, Atoms.setSymbol, List.getElem?_set_ne hj, hj]

theorem substitute_symbols {x y : Atoms} {index : ℤ} {element : Text}
    (h : ase.substitute x index element = .ok y) : ∃ (i : ℕ) (symbol : Text), index = i ∧
      ase.readSymbol element = .ok symbol ∧ i < x.symbols.length ∧ y.symbols = x.symbols.set i symbol := by
  unfold Ase.substitute at h
  split_ifs at h with hrange
  cases hread : ase.readSymbol element with
  | error message =>
    rw [hread] at h
    cases h
  | ok symbol =>
    rw [hread] at h
    cases h
    refine ⟨index.toNat,symbol,(Int.toNat_of_nonneg hrange.1).symm,rfl,?_,symbols_setSymbol _ _ _⟩
    rw [Atoms.symbols, List.length_map]
    omega

/-- The loop over the dopants writes to the symbols. -/
theorem substituteAll_symbols {x y : Atoms} {ds : List Dopant} (h : ase.substituteAll x ds = .ok y) :
    ∃ ws : List (ℕ × Text),
      List.Forall₂ (fun d w => ase.readSymbol d.element = .ok w.2 ∧ d.index = w.1) ds ws ∧
      (∀ w ∈ ws, w.1 < x.symbols.length) ∧ y.symbols = writeAll ws x.symbols := by
  induction ds generalizing x with
  | nil =>
    cases h
    exact ⟨[],.nil,nofun,rfl⟩
  | cons d ds ih =>
    rw [Ase.substituteAll, List.foldlM_cons] at h
    obtain ⟨z,hz,h⟩ := bind_eq_ok.mp h
    obtain ⟨i,symbol,hi,hread,hlt,hsymbols⟩ := substitute_symbols hz
    obtain ⟨ws,hws,hrange,hy⟩ := ih h
    rw [hsymbols, List.length_set] at hrange
    refine ⟨(i,symbol) :: ws,.cons ⟨hread,hi⟩ hws,List.forall_mem_cons.mpr ⟨hlt,hrange⟩,?_⟩
    rw [hy, hsymbols]
    rfl

/-- The adsorbate comes after the atoms of the lattice. -/
theorem adsorb2d_symbols {b : Ase.Build2d} {y z : Atoms} (h : ase.adsorb2d b y = .ok z) :
    z.symbols = y.symbols ++ b.adsorbate.toList.map Adsorbate.element := by
  unfold Ase.adsorb2d at h
  cases hads : b.adsorbate with
  | none =>
    rw [hads] at h
    cases h
    simp
  | some ads =>
    rw [hads] at h
    simp only [Ase.addAdsorbate] at h
    split_ifs at h
    · obtain ⟨sites,-,h⟩ := bind_eq_ok.mp h
      cases h
    · obtain ⟨sites,-,h⟩ := bind_eq_ok.mp h
      obtain ⟨-,-,h⟩ := bind_eq_ok.mp h
      cases h
      simp [Atoms.symbols, Atoms.append]

theorem build2d_symbols {b : Ase.Build2d} {r : BuildResult} (h : ase.build2d b = .ok r) :
    ∃ x parts, ase.lattice2d b = .ok (x,parts) ∧ ∃ ws : List (ℕ × Text),
      List.Forall₂ (fun d w => ase.readSymbol d.element = .ok w.2 ∧ d.index = w.1) b.dopants ws ∧
      (∀ w ∈ ws, w.1 < x.symbols.length) ∧
      r.atoms.symbols = writeAll ws x.symbols ++ b.adsorbate.toList.map Adsorbate.element := by
  simp only [Ase.build2d, bind_eq_ok] at h
  obtain ⟨⟨x,parts⟩,hlattice,y,hy,-,-,sites,-,z,hz,h⟩ := h
  cases h
  obtain ⟨ws,hws,hrange,hsymbols⟩ := substituteAll_symbols hy
  exact ⟨x,parts,hlattice,ws,hws,hrange,by rw [adsorb2d_symbols hz, hsymbols]⟩

end Writes

section Calls
variable {ase : Ase} {schema : Schema} {args : Dict} {r : BuildResult}

/-- The lattice of a call before its substitutions. -/
def latticeOf (ase : Ase) (args : Dict) : Except BuildError Atoms := do
  let kind ← ase.textArg args "kind" "graphene"
  let supercell ← ase.textArg args "supercell" "1x1"
  let vacancy ← ase.vacancyArg args
  let vacuum ← ase.numberArg args "vacuum" 15
  let (x,_) ← ase.lattice2d
    { kind := kind, supercell := supercell, vacancyIndex := vacancy, vacuum := vacuum }
  return x

def adsorbateOf (ase : Ase) (args : Dict) : Except BuildError (Option Adsorbate) := do
  let adsorb ← ase.adsorbArg args
  (adsorb.filter (· ≠ [])).mapM ase.parseAdsorb

/-- A call that builds a structure writes its requests to the symbols of its lattice. -/
structure Built (ase : Ase) (args : Dict) (r : BuildResult) (x : Atoms) (ads : Option Adsorbate) : Prop where
  lattice : latticeOf ase args = .ok x
  adsorbate : adsorbateOf ase args = .ok ads
  substitutions : ∃ ds, substitutions ase args = .ok ds ∧
    ds.map (fun d => (d.index : ℚ)) = (dopantEntries args).map askedIndex
  places : (requestedWrites ase args).map (fun w => (w.1 : ℚ)) = (dopantEntries args).map askedIndex
  symbols : (requestedWrites ase args).map Prod.snd = requested ase args
  range : ∀ w ∈ requestedWrites ase args, w.1 < x.symbols.length
  result : r.atoms.symbols = writeAll (requestedWrites ase args) x.symbols ++ ads.toList.map Adsorbate.element

/-- Where each entry is written, the writes are those that the entries ask for. -/
theorem writes_entries {entries : List Json} {ds : List Dopant} {ws : List (ℕ × Text)}
    (hentries : List.Forall₂ (fun entry d => d.element = strip (askedElement ase entry) ∧
      (d.index : ℚ) = askedIndex entry) entries ds)
    (hws : List.Forall₂ (fun d w => ase.readSymbol d.element = .ok w.2 ∧ d.index = w.1) ds ws) :
    (entries.filterMap fun entry =>
        (askedSymbol ase entry).map fun s => ((askedIndex entry).num.toNat,s)) = ws ∧
      entries.filterMap (askedSymbol ase) = ws.map Prod.snd ∧
      ds.map (fun d => (d.index : ℚ)) = entries.map askedIndex ∧
      ws.map (fun w => (w.1 : ℚ)) = entries.map askedIndex := by
  induction hentries generalizing ws with
  | nil =>
    cases hws
    exact ⟨rfl,rfl,rfl,rfl⟩
  | @cons entry d entries ds hentry _ ih =>
    cases hws with
    | @cons _ w _ ws hw hrest =>
      obtain ⟨hwrites,hsymbols,hds,hplaces⟩ := ih hrest
      have hsymbol : askedSymbol ase entry = some w.2 := by
        rw [askedSymbol, ← hentry.1, hw.1]
        rfl
      have hindex : askedIndex entry = (w.1 : ℚ) := by
        rw [← hentry.2, hw.2, Int.cast_natCast]
      refine ⟨?_,?_,?_,?_⟩
      · rw [List.filterMap_cons, hsymbol, hindex, hwrites]
        simp
      · rw [List.filterMap_cons, hsymbol, hsymbols, List.map_cons]
      · rw [List.map_cons, List.map_cons, hds, hentry.2]
      · rw [List.map_cons, List.map_cons, hplaces, hindex]

theorem built_of_ok (hback : ReadsBack ase) (hschema : build2dTool.inputSchema = some schema)
    (hvalid : schema.valid (.obj args) = true) (h : ase.structureBuild2d args = .ok r) :
    ∃ x ads, Built ase args r x ads := by
  simp only [Ase.structureBuild2d, Ase.cmdStructureBuild2d, bind_eq_ok] at h
  obtain ⟨specs,hspecs,kind,hkind,supercell,hsupercell,vacancy,hvacancy,adsorb,hadsorb,height,-,vacuum,
    hvacuum,ds,hds,ads,hads,hbuild⟩ := h
  have hsubst : substitutions ase args = .ok ds := bind_eq_ok.mpr ⟨specs,hspecs,hds⟩
  obtain ⟨x,parts,hlattice,ws,hws,hrange,hresult⟩ := build2d_symbols hbuild
  obtain ⟨hwrites,hsymbols,hindices,hplaces⟩ :=
    writes_entries (substitutions_entries hback hschema hvalid hsubst) hws
  rw [← hwrites] at hrange hresult hsymbols hplaces
  refine ⟨x,ads,?_,bind_eq_ok.mpr ⟨adsorb,hadsorb,hads⟩,⟨ds,hsubst,hindices⟩,hplaces,hsymbols.symm,hrange,
    hresult⟩
  simp only [latticeOf, bind_eq_ok]
  exact ⟨kind,hkind,supercell,hsupercell,vacancy,hvacancy,vacuum,hvacuum,(x,parts),hlattice,rfl⟩

/-- The structure has as many atoms of a symbol as were requested just where the lattice and the
adsorbate make up for the requests that a later one overwrites. -/
theorem requested_le_iff {x : Atoms} {ads : Option Adsorbate} (h : Built ase args r x ads) (symbol : Text) :
    (requested ase args).count symbol ≤ r.atoms.symbols.count symbol ↔
      ((overwritten (requestedWrites ase args)).map Prod.snd).count symbol ≤
        untouched (requestedWrites ase args) x.symbols symbol +
          (ads.toList.map Adsorbate.element).count symbol := by
  rw [← h.symbols, h.result, List.count_append]
  exact count_writes_le_iff h.range symbol _

/-- The requested dopants are present, each on an atom of its own, exactly if the indices that the
entries ask for differ. -/
theorem dopants_present_iff (hback : ReadsBack ase) (hschema : build2dTool.inputSchema = some schema)
    (hvalid : schema.valid (.obj args) = true) (hrun : ase.structureBuild2d args = .ok r) :
    DopantsPresent ase args r ↔ ((dopantEntries args).map askedIndex).Nodup := by
  obtain ⟨x,ads,h⟩ := built_of_ok hback hschema hvalid hrun
  obtain ⟨ds,hds,hindices⟩ := h.substitutions
  have hnodup : ((dopantEntries args).map askedIndex).Nodup ↔ (ds.map Dopant.index).Nodup := by
    rw [← hindices, ← List.nodup_map_iff (Int.cast_injective (α := ℚ)), List.map_map]
    rfl
  constructor
  · intro hpresent
    exact hnodup.mpr (hpresent.apart ds hds)
  · intro hdistinct
    refine ⟨fun symbol => ?_,fun es hes => ?_⟩
    · have hplaces : ((requestedWrites ase args).map Prod.fst).Nodup := by
        rw [← List.nodup_map_iff (Nat.cast_injective (R := ℚ)), List.map_map]
        exact h.places ▸ hdistinct
      rw [requested_le_iff h, overwritten_eq_nil_iff.mpr hplaces]
      exact Nat.zero_le _
    · rw [hds] at hes
      cases hes
      exact hnodup.mp hdistinct

end Calls

section Samples

local instance sampleAxes : NeZero 3 := ⟨Nat.succ_ne_zero 2⟩

/-- The translations along the periodic axes, up to a reach. -/
def images (reach : ℕ) (x : Atoms) : List Translation :=
  let along (i : Fin 3) : List ℤ :=
    if x.pbc i then (List.range (2 * reach + 1)).map fun k => (k : ℤ) - reach else [0]
  (along 0).flatMap fun a => (along 1).flatMap fun b => (along 2).map fun c => ![a,b,c]

/-- The neighbour list of a cell over which the reach goes beyond the cutoff. -/
def imagesWithin (reach : ℕ) (x : Atoms) (cutoff : ℚ) : List (ℕ × ℕ × Vector3) :=
  let atoms := List.range x.sites.length
  atoms.flatMap fun i => atoms.flatMap fun j => (images reach x).filterMap fun o =>
    let v : Vector3 := x.position j + translate x.cell o - x.position i
    if 0 < normSq v ∧ normSq v < cutoff ^ 2 then some (i,j,v) else none

def sampleNumbers : List (Text × ℕ) :=
  [(['B'],5),(['C'],6),(['N'],7),(['F'],9),(['C','l'],17),(['R','b'],37),(['C','s'],55)]

def cesiumChlorideCell : Atoms where
  sites := [⟨['C','s'],![0,0,0]⟩,⟨['C','l'],![2071849/1000000,2071849/1000000,2071849/1000000]⟩]
  cell := ![![4143698/1000000,0,0],![0,4143698/1000000,0],![0,0,4143698/1000000]]
  pbc := fun _ => true

/-- Libraries that know a sheet of graphene and a crystal of cesium chloride. -/
def sampleAse : Ase where
  unicode := {}
  readSymbol t := if (sampleNumbers.lookup t).isSome then .ok t else .error "KeyError"
  atomicNumber t := sampleNumbers.lookup t
  graphene a :=
    { sites := [⟨['C'],![0,0,0]⟩,⟨['C'],![a / 2,a * (17320508/10000000) / 6,0]⟩]
      cell := ![![a,0,0],![-a / 2,a * (17320508/10000000) / 2,0],![0,0,0]]
      pbc := ![true,true,false] }
  center vacuum x :=
    { x with sites := x.sites.map fun s => ⟨s.symbol,![s.position 0,s.position 1,vacuum]⟩
             cell := ![x.cell 0,x.cell 1,![0,0,2 * vacuum]] }
  makeSupercell x _ := x
  neighborList x := imagesWithin (if x.pbc 2 then 2 else 3) x
  root _ := 17320508/10000000
  fileExists _ := false
  readStructure _ := .error "FileNotFoundError"
  buildAtoms key := if key = ['C','s','C','l'] then some (.ok cesiumChlorideCell) else none
  formulaAtoms _ := .error "ValueError"
  repr := String.ofList
  str
    | .num q => if q = 0 then ['0'] else if q = 1 then ['1'] else ['.']
    | _ => []
  fixed _ := toString
  wrongValue := "TypeError"

theorem sampleAse_readsBack : ReadsBack sampleAse := by
  intro q n h
  have hread : readInt {} (if q = 0 then ['0'] else if q = 1 then ['1'] else ['.']) = some n := h
  split_ifs at hread with hzero hone
  · have hn : some (0 : ℤ) = some n := hread
    rw [hzero, ← Option.some.inj hn]
    rfl
  · have hn : some (1 : ℤ) = some n := hread
    rw [hone, ← Option.some.inj hn]
    rfl
  · have hn : (none : Option ℤ) = some n := hread
    cases hn

/-- The symbols of the structure that is built. -/
def builtSymbols (result : Except BuildError BuildResult) : Except BuildError (List Text) :=
  result.map fun r => r.atoms.symbols

theorem exists_of_builtSymbols {result : Except BuildError BuildResult} {symbols : List Text}
    (h : builtSymbols result = .ok symbols) : ∃ r, result = .ok r ∧ r.atoms.symbols = symbols := by
  cases result with
  | error e => cases h
  | ok r => exact ⟨r,rfl,Except.ok.inj h⟩

/-- Graphene that is doped at two atoms. -/
def apartCall : Dict :=
  [("kind",.str "graphene"),("dopants",.arr [.str "N",.obj [("element",.str "B"),("index",.num 1)]])]

/-- Graphene for which two elements are named. -/
def twoNamesCall : Dict := [("kind",.str "graphene"),("dopants",.arr [.str "N",.str "B"])]

theorem apartCall_built : ∃ r, sampleAse.structureBuild2d apartCall = .ok r ∧
    r.atoms.symbols = [['N'],['B']] :=
  exists_of_builtSymbols (by decide +kernel)

theorem apart_dopants_present : ∃ r, sampleAse.structureBuild2d apartCall = .ok r ∧
    DopantsPresent sampleAse apartCall r := by
  obtain ⟨r,hrun,-⟩ := apartCall_built
  exact ⟨r,hrun,(dopants_present_iff sampleAse_readsBack rfl (by decide) hrun).mpr (by decide)⟩

/-- Of two elements that are only named, the second is put in the place of the first. -/
theorem named_dopant_lost : ∃ schema r, build2dTool.inputSchema = some schema ∧
    schema.valid (.obj twoNamesCall) = true ∧ sampleAse.structureBuild2d twoNamesCall = .ok r ∧
      ¬ DopantsPresent sampleAse twoNamesCall r := by
  obtain ⟨r,hrun,hsymbols⟩ : ∃ r, sampleAse.structureBuild2d twoNamesCall = .ok r ∧
      r.atoms.symbols = [['B'],['C']] := exists_of_builtSymbols (by decide +kernel)
  refine ⟨_,r,rfl,by decide,hrun,fun h => ?_⟩
  have hcount := h.count ['N']
  rw [hsymbols] at hcount
  exact absurd hcount (by decide)

end Samples
end DftForge.Structure
