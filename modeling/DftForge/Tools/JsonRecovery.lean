import DftForge.Library.JsonGrammar
import DftForge.Tools.CallCmd

/-! # The objects in a polluted output

`_balanced_json_objects` on JSON objects with other text between them. Outside of the
objects the scanner still follows quotes, so it finds the objects exactly when the text
before each of them closes the strings it opens.
-/
namespace DftForge.Tools
open DftForge.Library.JsonGrammar DftForge.Runtime DftForge.Python

/-- Text that the scanner takes for nothing but strings and other characters. -/
def Noise (t : Text) : Prop := ∀ c ∈ t, c ≠ '\x7b' ∧ c ≠ '\x7d'

/-- Objects, each with the noise before it, and the noise after the last. -/
structure Output where
  pieces : List (Text × Text)
  tail : Text
  noise : ∀ piece ∈ pieces, Noise piece.1
  objects : ∀ piece ∈ pieces, Object piece.2
  tail_noise : Noise tail

namespace Output

def text (o : Output) : Text := (o.pieces.flatMap fun piece => piece.1 ++ piece.2) ++ o.tail

/-- The texts of the objects, in order. -/
def own (o : Output) : List Text := o.pieces.map (·.2)

end Output

/-- One character outside of the objects: whether a string is open, and whether it has just
seen a backslash. -/
def quoteStep (s : Bool × Bool) (c : Char) : Bool × Bool :=
  if s.1 then
    if s.2 then (true,false)
    else if c = '\\' then (true,true)
    else if c = '"' then (false,false)
    else (true,false)
  else (c = '"',s.2)

/-- The strings that the text opens are closed in it. -/
def Closed (t : Text) : Prop := (t.foldl quoteStep (false,false)).1 = false

instance (t : Text) : Decidable (Closed t) := inferInstanceAs (Decidable (_ = false))

/-- The scanner between two objects. -/
def between (s : Bool × Bool) (objects : List Text) : Scan := ⟨0,none,s.1,s.2,objects⟩

/-- The scanner inside an object, with the text read so far. -/
def within (depth : ℕ) (chunk : Text) (objects : List Text) : Scan :=
  ⟨depth + 1,some chunk.reverse,false,false,objects⟩

section Inside

/-- Inside an object the text is read without a change of depth, and no string stays open. -/
def Passes (t : Text) : Prop :=
  ∀ depth chunk objects, t.foldl Scan.next (within depth chunk objects) = within depth (chunk ++ t) objects

variable {s t : Text} {c : Char}

theorem Passes.nil : Passes [] := fun depth chunk objects => by simp

theorem Passes.append (hs : Passes s) (ht : Passes t) : Passes (s ++ t) := by
  intro depth chunk objects
  rw [List.foldl_append,hs,ht,List.append_assoc]

theorem Passes.one (hq : c ≠ '"') (hopen : c ≠ '\x7b') (hclose : c ≠ '\x7d') : Passes [c] := by
  intro depth chunk objects
  have hopen' : c ≠ Char.ofNat 0x7b := hopen
  have hclose' : c ≠ Char.ofNat 0x7d := hclose
  simp [within,Scan.next,hq,hopen',hclose']

theorem Passes.cons (hq : c ≠ '"') (hopen : c ≠ '\x7b') (hclose : c ≠ '\x7d') (ht : Passes t) :
    Passes (c :: t) := (Passes.one hq hopen hclose).append ht

theorem Passes.of_forall (h : ∀ c ∈ t, c ≠ '"' ∧ c ≠ '\x7b' ∧ c ≠ '\x7d') : Passes t := by
  induction t with
  | nil => exact .nil
  | cons c t ih =>
    rw [List.forall_mem_cons] at h
    exact .cons h.1.1 h.1.2.1 h.1.2.2 (ih h.2)

/-- The scanner inside a string of an object. -/
def inString (depth : ℕ) (chunk : Text) (objects : List Text) : Scan :=
  ⟨depth + 1,some chunk.reverse,true,false,objects⟩

theorem next_inString {depth : ℕ} {chunk : Text} {objects : List Text} (hq : c ≠ '"') (hb : c ≠ '\\') :
    Scan.next (inString depth chunk objects) c = inString depth (chunk ++ [c]) objects := by
  simp [Scan.next,inString,hq,hb]

theorem next_escaped {depth : ℕ} {chunk : Text} {objects : List Text} :
    Scan.next (Scan.next (inString depth chunk objects) '\\') c =
      inString depth (chunk ++ ['\\',c]) objects := by
  simp [Scan.next,inString]

theorem plain_of_isHex (h : IsHex c) : c ≠ '"' ∧ c ≠ '\\' := by
  constructor <;> rintro rfl <;> revert h <;> unfold IsHex <;> decide

theorem foldl_stringBody {body : Text} (h : StringBody body) (depth : ℕ) (chunk : Text)
    (objects : List Text) :
    body.foldl Scan.next (inString depth chunk objects) = inString depth (chunk ++ body) objects := by
  induction h generalizing chunk with
  | nil => simp
  | plain hq hb _ _ ih => rw [List.foldl_cons,next_inString hq hb,ih,List.append_assoc]; rfl
  | escaped _ _ ih => rw [List.foldl_cons,List.foldl_cons,next_escaped,ih,List.append_assoc]; rfl
  | unicode hp hq hr hs _ ih =>
    simp only [List.foldl_cons]
    rw [next_escaped,next_inString (plain_of_isHex hp).1 (plain_of_isHex hp).2,
      next_inString (plain_of_isHex hq).1 (plain_of_isHex hq).2,
      next_inString (plain_of_isHex hr).1 (plain_of_isHex hr).2,
      next_inString (plain_of_isHex hs).1 (plain_of_isHex hs).2,ih]
    simp only [List.append_assoc]
    rfl

theorem Passes.quoted {body : Text} (h : StringBody body) : Passes (quoted body) := by
  intro depth chunk objects
  have hopen : Scan.next (within depth chunk objects) '"' = inString depth (chunk ++ ['"']) objects := by
    simp [Scan.next,within,inString]
  rw [Library.JsonGrammar.quoted,List.foldl_cons,hopen,List.foldl_append,foldl_stringBody h]
  simp [Scan.next,within,inString]

theorem Passes.braces (ht : Passes t) : Passes ('\x7b' :: (t ++ ['\x7d'])) := by
  intro depth chunk objects
  have hopen : Scan.next (within depth chunk objects) '\x7b' =
      within (depth + 1) (chunk ++ ['\x7b']) objects := by
    simp [Scan.next,Scan.opening,within]
  rw [List.foldl_cons,hopen,List.foldl_append,ht]
  simp [Scan.next,Scan.closing,within]

theorem Passes.brackets (ht : Passes t) : Passes ('[' :: (t ++ [']'])) :=
  .cons (by decide) (by decide) (by decide) (.append ht (.one (by decide) (by decide) (by decide)))

theorem Passes.blank (h : Blank t) : Passes t := by
  refine .of_forall fun c hc => ?_
  have hmem := h c hc
  refine ⟨?_,?_,?_⟩ <;> rintro rfl <;> revert hmem <;> decide

theorem Passes.digits (h : Digits t) : Passes t := by
  refine .of_forall fun c hc => ?_
  have hdigit := h.2 c hc
  refine ⟨?_,?_,?_⟩ <;> rintro rfl <;> revert hdigit <;> decide

theorem Passes.number (h : Number t) : Passes t := by
  obtain ⟨sign,whole,fraction,exponent,hsign,hwhole,-,hfraction,hexponent,rfl⟩ := h
  have hsigns : ∀ sign ∈ [[],['+'],['-']], Passes sign := by
    intro sign hsign
    refine .of_forall fun c hc => ?_
    simp only [List.mem_cons,List.not_mem_nil,or_false] at hsign
    rcases hsign with rfl | rfl | rfl <;> simp at hc <;> subst hc <;> decide
  have hmem : sign ∈ [[],['+'],['-']] := by
    simp only [List.mem_cons] at hsign ⊢
    tauto
  refine .append (hsigns sign hmem) (.append (.digits hwhole) (.append ?_ ?_))
  · obtain rfl | ⟨ds,hds,rfl⟩ := hfraction
    · exact .nil
    · exact .cons (by decide) (by decide) (by decide) (.digits hds)
  · obtain rfl | ⟨e,sign,ds,he,hsign,hds,rfl⟩ := hexponent
    · exact .nil
    · obtain rfl | rfl := he <;>
        exact .cons (by decide) (by decide) (by decide) (.append (hsigns sign hsign) (.digits hds))

/-- Whatever the grammar derives is read inside an object without a change of depth. -/
theorem Passes.derives {part : Part} (h : Derives part t) : Passes t := by
  induction h with
  | literal h =>
    have hall : ∀ t ∈ literals, ∀ c ∈ t, c ≠ '"' ∧ c ≠ '\x7b' ∧ c ≠ '\x7d' := by simp [literals]
    exact .of_forall (hall _ h)
  | number h => exact .number h
  | string h => exact .quoted h
  | emptyArray h => exact .brackets (.blank h)
  | array _ ih => exact .brackets ih
  | emptyObject h => exact .braces (.blank h)
  | object _ ih => exact .braces ih
  | element ha _ hb ih => exact .append (.blank ha) (.append ih (.blank hb))
  | elements _ _ ih ih' => exact .append ih (.cons (by decide) (by decide) (by decide) ih')
  | member ha hkey hb hc _ hd ih =>
    exact .append (.blank ha) (.append (.quoted hkey) (.append (.blank hb)
      (.cons (by decide) (by decide) (by decide) (.append (.blank hc) (.append ih (.blank hd))))))
  | members _ _ ih ih' => exact .append ih (.cons (by decide) (by decide) (by decide) ih')

end Inside

section Outside
variable {t : Text} {objects : List Text}

theorem foldl_object (h : Object t) :
    t.foldl Scan.next (between (false,false) objects) = between (false,false) (objects ++ [t]) := by
  obtain ⟨body,hbody,rfl⟩ : ∃ body, Passes body ∧ t = '\x7b' :: (body ++ ['\x7d']) := by
    obtain ⟨w,hw,rfl⟩ | ⟨ms,hms,rfl⟩ := h
    · exact ⟨w,.blank hw,rfl⟩
    · exact ⟨ms,.derives hms,rfl⟩
  have hopen : Scan.next (between (false,false) objects) '\x7b' = within 0 ['\x7b'] objects := by
    simp [Scan.next,Scan.opening,between,within]
  rw [List.foldl_cons,hopen,List.foldl_append,hbody]
  simp [Scan.next,Scan.closing,between,within]

theorem next_noise {c : Char} (hopen : c ≠ '\x7b') (hclose : c ≠ '\x7d') (s : Bool × Bool) :
    Scan.next (between s objects) c = between (quoteStep s c) objects := by
  have hopen' : c ≠ Char.ofNat 0x7b := hopen
  have hclose' : c ≠ Char.ofNat 0x7d := hclose
  obtain ⟨inStr,escape⟩ := s
  cases inStr with
  | false => by_cases hq : c = '"' <;> simp [Scan.next,between,quoteStep,hq,hopen',hclose']
  | true =>
    cases escape with
    | true => simp [Scan.next,between,quoteStep]
    | false => by_cases hb : c = '\\' <;> by_cases hq : c = '"' <;> simp [Scan.next,between,quoteStep,hb,hq]

theorem foldl_noise (h : Noise t) (s : Bool × Bool) :
    t.foldl Scan.next (between s objects) = between (t.foldl quoteStep s) objects := by
  induction t generalizing s with
  | nil => rfl
  | cons c t ih =>
    rw [Noise,List.forall_mem_cons] at h
    rw [List.foldl_cons,List.foldl_cons,next_noise h.1.1 h.1.2,ih h.2]

/-- No backslash is pending outside of a string. -/
theorem foldl_quoteStep_escape (t : Text) {s : Bool × Bool} (h : s.1 = false → s.2 = false) :
    (t.foldl quoteStep s).1 = false → (t.foldl quoteStep s).2 = false := by
  induction t generalizing s with
  | nil => exact h
  | cons c t ih =>
    rw [List.foldl_cons]
    apply ih
    unfold quoteStep
    split_ifs <;> simp_all

theorem foldl_quoteStep_of_closed (h : Closed t) : t.foldl quoteStep (false,false) = (false,false) :=
  Prod.ext h (foldl_quoteStep_escape t (fun _ => rfl) h)

end Outside

section Braces

def braces (t : Text) : ℕ := t.count '\x7b'

/-- The opening braces in the objects found and in the one begun. -/
def found (s : Scan) : ℕ := (s.objects.map braces).sum + braces (s.chunk.getD [])

theorem braces_cons (c : Char) (t : Text) : braces (c :: t) = braces [c] + braces t := by
  rw [← List.singleton_append,braces,List.count_append]
  rfl

theorem found_pushed (s : Scan) (c : Char) :
    found { s with chunk := s.chunk.map (c :: ·) } ≤ found s + braces [c] := by
  unfold found
  cases s.chunk with
  | none => exact Nat.le_add_right _ _
  | some t =>
    have hcount := braces_cons c t
    simp only [Option.map_some,Option.getD_some]
    omega

theorem found_closing (s : Scan) : found s.closing = found s := by
  unfold Scan.closing
  split
  · rfl
  · cases hchunk : s.chunk with
    | none => simp [found,hchunk,braces]
    | some t => simp [found,hchunk,braces]
  · rfl

/-- A step finds no more opening braces than it reads. -/
theorem found_next (s : Scan) (c : Char) : found (s.next c) ≤ found s + braces [c] := by
  have hpushed := found_pushed s c
  unfold Scan.next
  dsimp only
  split_ifs with hstr hescape hb hq hq' hopen hclose
  · exact hpushed
  · exact hpushed
  · exact hpushed
  · exact hpushed
  · exact hpushed
  · unfold Scan.opening
    by_cases hdepth : s.depth = 0
    · simp only [hdepth,if_true,found,Option.getD_some]
      omega
    · simp only [hdepth,if_false]
      exact hpushed
  · rw [found_closing]
    exact hpushed
  · exact hpushed

theorem found_foldl (t : Text) (s : Scan) : found (t.foldl Scan.next s) ≤ found s + braces t := by
  induction t generalizing s with
  | nil => exact Nat.le_refl _
  | cons c t ih =>
    have hstep := found_next s c
    have hrest := ih (s.next c)
    have hcount := braces_cons c t
    rw [List.foldl_cons]
    omega

theorem braces_noise {t : Text} (h : Noise t) : braces t = 0 :=
  List.count_eq_zero.mpr fun hmem => (h _ hmem).1 rfl

end Braces

section Outputs

/-- The text of some pieces. -/
def piecesText (pieces : List (Text × Text)) : Text := pieces.flatMap fun piece => piece.1 ++ piece.2

theorem foldl_piece {piece : Text × Text} (hnoise : Noise piece.1) (hobject : Object piece.2)
    (hclosed : Closed piece.1) (objects : List Text) :
    (piece.1 ++ piece.2).foldl Scan.next (between (false,false) objects) =
      between (false,false) (objects ++ [piece.2]) := by
  rw [List.foldl_append,foldl_noise hnoise,foldl_quoteStep_of_closed hclosed,foldl_object hobject]

theorem objects_between (h : Noise t) (s : Bool × Bool) (objects : List Text) :
    (t.foldl Scan.next (between s objects)).objects = objects := by
  rw [foldl_noise h]
  rfl

/-- Noise that closes its strings does not hide the objects. -/
theorem objects_of_closed {pieces : List (Text × Text)} {tail : Text} (htail : Noise tail)
    (hpieces : ∀ piece ∈ pieces, Noise piece.1 ∧ Object piece.2)
    (hclosed : ∀ piece ∈ pieces, Closed piece.1) (objects : List Text) :
    ((piecesText pieces ++ tail).foldl Scan.next (between (false,false) objects)).objects =
      objects ++ pieces.map (·.2) := by
  induction pieces generalizing objects with
  | nil =>
    rw [List.map_nil,List.append_nil]
    exact objects_between htail (false,false) objects
  | cons piece pieces ih =>
    rw [List.forall_mem_cons] at hpieces hclosed
    rw [piecesText,List.flatMap_cons,List.append_assoc,List.foldl_append,
      foldl_piece hpieces.1.1 hpieces.1.2 hclosed.1]
    refine (ih hpieces.2 hclosed.2 _).trans ?_
    rw [List.map_cons,List.append_assoc,List.singleton_append]

theorem braces_append (s t : Text) : braces (s ++ t) = braces s + braces t := List.count_append

/-- The opening braces of the pieces are those of their objects. -/
theorem braces_piecesText {pieces : List (Text × Text)} (hnoise : ∀ piece ∈ pieces, Noise piece.1) :
    braces (piecesText pieces) = ((pieces.map (·.2)).map braces).sum := by
  induction pieces with
  | nil => rfl
  | cons piece pieces ih =>
    rw [List.forall_mem_cons] at hnoise
    rw [piecesText,List.flatMap_cons,braces_append,braces_append,braces_noise hnoise.1,Nat.zero_add]
    rw [List.map_cons,List.map_cons,List.sum_cons]
    exact congrArg _ (ih hnoise.2)

/-- In an open string the first brace of an object is passed over. -/
theorem next_brace_inString (escape : Bool) (objects : List Text) :
    Scan.next (between (true,escape) objects) '\x7b' = between (true,false) objects := by
  cases escape <;> simp [Scan.next,between]

/-- Where the objects are found, all of them, the noise before each closes its strings: a
string left open hides the first brace of an object, and then there are too few. -/
theorem closed_of_objects {pieces : List (Text × Text)} {tail : Text} (htail : Noise tail)
    (hpieces : ∀ piece ∈ pieces, Noise piece.1 ∧ Object piece.2) (objects : List Text)
    (h : ((piecesText pieces ++ tail).foldl Scan.next (between (false,false) objects)).objects =
      objects ++ pieces.map (·.2)) : ∀ piece ∈ pieces, Closed piece.1 := by
  induction pieces generalizing objects with
  | nil => exact nofun
  | cons piece pieces ih =>
    have hall := hpieces
    rw [List.forall_mem_cons] at hpieces
    obtain ⟨⟨hnoise,hobject⟩,hrest⟩ := hpieces
    by_cases hclosed : Closed piece.1
    · rw [piecesText,List.flatMap_cons,List.append_assoc,List.foldl_append,
        foldl_piece hnoise hobject hclosed] at h
      refine List.forall_mem_cons.mpr ⟨hclosed,ih hrest (objects ++ [piece.2]) ?_⟩
      rw [List.append_assoc,List.singleton_append]
      exact h
    · exfalso
      obtain ⟨escape,hstate⟩ : ∃ escape, piece.1.foldl quoteStep (false,false) = (true,escape) := by
        refine ⟨_,Prod.ext ?_ rfl⟩
        simpa [Closed] using hclosed
      obtain ⟨body,hbody⟩ : ∃ body, piece.2 = '\x7b' :: body := by
        obtain ⟨w,-,hw⟩ | ⟨ms,-,hms⟩ := hobject
        · exact ⟨_,hw⟩
        · exact ⟨_,hms⟩
      have hnoises : ∀ piece ∈ pieces, Noise piece.1 := fun piece hp => (hrest piece hp).1
      rw [piecesText,List.flatMap_cons,List.append_assoc,List.append_assoc,List.foldl_append,
        foldl_noise hnoise,hstate,hbody,List.cons_append,List.foldl_cons,next_brace_inString] at h
      have hfound := found_foldl (body ++ (piecesText pieces ++ tail)) (between (true,false) objects)
      have hcount : braces piece.2 = braces body + 1 := by rw [hbody,braces,List.count_cons_self]; rfl
      rw [braces_append,braces_append,braces_noise htail,braces_piecesText hnoises] at hfound
      have hobjects : ((objects ++ (piece :: pieces).map (·.2)).map braces).sum =
          (objects.map braces).sum + (braces piece.2 + ((pieces.map (·.2)).map braces).sum) := by simp
      have hleast : ((objects ++ (piece :: pieces).map (·.2)).map braces).sum ≤
          found ((body ++ (piecesText pieces ++ tail)).foldl Scan.next (between (true,false) objects)) := by
        rw [← h]
        exact Nat.le_add_right _ _
      have hstart : found (between (true,false) objects) = (objects.map braces).sum := rfl
      omega

/-- The objects are found, all of them and nothing else, exactly when the noise before each
of them closes the strings it opens. -/
theorem balancedJsonObjects_iff (o : Output) :
    balancedJsonObjects o.text = o.own ↔ ∀ piece ∈ o.pieces, Closed piece.1 := by
  have hpieces : ∀ piece ∈ o.pieces, Noise piece.1 ∧ Object piece.2 :=
    fun piece hp => ⟨o.noise piece hp,o.objects piece hp⟩
  constructor
  · intro h
    exact closed_of_objects o.tail_noise hpieces [] h
  · intro h
    exact objects_of_closed o.tail_noise hpieces h []

end Outputs

section Payloads
variable (j : JsonText) (o : Output)

/-- The value of the largest of the objects, by the length of its compact text. -/
def ReturnsLargest : Prop :=
  ∃ piece ∈ o.pieces, ∃ d, j.loads piece.2 = some (.obj d) ∧ parsePayload j o.text = some (.obj d) ∧
    ∀ other ∈ o.pieces, ∀ v, j.loads other.2 = some v → (j.compact v).length ≤ (j.compact (.obj d)).length

/-- The objects are found, and the payload is the largest of them. -/
def Recovers : Prop := balancedJsonObjects o.text = o.own ∧ (o.pieces ≠ [] → ReturnsLargest j o)

variable {j} {o}

theorem strip_ne_nil_of_mem {t : Text} {c : Char} (hc : c ∈ t) (hspace : isSpace c = false) :
    strip t ≠ [] := by
  have hdrop (t : Text) (hc : c ∈ t) : c ∈ t.dropWhile isSpace := by
    rw [← List.takeWhile_append_dropWhile (p := isSpace) (l := t)] at hc
    refine (List.mem_append.mp hc).resolve_left fun hmem => ?_
    rw [List.mem_takeWhile_imp hmem] at hspace
    cases hspace
  have hmem := hdrop _ (List.mem_reverse.mpr (hdrop t hc))
  rw [strip]
  exact List.ne_nil_of_mem (List.mem_reverse.mpr hmem)

/-- A text with an object is not blank. -/
theorem strip_text_ne_nil (hne : o.pieces ≠ []) : strip o.text ≠ [] := by
  obtain ⟨piece,hpiece⟩ := List.exists_mem_of_ne_nil _ hne
  have hbrace : '\x7b' ∈ piece.2 := by
    obtain ⟨w,-,hw⟩ | ⟨ms,-,hms⟩ := o.objects piece hpiece
    · rw [hw]
      exact List.mem_cons_self
    · rw [hms]
      exact List.mem_cons_self
  have hmem : '\x7b' ∈ o.text :=
    List.mem_append_left _ (List.mem_flatMap.mpr ⟨piece,hpiece,List.mem_append_right _ hbrace⟩)
  exact strip_ne_nil_of_mem hmem (by decide)

theorem parsePayload_of_loads (hne : o.pieces ≠ []) {v : Json} (hv : j.loads o.text = some v)
    (hnull : v ≠ .null) : parsePayload j o.text = some v := by
  rw [parsePayload,if_neg (strip_text_ne_nil hne),hv]
  cases v with
  | null => exact absurd rfl hnull
  | _ => rfl

/-- A text that is no json gives the largest of the objects found in it. -/
theorem returnsLargest_of_own (hne : o.pieces ≠ []) (hwhole : j.loads o.text = none)
    (hown : balancedJsonObjects o.text = o.own)
    (hreads : ∀ piece ∈ o.pieces, ∃ d, j.loads piece.2 = some (.obj d)) : ReturnsLargest j o := by
  have hvalue {v : Json} : v ∈ o.own.filterMap j.loads ↔ ∃ piece ∈ o.pieces, j.loads piece.2 = some v := by
    simp [Output.own,List.mem_filterMap]
  obtain ⟨first,hfirst⟩ := List.exists_mem_of_ne_nil _ hne
  obtain ⟨d₀,hd₀⟩ := hreads first hfirst
  have hsome : largestObject j o.text ≠ none := by
    rw [largestObject,hown,Ne,List.argmax_eq_none]
    exact List.ne_nil_of_mem (hvalue.mpr ⟨first,hfirst,hd₀⟩)
  obtain ⟨v,hv⟩ := Option.ne_none_iff_exists'.mp hsome
  have hmax : v ∈ (o.own.filterMap j.loads).argmax fun o => (j.compact o).length := by
    rw [← hown]
    exact hv
  obtain ⟨piece,hpiece,hloads⟩ := hvalue.mp (List.argmax_mem hmax)
  obtain ⟨d,hd⟩ := hreads piece hpiece
  obtain rfl : v = .obj d := Option.some.inj (hloads.symm.trans hd)
  refine ⟨piece,hpiece,d,hd,?_,fun other hother w hw => ?_⟩
  · rw [parsePayload,if_neg (strip_text_ne_nil hne),hwhole,Option.orElse_none,hv]
  · exact @List.le_of_mem_argmax _ _ _ (fun o => (j.compact o).length) _ _ _
      (hvalue.mpr ⟨other,hother,hw⟩) hmax

/-- A text that is read as a dictionary is the text of an object with blanks around it, and
the blanks do not matter. -/
def ReadsObjects (j : JsonText) : Prop :=
  ∀ t d, j.loads t = some (.obj d) →
    ∃ before object after, Blank before ∧ Object object ∧ Blank after ∧ t = before ++ (object ++ after) ∧
      j.loads object = some (.obj d)

theorem noise_of_blank {t : Text} (h : Blank t) : Noise t := by
  intro c hc
  have hmem := h c hc
  constructor <;> rintro rfl <;> revert hmem <;> decide

theorem closed_of_blank {t : Text} (h : Blank t) : Closed t := by
  have hstay : ∀ c ∈ t, quoteStep (false,false) c = (false,false) := by
    intro c hc
    have hmem := h c hc
    have hq : c ≠ '"' := by
      rintro rfl
      revert hmem
      decide
    simp [quoteStep,hq]
  have hfold : t.foldl quoteStep (false,false) = (false,false) := by
    clear h
    induction t with
    | nil => rfl
    | cons c t ih =>
      rw [List.forall_mem_cons] at hstay
      rw [List.foldl_cons,hstay.1,ih hstay.2]
  rw [Closed,hfold]

/-- An object with blanks around it. -/
def padded {before object after : Text} (hbefore : Blank before) (hobject : Object object)
    (hafter : Blank after) : Output where
  pieces := [(before,object)]
  tail := after
  noise := List.forall_mem_singleton.mpr (noise_of_blank hbefore)
  objects := List.forall_mem_singleton.mpr hobject
  tail_noise := noise_of_blank hafter

/-- A text that is an object as a whole has no other objects. -/
theorem own_of_loads_obj (hj : ReadsObjects j) (hown : balancedJsonObjects o.text = o.own) {d : Dict}
    (hd : j.loads o.text = some (.obj d)) : ∃ object, o.own = [object] ∧ j.loads object = some (.obj d) := by
  obtain ⟨before,object,after,hbefore,hobject,hafter,htext,hloads⟩ := hj o.text d hd
  have hpadded : balancedJsonObjects (padded hbefore hobject hafter).text = [object] :=
    (balancedJsonObjects_iff (padded hbefore hobject hafter)).mpr
      (List.forall_mem_singleton.mpr (closed_of_blank hbefore))
  have hsame : (padded hbefore hobject hafter).text = o.text := by
    rw [htext]
    simp [Output.text,padded]
  exact ⟨object,by rw [← hown,← hsame,hpadded],hloads⟩

theorem returnsLargest_of_loads_obj (hne : o.pieces ≠ []) (hj : ReadsObjects j)
    (hown : balancedJsonObjects o.text = o.own) {d : Dict} (hd : j.loads o.text = some (.obj d)) :
    ReturnsLargest j o := by
  obtain ⟨object,hobject,hloads⟩ := own_of_loads_obj hj hown hd
  have hsame : ∀ piece ∈ o.pieces, piece.2 = object := by
    intro piece hpiece
    have hmem : piece.2 ∈ o.own := List.mem_map_of_mem hpiece
    rw [hobject] at hmem
    exact List.mem_singleton.mp hmem
  obtain ⟨piece,hpiece⟩ := List.exists_mem_of_ne_nil _ hne
  refine ⟨piece,hpiece,d,?_,parsePayload_of_loads hne hd nofun,fun other hother v hv => ?_⟩
  · rw [hsame piece hpiece,hloads]
  · rw [hsame other hother,hloads] at hv
    rw [← Option.some.inj hv]

/-- With every string of the noise closed before the next object, the objects are found in
order. The payload is the largest of them, unless the whole text is the json of something else. -/
theorem objects_recovered (j : JsonText) (hj : ReadsObjects j) (o : Output)
    (hclosed : ∀ piece ∈ o.pieces, Closed piece.1)
    (hreads : ∀ piece ∈ o.pieces, ∃ d, j.loads piece.2 = some (.obj d)) :
    balancedJsonObjects o.text = o.own ∧
      (o.pieces ≠ [] →
        ((∀ v, j.loads o.text = some v → ∃ d, v = .obj d) → ReturnsLargest j o) ∧
        ∀ v, j.loads o.text = some v → v ≠ .null → parsePayload j o.text = some v) := by
  have hown := (balancedJsonObjects_iff o).mpr hclosed
  refine ⟨hown,fun hne => ⟨fun hobj => ?_,fun v hv hnull => parsePayload_of_loads hne hv hnull⟩⟩
  cases hwhole : j.loads o.text with
  | none => exact returnsLargest_of_own hne hwhole hown hreads
  | some v =>
    obtain ⟨d,rfl⟩ := hobj v hwhole
    exact returnsLargest_of_loads_obj hne hj hown hwhole

end Payloads

section Prints

theorem stringBody_letters {t : Text} (h : ∀ c ∈ t, c ≠ '"' ∧ c ≠ '\\' ∧ 32 ≤ c.toNat) : StringBody t := by
  induction t with
  | nil => exact .nil
  | cons c t ih =>
    rw [List.forall_mem_cons] at h
    exact .plain h.1.1 h.1.2.1 h.1.2.2 (ih h.2)

/-- An object with one member, with a blank after the colon. -/
def oneMember (key value : Text) : Text := '\x7b' :: (quoted key ++ ':' :: (' ' :: value) ++ ['\x7d'])

theorem object_oneMember {key value : Text} (hkey : StringBody key) (hvalue : Derives .value value) :
    Object (oneMember key value) := by
  have hblank : Blank [' '] := by simp [Blank]
  have hnil : Blank [] := nofun
  refine Or.inr ⟨_,.member hnil hkey hnil hblank hvalue hnil,?_⟩
  simp [oneMember]

/-- A debug print with an object in it, and a larger one with a brace in a string after it. -/
def printedTwice : Output where
  pieces :=
    [("debug \"1\" ".toList,oneMember ['a'] ['1']),
      ("\n".toList,oneMember "msg".toList (quoted "\x7d \x7b".toList))]
  tail := "\nDone.\n".toList
  noise := by
    rw [List.forall_mem_cons,List.forall_mem_singleton]
    simp [Noise]
  objects := by
    have hone : Number ['1'] :=
      ⟨[],['1'],[],[],by simp,⟨nofun,by simp⟩,nofun,.inl rfl,.inl rfl,rfl⟩
    rw [List.forall_mem_cons,List.forall_mem_singleton]
    exact ⟨object_oneMember (stringBody_letters (by simp)) (.number hone),
      object_oneMember (stringBody_letters (by simp)) (.string (stringBody_letters (by simp)))⟩
  tail_noise := by simp [Noise]

/-- `json` on two texts that it reads. -/
def readsTexts (first second : Text × Json) : JsonText where
  loads t := if t = first.1 then some first.2 else if t = second.1 then some second.2 else none
  dumps _ := []
  compact v := match v with
    | .obj [] => "\x7b\x7d".toList
    | .obj [(_,.num _)] => "\x7b\"a\": 1\x7d".toList
    | .obj _ => "\x7b\"msg\": \"\x7d \x7b\"\x7d".toList
    | _ => "[\x7b\x7d]".toList

theorem loads_first (first second : Text × Json) : (readsTexts first second).loads first.1 = some first.2 :=
  if_pos rfl

theorem loads_second {first second : Text × Json} (h : second.1 ≠ first.1) :
    (readsTexts first second).loads second.1 = some second.2 := (if_neg h).trans (if_pos rfl)

/-- `json` on the objects of `printedTwice`. -/
def printedJson : JsonText :=
  readsTexts (oneMember ['a'] ['1'],.obj [("a",.num 1)])
    (oneMember "msg".toList (quoted "\x7d \x7b".toList),.obj [("msg",.str "\x7d \x7b")])

theorem readsObjects_printed : ReadsObjects printedJson := by
  have hobject : ∀ piece ∈ printedTwice.pieces, Object piece.2 := printedTwice.objects
  have hnil : Blank [] := nofun
  intro t d h
  have hwhole : Object t := by
    unfold printedJson readsTexts at h
    dsimp only at h
    split_ifs at h with hfirst hsecond
    · rw [hfirst]
      exact hobject _ List.mem_cons_self
    · rw [hsecond]
      exact hobject _ (List.mem_cons_of_mem _ List.mem_cons_self)
  exact ⟨[],t,[],hnil,hwhole,hnil,by simp,h⟩

theorem objects_recovered_printed : balancedJsonObjects printedTwice.text = printedTwice.own ∧
    (printedTwice.pieces ≠ [] →
      ((∀ v, printedJson.loads printedTwice.text = some v → ∃ d, v = .obj d) →
        ReturnsLargest printedJson printedTwice) ∧
      ∀ v, printedJson.loads printedTwice.text = some v → v ≠ .null →
        parsePayload printedJson printedTwice.text = some v) := by
  refine objects_recovered printedJson readsObjects_printed printedTwice ?_ ?_
  · unfold printedTwice
    dsimp only
    rw [List.forall_mem_cons,List.forall_mem_singleton]
    decide
  · unfold printedTwice
    dsimp only
    rw [List.forall_mem_cons,List.forall_mem_singleton]
    have hne : oneMember "msg".toList (quoted "\x7d \x7b".toList) ≠ oneMember ['a'] ['1'] := by
      simp [oneMember,quoted]
    exact ⟨⟨_,loads_first _ _⟩,⟨_,loads_second hne⟩⟩

/-- An empty object after a bracket. -/
def bracketed : Output where
  pieces := [(['['],['\x7b','\x7d'])]
  tail := [']']
  noise := by simp [Noise]
  objects := by
    rw [List.forall_mem_singleton]
    exact .inl ⟨[],nofun,rfl⟩
  tail_noise := by simp [Noise]

/-- An empty object after a quote, as in the size 3.5". -/
def afterQuote : Output where
  pieces := [(['"'],['\x7b','\x7d'])]
  tail := []
  noise := by simp [Noise]
  objects := by
    rw [List.forall_mem_singleton]
    exact .inl ⟨[],nofun,rfl⟩
  tail_noise := nofun

def bracketedJson : JsonText :=
  readsTexts (['[','\x7b','\x7d',']'],.arr [.obj []]) (['\x7b','\x7d'],.obj [])

/-- The bracketed object is returned in its list, and the one after a quote is not found. -/
theorem bracketed_in_list :
    ¬ Recovers bracketedJson bracketed ∧ balancedJsonObjects afterQuote.text ≠ afterQuote.own := by
  refine ⟨fun ⟨_,hlargest⟩ => ?_,by decide⟩
  obtain ⟨piece,-,d,-,hpayload,-⟩ := hlargest (List.cons_ne_nil _ _)
  have hlist : parsePayload bracketedJson bracketed.text = some (.arr [.obj []]) :=
    parsePayload_of_loads (List.cons_ne_nil _ _) (loads_first _ _) nofun
  rw [hlist] at hpayload
  cases hpayload

end Prints

end DftForge.Tools
