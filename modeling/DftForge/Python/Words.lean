import DftForge.Python.Text

/-! # Splitting at white space

What `text.split()` makes of words with white space between them.
-/
namespace DftForge.Python
open DftForge.Runtime

/-- A word has characters, and none of them is white space. -/
def IsWordText (w : Text) : Prop := w ≠ [] ∧ ∀ c ∈ w, isSpace c = false

/-- The text is empty or goes on with white space. -/
def SpaceNext (t : Text) : Prop := ∀ c ∈ t.head?, isSpace c = true

theorem isSpace_digit {c : Char} (h : c.isDigit = true) : isSpace c = false := by
  have hrange : 48 ≤ c.toNat ∧ c.toNat ≤ 57 := by
    simpa [Char.isDigit,UInt32.le_iff_toNat_le] using h
  simp only [isSpace,Bool.or_eq_false_iff,Bool.and_eq_false_iff,decide_eq_false_iff_not]
  omega

@[simp] theorem words_nil : words [] = [] := rfl

theorem words_space {c : Char} (hc : isSpace c = true) (t : Text) : words (c :: t) = words t := by
  simp [words,List.splitOnP_cons_eq_if_modifyHead,hc]

theorem words_word {w t : Text} (hw : IsWordText w) (ht : SpaceNext t) : words (w ++ t) = w :: words t := by
  cases t with
  | nil =>
    rw [List.append_nil,words,List.splitOnP_eq_singleton hw.2]
    simp [hw.1]
  | cons c t =>
    have hc : isSpace c = true := ht c rfl
    rw [words_space hc,words,List.splitOnP_append_cons_of_forall_mem hw.2 c hc]
    simp [hw.1,words]

/-- A word with a blank after it. -/
theorem words_blank {w : Text} (hw : IsWordText w) (t : Text) : words (w ++ ' ' :: t) = w :: words t := by
  rw [words_word hw fun ch hch => by rw [← Option.some.inj hch]; rfl,words_space rfl]

theorem words_single {w : Text} (hw : IsWordText w) : words w = [w] := by
  have h := words_word hw (t := []) (fun _ h => by cases h)
  rwa [List.append_nil] at h

end DftForge.Python
