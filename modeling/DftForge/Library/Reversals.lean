import Mathlib

/-! # One of each pair

The entries of a list come in pairs, each entry the reversal of the other, and a key tells the
pairs apart. What is kept of the list by its keys is one entry of each pair, and with the
reversals it is the list again.
-/
namespace DftForge.Library

section Firsts
variable {α κ : Type*} [DecidableEq κ] (key : α → κ)

/-- The entries whose key is new. -/
def firsts : List κ → List α → List α
  | _, [] => []
  | seen, a :: as => if key a ∈ seen then firsts seen as else a :: firsts (key a :: seen) as

theorem firsts_sublist (seen : List κ) (as : List α) : (firsts key seen as).Sublist as := by
  induction as generalizing seen with
  | nil => exact List.Sublist.slnil
  | cons a as ih =>
    rw [firsts]
    split
    · exact (ih seen).cons a
    · exact (ih (key a :: seen)).cons_cons a

theorem firsts_subset {seen : List κ} {as : List α} {a : α} (h : a ∈ firsts key seen as) : a ∈ as :=
  (firsts_sublist key seen as).subset h

/-- Every key is that of an entry kept, or was seen before. -/
theorem firsts_covers (seen : List κ) {as : List α} {a : α} (h : a ∈ as) :
    key a ∈ seen ∨ ∃ b ∈ firsts key seen as, key b = key a := by
  induction as generalizing seen with
  | nil => exact absurd h List.not_mem_nil
  | cons x as ih =>
    rw [firsts]
    split
    case isTrue hx =>
      rcases List.mem_cons.mp h with rfl | h
      · exact .inl hx
      · exact ih seen h
    case isFalse hx =>
      rcases List.mem_cons.mp h with rfl | h
      · exact .inr ⟨a,List.mem_cons_self ..,rfl⟩
      · rcases ih (key x :: seen) h with hseen | ⟨b,hb,hkey⟩
        · rcases List.mem_cons.mp hseen with heq | hseen
          · exact .inr ⟨x,List.mem_cons_self ..,heq.symm⟩
          · exact .inl hseen
        · exact .inr ⟨b,List.mem_cons_of_mem x hb,hkey⟩

theorem firsts_new {seen : List κ} {as : List α} {a : α} (h : a ∈ firsts key seen as) : key a ∉ seen := by
  induction as generalizing seen with
  | nil => exact absurd h List.not_mem_nil
  | cons x as ih =>
    rw [firsts] at h
    split at h
    case isTrue => exact ih h
    case isFalse hx =>
      rcases List.mem_cons.mp h with rfl | h
      · exact hx
      · exact fun hseen => ih h (List.mem_cons_of_mem _ hseen)

/-- No key is kept twice. -/
theorem firsts_keys_nodup (seen : List κ) (as : List α) : ((firsts key seen as).map key).Nodup := by
  induction as generalizing seen with
  | nil => exact List.nodup_nil
  | cons x as ih =>
    rw [firsts]
    split
    · exact ih seen
    · rw [List.map_cons,List.nodup_cons]
      refine ⟨?_,ih (key x :: seen)⟩
      rintro hmem
      obtain ⟨b,hb,hkey⟩ := List.mem_map.mp hmem
      exact firsts_new key hb (hkey ▸ List.mem_cons_self ..)

end Firsts

section Reversal
variable {α κ : Type*}

/-- The list is closed under a reversal without fixed entries, and two entries have one key just
where they are one entry or each other's reversal. -/
structure Reversal (key : α → κ) (rev : α → α) (as : List α) : Prop where
  nodup : as.Nodup
  involutive : Function.Involutive rev
  closed : ∀ a ∈ as, rev a ∈ as
  ne : ∀ a ∈ as, rev a ≠ a
  key_eq : ∀ a ∈ as, ∀ b ∈ as, key b = key a ↔ b = a ∨ b = rev a

variable [DecidableEq κ] {key : α → κ} {rev : α → α} {as : List α}

/-- The reversal of an entry kept is not kept. -/
theorem Reversal.rev_not_kept (h : Reversal key rev as) {a : α} (ha : a ∈ firsts key [] as) :
    rev a ∉ firsts key [] as := by
  intro hrev
  have hmem := firsts_subset key ha
  have hkey : key (rev a) = key a := (h.key_eq a hmem _ (h.closed a hmem)).mpr (.inr rfl)
  exact h.ne a hmem (List.inj_on_of_nodup_map (firsts_keys_nodup key [] as) hrev ha hkey)

/-- Of an entry and its reversal just one is kept. -/
theorem Reversal.kept_iff (h : Reversal key rev as) {a : α} (ha : a ∈ as) :
    a ∈ firsts key [] as ↔ rev a ∉ firsts key [] as := by
  refine ⟨h.rev_not_kept,fun hrev => ?_⟩
  rcases firsts_covers key [] ha with hseen | ⟨b,hb,hkey⟩
  · exact absurd hseen List.not_mem_nil
  · rcases (h.key_eq a ha b (firsts_subset key hb)).mp hkey with rfl | rfl
    · exact hb
    · exact absurd hb hrev

/-- What is kept and its reversals are the list again. -/
theorem Reversal.perm (h : Reversal key rev as) :
    (firsts key [] as ++ (firsts key [] as).map rev).Perm as := by
  have hkept := h.nodup.sublist (firsts_sublist key [] as)
  have hnodup : (firsts key [] as ++ (firsts key [] as).map rev).Nodup := by
    refine List.nodup_append'.mpr ⟨hkept,hkept.map h.involutive.injective,fun a ha hrev => ?_⟩
    obtain ⟨b,hb,rfl⟩ := List.mem_map.mp hrev
    exact h.rev_not_kept hb ha
  refine (List.perm_ext_iff_of_nodup hnodup h.nodup).mpr fun a => ?_
  rw [List.mem_append,List.mem_map]
  constructor
  · rintro (ha | ⟨b,hb,rfl⟩)
    · exact firsts_subset key ha
    · exact h.closed b (firsts_subset key hb)
  · intro ha
    by_cases hkept : a ∈ firsts key [] as
    · exact .inl hkept
    · refine .inr ⟨rev a,?_,h.involutive a⟩
      have hrev := (h.kept_iff (h.closed a ha)).mpr
      rw [h.involutive a] at hrev
      exact hrev hkept

/-- A sum over the list, as one over what is kept. -/
theorem Reversal.sum {M : Type*} [AddCommMonoid M] (h : Reversal key rev as) (f : α → M) :
    ((firsts key [] as).map fun a => f a + f (rev a)).sum = (as.map f).sum := by
  rw [← (h.perm.map f).sum_eq,List.map_append,List.sum_append,List.map_map,List.sum_map_add]
  rfl

/-- Half of the entries are kept. -/
theorem Reversal.length (h : Reversal key rev as) : 2 * (firsts key [] as).length = as.length := by
  have hlen := h.perm.length_eq
  rw [List.length_append,List.length_map] at hlen
  omega

end Reversal
end DftForge.Library
