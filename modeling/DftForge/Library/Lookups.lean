import Mathlib.Data.List.Nodup

/-! # Lookups in association lists

`List.lookup` takes the first entry of a key.
-/
namespace DftForge.Library
variable {α β γ : Type*} [BEq α] [LawfulBEq α] {a b : α} {y : β} {l : List (α × β)}

theorem lookup_cons_of_ne (h : a ≠ b) : ((b,y) :: l).lookup a = l.lookup a := by
  rw [List.lookup_cons,beq_false_of_ne h]

/-- The keys may be renamed, as long as they stay apart. -/
theorem lookup_map [BEq γ] [LawfulBEq γ] {δ : Type*} {g : α → γ} (hg : Function.Injective g) (f : β → δ)
    (l : List (α × β)) (a : α) : (l.map fun e => (g e.1,f e.2)).lookup (g a) = (l.lookup a).map f := by
  induction l with
  | nil => rfl
  | cons e l ih =>
    by_cases h : a = e.1
    · subst h
      rw [List.map_cons,List.lookup_cons_self,List.lookup_cons_self,Option.map_some]
    · rw [List.map_cons,lookup_cons_of_ne (hg.ne h),lookup_cons_of_ne h,ih]

theorem lookup_map_snd (f : β → γ) (l : List (α × β)) (a : α) :
    (l.map fun e => (e.1,f e.2)).lookup a = (l.lookup a).map f := lookup_map Function.injective_id f l a

theorem lookup_filter_key (p : α → Bool) (l : List (α × β)) (a : α) :
    (l.filter fun e => p e.1).lookup a = if p a then l.lookup a else none := by
  induction l with
  | nil => simp
  | cons e l ih =>
    by_cases h : a = e.1
    · subst h
      by_cases hp : p e.1
      · rw [List.filter_cons_of_pos (by exact hp),List.lookup_cons_self,List.lookup_cons_self,if_pos hp]
      · rw [List.filter_cons_of_neg (by exact hp),ih,if_neg hp,if_neg hp]
    · by_cases hp : p e.1
      · rw [List.filter_cons_of_pos (by exact hp),lookup_cons_of_ne h,lookup_cons_of_ne h,ih]
      · rw [List.filter_cons_of_neg (by exact hp),lookup_cons_of_ne h,ih]

theorem lookup_of_mem (hnodup : (l.map Prod.fst).Nodup) {e : α × β} (he : e ∈ l) :
    l.lookup e.1 = some e.2 := by
  induction l with
  | nil => cases he
  | cons d l ih =>
    rw [List.map_cons,List.nodup_cons] at hnodup
    obtain rfl | he := List.mem_cons.mp he
    · exact List.lookup_cons_self
    · have hne : e.1 ≠ d.1 := fun h => hnodup.1 (h ▸ List.mem_map_of_mem he)
      rw [lookup_cons_of_ne hne,ih hnodup.2 he]

theorem mem_of_lookup (h : l.lookup a = some y) : (a,y) ∈ l := by
  obtain ⟨before,after,rfl,-⟩ := List.lookup_eq_some_iff.mp h
  exact List.mem_append_right _ List.mem_cons_self

end DftForge.Library
