import Mathlib.Data.List.Count
import Mathlib.Data.List.Range
import Mathlib.Data.List.Nodup
import Mathlib.Tactic.Linarith

/-! # Writes to a list

Writes are applied to a list one after the other, so a later write at a place undoes the earlier
ones. How often a value stands in the list afterwards, and when every write is still to be seen.
-/
namespace DftForge.Library
variable {α : Type*}

/-- The list after the writes. -/
def writeAll (ws : List (ℕ × α)) (l : List α) : List α := ws.foldl (fun l w => l.set w.1 w.2) l

/-- The writes at whose place a later one follows. -/
def overwritten : List (ℕ × α) → List (ℕ × α)
  | [] => []
  | w :: ws => if w.1 ∈ ws.map Prod.fst then w :: overwritten ws else overwritten ws

/-- The writes that are the last at their places. -/
def survivors : List (ℕ × α) → List (ℕ × α)
  | [] => []
  | w :: ws => if w.1 ∈ ws.map Prod.fst then survivors ws else w :: survivors ws

theorem overwritten_eq_nil_iff {ws : List (ℕ × α)} : overwritten ws = [] ↔ (ws.map Prod.fst).Nodup := by
  induction ws with
  | nil => simp [overwritten]
  | cons w ws ih =>
    rw [overwritten, List.map_cons, List.nodup_cons, ← ih]
    by_cases hw : w.1 ∈ ws.map Prod.fst
    · rw [if_pos hw]
      exact iff_of_false (List.cons_ne_nil _ _) fun h => h.1 hw
    · rw [if_neg hw]
      exact (and_iff_right hw).symm

theorem count_writes [BEq α] (ws : List (ℕ × α)) (a : α) : (ws.map Prod.snd).count a =
    ((survivors ws).map Prod.snd).count a + ((overwritten ws).map Prod.snd).count a := by
  induction ws with
  | nil => rfl
  | cons w ws ih =>
    rw [List.map_cons, List.count_cons, ih, survivors, overwritten]
    by_cases hw : w.1 ∈ ws.map Prod.fst
    · rw [if_pos hw, if_pos hw, List.map_cons, List.count_cons]
      omega
    · rw [if_neg hw, if_neg hw, List.map_cons, List.count_cons]
      omega

variable [DecidableEq α]

/-- How often a value stands at places without a write. -/
def untouched (ws : List (ℕ × α)) (l : List α) (a : α) : ℕ :=
  (List.range l.length).countP fun i => i ∉ ws.map Prod.fst ∧ l[i]? = some a

/-- A write at a place that no other write names adds its value. -/
theorem untouched_set {ws : List (ℕ × α)} {l : List α} {i : ℕ} (hi : i < l.length)
    (hfree : i ∉ ws.map Prod.fst) (x a : α) :
    untouched ws (l.set i x) a = untouched ((i,x) :: ws) l a + if x = a then 1 else 0 := by
  have hsplit (is : List ℕ) (hmem : is.Nodup) : is.countP (fun j => j ∉ ws.map Prod.fst ∧
      (l.set i x)[j]? = some a) = is.countP (fun j => j ∉ ((i,x) :: ws).map Prod.fst ∧ l[j]? = some a) +
        if i ∈ is ∧ x = a then 1 else 0 := by
    induction is with
    | nil => simp
    | cons j is ih =>
      rw [List.nodup_cons] at hmem
      rw [List.countP_cons, List.countP_cons, ih hmem.2]
      by_cases hj : i = j
      · subst hj
        simp [hfree, hmem.1, List.getElem?_set_self hi]
      · have hsame : (j ∉ ws.map Prod.fst ∧ (l.set i x)[j]? = some a) ↔
            (j ∉ ((i,x) :: ws).map Prod.fst ∧ l[j]? = some a) := by
          simp [List.getElem?_set_ne hj, Ne.symm hj]
        have hmem : (i ∈ j :: is ∧ x = a) ↔ (i ∈ is ∧ x = a) := by simp [hj]
        rw [decide_eq_decide.mpr hsame, if_congr hmem rfl rfl]
        omega
  rw [untouched, List.length_set, hsplit _ List.nodup_range, untouched]
  simp [hi]

variable [BEq α] [LawfulBEq α]

theorem untouched_nil (l : List α) (a : α) : untouched [] l a = l.count a := by
  induction l with
  | nil => rfl
  | cons b l ih =>
    have hrest : (List.range l.length).countP (fun i => i + 1 ∉ ([] : List (ℕ × α)).map Prod.fst ∧
        (b :: l)[i + 1]? = some a) = untouched [] l a := by
      refine List.countP_congr fun i _ => ?_
      simp
    rw [List.count_cons, ← ih, ← hrest, untouched, List.length_cons, List.range_succ_eq_map, List.countP_cons,
      List.countP_map]
    simp [Function.comp_def]

theorem count_writeAll {ws : List (ℕ × α)} {l : List α} (h : ∀ w ∈ ws, w.1 < l.length) (a : α) :
    (writeAll ws l).count a = ((survivors ws).map Prod.snd).count a + untouched ws l a := by
  induction ws generalizing l with
  | nil => simp [writeAll, survivors, untouched_nil]
  | cons w ws ih =>
    rw [List.forall_mem_cons] at h
    have hlength : ∀ v ∈ ws, v.1 < (l.set w.1 w.2).length := by
      rw [List.length_set]
      exact h.2
    rw [writeAll, List.foldl_cons, ← writeAll, ih hlength, survivors]
    by_cases hw : w.1 ∈ ws.map Prod.fst
    · have heq : untouched ws (l.set w.1 w.2) a = untouched (w :: ws) l a := by
        rw [untouched, untouched, List.length_set]
        refine List.countP_congr fun i _ => ?_
        by_cases hi : w.1 = i
        · subst hi
          simp [hw]
        · simp [List.getElem?_set_ne hi, Ne.symm hi]
      rw [if_pos hw, heq]
    · have hset : untouched ws (l.set w.1 w.2) a = untouched (w :: ws) l a + if w.2 = a then 1 else 0 :=
        untouched_set h.1 hw w.2 a
      rw [if_neg hw, hset, List.map_cons, List.count_cons]
      simp only [beq_iff_eq]
      omega

/-- A value stands as often as it is written just where the places left to it make up for the writes
that are overwritten. -/
theorem count_writes_le_iff {ws : List (ℕ × α)} {l : List α} (h : ∀ w ∈ ws, w.1 < l.length) (a : α) (k : ℕ) :
    (ws.map Prod.snd).count a ≤ (writeAll ws l).count a + k ↔
      ((overwritten ws).map Prod.snd).count a ≤ untouched ws l a + k := by
  rw [count_writes, count_writeAll h]
  omega

end DftForge.Library
