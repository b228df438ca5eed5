import Mathlib.Data.List.Forall2

/-! # Computations that may fail

When a chain of computations, or a traversal of a list, ends without an exception.
-/
namespace DftForge.Library
universe u
variable {ε : Type*} {α β : Type u}

theorem bind_eq_ok {x : Except ε α} {f : α → Except ε β} {b : β} :
    x >>= f = .ok b ↔ ∃ v, x = .ok v ∧ f v = .ok b := by
  cases x with
  | error e => simp [bind, Except.bind]
  | ok v => simp [bind, Except.bind]

theorem mapM_eq_ok_iff {f : α → Except ε β} {xs : List α} {ys : List β} :
    xs.mapM f = .ok ys ↔ List.Forall₂ (fun x y => f x = .ok y) xs ys := by
  induction xs generalizing ys with
  | nil =>
    rw [List.mapM_nil, List.forall₂_nil_left_iff]
    exact ⟨fun h => (Except.ok.inj h).symm,fun h => h ▸ rfl⟩
  | cons x xs ih =>
    rw [List.mapM_cons, bind_eq_ok, List.forall₂_cons_left_iff]
    refine exists_congr fun y => ?_
    simp only [bind_eq_ok, ih]
    constructor
    · rintro ⟨hy,zs,hzs,h⟩
      exact ⟨zs,hy,hzs,(Except.ok.inj h).symm⟩
    · rintro ⟨zs,hy,hzs,rfl⟩
      exact ⟨hy,zs,hzs,rfl⟩

/-- A traversal by a computation that is a function where it succeeds. -/
theorem mapM_eq_ok_map_iff {f : α → Except ε β} {p : α → Prop} {g : α → β}
    (h : ∀ x y, f x = .ok y ↔ p x ∧ y = g x) {xs : List α} {ys : List β} :
    xs.mapM f = .ok ys ↔ (∀ x ∈ xs, p x) ∧ ys = xs.map g := by
  rw [mapM_eq_ok_iff]
  simp only [h]
  rw [List.forall₂_and_left]
  refine and_congr_right fun _ => ?_
  constructor
  · intro hrelated
    have hmap : List.Forall₂ (· = ·) (xs.map g) ys :=
      List.forall₂_map_left_iff.mpr (hrelated.imp fun _ _ heq => heq.symm)
    rw [List.forall₂_eq_eq_eq] at hmap
    exact hmap.symm
  · rintro rfl
    rw [List.forall₂_map_right_iff, List.forall₂_same]
    exact fun _ _ => rfl

theorem mapM_ok {f : α → Except ε β} {g : α → β} {xs : List α} (h : ∀ x ∈ xs, f x = .ok (g x)) :
    xs.mapM f = .ok (xs.map g) := by
  rw [mapM_eq_ok_iff, List.forall₂_map_right_iff, List.forall₂_same]
  exact h

theorem length_of_mapM {f : α → Except ε β} {xs : List α} {ys : List β} (h : xs.mapM f = .ok ys) :
    ys.length = xs.length := (mapM_eq_ok_iff.mp h).length_eq.symm

end DftForge.Library
