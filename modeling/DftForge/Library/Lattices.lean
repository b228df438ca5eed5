import Mathlib.LinearAlgebra.Matrix.ToLinearEquiv
import Mathlib.RingTheory.Localization.Integer
import Mathlib.RingTheory.Localization.FractionRing

/-! # Periodic point sets

Points that are repeated along a lattice, and pairs of them that are too near: which pairs
have to be looked at, what does not depend on the order of the points, and what an
isomorphism of two such sets carries over.
-/
namespace DftForge.Library

/-- Points, and the translations along which they are repeated. -/
structure Crystal (Λ V : Type*) [AddGroup Λ] [AddGroup V] where
  sites : List V
  shift : Λ →+ V

namespace Crystal
variable {Λ V : Type*} [AddCommGroup Λ] [AddCommGroup V]

/-- A point or one of its images. -/
abbrev Place (c : Crystal Λ V) : Type _ := Fin c.sites.length × Λ

def point (c : Crystal Λ V) (x : c.Place) : V := c.sites.get x.1 + c.shift x.2

/-- No two points or images have a difference that counts as near. -/
def Separated (c : Crystal Λ V) (near : V → Prop) : Prop :=
  ∀ x y : c.Place, x ≠ y → ¬ near (c.point x - c.point y)

variable {c : Crystal Λ V} {near : V → Prop}

/-- A bijection that keeps which differences are near keeps that none is. -/
theorem Separated.of_equiv {Λ' V' : Type*} [AddCommGroup Λ'] [AddCommGroup V'] {c' : Crystal Λ' V'}
    {near' : V' → Prop} (h : c.Separated near) (e : c.Place ≃ c'.Place)
    (he : ∀ x y, near' (c'.point (e x) - c'.point (e y)) → near (c.point x - c.point y)) :
    c'.Separated near' := by
  intro x y hne hnear
  have hsymm : e.symm x ≠ e.symm y := fun hxy => hne (e.symm.injective hxy)
  refine h _ _ hsymm (he _ _ ?_)
  rwa [e.apply_symm_apply, e.apply_symm_apply]

/-- The difference of two places depends on the difference of their translations. -/
theorem point_sub (c : Crystal Λ V) (x y : c.Place) :
    c.point x - c.point y = c.sites.get x.1 - (c.sites.get y.1 + c.shift (y.2 - x.2)) := by
  rw [point, point, map_sub]
  abel

/-- It is enough to look at one copy of the first point. -/
theorem separated_iff_copy : c.Separated near ↔ ∀ i j, ∀ o : Λ, (i = j → o ≠ 0) →
    ¬ near (c.sites.get i - (c.sites.get j + c.shift o)) := by
  constructor
  · intro h i j o ho
    have hne : ((i,0) : c.Place) ≠ (j,o) := by
      intro heq
      exact ho (Prod.mk.inj heq).1 (Prod.mk.inj heq).2.symm
    have hfar := h _ _ hne
    rwa [point_sub, sub_zero] at hfar
  · intro h x y hne
    rw [point_sub]
    refine h x.1 y.1 (y.2 - x.2) fun hxy ho => hne ?_
    exact Prod.ext hxy (sub_eq_zero.mp ho).symm

/-- The translations on their own, and the pairs of points in the order of the list. -/
theorem separated_iff_pairwise (hneg : ∀ v, near (-v) → near v) : c.Separated near ↔
    (c.sites ≠ [] → ∀ o ≠ 0, ¬ near (c.shift o)) ∧
      c.sites.Pairwise fun v w => ∀ o, ¬ near (v - (w + c.shift o)) := by
  rw [separated_iff_copy]
  constructor
  · intro h
    refine ⟨fun hne o ho hnear => ?_,List.pairwise_iff_get.mpr fun i j hij o =>
      h i j o fun heq => absurd heq hij.ne⟩
    have hfirst := h ⟨0,List.length_pos_iff.mpr hne⟩ ⟨0,List.length_pos_iff.mpr hne⟩ o fun _ => ho
    refine hfirst ?_
    rw [sub_add_cancel_left]
    exact hneg _ (by rwa [neg_neg])
  · rintro ⟨hshift,hpairs⟩ i j o ho
    rcases lt_trichotomy i j with hij | rfl | hij
    · exact List.pairwise_iff_get.mp hpairs i j hij o
    · rw [sub_add_cancel_left]
      intro hnear
      exact hshift (List.ne_nil_of_length_pos i.pos) o (ho rfl) (hneg _ hnear)
    · intro hnear
      refine List.pairwise_iff_get.mp hpairs j i hij (-o) (hneg _ ?_)
      rw [map_neg]
      have hsub : -(c.sites.get j - (c.sites.get i + -c.shift o)) =
          c.sites.get i - (c.sites.get j + c.shift o) := by
        abel
      rwa [hsub]

/-- The order of the points does not matter. -/
theorem Separated.perm (hneg : ∀ v, near (-v) → near v) (h : c.Separated near) {sites : List V}
    (hperm : c.sites.Perm sites) : (Crystal.mk sites c.shift).Separated near := by
  rw [separated_iff_pairwise hneg] at h ⊢
  refine ⟨fun hne => h.1 fun hnil => hne ?_,(hperm.pairwise_iff ?_).mp h.2⟩
  · rw [hnil] at hperm
    exact hperm.nil_eq.symm
  · intro v w hvw o hnear
    refine hvw (-o) (hneg _ ?_)
    rw [map_neg]
    have hsub : -(v - (w + -c.shift o)) = w - (v + c.shift o) := by abel
    rwa [hsub]

end Crystal

/-- Rational vectors with determinant zero have an integer relation. -/
theorem exists_int_relation {n : Type*} [Fintype n] [DecidableEq n] {m : Matrix n n ℚ} (h : m.det = 0) :
    ∃ v : n → ℤ, v ≠ 0 ∧ Matrix.vecMul (fun i => (v i : ℚ)) m = 0 := by
  obtain ⟨w,hne,hw⟩ := Matrix.exists_vecMul_eq_zero_iff.mpr h
  obtain ⟨b,hb⟩ := IsLocalization.exist_integer_multiples_of_finite (nonZeroDivisors ℤ) w
  choose v hv using hb
  have hv (i : n) : (v i : ℚ) = (b : ℤ) * w i := by
    have hvi := hv i
    simpa [Algebra.smul_def] using hvi
  have hb : ((b : ℤ) : ℚ) ≠ 0 := Int.cast_ne_zero.mpr (nonZeroDivisors.ne_zero b.2)
  refine ⟨v,fun hzero => hne ?_,?_⟩
  · funext i
    have hi := hv i
    rw [hzero, Pi.zero_apply, Int.cast_zero] at hi
    exact (mul_eq_zero.mp hi.symm).resolve_left hb
  · have hsmul : (fun i => (v i : ℚ)) = ((b : ℤ) : ℚ) • w := funext hv
    rw [hsmul, Matrix.smul_vecMul, hw, smul_zero]

end DftForge.Library
