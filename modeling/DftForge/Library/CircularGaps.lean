import Mathlib

/-! # Gaps between points of a circle

Points of the unit circle are given by their coordinates in `[0, 1)`. The differences of
neighbours in the sorted order, with the first point a turn later at its end, are the lengths of
the arcs between them, and every arc without a point inside lies in one of these.
-/
namespace DftForge.Library

section Adjacent
variable {K : Type*} [LinearOrder K] {l : List K}

/-- Nothing of a sorted list lies between two neighbours. -/
theorem le_or_le_of_adjacent (hl : l.Pairwise (· ≤ ·)) {p q y : K} (hpq : (p,q) ∈ l.zip l.tail)
    (hy : y ∈ l) : y ≤ p ∨ q ≤ y := by
  induction l with
  | nil => exact absurd hy List.not_mem_nil
  | cons a l ih =>
    obtain ⟨ha,htail⟩ := List.pairwise_cons.mp hl
    cases l with
    | nil => exact absurd hpq List.not_mem_nil
    | cons b l =>
      rcases List.mem_cons.mp hpq with heq | hpq'
      · obtain ⟨rfl,rfl⟩ := Prod.mk.inj heq
        rcases List.mem_cons.mp hy with rfl | hy'
        · exact .inl le_rfl
        · rcases List.mem_cons.mp hy' with rfl | hyl
          · exact .inr le_rfl
          · exact .inr ((List.pairwise_cons.mp htail).1 y hyl)
      · rcases List.mem_cons.mp hy with rfl | hy'
        · exact .inl (ha p (List.of_mem_zip hpq').1)
        · exact ih htail hpq' hy'

/-- A value between the first and another of the list lies between two neighbours. -/
theorem exists_adjacent {x a y : K} (hx : x ≤ a) (hy : y ∈ l) (hay : a < y) :
    ∃ p q, (p,q) ∈ (x :: l).zip l ∧ p ≤ a ∧ a < q := by
  induction l generalizing x with
  | nil => exact absurd hy List.not_mem_nil
  | cons b l ih =>
    by_cases hb : a < b
    · exact ⟨x,b,List.mem_cons_self ..,hx,hb⟩
    · rcases List.mem_cons.mp hy with rfl | hy
      · exact absurd hay hb
      · obtain ⟨p,q,hpq,hp,hq⟩ := ih (not_lt.mp hb) hy
        exact ⟨p,q,List.mem_cons_of_mem _ hpq,hp,hq⟩

end Adjacent

section Gaps
variable {K : Type*} [CommRing K] [LinearOrder K]

/-- The differences of neighbours. -/
def diff (l : List K) : List K := (l.zip l.tail).map fun e => e.2 - e.1

/-- The list with its first point a turn later at the end. -/
def closed (f : List K) : List K := f ++ (f.head?.map (· + 1)).toList

def circularGaps (xs : List K) : List K := diff (closed (xs.insertionSort (· ≤ ·)))

/-- The gaps of points in a subring are the gaps in the ring. -/
theorem circularGaps_map {L : Type*} [CommRing L] [LinearOrder L] (φ : K →+* L) (hφ : StrictMono φ)
    (xs : List K) : circularGaps (xs.map φ) = (circularGaps xs).map φ := by
  have hsort : (xs.map φ).insertionSort (· ≤ ·) = (xs.insertionSort (· ≤ ·)).map φ :=
    (List.map_insertionSort (· ≤ ·) (· ≤ ·) φ xs fun a _ b _ => hφ.le_iff_le.symm).symm
  rw [circularGaps,circularGaps,hsort]
  cases xs.insertionSort (· ≤ ·) with
  | nil => rfl
  | cons x rest =>
    have hclosed : closed ((x :: rest).map φ) = (closed (x :: rest)).map φ := by simp [closed]
    rw [hclosed,diff,diff,← List.map_tail,List.zip_map,List.map_map,List.map_map]
    refine List.map_congr_left fun e _ => ?_
    simp

/-- No point lies inside the arc of the given length. -/
def EmptyArc (xs : List K) (start length : K) : Prop :=
  ∀ x ∈ xs, ∀ t, 0 < t → t < length → ∀ n : ℤ, x ≠ start + t + n

theorem emptyArc_perm {xs ys : List K} (h : xs.Perm ys) (a l : K) : EmptyArc xs a l ↔ EmptyArc ys a l :=
  forall_congr' fun x => by rw [h.mem_iff]

theorem EmptyArc.shorter {xs : List K} {a l l' : K} (h : EmptyArc xs a l) (hl : l' ≤ l) : EmptyArc xs a l' :=
  fun x hx t ht htl => h x hx t ht (htl.trans_le hl)

/-- Whole turns do not move an arc. -/
theorem EmptyArc.turn {xs : List K} {a l : K} (h : EmptyArc xs a l) (n : ℤ) : EmptyArc xs (a + n) l := by
  intro x hx t ht htl m heq
  refine h x hx t ht htl (n + m) (heq.trans ?_)
  push_cast
  abel

/-- An arc moves with the points, which are known up to whole turns. -/
theorem EmptyArc.move {ι : Type*} {is : List ι} {f g : ι → K} {a l c : K} (h : EmptyArc (is.map f) a l)
    (hmove : ∀ i ∈ is, ∃ n : ℤ, g i = f i + c + n) : EmptyArc (is.map g) (a + c) l := by
  intro y hy t ht htl m heq
  obtain ⟨i,hi,rfl⟩ := List.mem_map.mp hy
  obtain ⟨n,hn⟩ := hmove i hi
  refine h (f i) (List.mem_map_of_mem hi) t ht htl (m - n) ?_
  have hf : f i = g i - c - n := by rw [hn]; abel
  rw [hf,heq]
  push_cast
  abel

/-- The points with one of them first, the others not before it. -/
structure Sorted (x : K) (rest : List K) : Prop where
  sorted : (x :: rest).Pairwise (· ≤ ·)
  unit : ∀ y ∈ x :: rest, 0 ≤ y ∧ y < 1

theorem Sorted.first_le {x y : K} {rest : List K} (h : Sorted x rest) (hy : y ∈ x :: rest) : x ≤ y := by
  rcases List.mem_cons.mp hy with rfl | hy
  · exact le_rfl
  · exact (List.pairwise_cons.mp h.sorted).1 y hy

variable [IsStrictOrderedRing K]

theorem Sorted.closed_sorted {x : K} {rest : List K} (h : Sorted x rest) :
    (x :: (rest ++ [x + 1])).Pairwise (· ≤ ·) := by
  have hx := (h.unit x (List.mem_cons_self ..)).1
  rw [← List.cons_append,List.pairwise_append]
  refine ⟨h.sorted,List.pairwise_singleton ..,fun y hy z hz => ?_⟩
  rw [List.mem_singleton.mp hz]
  exact ((h.unit y hy).2.trans_le (le_add_of_nonneg_left hx)).le

/-- Between two neighbours lies no point of the circle. -/
theorem Sorted.empty_between {x p q : K} {rest : List K} (h : Sorted x rest)
    (hpq : (p,q) ∈ (x :: (rest ++ [x + 1])).zip (rest ++ [x + 1])) : EmptyArc (x :: rest) p (q - p) := by
  intro y hy t ht htl n heq
  obtain ⟨hp,hq⟩ := List.of_mem_zip hpq
  have hx := (h.unit x (List.mem_cons_self ..)).1
  have hp0 : 0 ≤ p := by
    rcases List.mem_cons.mp hp with rfl | hp
    · exact hx
    · exact hx.trans ((List.pairwise_cons.mp h.closed_sorted).1 p hp)
  have hq1 : q ≤ x + 1 := by
    rcases List.mem_append.mp hq with hq | hq
    · have := (h.unit q (List.mem_cons_of_mem x hq)).2
      linarith
    · exact (List.mem_singleton.mp hq).le
  -- the point would have to be between the neighbours, or a turn away from where it is
  rcases lt_trichotomy n 0 with hn | rfl | hn
  · have hn1 : (n : K) ≤ -1 := by exact_mod_cast Int.le_sub_one_of_lt hn
    have := h.first_le hy
    linarith
  · rw [Int.cast_zero,add_zero] at heq
    rcases le_or_le_of_adjacent h.closed_sorted hpq
      (List.mem_append_left [x + 1] hy) with hle | hle <;> linarith
  · have hn1 : (1 : K) ≤ n := by exact_mod_cast hn
    have := (h.unit y hy).2
    linarith

/-- An arc without a point inside begins in a gap that it fits in. -/
theorem EmptyArc.exists_gap [FloorRing K] {x a l : K} {rest : List K} (harc : EmptyArc (x :: rest) a l) :
    ∃ p q, (p,q) ∈ (x :: (rest ++ [x + 1])).zip (rest ++ [x + 1]) ∧ l ≤ q - p := by
  -- the arc is turned to begin in the turn after the first point
  have hturned := harc.turn (-⌊a - x⌋)
  have hfloor := Int.floor_le (a - x)
  have hnext := Int.lt_floor_add_one (a - x)
  push_cast at hturned
  obtain ⟨p,q,hpq,hp,hq⟩ := exists_adjacent (x := x) (a := a + -⌊a - x⌋) (y := x + 1)
    (by linarith) (List.mem_append_right rest (List.mem_singleton_self _)) (by linarith)
  refine ⟨p,q,hpq,?_⟩
  by_contra hlt
  have hlen : q - (a + -⌊a - x⌋) < l := by linarith [not_le.mp hlt]
  rcases List.mem_append.mp (List.of_mem_zip hpq).2 with hmem | hmem
  · refine hturned q (List.mem_cons_of_mem x hmem) _ (sub_pos.mpr hq) hlen 0 ?_
    rw [Int.cast_zero]
    ring
  · obtain rfl := List.mem_singleton.mp hmem
    refine hturned x (List.mem_cons_self ..) _ (sub_pos.mpr hq) hlen (-1) ?_
    push_cast
    ring

/-- Some gap is longer than `r` where some arc longer than `r` has no point inside. -/
theorem exists_gap_iff [FloorRing K] {xs : List K} (hxs : ∀ x ∈ xs, 0 ≤ x ∧ x < 1) (hne : xs ≠ []) (r : K) :
    (∃ g ∈ circularGaps xs, r < g) ↔ ∃ a l, r < l ∧ EmptyArc xs a l := by
  have hperm : (xs.insertionSort (· ≤ ·)).Perm xs := List.perm_insertionSort _ _
  cases hsort : xs.insertionSort (· ≤ ·) with
  | nil =>
    rw [hsort] at hperm
    exact absurd hperm.nil_eq.symm hne
  | cons x rest =>
    rw [hsort] at hperm
    have h : Sorted x rest :=
      ⟨hsort ▸ List.pairwise_insertionSort _ _,fun y hy => hxs y (hperm.mem_iff.mp hy)⟩
    have hgaps : circularGaps xs = diff (x :: (rest ++ [x + 1])) := by
      rw [circularGaps,hsort]
      rfl
    rw [hgaps,diff]
    constructor
    · rintro ⟨g,hg,hr⟩
      obtain ⟨⟨p,q⟩,hpq,rfl⟩ := List.mem_map.mp hg
      exact ⟨p,q - p,hr,(emptyArc_perm hperm p (q - p)).mp (h.empty_between hpq)⟩
    · rintro ⟨a,l,hr,harc⟩
      obtain ⟨p,q,hpq,hle⟩ := ((emptyArc_perm hperm a l).mpr harc).exists_gap
      exact ⟨q - p,List.mem_map_of_mem (f := fun e => e.2 - e.1) hpq,hr.trans_le hle⟩

end Gaps
end DftForge.Library
