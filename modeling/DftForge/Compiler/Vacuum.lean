import DftForge.Library.CircularGaps
import DftForge.Compiler.Inputs

/-! # Vacuum in a structure file

`read_structure` turns periodicity off along the axes along which the atoms leave more than half
of the cell empty. What ASE reads of a file is a parameter; coordinates are exact.
-/
namespace DftForge.Compiler
open DftForge.Library

/-- What `read_structure` asks ASE and the file system. -/
structure StructureReader where
  fileExists : String → Bool
  /-- `ase_read`, or the text that it raises. -/
  read : String → Except String (Atoms ℚ)
  /-- `cell.cellpar()[:3]`. -/
  lengths : List (Vec ℚ) → Vec ℚ
  /-- `get_scaled_positions(wrap=True)`. -/
  wrapped : Atoms ℚ → List (Vec ℚ)

/-- A component of a vector. -/
def axis {α : Type} (v : Vec α) (i : Fin 3) : α := ![v.1,v.2.1,v.2.2] i

/-- An axis stays periodic if it is short, or no gap is more than half of it. -/
def periodicAxis (length : ℚ) (f : List ℚ) : Bool :=
  if length < 8 ∨ f.length < 2 then true else !((circularGaps f).max?.any (1 / 2 < ·))

/-- `pbc`, from the lengths and the wrapped positions. -/
def vacuumPbc (lengths : Vec ℚ) (frac : List (Vec ℚ)) : List Bool :=
  List.ofFn fun i => periodicAxis (axis lengths i) (frac.map (axis · i))

/-- `read_structure`. -/
def StructureReader.readStructure (r : StructureReader) (path : String) : Except String (Atoms ℚ) :=
  if r.fileExists path then
    (r.read path).map fun atoms => { atoms with pbc := vacuumPbc (r.lengths atoms.cell) (r.wrapped atoms) }
  else .error ("structure file not found: " ++ path)

/-- The position moved by `d`, and wrapped. -/
def moved (d v : Vec ℚ) : Vec ℚ := (Int.fract (v.1 + d.1),Int.fract (v.2.1 + d.2.1),Int.fract (v.2.2 + d.2.2))

/-- Some arc of the circle that is longer than half of it has none of the points inside. -/
def LongEmptyArc (f : List ℚ) : Prop :=
  ∃ a l : ℝ, 1 / 2 < l ∧ l ≤ 1 ∧ EmptyArc (f.map ((↑) : ℚ → ℝ)) a l

section Arcs
variable {f : List ℚ}

theorem any_max_iff (gs : List ℚ) (r : ℚ) : gs.max?.any (r < ·) = true ↔ ∃ g ∈ gs, r < g := by
  cases hmax : gs.max? with
  | none =>
    rw [List.max?_eq_none_iff] at hmax
    simp [hmax]
  | some m =>
    obtain ⟨hmem,hle⟩ := List.max?_eq_some_iff.mp hmax
    simp only [Option.any_some,decide_eq_true_eq]
    exact ⟨fun h => ⟨m,hmem,h⟩,fun ⟨g,hg,h⟩ => h.trans_le (hle g hg)⟩

theorem longEmptyArc_iff (hf : ∀ x ∈ f, 0 ≤ x ∧ x < 1) (hne : f ≠ []) :
    LongEmptyArc f ↔ ∃ g ∈ circularGaps f, 1 / 2 < g := by
  have hreal : ∀ x ∈ f.map ((↑) : ℚ → ℝ), 0 ≤ x ∧ x < 1 := by
    intro x hx
    obtain ⟨y,hy,rfl⟩ := List.mem_map.mp hx
    exact ⟨by exact_mod_cast (hf y hy).1,by exact_mod_cast (hf y hy).2⟩
  have hgaps := exists_gap_iff hreal (by simpa using hne) (1 / 2 : ℝ)
  have hmap : circularGaps (f.map ((↑) : ℚ → ℝ)) = (circularGaps f).map ((↑) : ℚ → ℝ) :=
    circularGaps_map (Rat.castHom ℝ) Rat.cast_strictMono f
  have hhalf : (1 / 2 : ℝ) = ((1 / 2 : ℚ) : ℝ) := by norm_num
  rw [hmap,hhalf] at hgaps
  rw [LongEmptyArc,hhalf]
  constructor
  · rintro ⟨a,l,hl,_,harc⟩
    obtain ⟨g,hg,hlt⟩ := hgaps.mpr ⟨a,l,hl,harc⟩
    obtain ⟨q,hq,rfl⟩ := List.mem_map.mp hg
    exact ⟨q,hq,Rat.cast_lt.mp hlt⟩
  · rintro ⟨g,hg,hlt⟩
    obtain ⟨a,l,hl,harc⟩ := hgaps.mp ⟨(g : ℝ),List.mem_map_of_mem hg,Rat.cast_lt.mpr hlt⟩
    exact ⟨a,min l 1,lt_min hl (by norm_num),min_le_right l 1,harc.shorter (min_le_left l 1)⟩

theorem periodicAxis_iff (length : ℚ) (hf : ∀ x ∈ f, 0 ≤ x ∧ x < 1) (hne : f ≠ []) :
    periodicAxis length f = false ↔ 2 ≤ f.length ∧ 8 ≤ length ∧ LongEmptyArc f := by
  rw [longEmptyArc_iff hf hne,← any_max_iff,periodicAxis]
  split
  case isTrue h =>
    simp only [Bool.true_eq_false,false_iff]
    rintro ⟨htwo,hlen,_⟩
    rcases h with h | h
    · exact absurd h hlen.not_gt
    · exact absurd h htwo.not_gt
  case isFalse h =>
    obtain ⟨hlen,htwo⟩ := not_or.mp h
    rw [Bool.not_eq_false']
    exact ⟨fun hgap => ⟨not_lt.mp htwo,not_lt.mp hlen,hgap⟩,fun hgap => hgap.2.2⟩

/-- Moved points have their arcs moved. -/
theorem longEmptyArc_move {is : List (Vec ℚ)} {p q : Vec ℚ → ℚ} (d : ℚ)
    (h : ∀ v ∈ is, ∃ n : ℤ, q v = p v + d + n) : LongEmptyArc (is.map p) → LongEmptyArc (is.map q) := by
  rintro ⟨a,l,hl,hone,harc⟩
  refine ⟨a + d,l,hl,hone,?_⟩
  rw [List.map_map] at harc ⊢
  refine harc.move fun v hv => ?_
  obtain ⟨n,hn⟩ := h v hv
  exact ⟨n,by simp [hn]⟩

end Arcs

section Pbc
variable {lengths : Vec ℚ} {frac : List (Vec ℚ)}

theorem axis_moved (d v : Vec ℚ) (i : Fin 3) : axis (moved d v) i = Int.fract (axis v i + axis d i) := by
  fin_cases i <;> rfl

theorem bool_eq_of_false_iff {a b : Bool} (h : a = false ↔ b = false) : a = b := by
  cases a <;> cases b <;> simp_all

theorem axis_vacuum (hne : frac ≠ []) (hunit : ∀ v ∈ frac, ∀ i, 0 ≤ axis v i ∧ axis v i < 1) (i : Fin 3) :
    periodicAxis (axis lengths i) (frac.map (axis · i)) = false ↔
      2 ≤ frac.length ∧ 8 ≤ axis lengths i ∧ LongEmptyArc (frac.map (axis · i)) := by
  rw [periodicAxis_iff _ (List.forall_mem_map.mpr fun v hv => hunit v hv i) (by simpa using hne),
    List.length_map]

/-- Positions with the same long arcs have the same periodic axes. -/
theorem vacuumPbc_congr {frac' : List (Vec ℚ)} (hne : frac ≠ []) (hlen : frac'.length = frac.length)
    (hunit : ∀ v ∈ frac, ∀ i, 0 ≤ axis v i ∧ axis v i < 1)
    (hunit' : ∀ v ∈ frac', ∀ i, 0 ≤ axis v i ∧ axis v i < 1)
    (harc : ∀ i, LongEmptyArc (frac'.map (axis · i)) ↔ LongEmptyArc (frac.map (axis · i))) :
    vacuumPbc lengths frac' = vacuumPbc lengths frac := by
  have hne' : frac' ≠ [] := fun h => hne (List.eq_nil_of_length_eq_zero (by rw [← hlen,h]; rfl))
  refine congrArg List.ofFn (funext fun i => bool_eq_of_false_iff ?_)
  rw [axis_vacuum hne' hunit' i,axis_vacuum hne hunit i,harc i,hlen]

/-- Periodicity is turned off just along the long axes where an arc longer than half of the circle
is empty, wherever the atoms are moved together and however they are ordered. -/
theorem vacuum_iff_empty_arc (lengths : Vec ℚ) (frac : List (Vec ℚ)) (hne : frac ≠ [])
    (hunit : ∀ v ∈ frac, ∀ i, 0 ≤ axis v i ∧ axis v i < 1) :
    (∀ i : Fin 3, (vacuumPbc lengths frac)[(i : ℕ)]? = some false ↔
      2 ≤ frac.length ∧ 8 ≤ axis lengths i ∧ LongEmptyArc (frac.map (axis · i))) ∧
    (∀ d, vacuumPbc lengths (frac.map (moved d)) = vacuumPbc lengths frac) ∧
    (∀ frac' : List (Vec ℚ), frac'.Perm frac → vacuumPbc lengths frac' = vacuumPbc lengths frac) ∧
    (∀ (r : StructureReader) path atoms, r.fileExists path = true → r.read path = .ok atoms →
      r.lengths atoms.cell = lengths → r.wrapped atoms = frac →
      r.readStructure path = .ok { atoms with pbc := vacuumPbc lengths frac }) := by
  refine ⟨fun i => ?_,fun d => ?_,fun frac' hperm => ?_,?_⟩
  · have hget : (vacuumPbc lengths frac)[(i : ℕ)]? =
        some (periodicAxis (axis lengths i) (frac.map (axis · i))) := by
      rw [vacuumPbc,List.getElem?_ofFn]
      simp
    rw [hget,Option.some_inj,axis_vacuum hne hunit i]
  · refine vacuumPbc_congr hne (by simp) hunit ?_ fun i => ?_
    · intro v hv i
      obtain ⟨u,_,rfl⟩ := List.mem_map.mp hv
      rw [axis_moved]
      exact ⟨Int.fract_nonneg _,Int.fract_lt_one _⟩
    · rw [List.map_map]
      constructor
      · refine longEmptyArc_move (-axis d i) fun v _ => ⟨⌊axis v i + axis d i⌋,?_⟩
        rw [Function.comp_apply,axis_moved,Int.fract]
        ring
      · refine longEmptyArc_move (axis d i) fun v _ => ⟨-⌊axis v i + axis d i⌋,?_⟩
        rw [Function.comp_apply,axis_moved,Int.fract]
        push_cast
        ring
  · refine vacuumPbc_congr hne hperm.length_eq hunit (fun v hv => hunit v (hperm.mem_iff.mp hv)) fun i => ?_
    have hmap := (hperm.map (axis · i)).map ((↑) : ℚ → ℝ)
    exact exists_congr fun a => exists_congr fun l =>
      and_congr_right' (and_congr_right' (emptyArc_perm hmap a l))
  · rintro r path atoms hfile hread rfl rfl
    rw [StructureReader.readStructure,if_pos hfile,hread]
    rfl

/-- Two layers of a slab in the lower half of a long cell. -/
def slab : List (Vec ℚ) := [(0,0,1 / 10),(1 / 2,1 / 2,1 / 4)]

theorem slab_vacuum : LongEmptyArc (slab.map (axis · 2)) ∧
    vacuumPbc (3,3,20) (slab.map (moved (0,0,9 / 10))) = vacuumPbc (3,3,20) slab := by
  have h := vacuum_iff_empty_arc (3,3,20) slab (by decide) (by decide +kernel)
  exact ⟨((h.1 2).mp (by decide +kernel)).2.2,h.2.1 (0,0,9 / 10)⟩

end Pbc
end DftForge.Compiler
