import DftForge.Library.Lattices
import DftForge.Structure.Import
import Mathlib.Analysis.Real.Sqrt
import Mathlib.LinearAlgebra.Matrix.Determinant.Basic

/-! # What the importer accepts

A structure that the importer accepts is periodic and has no two atoms too near, before the
normalization and after it, just where none of the checks was blind: to the axes of what is
normalized, to coincident atoms, and to the images of a single atom.
-/
namespace DftForge.Structure
open DftForge.Library DftForge.Runtime DftForge.Python

section Crystals

/-- A limit is compared with the square of a distance as with the distance. -/
theorem closer_iff {d limit : ℚ} : Closer d limit ↔ Real.sqrt d < limit := by
  unfold Closer
  have hsqrt := Real.sqrt_nonneg (d : ℝ)
  constructor
  · rintro ⟨hpos,hlt⟩
    rw [Real.sqrt_lt' (by exact_mod_cast hpos)]
    exact_mod_cast hlt
  · intro h
    have hpos : 0 < limit := by exact_mod_cast hsqrt.trans_lt h
    rw [Real.sqrt_lt' (by exact_mod_cast hpos)] at h
    exact ⟨hpos,by exact_mod_cast h⟩

theorem Closer.mono {d d' limit : ℚ} (h : Closer d limit) (hle : d' ≤ d) : Closer d' limit :=
  ⟨h.1,hle.trans_lt h.2⟩

theorem normSq_neg (v : Vector3) : normSq (-v) = normSq v := by simp [normSq]

/-- The translations of a cell. -/
def translation (cell : CellMatrix) : Translation →+ Vector3 where
  toFun := translate cell
  map_zero' := by
    funext j
    simp [translate]
  map_add' o p := by
    funext j
    simp only [translate, Pi.add_apply, Int.cast_add]
    ring

theorem translate_eq_vecMul (cell : CellMatrix) (o : Translation) :
    translate cell o = Matrix.vecMul (fun k => (o k : ℚ)) cell := by
  funext j
  rw [Matrix.vecMul, dotProduct, Fin.sum_univ_three]
  rfl

theorem det_eq (m : CellMatrix) : det m = m.det := (Matrix.det_fin_three m).symm

/-- The vector is shorter than the limit. -/
def Near (limit : ℚ) (v : Vector3) : Prop := Closer (normSq v) limit

namespace Atoms
variable (x : Atoms)

/-- The atoms with their images along the three axes. -/
def crystal : Crystal Translation Vector3 := ⟨x.sites.map Site.position,translation x.cell⟩

theorem crystal_get (i : Fin x.crystal.sites.length) : x.crystal.sites.get i = x.position i := by
  have hi : i.val < x.sites.length := by simpa [crystal] using i.isLt
  rw [List.get_eq_getElem]
  simp [crystal, position, hi]

/-- Periodic along the three axes, and without two atoms nearer than the limit. -/
structure Sound (limit : ℚ) : Prop where
  periodic : ∀ k, x.pbc k = true
  separated : x.crystal.Separated (Near limit)

theorem separated_iff {limit : ℚ} : x.crystal.Separated (Near limit) ↔
    ∀ i < x.sites.length, ∀ j < x.sites.length, ∀ o, (i = j → o ≠ 0) →
      ¬ Closer (x.distanceSq i j o) limit := by
  have hlength : x.crystal.sites.length = x.sites.length := List.length_map _
  rw [Crystal.separated_iff_copy]
  constructor
  · intro h i hi j hj o ho
    have hfar := h ⟨i,hlength ▸ hi⟩ ⟨j,hlength ▸ hj⟩ o fun hij => ho (Fin.mk.inj hij)
    rwa [crystal_get, crystal_get] at hfar
  · intro h i j o ho
    rw [crystal_get, crystal_get]
    exact h i (hlength ▸ i.isLt) j (hlength ▸ j.isLt) o fun hij => ho (Fin.ext hij)

end Atoms

/-- The atoms and images of two structures correspond, with their species and distances. -/
def SameCrystal (x y : Atoms) : Prop :=
  ∃ e : x.crystal.Place ≃ y.crystal.Place, (∀ p, y.symbols[(e p).1.val]? = x.symbols[p.1.val]?) ∧
    ∀ p q, normSq (y.crystal.point (e p) - y.crystal.point (e q)) =
      normSq (x.crystal.point p - x.crystal.point q)

theorem SameCrystal.separated {x y : Atoms} (h : SameCrystal x y) {limit : ℚ}
    (hx : x.crystal.Separated (Near limit)) : y.crystal.Separated (Near limit) := by
  obtain ⟨e,-,he⟩ := h
  refine hx.of_equiv e fun p q hnear => ?_
  rwa [Near, he] at hnear

theorem separated_sortSymbols {x : Atoms} {limit : ℚ} (h : x.crystal.Separated (Near limit)) :
    (sortSymbols x).crystal.Separated (Near limit) := by
  have hneg : ∀ v, Near limit (-v) → Near limit v := by
    intro v hv
    rwa [Near, normSq_neg] at hv
  exact h.perm hneg ((List.perm_insertionSort _ x.sites).symm.map Site.position)

end Crystals

section Documented
variable (lib : Libraries)

/-- `NeighborList` lists every other atom and image within the cutoff, along the axes that are
periodic, where the vectors of the cell span the space. -/
def ListsNeighbors : Prop := ∀ x cutoffSq listed, lib.neighborList x cutoffSq = .ok listed → det x.cell ≠ 0 →
  ∀ i < x.sites.length, ∀ j < x.sites.length, ∀ o, (∀ k, x.pbc k = false → o k = 0) → (i = j → o ≠ 0) →
    x.distanceSq i j o ≤ cutoffSq → (j,o) ∈ listed i

/-- The primitive reduction preserves the crystal. -/
def PreservesCrystal : Prop := ∀ x sites cell, lib.primitive x = some (sites,cell) →
  SameCrystal x ⟨sites,cell,fun _ => true⟩

end Documented

/-- No check is blind to what is wrong with a parsed structure. -/
structure StructureImporter.Accountable (imp : StructureImporter) (x : Atoms) : Prop where
  /-- What is normalized is periodic already, since it is periodic afterwards in any case. -/
  periodic : imp.standardize = true → ∀ k, x.pbc k = true
  /-- No two atoms or images that are too near coincide: shorter distances are left out. -/
  apart : ∀ i < x.sites.length, ∀ j < x.sites.length, ∀ o, (i = j → o ≠ 0) →
    Closer (x.distanceSq i j o) imp.minNearestNeighborAngstrom → tinySq < x.distanceSq i j o
  /-- A single atom, which is not checked, is not too near to its images. -/
  single : x.sites.length = 1 → ∀ o ≠ 0, ¬ Closer (normSq (translate x.cell o)) imp.minNearestNeighborAngstrom

section Checked
variable {lib : Libraries} {x : Atoms} {limit : ℚ}

/-- What the neighbour check of two or more atoms has looked at. -/
theorem listed_of_validate (hmany : 2 ≤ x.sites.length) (h : lib.validateNearestNeighbors x limit = .ok []) :
    ∃ listed, lib.neighborList x x.cutoffSq = .ok listed ∧ ∀ i < x.sites.length, ∀ n ∈ listed i,
      tinySq < x.distanceSq i n.1 n.2 → ¬ Closer (x.distanceSq i n.1 n.2) limit := by
  unfold Libraries.validateNearestNeighbors Libraries.minNearestNeighborSq at h
  rw [if_neg hmany.not_gt, if_neg hmany.not_gt] at h
  obtain ⟨least,hleast,h⟩ := bind_eq_ok.mp h
  obtain ⟨listed,hlisted,hleast⟩ := bind_eq_ok.mp hleast
  refine ⟨listed,hlisted,fun i hi n hn htiny hclose => ?_⟩
  have hmem : x.distanceSq i n.1 n.2 ∈ ((List.range x.sites.length).flatMap fun i =>
      (listed i).map fun n => x.distanceSq i n.1 n.2).filter (tinySq < ·) :=
    List.mem_filter.mpr ⟨List.mem_flatMap.mpr ⟨i,List.mem_range.mpr hi,List.mem_map_of_mem hn⟩,
      decide_eq_true htiny⟩
  cases hleast
  obtain ⟨d,hd⟩ := Option.isSome_iff_exists.mp (List.isSome_min?_of_mem hmem)
  have hle := (List.min?_eq_some_iff.mp hd).2 _ hmem
  simp only [hd, if_pos (hclose.mono hle)] at h
  cases h

theorem Atoms.distanceSq_self (i : ℕ) (o : Translation) :
    x.distanceSq i i o = normSq (translate x.cell o) := by
  rw [Atoms.distanceSq, sub_add_cancel_left, normSq_neg]

/-- Vectors that do not span the space have translations of length zero. -/
theorem exists_zero_translation (h : det x.cell = 0) : ∃ o, o ≠ 0 ∧ translate x.cell o = 0 := by
  obtain ⟨o,hne,ho⟩ := exists_int_relation (det_eq x.cell ▸ h)
  exact ⟨o,hne,(translate_eq_vecMul x.cell o).trans ho⟩

/-- The first vector is no longer than the cutoff. -/
theorem Atoms.first_le_cutoff : normSq (translate x.cell ![1,0,0]) ≤ x.cutoffSq := by
  have hfirst : translate x.cell ![1,0,0] = x.cell 0 := by
    funext j
    simp [translate]
  rw [hfirst, Atoms.cutoffSq]
  exact le_max_of_le_right (le_max_left _ _)

/-- The check finds every pair that is too near, but for what it is blind to. -/
theorem separated_of_checked (hlists : ListsNeighbors lib) (hperiodic : ∀ k, x.pbc k = true)
    (hne : x.sites ≠ []) (h : lib.validateNearestNeighbors x limit = .ok [])
    (hapart : ∀ i < x.sites.length, ∀ j < x.sites.length, ∀ o, (i = j → o ≠ 0) →
      Closer (x.distanceSq i j o) limit → tinySq < x.distanceSq i j o)
    (hsingle : x.sites.length = 1 → ∀ o ≠ 0, ¬ Closer (normSq (translate x.cell o)) limit) :
    x.crystal.Separated (Near limit) := by
  rw [x.separated_iff]
  have hpos : 0 < x.sites.length := List.length_pos_iff.mpr hne
  rcases Nat.lt_or_ge x.sites.length 2 with hone | hmany
  · intro i hi j hj o ho
    obtain ⟨rfl,rfl⟩ : i = 0 ∧ j = 0 := by omega
    rw [Atoms.distanceSq_self]
    exact hsingle (by omega) o (ho rfl)
  · obtain ⟨listed,hlisted,hchecked⟩ := listed_of_validate hmany h
    by_contra hclose
    simp only [not_forall, not_not] at hclose
    obtain ⟨i,hi,j,hj,o,ho,hclose⟩ := hclose
    have hdet : det x.cell ≠ 0 := by
      intro hzero
      obtain ⟨p,hp,hshift⟩ := exists_zero_translation hzero
      have hnull : x.distanceSq 0 0 p = 0 := by
        rw [Atoms.distanceSq_self, hshift]
        simp [normSq]
      have htiny := hapart 0 hpos 0 hpos p (fun _ => hp) (hnull ▸ ⟨hclose.1,pow_pos hclose.1 2⟩)
      rw [hnull] at htiny
      exact absurd htiny (by decide +kernel)
    -- A pair that is too near is looked at when it is within the cutoff.
    have hfar {i j : ℕ} (hi : i < x.sites.length) (hj : j < x.sites.length) {o : Translation}
      (ho : i = j → o ≠ 0)
        (hle : x.distanceSq i j o ≤ x.cutoffSq) : ¬ Closer (x.distanceSq i j o) limit := by
      intro hcloser
      have hmem := hlists x _ listed hlisted hdet i hi j hj o
        (fun k hk => absurd (hperiodic k) (by rw [hk]; exact Bool.false_ne_true)) ho hle
      exact hchecked i hi _ hmem (hapart i hi j hj o ho hcloser) hcloser
    rcases le_or_gt (x.distanceSq i j o) x.cutoffSq with hle | hgt
    · exact hfar hi hj ho hle hclose
    · -- The limit is longer than the cutoff, so the first vector is too short already.
      have hself : x.distanceSq 0 0 ![1,0,0] ≤ x.cutoffSq := by
        rw [Atoms.distanceSq_self]
        exact x.first_le_cutoff
      exact hfar hpos hpos (fun _ => by decide) hself (hclose.mono (hself.trans hgt.le))

end Checked

namespace StructureImporter
variable {imp : StructureImporter} {lib : Libraries} {x y : Atoms} {report : ValidationReport}

@[simp] theorem describe_errors : (describe lib report y).errors = report.errors := by
  unfold describe
  split <;> rfl

@[simp] theorem describe_atoms : (describe lib report y).atoms = some y := by
  unfold describe
  split <;> rfl

/-- What an accepted structure has passed. -/
theorem validate_success {result : ValidationReport} (h : imp.validate lib report y = .ok result)
    (hsuccess : result.success = true) : result.atoms = report.atoms ∧ y.isPeriodic = true ∧
      lib.validateNearestNeighbors y imp.minNearestNeighborAngstrom = .ok [] := by
  unfold validate at h
  obtain ⟨neighbors,hneighbors,h⟩ := bind_eq_ok.mp h
  cases h
  simp only [List.isEmpty_iff, List.append_eq_nil_iff] at hsuccess
  obtain ⟨⟨⟨⟨-,hperiodic⟩,-⟩,-⟩,rfl⟩ := hsuccess
  refine ⟨rfl,?_,hneighbors⟩
  by_contra hnot
  rw [validatePeriodicity, if_neg hnot] at hperiodic
  cases hperiodic

/-- What the importer has found of a structure that it accepts. -/
theorem importStructure_success {source : Source} {format : Option String} {fractional : Bool}
    (hparse : lib.parse source (chosenFormat source format) fractional = .ok (.atoms x))
    (h : imp.importStructure lib source format fractional = .ok report) (hsuccess : report.success = true) :
    x.sites ≠ [] ∧ lib.validateNearestNeighbors x imp.minNearestNeighborAngstrom = .ok [] ∧
      report.atoms = some (imp.normalize lib x) ∧ (imp.normalize lib x).isPeriodic = true := by
  unfold importStructure at h
  simp only [hparse] at h
  by_cases hempty : x.sites = []
  · rw [if_pos hempty] at h
    cases h
    cases hsuccess
  rw [if_neg hempty] at h
  obtain ⟨neighbors,hneighbors,h⟩ := bind_eq_ok.mp h
  by_cases herrors : neighbors ≠ []
  · rw [if_pos herrors] at h
    cases h
    cases hsuccess
  rw [if_neg herrors] at h
  by_cases hvolume : det (imp.normalize lib x).cell ≤ 0
  · rw [if_pos hvolume] at h
    cases h
    cases hsuccess
  rw [if_neg hvolume] at h
  obtain ⟨hatoms,hperiodic,-⟩ := validate_success h hsuccess
  rw [not_not.mp herrors] at hneighbors
  exact ⟨hempty,hneighbors,hatoms.trans describe_atoms,hperiodic⟩

theorem isPeriodic_iff : y.isPeriodic = true ↔ ∀ k, y.pbc k = true := by
  rw [Atoms.isPeriodic, Fin.forall_fin_succ, Fin.forall_fin_two]
  simp [and_assoc]

/-- The normalization keeps that no two atoms are too near. -/
theorem normalize_separated (hpreserves : PreservesCrystal lib) {limit : ℚ}
    (h : x.crystal.Separated (Near limit)) : (imp.normalize lib x).crystal.Separated (Near limit) := by
  refine separated_sortSymbols ?_
  split_ifs with hstandardize
  · unfold Libraries.normalizeToPrimitive
    split
    case h_1 sites cell hprimitive => exact (hpreserves x sites cell hprimitive).separated h
    case h_2 => exact h
  · exact h

theorem normalize_pbc (hstandardize : imp.standardize = false) : (imp.normalize lib x).pbc = x.pbc := by
  rw [normalize, hstandardize]
  rfl

/-- An accepted structure, as parsed and as returned, is periodic and has no two atoms too near
just where no check was blind. -/
theorem importStructure_sound_iff (hlists : ListsNeighbors lib) (hpreserves : PreservesCrystal lib)
    {source : Source} {format : Option String} {fractional : Bool}
    (hparse : lib.parse source (chosenFormat source format) fractional = .ok (.atoms x))
    (h : imp.importStructure lib source format fractional = .ok report) (hsuccess : report.success = true) :
    (x.Sound imp.minNearestNeighborAngstrom ∧
        ∃ y, report.atoms = some y ∧ y.Sound imp.minNearestNeighborAngstrom) ↔
      imp.Accountable x := by
  obtain ⟨hne,hneighbors,hatoms,hperiodic⟩ := importStructure_success hparse h hsuccess
  rw [isPeriodic_iff] at hperiodic
  constructor
  · rintro ⟨hsound,-⟩
    have hfar := x.separated_iff.mp hsound.separated
    refine ⟨fun _ => hsound.periodic,fun i hi j hj o ho hclose => absurd hclose (hfar i hi j hj o ho),?_⟩
    intro hone o ho
    have hself := hfar 0 (by omega) 0 (by omega) o fun _ => ho
    rwa [Atoms.distanceSq_self] at hself
  · intro hblind
    have hpbc : ∀ k, x.pbc k = true := by
      cases hstandardize : imp.standardize with
      | true => exact hblind.periodic hstandardize
      | false => rwa [normalize_pbc hstandardize] at hperiodic
    have hseparated := separated_of_checked hlists hpbc hne hneighbors hblind.apart hblind.single
    exact ⟨⟨hpbc,hseparated⟩,_,hatoms,hperiodic,normalize_separated hpreserves hseparated⟩

end StructureImporter

section Boxes

/-- A cubic box of 4 Å. -/
def boxRows : List (List ℚ) := [[4,0,0],[0,4,0],[0,0,4]]

/-- Two atoms in the box. -/
def boxed (symbol symbol' : Text) (row row' : List ℚ) : Explicit where
  lattice := some boxRows
  positions := some (.nested [row,row'])
  symbols := some [symbol,symbol']

def boxedAtoms (symbol symbol' : Text) (row row' : List ℚ) : Atoms :=
  ⟨[⟨symbol,toVector row⟩,⟨symbol',toVector row'⟩],toMatrix boxRows,fun _ => true⟩

/-- Silicon twice at one place. -/
def coincident : Explicit := boxed "Si".toList "Si".toList [0,0,0] [0,0,0]

def coincidentAtoms : Atoms := boxedAtoms "Si".toList "Si".toList [0,0,0] [0,0,0]

def cesiumChloride : Explicit := boxed "Cl".toList "Cs".toList [0,0,0] [2,2,2]

def cesiumChlorideAtoms : Atoms := boxedAtoms "Cl".toList "Cs".toList [0,0,0] [2,2,2]

/-- The images in the box and next to it. -/
def boxTranslations : List Translation :=
  [-1,0,1].flatMap fun a => [-1,0,1].flatMap fun b => [-1,0,1].map fun c => ![a,b,c]

/-- The neighbours within 5.6 Å, the cutoff with the skin of the list. -/
def boxNeighbors (x : Atoms) (i : ℕ) : List (ℕ × Translation) :=
  ((List.range x.sites.length).flatMap fun j => boxTranslations.map fun o => (j,o)).filter fun n =>
    n ≠ (i,0) ∧ x.distanceSq i n.1 n.2 < (28 / 5) ^ 2

/-- The libraries on the two boxes: coincident atoms are not reduced. -/
def boxLibraries : Libraries where
  unicode := {}
  isSymbol symbol := String.ofList symbol ∈ allowedElements
  repr := String.ofList
  noFloat := String.ofList
  noArray := ""
  noAtoms := ""
  fileExists _ := .ok false
  readText _ := .error ""
  noPath := ""
  dictText _ := []
  readCif _ := .error ""
  readVaspFile _ := .error ""
  readVaspText _ := .error ""
  readXyz _ := .error ""
  neighborList x cutoffSq :=
    if cutoffSq = 25 ∧ (x = coincidentAtoms ∨ x = cesiumChlorideAtoms) then .ok (boxNeighbors x)
      else .error ""
  primitive x := if x = cesiumChlorideAtoms then some (x.sites,x.cell) else none
  occupancies x := .ok (x.sites.map fun s => (s.symbol,1))
  spaceGroup _ := .error ""
  formula _ := ""
  shown _ := ""
  rootShown _ _ := ""

theorem exists_accepted (imp : StructureImporter) (lib : Libraries) (source : Source)
    (h : (imp.importStructure lib source none false).toOption.map (·.success) = some true) :
    ∃ report, imp.importStructure lib source none false = .ok report ∧ report.success = true := by
  cases hreport : imp.importStructure lib source none false with
  | error e =>
    rw [hreport] at h
    cases h
  | ok report =>
    rw [hreport] at h
    exact ⟨report,rfl,Option.some.inj h⟩

/-- Two atoms at one place are accepted. -/
theorem coincident_accepted : ∃ report,
    boxLibraries.parse (.dict coincident) "explicit" false = .ok (.atoms coincidentAtoms) ∧
    ({} : StructureImporter).importStructure boxLibraries (.dict coincident) none false = .ok report ∧
    report.success = true ∧ coincidentAtoms.distanceSq 0 1 0 = 0 ∧ ¬ coincidentAtoms.Sound (4 / 5) := by
  have hparse : boxLibraries.parse (.dict coincident) "explicit" false = .ok (.atoms coincidentAtoms) := rfl
  have hzero : coincidentAtoms.distanceSq 0 1 0 = 0 := by decide +kernel
  obtain ⟨report,hreport,hsuccess⟩ := exists_accepted {} boxLibraries (.dict coincident)
    (by decide +kernel)
  refine ⟨report,hparse,hreport,hsuccess,hzero,fun hsound => ?_⟩
  have hfar := coincidentAtoms.separated_iff.mp hsound.separated 0 (by decide) 1 (by decide) 0 nofun
  rw [hzero] at hfar
  exact hfar (by decide +kernel)

theorem boxTranslations_mem {o : Translation} (h : ∀ k, -1 ≤ o k ∧ o k ≤ 1) : o ∈ boxTranslations := by
  have hvalue (k : Fin 3) : o k ∈ ([-1,0,1] : List ℤ) := by
    have hk := h k
    simp only [List.mem_cons, List.not_mem_nil, or_false]
    omega
  have heta : o = ![o 0,o 1,o 2] := by
    funext k
    fin_cases k <;> rfl
  rw [heta]
  exact List.mem_flatMap.mpr ⟨_,hvalue 0,List.mem_flatMap.mpr ⟨_,hvalue 1,List.mem_map_of_mem (hvalue 2)⟩⟩

/-- A component of a difference of places in the box. -/
theorem box_component (v : Vector3) (o : Translation) (k : Fin 3) :
    (v k - 4 * o k) ^ 2 ≤ normSq (v - translate (toMatrix boxRows) o) := by
  have hshift : translate (toMatrix boxRows) o k = 4 * o k := by
    fin_cases k <;> simp [translate, toMatrix, boxRows, mul_comm]
  have hsquares (w : Vector3) (l : Fin 3) : 0 ≤ w l * w l := mul_self_nonneg _
  rw [← hshift, ← Pi.sub_apply, normSq, pow_two]
  fin_cases k
  · exact le_add_of_le_of_nonneg (le_add_of_nonneg_right (hsquares _ 1)) (hsquares _ 2)
  · exact le_add_of_le_of_nonneg (le_add_of_nonneg_left (hsquares _ 0)) (hsquares _ 2)
  · exact le_add_of_nonneg_left (add_nonneg (hsquares _ 0) (hsquares _ 1))

/-- Atoms at most 2 Å apart along each axis have their neighbours within 5 Å in the next boxes. -/
theorem box_bound {v : Vector3} {o : Translation} (hv : ∀ k, -2 ≤ v k ∧ v k ≤ 2)
    (h : normSq (v - translate (toMatrix boxRows) o) ≤ 25) : ∀ k, -1 ≤ o k ∧ o k ≤ 1 := by
  intro k
  have hterm : (v k - 4 * o k) ^ 2 ≤ 5 ^ 2 := (box_component v o k).trans (h.trans (by norm_num))
  obtain ⟨hlow,hhigh⟩ := abs_le.mp (abs_le_of_sq_le_sq hterm (by norm_num))
  have hupper : (4 * o k : ℚ) ≤ 7 := by linarith [(hv k).2]
  have hlower : (-7 : ℚ) ≤ 4 * o k := by linarith [(hv k).1]
  have hupper : 4 * o k ≤ 7 := by exact_mod_cast hupper
  have hlower : -7 ≤ 4 * o k := by exact_mod_cast hlower
  omega

theorem boxed_positions {x : Atoms} (hx : x = coincidentAtoms ∨ x = cesiumChlorideAtoms) :
    x.sites.length = 2 ∧ x.cell = toMatrix boxRows ∧
      ∀ i < 2, ∀ j < 2, ∀ k, -2 ≤ (x.position i - x.position j) k ∧ (x.position i - x.position j) k ≤ 2 := by
  obtain rfl | rfl := hx
  · exact ⟨rfl,rfl,by decide +kernel⟩
  · exact ⟨rfl,rfl,by decide +kernel⟩

theorem boxed_distance {x : Atoms} (hcell : x.cell = toMatrix boxRows) (i j : ℕ) (o : Translation) :
    x.distanceSq i j o = normSq (x.position i - x.position j - translate (toMatrix boxRows) o) := by
  rw [Atoms.distanceSq, hcell, sub_add_eq_sub_sub]

theorem boxLibraries_lists : ListsNeighbors boxLibraries := by
  intro x cutoffSq listed hlisted _ i hi j hj o _ ho hle
  simp only [boxLibraries] at hlisted
  split_ifs at hlisted with hx
  cases hlisted
  obtain ⟨rfl,hx⟩ := hx
  obtain ⟨hlength,hcell,hpositions⟩ := boxed_positions hx
  have hbox := box_bound (hpositions i (hlength ▸ hi) j (hlength ▸ hj)) (boxed_distance hcell i j o ▸ hle)
  refine List.mem_filter.mpr ⟨?_,decide_eq_true ⟨?_,hle.trans_lt (by norm_num)⟩⟩
  · exact List.mem_flatMap.mpr ⟨j,List.mem_range.mpr hj,List.mem_map_of_mem (boxTranslations_mem hbox)⟩
  · intro hsame
    exact ho (Prod.mk.inj hsame).1.symm (Prod.mk.inj hsame).2

theorem boxLibraries_preserves : PreservesCrystal boxLibraries := by
  intro x sites cell h
  simp only [boxLibraries] at h
  split_ifs at h with hx
  cases h
  exact ⟨Equiv.refl _,fun _ => rfl,fun _ _ => rfl⟩

/-- Cesium and chlorine are 2 Å apart along each axis, and their images 4 Å. -/
theorem cesiumChloride_far : ∀ i < 2, ∀ j < 2, ∀ o : Translation, (i = j → o ≠ 0) →
    1 ≤ cesiumChlorideAtoms.distanceSq i j o := by
  intro i hi j hj o ho
  by_contra hnear
  have hterm (k : Fin 3) :
      ((cesiumChlorideAtoms.position i - cesiumChlorideAtoms.position j) k - 4 * o k) ^ 2 < 1 ^ 2 := by
    have hpart := box_component (cesiumChlorideAtoms.position i - cesiumChlorideAtoms.position j) o k
    rw [← boxed_distance rfl] at hpart
    linarith
  have hsmall (k : Fin 3) := abs_lt.mp (abs_lt_of_sq_lt_sq (hterm k) zero_le_one)
  have hdifference : ∀ i < 2, ∀ j < 2, ∀ k,
      (cesiumChlorideAtoms.position i - cesiumChlorideAtoms.position j) k = 2 * ((i : ℤ) - j : ℤ) := by
    decide +kernel
  have hinteger (k : Fin 3) : -1 < 2 * ((i : ℤ) - j) - 4 * o k ∧ 2 * ((i : ℤ) - j) - 4 * o k < 1 := by
    have hk := hsmall k
    rw [hdifference i hi j hj k] at hk
    exact ⟨by exact_mod_cast hk.1,by exact_mod_cast hk.2⟩
  have hsame : i = j := by
    have hfirst := hinteger 0
    omega
  refine ho hsame (funext fun k => ?_)
  have hk := hinteger k
  rw [Pi.zero_apply]
  omega

/-- Cesium chloride is accepted, and is sound. -/
theorem cesiumChloride_sound : ∃ report,
    ({} : StructureImporter).importStructure boxLibraries (.dict cesiumChloride) none false = .ok report ∧
    report.success = true ∧ cesiumChlorideAtoms.Sound (4 / 5) ∧
    ∃ y, report.atoms = some y ∧ y.Sound (4 / 5) := by
  obtain ⟨report,hreport,hsuccess⟩ := exists_accepted {} boxLibraries (.dict cesiumChloride)
    (by decide +kernel)
  have hsound := StructureImporter.importStructure_sound_iff boxLibraries_lists boxLibraries_preserves
    (x := cesiumChlorideAtoms) rfl hreport hsuccess
  have haccountable : ({} : StructureImporter).Accountable cesiumChlorideAtoms := by
    refine ⟨fun _ _ => rfl,fun i hi j hj o ho _ => ?_,nofun⟩
    exact lt_of_lt_of_le (by decide +kernel) (cesiumChloride_far i hi j hj o ho)
  obtain ⟨hparsed,hreturned⟩ := hsound.mpr haccountable
  exact ⟨report,hreport,hsuccess,hparsed,hreturned⟩

end Boxes
end DftForge.Structure
