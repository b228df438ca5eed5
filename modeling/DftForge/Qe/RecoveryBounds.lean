import DftForge.Qe.Attempts

/-! # The bounds of the recovery actions

An increase is planned from the cutoff rounded to hundredths, or from the first division of
the mesh for all three; a decrease of the mesh and the tighter threshold are constants. The
bounds that the controller promises hold on the baselines described here and on no others.
-/
namespace DftForge.Qe
open DftForge.Runtime DftForge.Python DftForge.Engines DftForge.Catalog Library.Doubles

section Rounding
variable {q : ℚ} {k : ℤ}

/-- At least halfway to some hundredth that is not below `lo`. -/
def NearAbove (lo x : ℚ) : Prop := ∃ j : ℤ, lo ≤ hundredth j ∧
  ((j : ℚ) - 1 / 2 < x * 100 ∨ (x * 100 = j - 1 / 2 ∧ j % 2 = 0))

/-- At most halfway from some hundredth that is not above `hi`. -/
def NearBelow (hi x : ℚ) : Prop := ∃ j : ℤ, hundredth j ≤ hi ∧
  (x * 100 < (j : ℚ) + 1 / 2 ∨ (x * 100 = j + 1 / 2 ∧ j % 2 = 0))

theorem hundredth_mono {i j : ℤ} (h : i ≤ j) : hundredth i ≤ hundredth j := by
  have hcast : (i : ℚ) ≤ j := by exact_mod_cast h
  exact double_mono (div_le_div_of_nonneg_right hcast (by norm_num))

theorem le_round2_iff {lo x : ℚ} : lo ≤ round2 x ↔ NearAbove lo x := by
  constructor
  · exact fun h => ⟨_,h,le_roundEven_iff.mp le_rfl⟩
  · rintro ⟨j,hj,hx⟩
    exact hj.trans (hundredth_mono (le_roundEven_iff.mpr hx))

theorem round2_le_iff {hi x : ℚ} : round2 x ≤ hi ↔ NearBelow hi x := by
  constructor
  · exact fun h => ⟨_,h,roundEven_le_iff.mp le_rfl⟩
  · rintro ⟨j,hj,hx⟩
    exact (hundredth_mono (roundEven_le_iff.mpr hx)).trans hj

theorem le_truncate_iff (hk : 0 < k) : k ≤ truncate q ↔ (k : ℚ) ≤ q := by
  unfold truncate
  split_ifs with hq
  · refine iff_of_false ?_ (not_le.mpr (hq.trans (by exact_mod_cast hk)))
    have hceil : ⌈q⌉ ≤ 0 := Int.ceil_le.mpr (by exact_mod_cast hq.le)
    omega
  · exact Int.le_floor

theorem truncate_of_nonneg (hq : 0 ≤ q) : truncate q = ⌊q⌋ := if_neg (not_lt.mpr hq)

end Rounding

/-- A mesh with positive divisions, and the shifts behind them. -/
structure Mesh where
  k : ℕ
  l : ℕ
  m : ℕ
  shifts : List Json
  pos : 0 < k ∧ 0 < l ∧ 0 < m

def Mesh.json (mesh : Mesh) : Json :=
  .arr (.num mesh.k :: .num mesh.l :: .num mesh.m :: mesh.shifts)

namespace RecoveryController

/-- The value a retry has for a key that the parameters leave out. -/
def defaultOf : String → Json
  | "ecutwfc" => ecutDefault
  | "nbnd" => nbndDefault
  | "kpoints_nscf" => kpointsNscfDefault
  | "conv_thr" => .num (1 / 10 ^ 8)
  | _ => kpointsDefault

/-- Parameters with positive cutoff, bands, threshold and divisions, given or by default. -/
structure PositiveBaseline where
  params : Dict
  ecutwfc : ℚ
  nbnd : ℚ
  convThr : ℚ
  kpoints : Mesh
  kpointsNscf : Mesh
  ecutwfc_pos : 0 < ecutwfc
  nbnd_pos : 0 < nbnd
  convThr_pos : 0 < convThr
  ecutwfc_eq : baselineOf params "ecutwfc" (defaultOf "ecutwfc") = .num ecutwfc
  nbnd_eq : baselineOf params "nbnd" (defaultOf "nbnd") = .num nbnd
  convThr_eq : baselineOf params "conv_thr" (defaultOf "conv_thr") = .num convThr
  kpoints_eq : baselineOf params "kpoints" (defaultOf "kpoints") = kpoints.json
  kpointsNscf_eq : baselineOf params "kpoints_nscf" (defaultOf "kpoints_nscf") = kpointsNscf.json

/-- Every component at least the old one and at most `scale` times it, computed as the program does, and the
shifts as they were. -/
def Raised (scale : ℚ) : Json → Json → Prop
  | .num old, .num new => old ≤ new ∧ new ≤ times scale old
  | .arr (.num k :: .num l :: .num m :: shifts), .arr (.num k' :: .num l' :: .num m' :: shifts') =>
    (k ≤ k' ∧ k' ≤ times scale k) ∧ (l ≤ l' ∧ l' ≤ times scale l) ∧ (m ≤ m' ∧ m' ≤ times scale m) ∧
      shifts' = shifts
  | _, _ => False

/-- No number and no division above the old one. -/
def Lowered : Json → Json → Prop
  | .num old, .num new => new ≤ old
  | .arr (.num k :: .num l :: .num m :: _), .arr (.num k' :: .num l' :: .num m' :: _) =>
    k' ≤ k ∧ l' ≤ l ∧ m' ≤ m
  | _, _ => False

section Bounds
variable (c : RecoveryController)

def scaleOf : String → ℚ
  | "ecutwfc" => c.maxEcutScale
  | "nbnd" => c.maxNbndScale
  | _ => c.maxKpointsScale

/-- What the action does to each parameter is what its type says, within the bounds. -/
structure Bounded (baseline : Dict) (action : RecoveryAction) : Prop where
  raised : action.actionType ∈ increases → ∀ entry ∈ action.params,
    Raised (c.scaleOf entry.1) (baselineOf baseline entry.1 (defaultOf entry.1)) entry.2
  lowered : action.actionType ∈ ["reduce_kpoints","tighten_conv_thr"] → ∀ entry ∈ action.params,
    Lowered (baselineOf baseline entry.1 (defaultOf entry.1)) entry.2

/-- Where the cutoff is raised, its rounding keeps the larger one in range. -/
def CutoffFits (ecut : ℚ) : Prop := ecut < c.newEcut ecut →
  NearAbove ecut (c.newEcut ecut) ∧ NearBelow (times ecut c.maxEcutScale) (c.newEcut ecut)

/-- A division that may be replaced by the double of the first one, or by its multiple. -/
def DivisionFits (k n : ℕ) : Prop :=
  n ≤ 2 * k ∧ n ≤ times k c.maxKpointsScale ∧
    ((2 * k : ℚ) ≤ times n c.maxKpointsScale ∨ (⌊times k c.maxKpointsScale⌋ : ℚ) ≤ times n c.maxKpointsScale)

/-- Where the mesh is raised, its shifts are those that the planner writes, and the other
divisions are close enough to the first. -/
def MeshFits (mesh : Mesh) : Prop := (mesh.k + 1 : ℚ) ≤ times mesh.k c.maxKpointsScale →
  c.DivisionFits mesh.k mesh.l ∧ c.DivisionFits mesh.k mesh.m ∧ mesh.shifts = [.num 1,.num 1,.num 1]

/-- The baselines that the actions of a kind of failure treat within the bounds. -/
def Fits (b : PositiveBaseline) : FailureKind → Prop
  | .scfNotConverged => c.CutoffFits b.ecutwfc ∧ c.MeshFits b.kpoints
  | .nscfNotConverged => c.MeshFits b.kpointsNscf
  | .forcesTooHigh => c.CutoffFits b.ecutwfc ∧ 1 / 10 ^ 9 ≤ b.convThr
  | .jobTimeout => 4 ≤ b.kpoints.k ∧ 4 ≤ b.kpoints.l ∧ 4 ≤ b.kpoints.m
  | _ => True

end Bounds

section Planners
variable {c : RecoveryController} {shown : Json → String} {b : PositiveBaseline}
variable {action : RecoveryAction} {baseline : Dict} {key : String} {value : Json}

theorem bounded_of_increase (htype : action.actionType ∈ increases)
    (hparams : action.params = [(key,value)]) : c.Bounded baseline action ↔
      Raised (c.scaleOf key) (baselineOf baseline key (defaultOf key)) value := by
  have hother : action.actionType ∉ ["reduce_kpoints","tighten_conv_thr"] := by
    intro h
    simp only [increases, List.mem_cons, List.not_mem_nil, or_false] at htype h
    obtain h | h := h <;> rw [h] at htype <;> simp at htype
  constructor
  · intro h
    exact h.raised htype (key,value) (by rw [hparams]; exact List.mem_singleton_self _)
  · intro h
    refine ⟨fun _ entry hentry => ?_,fun h => absurd h hother⟩
    rw [hparams, List.mem_singleton] at hentry
    subst hentry
    exact h

theorem bounded_of_decrease (htype : action.actionType ∈ ["reduce_kpoints","tighten_conv_thr"])
    (hparams : action.params = [(key,value)]) : c.Bounded baseline action ↔
      Lowered (baselineOf baseline key (defaultOf key)) value := by
  have hother : action.actionType ∉ increases := by
    intro h
    simp only [increases, List.mem_cons, List.not_mem_nil, or_false] at htype h
    obtain h' | h' := htype <;> rw [h'] at h <;> simp at h
  constructor
  · intro h
    exact h.lowered htype (key,value) (by rw [hparams]; exact List.mem_singleton_self _)
  · intro h
    refine ⟨fun h => absurd h hother,fun _ entry hentry => ?_⟩
    rw [hparams, List.mem_singleton] at hentry
    subst hentry
    exact h

theorem bounded_of_fixed (hparams : action.params = []) : c.Bounded baseline action := by
  constructor
  · simp [hparams]
  · simp [hparams]

/-- A planner answers, with actions within the bounds exactly where `fits` says. -/
def Plans (c : RecoveryController) (b : PositiveBaseline) (plan : Option (List RecoveryAction))
    (fits : Prop) : Prop :=
  ∃ actions, plan = some actions ∧ ((∀ action ∈ actions, c.Bounded b.params action) ↔ fits)

theorem increaseEcut_plans (c : RecoveryController) (shown : Json → String) (b : PositiveBaseline) :
    Plans c b (c.increaseEcut shown b.params) (c.CutoffFits b.ecutwfc) := by
  have hget : baselineOf b.params "ecutwfc" ecutDefault = .num b.ecutwfc := b.ecutwfc_eq
  refine ⟨_,by rw [increaseEcut, hget, numberOf, Option.map_some],?_⟩
  split_ifs with h
  · rw [List.forall_mem_singleton, bounded_of_increase (.head _) rfl, b.ecutwfc_eq]
    change (_ ≤ _ ∧ _ ≤ times c.maxEcutScale _) ↔ _
    rw [le_round2_iff, times_comm c.maxEcutScale, round2_le_iff]
    exact ⟨fun hfits _ => hfits,fun hfits => hfits h⟩
  · exact iff_of_true (List.forall_mem_nil _) fun hs => absurd hs h

/-- The number of bands is rounded down, which keeps it in range. -/
theorem increaseNbnd_plans (c : RecoveryController) (shown : Json → String) (b : PositiveBaseline) :
    Plans c b (c.increaseNbnd shown b.params) True := by
  have hget : baselineOf b.params "nbnd" nbndDefault = .num b.nbnd := b.nbnd_eq
  refine ⟨_,by rw [increaseNbnd, hget, numberOf, Option.map_some],iff_of_true ?_ trivial⟩
  split_ifs with h
  · rw [List.forall_mem_singleton, bounded_of_increase (.tail _ (.tail _ (.head _))) rfl, b.nbnd_eq]
    have hpos := b.nbnd_pos.trans h
    have htop := (le_truncate_iff (by exact_mod_cast hpos)).mp
      (min_le_right (truncate (times b.nbnd (3 / 2))) (truncate (times b.nbnd c.maxNbndScale)))
    exact ⟨h.le,htop.trans_eq (times_comm _ _)⟩
  · exact List.forall_mem_nil _

/-- The smaller of the doubled first division and its multiple, seen from a division `n`. -/
theorem raised_division_iff {k n : ℕ} :
    (n : ℚ) ≤ (min (2 * (k : ℤ)) ⌊times k c.maxKpointsScale⌋ : ℤ) ∧
      ((min (2 * (k : ℤ)) ⌊times k c.maxKpointsScale⌋ : ℤ) : ℚ) ≤ times c.maxKpointsScale n ↔
      c.DivisionFits k n := by
  have hup : (n : ℚ) ≤ (min (2 * (k : ℤ)) ⌊times k c.maxKpointsScale⌋ : ℤ) ↔
      n ≤ 2 * k ∧ (n : ℚ) ≤ times k c.maxKpointsScale := by
    rw [← Int.cast_natCast n, Int.cast_le, le_min_iff, Int.le_floor]
    norm_cast
  have hdown : ((min (2 * (k : ℤ)) ⌊times k c.maxKpointsScale⌋ : ℤ) : ℚ) ≤ times c.maxKpointsScale n ↔
      (2 * k : ℚ) ≤ times n c.maxKpointsScale ∨
        (⌊times k c.maxKpointsScale⌋ : ℚ) ≤ times n c.maxKpointsScale := by
    rw [Int.cast_min, min_le_iff, times_comm c.maxKpointsScale]
    norm_cast
  rw [hup, hdown, DivisionFits, and_assoc]

/-- The first division itself always stays in range where the mesh is raised. -/
theorem divisionFits_self {k : ℕ} (hgrows : (k + 1 : ℚ) ≤ times k c.maxKpointsScale) :
    c.DivisionFits k k := by
  refine ⟨by omega,?_,.inr (Int.floor_le _)⟩
  linarith

theorem ints_mesh (n : ℤ) :
    ints [n,n,n,1,1,1] = .arr [.num n,.num n,.num n,.num 1,.num 1,.num 1] := by
  simp [ints]

theorem increaseKpoints_plans (c : RecoveryController) (shown : Json → String) (b : PositiveBaseline)
    (key : String) (default : Json) {mesh : Mesh} (hd : defaultOf key = default)
    (hscale : c.scaleOf key = c.maxKpointsScale) (hget : baselineOf b.params key default = mesh.json) :
    Plans c b (c.increaseKpoints shown b.params key default) (c.MeshFits mesh) := by
  have hk : 0 < mesh.k := mesh.pos.1
  have hdouble : truncate ((mesh.k : ℚ) * 2) = 2 * (mesh.k : ℤ) := by
    rw [truncate_of_nonneg (by positivity)]
    have hcast : (mesh.k : ℚ) * 2 = ((2 * (mesh.k : ℤ) : ℤ) : ℚ) := by push_cast; ring
    rw [hcast, Int.floor_intCast]
  have hgrows : (mesh.k : ℚ) < c.newKp mesh.k ↔ (mesh.k + 1 : ℚ) ≤ times mesh.k c.maxKpointsScale := by
    have hnext := le_truncate_iff (q := times mesh.k c.maxKpointsScale) (k := (mesh.k : ℤ) + 1) (by omega)
    push_cast at hnext
    rw [← hnext, newKp, hdouble, ← Int.cast_natCast, Int.cast_lt, lt_min_iff, Int.lt_iff_add_one_le,
      Int.lt_iff_add_one_le]
    omega
  refine ⟨_,by rw [increaseKpoints, hget, Mesh.json]; rfl,?_⟩
  dsimp only
  split_ifs with h
  · have hfires := hgrows.mp h
    have hfloor : truncate (times mesh.k c.maxKpointsScale) = ⌊times mesh.k c.maxKpointsScale⌋ :=
      truncate_of_nonneg (le_trans (by positivity) hfires)
    rw [List.forall_mem_singleton, bounded_of_increase (.tail _ (.head _)) rfl, hd, hget, hscale,
      newKp, hdouble, hfloor, ints_mesh]
    change (_ ∧ _) ∧ (_ ∧ _) ∧ (_ ∧ _) ∧ [_,_,_] = mesh.shifts ↔ _
    rw [raised_division_iff, raised_division_iff, raised_division_iff,
      eq_comm (a := [_,_,_])]
    constructor
    · rintro ⟨-,hl,hm,hshifts⟩ _
      exact ⟨hl,hm,hshifts⟩
    · intro hfits
      exact ⟨divisionFits_self hfires,hfits hfires⟩
  · exact iff_of_true (List.forall_mem_nil _) fun hs => absurd (hgrows.mpr hs) h

theorem planScfFailure_plans (c : RecoveryController) (shown : Json → String) (b : PositiveBaseline) :
    Plans c b (c.planScfFailure shown b.params) (c.CutoffFits b.ecutwfc ∧ c.MeshFits b.kpoints) := by
  obtain ⟨ecut,hecut,hfits⟩ := increaseEcut_plans c shown b
  obtain ⟨mesh,hmesh,hmfits⟩ := increaseKpoints_plans c shown b "kpoints" kpointsDefault rfl rfl b.kpoints_eq
  refine ⟨_,by rw [planScfFailure, hecut, hmesh]; rfl,?_⟩
  rw [List.forall_mem_append, List.forall_mem_append, hfits, hmfits, List.forall_mem_singleton]
  exact and_iff_left (bounded_of_fixed rfl)

theorem planNscfFailure_plans (c : RecoveryController) (shown : Json → String) (b : PositiveBaseline) :
    Plans c b (c.planNscfFailure shown b.params) (c.MeshFits b.kpointsNscf) := by
  obtain ⟨bands,hbands,hfits⟩ := increaseNbnd_plans c shown b
  obtain ⟨mesh,hmesh,hmfits⟩ :=
    increaseKpoints_plans c shown b "kpoints_nscf" kpointsNscfDefault rfl rfl b.kpointsNscf_eq
  refine ⟨_,by rw [planNscfFailure, hbands, hmesh]; rfl,?_⟩
  rw [List.forall_mem_append, hfits, hmfits, true_and]

theorem planForcesFailure_plans (c : RecoveryController) (shown : Json → String) (b : PositiveBaseline) :
    Plans c b (c.planForcesFailure shown b.params) (c.CutoffFits b.ecutwfc ∧ 1 / 10 ^ 9 ≤ b.convThr) := by
  obtain ⟨ecut,hecut,hfits⟩ := increaseEcut_plans c shown b
  refine ⟨_,by rw [planForcesFailure, hecut]; rfl,?_⟩
  rw [List.forall_mem_append, hfits, List.forall_mem_singleton,
    bounded_of_decrease (.tail _ (.head _)) rfl, b.convThr_eq]
  rfl

theorem planFixed_bounded_iff (c : RecoveryController) (b : PositiveBaseline) (kind : FailureKind) :
    c.Bounded b.params (planFixed kind) ↔
      (kind = .jobTimeout → 4 ≤ b.kpoints.k ∧ 4 ≤ b.kpoints.l ∧ 4 ≤ b.kpoints.m) := by
  by_cases hkind : kind = .jobTimeout
  · subst hkind
    rw [bounded_of_decrease (.head _) rfl, ints_mesh, b.kpoints_eq]
    change (_ ∧ _ ∧ _) ↔ _
    norm_num
  · refine iff_of_true (bounded_of_fixed ?_) fun h => absurd h hkind
    cases kind with
    | jobTimeout => exact absurd rfl hkind
    | _ => rfl

/-- Below the last attempt the planner answers, and its actions are within the bounds
exactly on the baselines that fit. -/
theorem planActions_bounded_iff (c : RecoveryController) (shown : Json → String) (b : PositiveBaseline)
    (kind : FailureKind) {attempt : ℕ} (hattempt : attempt < c.maxAttempts) :
    ∃ actions, c.planActions shown b.params kind attempt = some actions ∧
      ((∀ action ∈ actions, c.Bounded b.params action) ↔ c.Fits b kind) := by
  unfold planActions
  rw [if_neg (not_le.mpr hattempt)]
  have hfixed := planFixed_bounded_iff c b kind
  cases kind with
  | scfNotConverged => exact planScfFailure_plans c shown b
  | nscfNotConverged => exact planNscfFailure_plans c shown b
  | forcesTooHigh => exact planForcesFailure_plans c shown b
  | jobTimeout => exact ⟨_,rfl,List.forall_mem_singleton.trans (hfixed.trans (forall_prop_of_true rfl))⟩
  | _ => exact ⟨_,rfl,iff_of_true (List.forall_mem_singleton.mpr (hfixed.mpr nofun)) trivial⟩

end Planners
/-- The defaults of a relaxation, with a mesh of its own. -/
def relaxedOn (kpoints : Mesh) : PositiveBaseline where
  params := [("ecutwfc",.num 25),("conv_thr",.num (1 / 10 ^ 8)),("kpoints",kpoints.json)]
  ecutwfc := 25
  nbnd := 16
  convThr := 1 / 10 ^ 8
  kpoints := kpoints
  kpointsNscf := ⟨8,8,8,[.num 1,.num 1,.num 1],by decide⟩
  ecutwfc_pos := by norm_num
  nbnd_pos := by norm_num
  convThr_pos := by norm_num
  ecutwfc_eq := rfl
  nbnd_eq := rfl
  convThr_eq := rfl
  kpoints_eq := rfl
  kpointsNscf_eq := by
    change kpointsNscfDefault = _
    simp [kpointsNscfDefault, ints, Mesh.json]

def cubicMesh : Mesh := ⟨4,4,4,[.num 1,.num 1,.num 1],by decide⟩

def slabMesh : Mesh := ⟨4,4,1,[.num 0,.num 0,.num 0],by decide⟩

theorem cubic_bounded : ∃ actions,
    planActions {} (fun _ => "") (relaxedOn cubicMesh).params .scfNotConverged 1 = some actions ∧
      ∀ action ∈ actions, Bounded {} (relaxedOn cubicMesh).params action := by
  obtain ⟨actions,hactions,hfits⟩ :=
    planActions_bounded_iff {} (fun _ => "") (relaxedOn cubicMesh) .scfNotConverged
      (show 1 < ({} : RecoveryController).maxAttempts by decide)
  refine ⟨actions,hactions,hfits.mpr ⟨fun _ => ?_,fun _ => ?_⟩⟩
  · have htop : double 75 = 75 := double_intCast (n := 75) (by norm_num)
    change NearAbove 25 (newEcut {} 25) ∧ NearBelow (times 25 3) (newEcut {} 25)
    rw [← le_round2_iff, ← round2_le_iff, newEcut_default, round2_newEcut_default, times]
    norm_num [htop]
  · have htop : double 8 = 8 := double_intCast (n := 8) (by norm_num)
    norm_num [DivisionFits, relaxedOn, cubicMesh, times, htop]

/-- The single division of a slab becomes eight, and its mesh is shifted. -/
theorem slab_out_of_bounds : ¬ ∀ actions,
    planActions {} (fun _ => "") (relaxedOn slabMesh).params .scfNotConverged 1 = some actions →
      ∀ action ∈ actions, Bounded {} (relaxedOn slabMesh).params action := by
  intro h
  obtain ⟨actions,hactions,hfits⟩ := planScfFailure_plans {} (fun _ => "") (relaxedOn slabMesh)
  obtain ⟨-,hmesh⟩ := hfits.mp (h actions hactions)
  have height : double 8 = 8 := double_intCast (n := 8) (by norm_num)
  have htwo : double 2 = 2 := double_intCast (n := 2) (by norm_num)
  have hgrows : ((relaxedOn slabMesh).kpoints.k + 1 : ℚ) ≤
      times (relaxedOn slabMesh).kpoints.k ({} : RecoveryController).maxKpointsScale := by
    norm_num [relaxedOn, slabMesh, times, height]
  obtain ⟨-,⟨-,-,htop⟩,-⟩ := hmesh hgrows
  norm_num [relaxedOn, slabMesh, times, height, htwo] at htop

end RecoveryController
end DftForge.Qe
