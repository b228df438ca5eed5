import DftForge.Qe.Recovery

/-! # Attempts of a task and their recovery actions

`TaskRunner.run_t1`, `run_t2_bands` and `run_t2_dos` run a task with its parameters,
overridden by those of a retry, and record what to change next. The changes are planned
from the parameters of the task, whether or not the attempt used them.
-/
namespace DftForge.Qe
open DftForge.Runtime DftForge.Python DftForge.Engines DftForge.Catalog

inductive RunMethod where
  | t1
  | t2Bands
  | t2Dos
  deriving DecidableEq, Repr

namespace RunMethod

/-- The keys that the method looks up, with its defaults. -/
def reads : RunMethod → List (String × Json)
  | .t1 => [("ecutwfc",.null),("ecutrho",.null),("kpoints",ints [4,4,4,1,1,1]),
      ("conv_thr",.num (1 / 10 ^ 8)),("nstep",.num 200),("cell_optimization",.bool true)]
  | .t2Bands => [("ecutwfc",.null),("ecutrho",.null),("kpoints_scf",ints [8,8,8,1,1,1]),
      ("conv_thr",.num (1 / 10 ^ 8)),("nbnd",.null),("kpoints_nscf",ints [8,8,8,1,1,1]),
      ("nkpoints_bands",.num 100)]
  | .t2Dos => [("ecutwfc",.null),("ecutrho",.null),("kpoints_scf",ints [8,8,8,1,1,1]),
      ("conv_thr",.num (1 / 10 ^ 8)),("nbnd",.null),("kpoints_nscf",ints [8,8,8,1,1,1]),
      ("dos_deltae",.num (1 / 100)),("dos_fwhm",.num (5 / 100))]

/-- What the method passes on for each key. -/
def arguments (m : RunMethod) (params : Dict) : List (String × Json) :=
  m.reads.map fun kd => (kd.1,(params.get? kd.1).getD kd.2)

end RunMethod

/-- What the compiler fills in: the defaults of the material, and the number of bands that
its pseudopotentials call for. -/
structure Defaults where
  ecutwfc : ℚ
  ecutrho : ℚ
  kpoints : List ℤ
  nbnd : ℕ

/-- The value of an argument after the compiler has filled it in. -/
def Defaults.fill (d : Defaults) (key : String) : Json → Json
  | .null =>
    if key = "ecutwfc" then .num d.ecutwfc
    else if key = "ecutrho" then .num d.ecutrho
    else if key = "nbnd" then .num d.nbnd else .null
  | .arr [] => if key = "kpoints" || key = "kpoints_scf" || key = "kpoints_nscf" then ints d.kpoints else .arr []
  | value => value

/-- One call of a run method: the parameters of its task, those of the retry, and the report
of the verifier on what came of it. -/
structure Attempt (F : Type) where
  method : RunMethod
  parameters : Dict
  retryParams : Option Dict := none
  defaults : Defaults
  report : ConvergenceReport F

namespace Attempt
variable {F : Type} (a : Attempt F)

/-- The parameters of the attempt. -/
def params : Dict := a.parameters.update (a.retryParams.getD [])

/-- The value the attempt used for a key, if its method reads it. -/
def used (key : String) : Option Json :=
  ((a.method.arguments a.params).lookup key).map (a.defaults.fill key)

end Attempt

structure RunRecord where
  attempt : ℕ
  success : Bool
  failureReasons : List String
  actions : List RecoveryAction

section Runner
variable {F : Type} (shown : Json → String)

/-- What an attempt records after that many records; nothing where the planning raises. -/
def recordOf (before : ℕ) (a : Attempt F) : Option RunRecord :=
  (RecoveryController.planActions {} shown a.parameters (classify a.report) (before + 1)).map fun actions =>
    { attempt := before + 1, success := a.report.passed, failureReasons := a.report.failureReasons, actions }

/-- `run_records` after one more attempt, each record beside its attempt. -/
def logAttempt (log : List (Attempt F × RunRecord)) (a : Attempt F) : List (Attempt F × RunRecord) :=
  log ++ ((recordOf shown log.length a).map fun r => (a,r)).toList

/-- `run_records` after a sequence of attempts. -/
def runLog (log : List (Attempt F × RunRecord)) (attempts : List (Attempt F)) :
    List (Attempt F × RunRecord) :=
  attempts.foldl (logAttempt shown) log

/-- In every direction the new mesh has at least as many divisions, in the first more. -/
def Finer : List Json → List Json → Prop
  | k :: l :: m :: _, k' :: l' :: m' :: _ => ∃ x y z x' y' z', numberOf k = some x ∧ numberOf l = some y ∧
      numberOf m = some z ∧ numberOf k' = some x' ∧ numberOf l' = some y' ∧ numberOf m' = some z' ∧
      x' < x ∧ y' ≤ y ∧ z' ≤ z
  | _, _ => False

/-- The new value is more than the old one. -/
def Exceeds : Json → Json → Prop
  | .arr new, .arr old => Finer new old
  | new, old => ∃ x y, numberOf new = some x ∧ numberOf old = some y ∧ y < x

def increases : List String := ["increase_ecut","increase_kpoints","increase_nbnd"]

/-- The recorded actions belong to the attempt: there are none after a pass, they are those
of the parameters used, each increase is one over the value used, and applying an action
makes the same method pass on the new value. -/
structure Belongs (a : Attempt F) (r : RunRecord) : Prop where
  passed : r.success = true → r.actions = []
  relative : r.success = false →
    RecoveryController.planActions {} shown a.params (classify a.report) r.attempt = some r.actions
  increased : r.success = false → ∀ action ∈ r.actions, action.actionType ∈ increases →
    ∀ kv ∈ action.params, ∃ old, a.used kv.1 = some old ∧ Exceeds kv.2 old
  read : r.success = false → ∀ action ∈ r.actions, ∀ kv ∈ action.params,
    (a.method.arguments (applyToParams [action] a.params)).lookup kv.1 = some kv.2

open RecoveryController

/-- The planner looks up what the attempt used, and the larger cutoff, rounded, is still more. -/
structure EcutKept (a : Attempt F) : Prop where
  same : baselineOf a.parameters "ecutwfc" ecutDefault = baselineOf a.params "ecutwfc" ecutDefault
  used : ∀ e, numberOf (baselineOf a.parameters "ecutwfc" ecutDefault) = some e → e < newEcut {} e →
    a.used "ecutwfc" = some (baselineOf a.parameters "ecutwfc" ecutDefault) ∧ e < round2 (newEcut {} e)

/-- The planner looks up the number of bands that the attempt used. -/
structure NbndKept (a : Attempt F) : Prop where
  same : baselineOf a.parameters "nbnd" nbndDefault = baselineOf a.params "nbnd" nbndDefault
  used : ∀ n, numberOf (baselineOf a.parameters "nbnd" nbndDefault) = some n → n < newNbnd {} n →
    a.used "nbnd" = some (baselineOf a.parameters "nbnd" nbndDefault)

/-- The planner looks up the mesh that the attempt used, and twice its first division is no
less than the other two. -/
structure MeshKept (a : Attempt F) (key : String) (default : Json) : Prop where
  same : baselineOf a.parameters key default = baselineOf a.params key default
  used : ∀ k l m rest first, baselineOf a.parameters key default = .arr (k :: l :: m :: rest) →
    numberOf k = some first → first < newKp {} first →
    a.used key = some (.arr (k :: l :: m :: rest)) ∧ ∃ y z, numberOf l = some y ∧ numberOf m = some z ∧
      y ≤ newKp {} first ∧ z ≤ newKp {} first

/-- What the planner looks up for a kind of failure is what the attempt used. -/
def Kept (a : Attempt F) : FailureKind → Prop
  | .scfNotConverged => EcutKept a ∧ MeshKept a "kpoints" kpointsDefault
  | .nscfNotConverged => NbndKept a ∧ MeshKept a "kpoints_nscf" kpointsNscfDefault
  | .forcesTooHigh => EcutKept a
  | .jobTimeout => a.method = .t1
  | _ => True

/-- The attempt failed, and it is one too many or its parameters are those planned from. -/
def Recoverable (before : ℕ) (a : Attempt F) : Prop :=
  a.report.passed = false ∧ (before + 1 < 3 → Kept a (classify a.report))

/-- Every attempt of the sequence is recoverable when its turn comes. -/
def Meets (log : List (Attempt F × RunRecord)) : List (Attempt F) → Prop
  | [] => True
  | a :: rest => Recoverable log.length a ∧ Meets (logAttempt shown log a) rest

variable {shown} {a : Attempt F}

theorem lookup_arguments {m : RunMethod} {params : Dict} {key : String} :
    (m.arguments params).lookup key = (m.reads.lookup key).map fun default =>
      (params.get? key).getD default := by
  unfold RunMethod.arguments
  induction m.reads with
  | nil => rfl
  | cons kd rest ih =>
    obtain ⟨k,d⟩ := kd
    rw [List.map_cons, List.lookup_cons, List.lookup_cons, ih]
    cases h : key == k with
    | false => rfl
    | true =>
      rw [beq_iff_eq] at h
      subst h
      rfl

/-- An action makes the method pass on its new value if the method reads the key. -/
theorem read_applied {action : RecoveryAction} {key : String} {value : Json}
    (hparams : action.params = [(key,value)]) (happlied : action.applied = false)
    (hkey : (a.method.reads.lookup key).isSome) :
    ∀ kv ∈ action.params, (a.method.arguments (applyToParams [action] a.params)).lookup kv.1 = some kv.2 := by
  obtain ⟨default,hdefault⟩ := Option.isSome_iff_exists.mp hkey
  rw [hparams, List.forall_mem_singleton, lookup_arguments, hdefault]
  simp [applyToParams, happlied, hparams, Dict.update]

/-- The action changes nothing, or a key that the method reads, and an increase goes over the
value used. -/
structure Sound (a : Attempt F) (action : RecoveryAction) : Prop where
  increased : action.actionType ∈ increases → ∀ kv ∈ action.params,
    ∃ old, a.used kv.1 = some old ∧ Exceeds kv.2 old
  read : ∀ kv ∈ action.params, (a.method.arguments (applyToParams [action] a.params)).lookup kv.1 = some kv.2

theorem Sound.of_increase {action : RecoveryAction} {key : String} {value old : Json}
    (hparams : action.params = [(key,value)]) (happlied : action.applied = false)
    (hused : a.used key = some old) (hmore : Exceeds value old) : Sound a action := by
  have hkey : (a.method.reads.lookup key).isSome := by
    rw [Attempt.used, lookup_arguments] at hused
    cases h : a.method.reads.lookup key with
    | none => rw [h] at hused; cases hused
    | some default => rfl
  refine ⟨fun _ => ?_,read_applied hparams happlied hkey⟩
  rw [hparams, List.forall_mem_singleton]
  exact ⟨old,hused,hmore⟩

theorem Sound.of_fixed {action : RecoveryAction} (h : action.params = []) : Sound a action := by
  constructor
  · simp [h]
  · simp [h]

theorem Sound.of_read {action : RecoveryAction} {key : String} {value : Json}
    (hparams : action.params = [(key,value)]) (happlied : action.applied = false)
    (hkey : (a.method.reads.lookup key).isSome) (htype : action.actionType ∉ increases) : Sound a action :=
  ⟨fun h => absurd h htype,read_applied hparams happlied hkey⟩

theorem mem_increaseEcut {baseline : Dict} {actions : List RecoveryAction}
    (h : increaseEcut {} shown baseline = some actions) : ∀ action ∈ actions,
    ∃ e, numberOf (baselineOf baseline "ecutwfc" ecutDefault) = some e ∧ e < newEcut {} e ∧
      action.params = [("ecutwfc",.num (round2 (newEcut {} e)))] ∧ action.applied = false := by
  obtain ⟨e,he,rfl⟩ := Option.map_eq_some_iff.mp h
  intro action haction
  dsimp only at haction
  split_ifs at haction with hgrows
  · obtain rfl := List.mem_singleton.mp haction
    exact ⟨e,he,hgrows,rfl,rfl⟩
  · cases haction

theorem mem_increaseKpoints {baseline : Dict} {key : String} {default : Json} {actions : List RecoveryAction}
    (h : increaseKpoints {} shown baseline key default = some actions) : ∀ action ∈ actions,
    ∃ k l m rest first, baselineOf baseline key default = .arr (k :: l :: m :: rest) ∧
      numberOf k = some first ∧ first < newKp {} first ∧
      action.params = [(key,ints [newKp {} first,newKp {} first,newKp {} first,1,1,1])] ∧
      action.applied = false := by
  unfold increaseKpoints at h
  split at h
  case h_1 k l m rest hbase =>
    obtain ⟨first,hfirst,rfl⟩ := Option.map_eq_some_iff.mp h
    intro action haction
    dsimp only at haction
    split_ifs at haction with hgrows
    · obtain rfl := List.mem_singleton.mp haction
      exact ⟨k,l,m,rest,first,hbase,hfirst,hgrows,rfl,rfl⟩
    · cases haction
  case h_2 =>
    obtain rfl := Option.some.inj h
    intro action haction
    cases haction

theorem mem_increaseNbnd {baseline : Dict} {actions : List RecoveryAction}
    (h : increaseNbnd {} shown baseline = some actions) : ∀ action ∈ actions,
    ∃ n, numberOf (baselineOf baseline "nbnd" nbndDefault) = some n ∧ n < newNbnd {} n ∧
      action.params = [("nbnd",.num (newNbnd {} n))] ∧ action.applied = false := by
  obtain ⟨n,hn,rfl⟩ := Option.map_eq_some_iff.mp h
  intro action haction
  dsimp only at haction
  split_ifs at haction with hgrows
  · obtain rfl := List.mem_singleton.mp haction
    exact ⟨n,hn,hgrows,rfl,rfl⟩
  · cases haction

theorem reads_conv_thr (m : RunMethod) : (m.reads.lookup "conv_thr").isSome := by
  cases m <;> rfl

theorem sound_ecut {actions : List RecoveryAction} (hkept : EcutKept a)
    (h : increaseEcut {} shown a.parameters = some actions) : ∀ action ∈ actions, Sound a action := by
  intro action haction
  obtain ⟨e,he,hpos,hparams,happlied⟩ := mem_increaseEcut h action haction
  obtain ⟨hused,hmore⟩ := hkept.used e he hpos
  refine Sound.of_increase hparams happlied hused ?_
  cases hv : baselineOf a.parameters "ecutwfc" ecutDefault <;> rw [hv] at he <;>
    exact ⟨_,e,rfl,he,hmore⟩

theorem sound_nbnd {actions : List RecoveryAction} (hkept : NbndKept a)
    (h : increaseNbnd {} shown a.parameters = some actions) : ∀ action ∈ actions, Sound a action := by
  intro action haction
  obtain ⟨n,hn,hgrows,hparams,happlied⟩ := mem_increaseNbnd h action haction
  refine Sound.of_increase hparams happlied (hkept.used n hn hgrows) ?_
  cases hv : baselineOf a.parameters "nbnd" nbndDefault <;> rw [hv] at hn <;>
    exact ⟨_,n,rfl,hn,hgrows⟩

theorem sound_mesh {key : String} {default : Json} {actions : List RecoveryAction}
    (hkept : MeshKept a key default) (h : increaseKpoints {} shown a.parameters key default = some actions) :
    ∀ action ∈ actions, Sound a action := by
  intro action haction
  obtain ⟨k,l,m,rest,first,hbase,hfirst,hgrows,hparams,happlied⟩ := mem_increaseKpoints h action haction
  obtain ⟨hused,y,z,hl,hm,hy,hz⟩ := hkept.used k l m rest first hbase hfirst hgrows
  exact Sound.of_increase hparams happlied hused
    ⟨_,_,_,first,y,z,rfl,rfl,rfl,hfirst,hl,hm,hgrows,hy,hz⟩

/-- What is planned from kept parameters is sound. -/
theorem sound_planned {actions : List RecoveryAction} {n : ℕ} {kind : FailureKind}
    (hkept : n < 3 → Kept a kind) (h : planActions {} shown a.parameters kind n = some actions) :
    ∀ action ∈ actions, Sound a action := by
  unfold planActions at h
  by_cases hmax : 3 ≤ n
  · rw [if_pos hmax] at h
    obtain rfl := Option.some.inj h
    rw [List.forall_mem_singleton]
    exact Sound.of_fixed rfl
  · rw [if_neg hmax] at h
    have hk := hkept (by omega)
    cases kind with
    | scfNotConverged =>
      obtain ⟨ecut,hecut,h⟩ := Option.bind_eq_some_iff.mp h
      obtain ⟨mesh,hmesh,h⟩ := Option.bind_eq_some_iff.mp h
      obtain rfl := Option.some.inj h
      rw [List.forall_mem_append, List.forall_mem_append, List.forall_mem_singleton]
      exact ⟨⟨sound_ecut hk.1 hecut,sound_mesh hk.2 hmesh⟩,Sound.of_fixed rfl⟩
    | nscfNotConverged =>
      obtain ⟨bands,hbands,h⟩ := Option.bind_eq_some_iff.mp h
      obtain ⟨mesh,hmesh,h⟩ := Option.bind_eq_some_iff.mp h
      obtain rfl := Option.some.inj h
      rw [List.forall_mem_append]
      exact ⟨sound_nbnd hk.1 hbands,sound_mesh hk.2 hmesh⟩
    | forcesTooHigh =>
      obtain ⟨ecut,hecut,rfl⟩ := Option.map_eq_some_iff.mp h
      rw [List.forall_mem_append, List.forall_mem_singleton]
      exact ⟨sound_ecut hk hecut,Sound.of_read rfl rfl (reads_conv_thr a.method) (by decide)⟩
    | jobTimeout =>
      obtain rfl := Option.some.inj h
      rw [List.forall_mem_singleton]
      have hmethod : a.method = .t1 := hk
      exact Sound.of_read rfl rfl (by rw [hmethod]; rfl) (by decide)
    | _ =>
      obtain rfl := Option.some.inj h
      rw [List.forall_mem_singleton]
      exact Sound.of_fixed rfl

theorem increaseEcut_congr (h : EcutKept a) :
    increaseEcut {} shown a.parameters = increaseEcut {} shown a.params := by
  unfold increaseEcut
  rw [h.same]

theorem increaseKpoints_congr {key : String} {default : Json} (h : MeshKept a key default) :
    increaseKpoints {} shown a.parameters key default = increaseKpoints {} shown a.params key default := by
  unfold increaseKpoints
  rw [h.same]

theorem increaseNbnd_congr (h : NbndKept a) :
    increaseNbnd {} shown a.parameters = increaseNbnd {} shown a.params := by
  unfold increaseNbnd
  rw [h.same]

/-- From kept parameters the plan is that of the parameters used. -/
theorem planActions_congr {n : ℕ} {kind : FailureKind} (hkept : n < 3 → Kept a kind) :
    planActions {} shown a.parameters kind n = planActions {} shown a.params kind n := by
  unfold planActions
  by_cases hmax : 3 ≤ n
  · rw [if_pos hmax, if_pos hmax]
  · rw [if_neg hmax, if_neg hmax]
    have hk := hkept (by omega)
    cases kind with
    | scfNotConverged =>
      simp only [planScfFailure, increaseEcut_congr hk.1, increaseKpoints_congr hk.2]
    | nscfNotConverged =>
      simp only [planNscfFailure, increaseNbnd_congr hk.1, increaseKpoints_congr hk.2]
    | forcesTooHigh => simp only [planForcesFailure, increaseEcut_congr hk]
    | _ => rfl

/-- The record of a recoverable attempt belongs to it. -/
theorem belongs_of_recoverable {before : ℕ} {r : RunRecord} (h : Recoverable before a)
    (hr : recordOf shown before a = some r) : Belongs shown a r := by
  obtain ⟨actions,hactions,rfl⟩ := Option.map_eq_some_iff.mp hr
  have hsound := sound_planned h.2 hactions
  refine ⟨fun hpass => ?_,fun _ => ?_,fun _ action ha => (hsound action ha).increased,
    fun _ action ha => (hsound action ha).read⟩
  · cases h.1.symm.trans hpass
  · rw [← planActions_congr h.2]
    exact hactions

theorem belongs_logAttempt {log : List (Attempt F × RunRecord)} (hlog : ∀ e ∈ log, Belongs shown e.1 e.2)
    (h : Recoverable log.length a) : ∀ e ∈ logAttempt shown log a, Belongs shown e.1 e.2 := by
  unfold logAttempt
  rw [List.forall_mem_append]
  refine ⟨hlog,?_⟩
  cases hr : recordOf shown log.length a with
  | none => simp
  | some r =>
    rw [Option.map_some, Option.toList_some, List.forall_mem_singleton]
    exact belongs_of_recoverable h hr

/-- In a run whose attempts are all recoverable, every record belongs to its attempt. -/
theorem records_belong (shown : Json → String) (attempts : List (Attempt F))
    (h : Meets shown [] attempts) : ∀ e ∈ runLog shown [] attempts, Belongs shown e.1 e.2 := by
  suffices hall : ∀ log : List (Attempt F × RunRecord), (∀ e ∈ log, Belongs shown e.1 e.2) →
      Meets shown log attempts → ∀ e ∈ runLog shown log attempts, Belongs shown e.1 e.2 from
    hall [] (by simp) h
  clear h
  induction attempts with
  | nil => exact fun log hlog _ => hlog
  | cons a rest ih => exact fun log hlog h => ih _ (belongs_logAttempt hlog h.1) h.2

end Runner

section Silicon
open RecoveryController Library.Doubles

theorem double_default : double (75 / 2) = 75 / 2 := by
  simpa [zpow_neg_one,div_eq_mul_inv] using double_of_bits (n := 75) (k := -1) (by norm_num) (by norm_num)

/-- The larger cutoff over the default one. -/
theorem newEcut_default : newEcut {} 25 = 75 / 2 := by
  have hthree : double 75 = 75 := double_intCast (n := 75) (by norm_num)
  rw [newEcut,times,times]
  norm_num [double_default,hthree]

theorem round2_newEcut_default : round2 (75 / 2) = 75 / 2 := by
  have hround : roundEven (75 / 2 * 100) = 3750 := by
    rw [show (75 / 2 * 100 : ℚ) = ((3750 : ℤ) : ℚ) by norm_num,roundEven_intCast]
  rw [round2,hround,hundredth]
  norm_num [double_default]

theorem newKp_default : newKp {} 4 = 8 := by
  have height : double 8 = 8 := double_intCast (n := 8) (by norm_num)
  rw [newKp,times]
  norm_num [height,truncate]

end Silicon

/-- A relaxation of silicon that did not converge, with the parameters of the catalogue. -/
def siliconAttempt : Attempt ℚ where
  method := .t1
  parameters := relaxParameters 25 200 [4,4,4,1,1,1]
  defaults := ⟨25,200,[4,4,4,1,1,1],16⟩
  report := { passed := false, failureReasons := ["SCF did not converge"] }

theorem records_belong_silicon : siliconAttempt.report.passed = false ∧
    ∀ e ∈ runLog (fun _ => "") [] [siliconAttempt], Belongs (fun _ => "") e.1 e.2 := by
  refine ⟨rfl,records_belong _ _ ⟨⟨rfl,fun _ => ?_⟩,trivial⟩⟩
  have hkind : classify siliconAttempt.report = .scfNotConverged := by decide
  rw [hkind]
  refine ⟨⟨rfl,fun e he _ => ?_⟩,rfl,fun k l m rest first hbase hfirst _ => ?_⟩
  · have h25 : (25 : ℚ) = e := Option.some.inj he
    subst h25
    rw [newEcut_default,round2_newEcut_default]
    exact ⟨rfl,by norm_num⟩
  · have hmesh : ints [4,4,4,1,1,1] = .arr (k :: l :: m :: rest) := hbase
    obtain ⟨rfl,rfl,rfl,rfl⟩ : Json.num 4 = k ∧ Json.num 4 = l ∧ Json.num 4 = m ∧
        [Json.num 1,.num 1,.num 1] = rest := by
      simpa [ints] using hmesh
    obtain rfl := Option.some.inj hfirst
    rw [newKp_default]
    exact ⟨rfl,4,4,rfl,rfl,by norm_num,by norm_num⟩

/-- The same relaxation with a cutoff of its own, after which it still did not converge. -/
def retriedAttempt : Attempt ℚ := { siliconAttempt with retryParams := some [("ecutwfc",.num 60)] }

def bandsAttempt : Attempt ℚ where
  method := .t2Bands
  parameters := bandParameters "bands" 25 200 [8,8,8,1,1,1] 16
  defaults := ⟨25,200,[4,4,4,1,1,1],16⟩
  report := { passed := false, failureReasons := ["SCF stage failed"] }

def passedAttempt : Attempt ℚ := { siliconAttempt with report := { passed := true } }

/-- The changes that an attempt would be the first to record. -/
def firstChanges (a : Attempt ℚ) : Option (List (String × Dict)) :=
  (recordOf (fun _ => "") 0 a).map fun r => r.actions.map fun action => (action.actionType,action.params)

theorem silicon_changes {a : Attempt ℚ} (hkind : classify a.report = .scfNotConverged)
    (hecut : a.parameters.get? "ecutwfc" = some (.num 25))
    (hmesh : RecoveryController.baselineOf a.parameters "kpoints" RecoveryController.kpointsDefault =
      ints [4,4,4,1,1,1]) :
    firstChanges a = some [("increase_ecut",[("ecutwfc",.num (75 / 2))]),
      ("increase_kpoints",[("kpoints",ints [8,8,8,1,1,1])]),("check_pseudos",[])] := by
  simp only [firstChanges, recordOf, hkind, RecoveryController.planActions, RecoveryController.planScfFailure,
    RecoveryController.increaseEcut, RecoveryController.increaseKpoints, hmesh]
  simp only [RecoveryController.baselineOf, hecut, ints, numberOf]
  norm_num [newEcut_default,round2_newEcut_default,newKp_default,numberOf]

theorem stray_of_changes {a : Attempt ℚ} {changes : List (String × Dict)} (h : firstChanges a = some changes)
    (hstray : ∀ r : RunRecord, recordOf (fun _ => "") 0 a = some r →
      (r.actions.map fun action => (action.actionType,action.params)) = changes →
      ¬ Belongs (fun _ => "") a r) :
    ∃ e ∈ runLog (fun _ => "") [] [a], ¬ Belongs (fun _ => "") e.1 e.2 := by
  obtain ⟨r,hr,hchanges⟩ := Option.map_eq_some_iff.mp h
  have hlog : runLog (fun _ => "") [] [a] = [(a,r)] := by
    change [] ++ ((recordOf (fun _ => "") 0 a).map fun r => (a,r)).toList = _
    rw [hr]
    rfl
  rw [hlog]
  exact ⟨_,List.mem_singleton.mpr rfl,hstray r hr hchanges⟩

/-- An attempt that passed records a retry, one that used 60 Ry is told to increase the cutoff
to 37.5, and a band structure gets a mesh under a key that it does not read. -/
theorem records_stray :
    (∃ e ∈ runLog (fun _ => "") [] [passedAttempt], ¬ Belongs (fun _ => "") e.1 e.2) ∧
    (∃ e ∈ runLog (fun _ => "") [] [retriedAttempt], ¬ Belongs (fun _ => "") e.1 e.2) ∧
    ∃ e ∈ runLog (fun _ => "") [] [bandsAttempt], ¬ Belongs (fun _ => "") e.1 e.2 := by
  refine ⟨⟨_,List.mem_singleton.mpr rfl,fun h => ?_⟩,?_,?_⟩
  · cases h.passed rfl
  · refine stray_of_changes (silicon_changes (by decide) rfl rfl) fun r hr hchanges h => ?_
    obtain ⟨actions,hactions,rfl⟩ := Option.map_eq_some_iff.mp hr
    obtain ⟨action,rest,rfl,haction,_⟩ := List.map_eq_cons_iff.mp hchanges
    obtain ⟨htype,hparams⟩ := Prod.mk.inj haction
    have hincrease : action.actionType ∈ increases := by
      rw [htype]
      exact List.mem_cons_self
    obtain ⟨old,hold,x,y,hx,hy,hlt⟩ := h.increased rfl action List.mem_cons_self hincrease
      ("ecutwfc",.num (75 / 2)) (by rw [hparams]; exact List.mem_cons_self)
    have h60 : Json.num 60 = old := Option.some.inj hold
    subst h60
    obtain rfl := Option.some.inj hx
    obtain rfl := Option.some.inj hy
    norm_num at hlt
  · refine stray_of_changes (silicon_changes (by decide) rfl rfl) fun r hr hchanges h => ?_
    obtain ⟨actions,hactions,rfl⟩ := Option.map_eq_some_iff.mp hr
    obtain ⟨first,rest,rfl,_,hrest⟩ := List.map_eq_cons_iff.mp hchanges
    obtain ⟨action,rest,rfl,haction,_⟩ := List.map_eq_cons_iff.mp hrest
    have hparams := (Prod.mk.inj haction).2
    cases h.read rfl action (List.mem_cons_of_mem _ List.mem_cons_self) ("kpoints",ints [8,8,8,1,1,1])
      (by rw [hparams]; exact List.mem_cons_self)

end DftForge.Qe
