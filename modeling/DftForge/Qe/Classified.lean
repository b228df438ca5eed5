import DftForge.Qe.Evidence
import DftForge.Qe.Kinds

/-! # What a classification says about the run

The reasons for values that are missing have the words of those for values that are too
high, an executor that runs out of time leaves no word, and the path of a missing file may
bring the words of a failed stage. Outside these cases the kind says what happened.
-/
namespace DftForge.Qe
open DftForge.Library DftForge.Runtime DftForge.Python DftForge.Hpc
open Regex (Found)

section Relaxation
open ConvergenceReport
variable {F : Type} {f : Floats F} {u : Unicode} {v : ScientificVerifier F}

/-- The check turns a report with such reasons into one with these kinds more. -/
def Adds (check : ConvergenceReport F → ConvergenceReport F) (kinds : List FailureKind) : Prop :=
  ∀ r before, List.Forall₂ Marked r.failureReasons before →
    List.Forall₂ Marked (check r).failureReasons (before ++ kinds)

theorem Adds.nil {check : ConvergenceReport F → ConvergenceReport F}
    (h : ∀ r, (check r).failureReasons = r.failureReasons) : Adds check [] := by
  intro r before hr
  rw [h, List.append_nil]
  exact hr

theorem Adds.one {check : ConvergenceReport F → ConvergenceReport F} {reason : String} {kind : FailureKind}
    (hreason : Marked reason kind) (h : ∀ r, (check r).failureReasons = r.failureReasons ++ [reason]) :
    Adds check [kind] := by
  intro r before hr
  rw [h]
  exact List.rel_append hr (.cons hreason .nil)

theorem adds_failUnless {ok : Bool} {reason : String} {kind : FailureKind} (h : Marked reason kind)
    (name : String) (check : Check F) :
    Adds (fun r => (r.failUnless ok reason).note name check) (if ok then [] else [kind]) := by
  cases ok with
  | true => exact .nil fun r => rfl
  | false => exact .one h fun r => rfl

theorem adds_checkJobSuccess (ok : Bool) :
    Adds (F := F) (checkJobSuccess ok) (if ok then [] else [.unknown]) := by
  cases ok with
  | true => exact .nil fun r => rfl
  | false => exact .one (fixedReasons_marked _ _ (.head _)) fun r => rfl

theorem adds_checkJobDone (text : Text) :
    Adds (F := F) (checkJobDone text) (if contains text "JOB DONE" then [] else [.unknown]) :=
  adds_failUnless (fixedReasons_marked _ _ (.tail _ (.head _))) "job_done" ⟨contains text "JOB DONE",[]⟩

theorem adds_checkGeometry (parsed : ParsedVCResult F) :
    Adds (checkGeometry parsed) (if parsed.converged then [] else [.unknown]) :=
  adds_failUnless (fixedReasons_marked _ _ (.tail _ (.tail _ (.head _)))) "geometry_convergence"
    ⟨parsed.converged,[]⟩

theorem adds_checkScf (scf : ParsedSCF F) :
    Adds (checkScf scf) (if scf.converged then [] else [.scfNotConverged]) :=
  adds_failUnless (fixedReasons_marked _ _ (.head _)) "scf_convergence" ⟨scf.converged,
    [("n_iterations",.nat scf.nIterations),("threshold",.float scf.convergenceThr)]⟩

theorem adds_checkDataQuality (parsed : ParsedVCResult F) :
    Adds (checkDataQuality f parsed) (if allZero f parsed then [.parserMismatch] else []) := by
  unfold checkDataQuality
  cases allZero f parsed with
  | true => exact .one (fixedReasons_marked _ _ (.head _)) fun r => rfl
  | false => exact .nil fun r => rfl

/-- The kind of the force reason: a missing block reads like a force that is too high. -/
def forceKinds (present exceeds : Bool) : List FailureKind :=
  if present && !exceeds then [] else [.forcesTooHigh]

theorem adds_checkForces (hf : f.Plain) (text : Text) (parsed : ParsedVCResult F) :
    Adds (checkForces f u v text parsed)
      (forceKinds (decide (Found (forceWord u) text)) (f.lt v.forceThresholdRy parsed.maxForceRyBohr)) := by
  unfold checkForces forceKinds
  cases decide (Found (forceWord u) text) with
  | false => exact .one (fixedReasons_marked _ _ (.head _)) fun r => rfl
  | true =>
    cases h : f.lt v.forceThresholdRy parsed.maxForceRyBohr with
    | false => exact .nil fun r => by simp [failUnless, note, h]
    | true =>
      exact .one (marked_force hf parsed.maxForceRyBohr v.forceThresholdRy) fun r => by
        simp [failUnless, fail, note, h]

def pressureKinds (present exceeds : Bool) : List FailureKind :=
  if present && !exceeds then [] else [.pressureTooHigh]

theorem adds_checkPressure (hf : f.Plain) (text : Text) (parsed : ParsedVCResult F) :
    Adds (checkPressure f u v text parsed)
      (pressureKinds (decide (Found (pressureWord u) text))
        (f.lt v.pressureThresholdKbar (f.abs parsed.pressureKbar))) := by
  unfold checkPressure pressureKinds
  cases decide (Found (pressureWord u) text) with
  | false => exact .one (fixedReasons_marked _ _ (.head _)) fun r => rfl
  | true =>
    cases h : f.lt v.pressureThresholdKbar (f.abs parsed.pressureKbar) with
    | false => exact .nil fun r => by simp [failUnless, note, h]
    | true =>
      exact .one (marked_pressure hf parsed.pressureKbar v.pressureThresholdKbar) fun r => by
        simp [failUnless, fail, note, h]

theorem adds_checkEnergies (texts : List Text) (falling : Bool) :
    Adds (F := F) (checkEnergies texts falling) [] := by
  refine .nil fun r => ?_
  unfold checkEnergies
  split_ifs <;> rfl

theorem adds_checkCell (hf : f.Plain) (parsed : ParsedVCResult F) :
    Adds (checkCell f parsed)
      (if (parsed.cell.any fun cell => f.reasonable cell.aBohr) then [] else [.badCell]) := by
  unfold checkCell
  cases parsed.cell with
  | none => exact .one (fixedReasons_marked _ _ (.head _)) fun r => rfl
  | some cell =>
    rw [Option.any_some]
    by_cases h : f.reasonable cell.aBohr = true
    · simp only [if_pos h]
      exact .nil fun r => rfl
    · simp only [if_neg h]
      exact .one (marked_cell hf cell.aBohr) fun r => rfl

theorem adds_checkIons (text : Text) (parsed : ParsedVCResult F) :
    Adds (checkIons f v text parsed)
      (if (contains (lower text) "bfgs" || contains (lower text) "vc-relax") &&
        f.lt v.forceThresholdRy parsed.maxForceRyBohr then [.forcesTooHigh] else []) := by
  unfold checkIons
  split_ifs with h
  · exact .one (fixedReasons_marked _ _ (.tail _ (.head _))) fun r => rfl
  · exact .nil fun r => rfl

theorem adds_summarise : Adds (F := F) summarise [] := by
  refine .nil fun r => ?_
  unfold summarise
  dsimp only

/-- A relaxation is sorted by the SCF check, by the forces, by the pressure, and by the rest. -/
theorem classify_t1 (hf : f.Plain) {inp : VerificationInput F} {parsed : ParsedVCResult F}
    {report : ConvergenceReport F} (h : verifyT1 f u v inp parsed = some report) :
    Ranked (classify report) (Found (converged u) inp.stdout)
      (Found (forceWord u) inp.stdout ∧ f.lt v.forceThresholdRy parsed.maxForceRyBohr = false)
      (Found (pressureWord u) inp.stdout ∧
        f.lt v.pressureThresholdKbar (f.abs parsed.pressureKbar) = false) := by
  unfold verifyT1 at h
  simp only [Option.bind_eq_bind, Option.pure_def, Option.bind_eq_some_iff, Option.some.injEq] at h
  obtain ⟨scf,hscf,falling,_,rfl⟩ := h
  -- the kinds along the walk of the verifier, check by check
  have h1 := adds_checkJobSuccess (F := F) inp.jobSuccess ⟨true,[],[],[],""⟩ [] .nil
  have h2 := adds_checkDataQuality (f := f) parsed _ _ h1
  have h3 := adds_checkJobDone inp.stdout _ _ h2
  have h4 := adds_checkGeometry parsed _ _ h3
  have h5 := adds_checkScf scf _ _ h4
  have h6 := adds_checkForces (u := u) (v := v) hf inp.stdout parsed _ _ h5
  have h7 := adds_checkPressure (u := u) (v := v) hf inp.stdout parsed _ _ h6
  have h8 := adds_checkEnergies (energies u inp.stdout) falling _ _ h7
  have h9 := adds_checkCell hf parsed _ _ h8
  have h10 := adds_checkIons (f := f) (v := v) inp.stdout parsed _ _ h9
  rw [parseScf_converged f u inp.stdout hscf] at h10
  rw [classify_marked (adds_summarise _ _ h10)]
  clear h1 h2 h3 h4 h5 h6 h7 h8 h9 h10
  apply priority_of_mem
  · simp [forceKinds, pressureKinds]
  · cases f.lt v.forceThresholdRy parsed.maxForceRyBohr <;> simp [forceKinds, pressureKinds]
  · simp [forceKinds, pressureKinds]
  · simp +contextual [forceKinds, pressureKinds, or_imp]

end Relaxation

section Missing
variable {F : Type}

/-- Whether a path brings the words of a kind. -/
def pathHas (path : String) (kind : FailureKind) : Bool :=
  signatures.any fun sig => sig.2 = kind && sig.1.any fun sub => contains (lower path.toList) sub

/-- The two kinds that come before the missing files. -/
def stageSignatures : List (List String × FailureKind) := signatures.take 2

/-- A text that neither has a word of these kinds nor ends in a piece of one. -/
def Quiet (front : String) : Prop :=
  ∀ sig ∈ stageSignatures, (sig.1.all fun sub => !contains (lower front.toList) sub &&
    (List.range sub.toList.length).all fun k =>
      !decide (sub.toList.take (k + 1) <:+ lower front.toList)) = true

theorem quiet_bands : Quiet "bands.xml not found: " := by
  simp only [Quiet, stageSignatures, signatures, contains, List.take, List.forall_mem_cons, List.all_cons,
    List.all_nil]
  repeat rw [String.toList_ofList]
  decide +kernel

theorem quiet_dos : Quiet "DOS file not found: " := by
  simp only [Quiet, stageSignatures, signatures, contains, List.take, List.forall_mem_cons, List.all_cons,
    List.all_nil]
  repeat rw [String.toList_ofList]
  decide +kernel

theorem front_bands : (contains (lower "bands.xml not found: ".toList) "bands.xml not found" ||
    contains (lower "bands.xml not found: ".toList) "dos file not found") = true := by
  unfold contains
  repeat rw [String.toList_ofList]
  decide +kernel

theorem front_dos : (contains (lower "DOS file not found: ".toList) "bands.xml not found" ||
    contains (lower "DOS file not found: ".toList) "dos file not found") = true := by
  unfold contains
  repeat rw [String.toList_ofList]
  decide +kernel

theorem contains_quiet {front path sub : String} {sig : List String × FailureKind} (h : Quiet front)
    (hsig : sig ∈ stageSignatures) (hsub : sub ∈ sig.1) :
    contains (lower (front ++ path).toList) sub = contains (lower path.toList) sub := by
  have hquiet := List.all_eq_true.mp (h sig hsig) sub hsub
  rw [Bool.and_eq_true, Bool.not_eq_true', List.all_eq_true] at hquiet
  obtain ⟨hfront,hborder⟩ := hquiet
  rw [String.toList_append, lower_append]
  refine decide_eq_decide.mpr ⟨fun h => ?_,fun h => h.trans List.infix_append_right⟩
  rcases infix_append_cases h with h | h | ⟨k,hpos,hle,h⟩
  · exact absurd (of_decide_eq_false hfront) (not_not.mpr h)
  · exact h
  · have hk := hborder (k - 1) (List.mem_range.mpr (by omega))
    rw [Nat.sub_add_cancel hpos, Bool.not_eq_true', decide_eq_false_iff_not] at hk
    exact absurd h hk

theorem pathHas_scf (path : String) : pathHas path .scfNotConverged =
    (["scf stage failed","scf did not converge"].any fun sub => contains (lower path.toList) sub) := by
  simp only [pathHas, signatures, List.any_cons, List.any_nil, decide_true, decide_false, Bool.true_and,
    Bool.false_and, Bool.or_false, reduceCtorEq]

theorem pathHas_nscf (path : String) : pathHas path .nscfNotConverged =
    (["nscf stage did not converge","nscf stage did not pass"].any fun sub =>
      contains (lower path.toList) sub) := by
  simp only [pathHas, signatures, List.any_cons, List.any_nil, decide_true, decide_false, Bool.true_and,
    Bool.false_and, Bool.or_false, Bool.false_or, reduceCtorEq]

def stageKinds (scf nscf : Bool) : List FailureKind :=
  (if scf then [] else [.scfNotConverged]) ++ if nscf then [] else [.nscfNotConverged]

theorem mem_scf (scf nscf : Bool) : decide (.scfNotConverged ∈ stageKinds scf nscf) = !scf := by
  cases scf <;> cases nscf <;> rfl

theorem mem_nscf (scf nscf : Bool) : decide (.nscfNotConverged ∈ stageKinds scf nscf) = !nscf := by
  cases scf <;> cases nscf <;> rfl

/-- Where one of two questions is answered with yes, the second need not be asked. -/
theorem ite_of_or {α : Type} {a b : Bool} (h : (a || b) = true) (x y z : α) :
    (if a then x else if b then y else z) = if a then x else y := by
  cases a with
  | true => rfl
  | false => exact if_pos h

theorem checkStages_marked (scf nscf : ConvergenceReport F) :
    List.Forall₂ Marked (checkStages scf nscf).failureReasons (stageKinds scf.passed nscf.passed) := by
  rw [checkStages_reasons]
  refine List.rel_append ?_ ?_
  · cases scf.passed with
    | true => exact .nil
    | false => exact .cons (fixedReasons_marked _ _ (.tail _ (.head _))) .nil
  · cases nscf.passed with
    | true => exact .nil
    | false => exact .cons (fixedReasons_marked _ _ (.head _)) .nil

/-- A missing file is reported as a failed stage where a stage failed or the path says so. -/
theorem classify_missing {scf nscf report : ConvergenceReport F} {front path : String} (hquiet : Quiet front)
    (hfront : (contains (lower front.toList) "bands.xml not found" ||
      contains (lower front.toList) "dos file not found") = true)
    (hreasons : report.failureReasons = (checkStages scf nscf).failureReasons ++ [front ++ path]) :
    ∃ other ∈ [FailureKind.bandsXmlMissing,.dosFileMissing,.unknown], classify report =
      if !scf.passed || pathHas path .scfNotConverged then .scfNotConverged
      else if !nscf.passed || pathHas path .nscfNotConverged then .nscfNotConverged else other := by
  have hmarked := checkStages_marked scf nscf
  have hsplit : ∀ subs, anyContains (report.failureReasons.map fun r => lower r.toList) subs =
      (anyContains ((checkStages scf nscf).failureReasons.map fun r => lower r.toList) subs ||
        subs.any fun sub => contains (lower (front ++ path).toList) sub) := by
    intro subs
    simp [anyContains, hreasons]
  have hstage : ∀ sig ∈ stageSignatures, anyContains (report.failureReasons.map fun r => lower r.toList) sig.1 =
      (decide (sig.2 ∈ stageKinds scf.passed nscf.passed) ||
        sig.1.any fun sub => contains (lower path.toList) sub) := by
    intro sig hsig
    rw [hsplit, anyContains_marked hmarked (List.mem_of_mem_take hsig)]
    congr 1
    rw [Bool.eq_iff_iff, List.any_eq_true, List.any_eq_true]
    exact exists_congr fun sub => and_congr_right fun hsub => by rw [contains_quiet hquiet hsig hsub]
  have hfile : (anyContains (report.failureReasons.map fun r => lower r.toList)
      ["bands xml parsed but empty","bands.xml not found"] ||
        anyContains (report.failureReasons.map fun r => lower r.toList)
          ["dos file parsed but empty","dos file not found"]) = true := by
    rw [hsplit, hsplit, String.toList_append, lower_append]
    rcases Bool.or_eq_true_iff.mp hfront with h | h
    · simp [contains_of_substring List.infix_append_left h]
    · simp [contains_of_substring List.infix_append_left h]
  have hne : report.failureReasons ≠ [] := by
    rw [hreasons]
    exact List.append_ne_nil_of_right_ne_nil _ (List.cons_ne_nil _ _)
  rw [classify_of_reasons hne]
  generalize report.failureReasons.map (fun r => lower r.toList) = reasons at hstage hfile ⊢
  refine ⟨if anyContains reasons ["bands xml parsed but empty","bands.xml not found"] then .bandsXmlMissing
    else .dosFileMissing,by split_ifs <;> simp,?_⟩
  have hscf : anyContains reasons ["scf stage failed","scf did not converge"] =
      (!scf.passed || pathHas path .scfNotConverged) := by
    rw [pathHas_scf, ← mem_scf scf.passed nscf.passed]
    exact hstage _ (.head _)
  have hnscf : anyContains reasons ["nscf stage did not converge","nscf stage did not pass"] =
      (!nscf.passed || pathHas path .nscfNotConverged) := by
    rw [pathHas_nscf, ← mem_nscf scf.passed nscf.passed]
    exact hstage _ (.tail _ (.head _))
  simp only [signatures, firstSignature]
  rw [hscf, hnscf, ite_of_or hfile]

/-- With its file read, only the stages and an empty file give reasons. -/
theorem classify_read {scf nscf report : ConvergenceReport F} {reason : String} {kind : FailureKind}
    (hreason : Marked reason kind) (hkind : kind ∈ [FailureKind.bandsXmlMissing,.dosFileMissing]) (ok : Bool)
    (hreasons : report.failureReasons =
      (checkStages scf nscf).failureReasons ++ if ok then [] else [reason]) :
    ∃ other ∈ [FailureKind.bandsXmlMissing,.dosFileMissing,.unknown], classify report =
      if !scf.passed then .scfNotConverged else if !nscf.passed then .nscfNotConverged else other := by
  have hmarked : List.Forall₂ Marked report.failureReasons
      (stageKinds scf.passed nscf.passed ++ if ok then [] else [kind]) := by
    rw [hreasons]
    refine List.rel_append (checkStages_marked scf nscf) ?_
    cases ok with
    | true => exact .nil
    | false => exact .cons hreason .nil
  rw [classify_marked hmarked]
  refine ⟨if ok then .unknown else kind,?_,?_⟩
  · cases ok with
    | true => simp
    | false => exact List.mem_append_left [.unknown] hkind
  · simp only [List.mem_cons, List.not_mem_nil, or_false] at hkind
    rcases hkind with rfl | rfl <;> cases scf.passed <;> cases nscf.passed <;> cases ok <;> rfl

end Missing

namespace Execution
variable {F : Type} (f : Floats F) (u : Unicode) (v : ScientificVerifier F) (e : Execution F)

def TimedOut : Prop := ∃ job ∈ e.jobs, reportsTimeout job = true

/-- The SCF cycle of the only or of the first stage did not converge. -/
def ScfFailed : Execution F → Prop
  | .t1 job _ => ¬ Found (converged u) job.stdout
  | .t2Bands scf .. => scfOk u scf.stdout = false
  | .t2Dos scf .. => scfOk u scf.stdout = false

def NscfFailed : Execution F → Prop
  | .t1 .. => False
  | .t2Bands _ nscf .. => nscfOk nscf.stdout = false
  | .t2Dos _ nscf .. => nscfOk nscf.stdout = false

/-- The output of a relaxation has a force block. -/
def ForcesShown : Execution F → Prop
  | .t1 job _ => Found (forceWord u) job.stdout
  | _ => True

def PressureShown : Execution F → Prop
  | .t1 job _ => Found (pressureWord u) job.stdout
  | _ => True

/-- The output has forces, and of those in the last force block behind the last `Begin final
coordinates` (of the whole text without that line) the largest is over the threshold. -/
def ForcesExceed : Execution F → Prop
  | .t1 job _ => Found (forceWord u) job.stdout ∧ ∃ sizes, forces f u job.stdout = some sizes ∧
      f.lt v.forceThresholdRy (f.maximum sizes) = true
  | _ => False

/-- The output has a pressure, and the last one that is printed with a blank behind `P=` before the
end of the geometry optimization is over the threshold. -/
def PressureExceeds : Execution F → Prop
  | .t1 job _ => Found (pressureWord u) job.stdout ∧ ∃ pressure,
      lastFloat f (pressures u job.stdout) = some pressure ∧
        f.lt v.pressureThresholdKbar (f.abs pressure) = true
  | _ => False

/-- The path of the file that was not there. -/
def missingPath : Execution F → Option String
  | .t1 .. => none
  | .t2Bands _ _ _ path bands => if bands.isSome then none else some path
  | .t2Dos _ _ _ path dos => if dos.isSome then none else some path

/-- Whether the path of a missing file has the words of a kind. -/
def pathSays (kind : FailureKind) : Bool := e.missingPath.any fun path => pathHas path kind

/-- The kind says what happened. -/
structure Matches (kind : FailureKind) : Prop where
  timeout : e.TimedOut → kind = .jobTimeout
  forces : kind = .forcesTooHigh → e.ForcesExceed f u v
  pressure : kind = .pressureTooHigh → e.PressureExceeds f u v
  scf : kind = .scfNotConverged → e.ScfFailed u
  nscf : kind = .nscfNotConverged → e.NscfFailed

/-- No job ran out of time, a converged relaxation prints what is looked for, and the path
of a missing file does not speak of stages that did not fail. -/
structure Distinguishable : Prop where
  inTime : ¬ e.TimedOut
  forces : ¬ e.ScfFailed u → e.ForcesShown u
  pressure : ¬ e.ScfFailed u → ¬ e.ForcesExceed f u v → e.PressureShown u
  scfPath : e.pathSays .scfNotConverged = true → e.ScfFailed u
  nscfPath : e.pathSays .nscfNotConverged = true → e.ScfFailed u ∨ e.NscfFailed

/-- How an execution of two stages is sorted. -/
def Staged (scf nscf : Bool) (kind : FailureKind) : Prop :=
  ∃ other ∈ [FailureKind.bandsXmlMissing,.dosFileMissing,.unknown], kind =
    if !scf || e.pathSays .scfNotConverged then .scfNotConverged
    else if !nscf || e.pathSays .nscfNotConverged then .nscfNotConverged else other

variable {f u v} {scf nscf post : JobResult} {path : String} {kind : FailureKind}

theorem staged_bands {bands : Option (ParsedBands F)}
    (h : (Execution.t2Bands scf nscf post path bands).kind f u v = some kind) :
    (Execution.t2Bands scf nscf post path bands).Staged (scfOk u scf.stdout) (nscfOk nscf.stdout) kind := by
  simp only [Execution.kind, report, verifyT2Bands, Option.map_eq_some_iff, Option.bind_eq_bind,
    Option.bind_eq_some_iff, Option.pure_def, Option.some.injEq] at h
  obtain ⟨_,⟨_,_,_,_,first,hfirst,second,hsecond,rfl⟩,rfl⟩ := h
  rw [← verifyScf_passed hfirst, ← verifyNscf_passed hsecond]
  cases bands with
  | none => exact classify_missing quiet_bands front_bands rfl
  | some bands =>
    have hreasons : (counted "T2 bands" (checkBandsFile path (checkStages first second)
        (some bands))).failureReasons = (checkStages first second).failureReasons ++
          if bands.nBands ≠ 0 then [] else ["bands XML parsed but empty (no eigenvalues)"] := by
      by_cases hempty : bands.nBands = 0 <;>
        simp [counted, checkBandsFile, ConvergenceReport.note, ConvergenceReport.failUnless,
          ConvergenceReport.fail, hempty]
    have hkind := classify_read (fixedReasons_marked .bandsXmlMissing _ (.head _)) (by decide)
      (bands.nBands ≠ 0) (by simpa using hreasons)
    simpa [Staged, pathSays, missingPath] using hkind

theorem staged_dos {dos : Option (ParsedDOS F)}
    (h : (Execution.t2Dos scf nscf post path dos).kind f u v = some kind) :
    (Execution.t2Dos scf nscf post path dos).Staged (scfOk u scf.stdout) (nscfOk nscf.stdout) kind := by
  simp only [Execution.kind, report, verifyT2Dos, Option.map_eq_some_iff, Option.bind_eq_bind,
    Option.bind_eq_some_iff, Option.pure_def, Option.some.injEq] at h
  obtain ⟨_,⟨_,_,_,_,first,hfirst,second,hsecond,rfl⟩,rfl⟩ := h
  rw [← verifyScf_passed hfirst, ← verifyNscf_passed hsecond]
  cases dos with
  | none => exact classify_missing quiet_dos front_dos rfl
  | some dos =>
    have hreasons : (counted "T2 DOS" (checkDosFile path (checkStages first second)
        (some dos))).failureReasons = (checkStages first second).failureReasons ++
          if dos.nEnergyPoints ≠ 0 then [] else ["DOS file parsed but empty (no energy points)"] := by
      by_cases hempty : dos.nEnergyPoints = 0 <;>
        simp [counted, checkDosFile, ConvergenceReport.note, ConvergenceReport.failUnless,
          ConvergenceReport.fail, hempty]
    have hkind := classify_read (fixedReasons_marked .dosFileMissing _ (.head _)) (by decide)
      (dos.nEnergyPoints ≠ 0) (by simpa using hreasons)
    simpa [Staged, pathSays, missingPath] using hkind

theorem matches_of_staged {e : Execution F} {scf nscf : Bool} (hscf : e.ScfFailed u ↔ scf = false)
    (hnscf : e.NscfFailed ↔ nscf = false) (hforces : e.ForcesShown u) (hpressure : e.PressureShown u)
    (h : e.Staged scf nscf kind) : e.Matches f u v kind ↔ e.Distinguishable f u v := by
  obtain ⟨other,hother,hkind⟩ := h
  have hrange : kind ∈ [FailureKind.scfNotConverged,.nscfNotConverged,.bandsXmlMissing,.dosFileMissing,
      .unknown] := by
    rw [hkind]
    split_ifs
    · decide
    · decide
    · exact List.mem_cons_of_mem _ (List.mem_cons_of_mem _ hother)
  have hother1 : other ≠ .scfNotConverged := by rintro rfl; exact absurd hother (by decide)
  have hother2 : other ≠ .nscfNotConverged := by rintro rfl; exact absurd hother (by decide)
  constructor
  · intro hm
    refine ⟨fun ht => ?_,fun _ => hforces,fun _ _ => hpressure,fun hpath => ?_,fun hpath => ?_⟩
    · rw [hm.timeout ht] at hrange
      exact absurd hrange (by decide)
    · refine hm.scf ?_
      rw [hkind, hpath, Bool.or_true, if_pos rfl]
    · by_cases hfirst : (!scf || e.pathSays .scfNotConverged) = true
      · exact Or.inl (hm.scf (by rw [hkind, if_pos hfirst]))
      · refine Or.inr (hm.nscf ?_)
        rw [hkind, if_neg hfirst, hpath, Bool.or_true, if_pos rfl]
  · intro hd
    refine ⟨fun ht => absurd ht hd.inTime,?_,?_,fun h => ?_,fun h => ?_⟩
    · rintro rfl
      exact absurd hrange (by decide)
    · rintro rfl
      exact absurd hrange (by decide)
    · by_cases hfirst : (!scf || e.pathSays .scfNotConverged) = true
      · rcases Bool.or_eq_true_iff.mp hfirst with hfail | hpath
        · exact hscf.mpr (by simpa using hfail)
        · exact hd.scfPath hpath
      · rw [if_neg hfirst] at hkind
        split_ifs at hkind
        · rw [h] at hkind
          cases hkind
        · exact absurd (hkind.symm.trans h) hother1
    · by_cases hfirst : (!scf || e.pathSays .scfNotConverged) = true
      · rw [if_pos hfirst, h] at hkind
        cases hkind
      · rw [if_neg hfirst] at hkind
        have hnot : ¬ e.ScfFailed u := fun hfail => hfirst (by rw [hscf.mp hfail]; rfl)
        split_ifs at hkind with hsecond
        · rcases Bool.or_eq_true_iff.mp hsecond with hfail | hpath
          · exact hnscf.mpr (by simpa using hfail)
          · exact (hd.nscfPath hpath).resolve_left hnot
        · exact absurd (hkind.symm.trans h) hother2

theorem matches_t1 (hf : f.Plain) {job : JobResult} {xml : Option (XmlData F)}
    (h : (Execution.t1 job xml).kind f u v = some kind) :
    (Execution.t1 job xml).Matches f u v kind ↔ (Execution.t1 job xml).Distinguishable f u v := by
  simp only [Execution.kind, report, Option.map_eq_some_iff, Option.bind_eq_bind,
    Option.bind_eq_some_iff] at h
  obtain ⟨r,⟨parsed,hparsed,hverify⟩,rfl⟩ := h
  have hkind := classify_t1 hf hverify
  have hreading := parseVcRelax_reading f u hparsed
  have hexceed : (Execution.t1 job xml).ForcesExceed f u v ↔ Found (forceWord u) job.stdout ∧
      ¬ f.lt v.forceThresholdRy parsed.maxForceRyBohr = false := by
    obtain ⟨sizes,hsizes,hmax⟩ := hreading.force
    simp [ForcesExceed, hsizes, hmax]
  have hpressure : (Execution.t1 job xml).PressureExceeds f u v ↔ Found (pressureWord u) job.stdout ∧
      ¬ f.lt v.pressureThresholdKbar (f.abs parsed.pressureKbar) = false := by
    simp [PressureExceeds, hreading.pressure]
  constructor
  · intro hm
    refine ⟨fun ht => hkind.ne_timeout (hm.timeout ht),fun hscf => ?_,fun hscf hnot => ?_,nofun,nofun⟩
    · by_contra hshown
      exact hshown (hm.forces (hkind.forces.mpr ⟨not_not.mp hscf,fun h => hshown h.1⟩)).1
    · by_contra hshown
      have hlow : Found (forceWord u) job.stdout ∧ f.lt v.forceThresholdRy parsed.maxForceRyBohr = false := by
        by_contra hhigh
        exact hnot (hm.forces (hkind.forces.mpr ⟨not_not.mp hscf,hhigh⟩))
      exact hshown (hm.pressure (hkind.pressure.mpr ⟨not_not.mp hscf,hlow,fun h => hshown h.1⟩)).1
  · intro hd
    refine ⟨fun ht => absurd ht hd.inTime,fun h => ?_,fun h => ?_,hkind.scf.mp,
      fun h => absurd h hkind.ne_nscf⟩
    · obtain ⟨hconv,hhigh⟩ := hkind.forces.mp h
      have hshown := hd.forces (not_not.mpr hconv)
      exact hexceed.mpr ⟨hshown,fun hlow => hhigh ⟨hshown,hlow⟩⟩
    · obtain ⟨hconv,hlow,hhigh⟩ := hkind.pressure.mp h
      have hshown := hd.pressure (not_not.mpr hconv) fun h => (hexceed.mp h).2 hlow.2
      exact hpressure.mpr ⟨hshown,fun h => hhigh ⟨hshown,h⟩⟩

/-- The kind says what happened exactly where the words of the report can tell it. -/
theorem kind_matches_iff (hf : f.Plain) (e : Execution F) (h : e.kind f u v = some kind) :
    e.Matches f u v kind ↔ e.Distinguishable f u v := by
  cases e with
  | t1 job xml => exact matches_t1 hf h
  | t2Bands scf nscf post path bands =>
    exact matches_of_staged Iff.rfl Iff.rfl trivial trivial (staged_bands h)
  | t2Dos scf nscf post path dos =>
    exact matches_of_staged Iff.rfl Iff.rfl trivial trivial (staged_dos h)

/-- A relaxation that ran out of time after its first cycle, before any forces. -/
def unfinished : JobResult where
  success := false
  exitCode := -1
  stdout := "convergence has been achieved in 12 iterations\n".toList
  errorMessage := "pw.x timed out after 600s".toList

set_option maxRecDepth 10000 in
theorem unfinished_kind :
    (Execution.t1 unfinished none).kind decimals {} strictVerifier = some .forcesTooHigh := by
  delta unfinished
  repeat rw [String.toList_ofList]
  decide +kernel

theorem decimals_plain : decimals.Plain := nofun

theorem unfinished_matches_iff : decimals.lt 0 1 = true ∧
    ((Execution.t1 unfinished none).Matches decimals {} strictVerifier .forcesTooHigh ↔
      (Execution.t1 unfinished none).Distinguishable decimals {} strictVerifier) :=
  ⟨by decide,kind_matches_iff decimals_plain (Execution.t1 unfinished none) unfinished_kind⟩

theorem unfinished_too_high : ¬ ∀ (e : Execution ℚ) (kind : FailureKind),
    e.kind decimals {} strictVerifier = some kind → e.Matches decimals {} strictVerifier kind := by
  intro h
  have hm := h _ _ unfinished_kind
  have htime : reportsTimeout unfinished = true := by
    simp only [reportsTimeout, unfinished, contains]
    repeat rw [String.toList_ofList]
    decide +kernel
  cases hm.timeout ⟨unfinished,List.mem_cons_self,htime⟩

end Execution

end DftForge.Qe
