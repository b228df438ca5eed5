import DftForge.Qe.Evidence
import DftForge.Qe.Stages

/-! # The three records of a report

`passed`, the failure reasons and the entries are written on each branch of their own.
Every check multiplies the first two by its gate and the entries by what it records; the
reports contradict themselves where the product of the gates is not that of the records.
-/
namespace DftForge.Qe
open DftForge.Library DftForge.Runtime DftForge.Python

namespace ConvergenceReport
variable {F : Type}

/-- The report passed when it has no reasons, and when every entry other than that of
the energies passed. -/
structure Consistent (r : ConvergenceReport F) : Prop where
  reasons : r.passed = true ↔ r.failureReasons = []
  entries : r.failureReasons = [] ↔
    ∀ entry ∈ r.checks, entry.1 ≠ "energy_monotonicity" → entry.2.pass = true

def clean (r : ConvergenceReport F) : Bool := r.failureReasons.isEmpty

/-- An entry that passed, or that of the energies. -/
def settled (entry : String × Check F) : Bool := entry.1 == "energy_monotonicity" || entry.2.pass

def sound (r : ConvergenceReport F) : Bool := r.checks.all settled

variable (r : ConvergenceReport F) (name reason : String) (check : Check F) (ok : Bool)

@[simp] theorem fail_clean : (r.fail reason).clean = false := by
  simp [fail, clean]

@[simp] theorem fail_sound : (r.fail reason).sound = r.sound := rfl

@[simp] theorem failUnless_clean : (r.failUnless ok reason).clean = (r.clean && ok) := by
  unfold failUnless
  cases ok <;> simp

@[simp] theorem failUnless_sound : (r.failUnless ok reason).sound = r.sound := by
  unfold failUnless
  cases ok <;> simp

@[simp] theorem failUnless_checks : (r.failUnless ok reason).checks = r.checks := by
  unfold failUnless
  cases ok <;> rfl

@[simp] theorem note_clean : (r.note name check).clean = r.clean := rfl

@[simp] theorem note_sound : (r.note name check).sound = (r.sound && settled (name,check)) := by
  simp [note, sound]

variable {r}

theorem consistent_iff : r.Consistent ↔ r.passed = r.clean ∧ r.clean = r.sound := by
  have hclean : r.failureReasons = [] ↔ r.clean = true := List.isEmpty_iff.symm
  have hsound : (∀ entry ∈ r.checks, entry.1 ≠ "energy_monotonicity" → entry.2.pass = true) ↔
      r.sound = true := by
    simp only [sound, settled, List.all_eq_true, Bool.or_eq_true, beq_iff_eq, or_iff_not_imp_left, ne_eq]
  constructor
  · rintro ⟨hr,he⟩
    exact ⟨Bool.eq_iff_iff.mpr (hr.trans hclean),
      Bool.eq_iff_iff.mpr (hclean.symm.trans (he.trans hsound))⟩
  · rintro ⟨hr,he⟩
    exact ⟨(Bool.eq_iff_iff.mp hr).trans hclean.symm,
      hclean.trans ((Bool.eq_iff_iff.mp he).trans hsound.symm)⟩

/-- A report with the verdict `ok`, in all three records. -/
theorem Consistent.of_verdict (hp : r.passed = ok) (hc : r.clean = ok) (hs : r.sound = ok) :
    r.Consistent := consistent_iff.mpr ⟨hp.trans hc.symm,hc.trans hs.symm⟩

/-- What a check does: the gate on the verdict and its reasons, and the entry it leaves. -/
structure Effect (step : ConvergenceReport F → ConvergenceReport F) (gate entry : Bool) : Prop where
  passed : ∀ r, (step r).passed = (r.passed && gate)
  clean : ∀ r, (step r).clean = (r.clean && gate)
  sound : ∀ r, (step r).sound = (r.sound && entry)

variable {step next : ConvergenceReport F → ConvergenceReport F} {gate gate' entry entry' : Bool}

theorem Effect.then (h : Effect step gate entry) (h' : Effect next gate' entry') :
    Effect (fun r => next (step r)) (gate && gate') (entry && entry') where
  passed r := by rw [h'.passed, h.passed, Bool.and_assoc]
  clean r := by rw [h'.clean, h.clean, Bool.and_assoc]
  sound r := by rw [h'.sound, h.sound, Bool.and_assoc]

/-- The check of most gates: a reason where it fails, and its entry either way. -/
theorem effect_failUnless_note (hname : name ≠ "energy_monotonicity") :
    Effect (fun r => (r.failUnless ok reason).note name check) ok check.pass where
  passed r := by simp
  clean r := by simp
  sound r := by simp [settled, beq_eq_false_iff_ne.mpr hname]

end ConvergenceReport

section Effects
open ConvergenceReport
variable {F : Type} (f : Floats F) (u : Unicode) (v : ScientificVerifier F)
variable (text : Text) (parsed : ParsedVCResult F)

theorem checkJobSuccess_effect (ok : Bool) : Effect (F := F) (checkJobSuccess ok) ok ok := by
  cases ok with
  | true => exact ⟨fun r => (Bool.and_true _).symm,fun r => (Bool.and_true _).symm,
      fun r => (Bool.and_true _).symm⟩
  | false => exact effect_failUnless_note "job_success" _ ⟨false,[]⟩ false (by decide)

theorem checkDataQuality_effect :
    Effect (checkDataQuality f parsed) (!allZero f parsed) !allZero f parsed := by
  unfold checkDataQuality
  cases allZero f parsed with
  | true => exact effect_failUnless_note "data_quality" _ ⟨false,_⟩ false (by decide)
  | false => exact effect_failUnless_note "data_quality" "" ⟨true,_⟩ true (by decide)

theorem checkJobDone_effect :
    Effect (F := F) (checkJobDone text) (contains text "JOB DONE") (contains text "JOB DONE") :=
  effect_failUnless_note "job_done" _ ⟨_,[]⟩ _ (by decide)

theorem checkGeometry_effect : Effect (checkGeometry parsed) parsed.converged parsed.converged :=
  effect_failUnless_note "geometry_convergence" _ ⟨_,[]⟩ _ (by decide)

theorem checkScf_effect (scf : ParsedSCF F) : Effect (checkScf scf) scf.converged scf.converged :=
  effect_failUnless_note "scf_convergence" _ ⟨_,_⟩ _ (by decide)

theorem checkForces_effect : Effect (checkForces f u v text parsed)
    (decide (Regex.Found (forceWord u) text) && !f.lt v.forceThresholdRy parsed.maxForceRyBohr)
    (decide (Regex.Found (forceWord u) text) && f.le parsed.maxForceRyBohr v.forceThresholdRy) := by
  unfold checkForces
  by_cases h : Regex.Found (forceWord u) text
  · simp only [h, decide_true, Bool.true_and, if_true]
    exact effect_failUnless_note "forces" _ _ _ (by decide)
  · simp only [h, decide_false, Bool.false_and, Bool.false_eq_true, if_false]
    exact effect_failUnless_note "forces" _ ⟨false,_⟩ false (by decide)

theorem checkPressure_effect : Effect (checkPressure f u v text parsed)
    (decide (Regex.Found (pressureWord u) text) &&
      !f.lt v.pressureThresholdKbar (f.abs parsed.pressureKbar))
    (decide (Regex.Found (pressureWord u) text) &&
      f.le (f.abs parsed.pressureKbar) v.pressureThresholdKbar) := by
  unfold checkPressure
  by_cases h : Regex.Found (pressureWord u) text
  · simp only [h, decide_true, Bool.true_and, if_true]
    exact effect_failUnless_note "pressure" _ _ _ (by decide)
  · simp only [h, decide_false, Bool.false_and, Bool.false_eq_true, if_false]
    exact effect_failUnless_note "pressure" _ ⟨false,_⟩ false (by decide)

theorem checkEnergies_effect (texts : List Text) (falling : Bool) :
    Effect (F := F) (checkEnergies texts falling) true true := by
  unfold checkEnergies
  split
  · exact ⟨fun r => (Bool.and_true _).symm,fun r => (Bool.and_true _).symm,
      fun r => (Bool.and_true _).symm⟩
  · refine ⟨fun r => ?_,fun r => ?_,fun r => ?_⟩
    · cases falling <;> simp
    · cases falling <;> exact (Bool.and_true _).symm
    · rw [note_sound]
      have hsettled (pass : Bool) (details : List (String × Datum F)) :
          settled ("energy_monotonicity",⟨pass,details⟩) = true := by simp [settled]
      rw [hsettled]
      cases falling <;> rfl

/-- An unreasonable cell closes the gate and leaves no entry. -/
theorem checkCell_effect : Effect (checkCell f parsed)
    (parsed.cell.any fun cell => f.reasonable cell.aBohr) parsed.cell.isSome := by
  unfold checkCell
  cases parsed.cell with
  | none => exact effect_failUnless_note "cell_params" _ ⟨false,_⟩ false (by decide)
  | some cell =>
    cases h : f.reasonable cell.aBohr with
    | true =>
      simp only [h, if_true, Option.any_some, Option.isSome_some]
      exact effect_failUnless_note "cell_params" "" ⟨true,_⟩ true (by decide)
    | false =>
      simp only [h, Bool.false_eq_true, if_false, Option.any_some, Option.isSome_some]
      exact ⟨fun r => by simp,fun r => by simp,fun r => by simp⟩

/-- The last check adds a reason only where that of the forces did. -/
theorem checkIons_clean {r : ConvergenceReport F}
    (h : r.clean = true → f.lt v.forceThresholdRy parsed.maxForceRyBohr = false) :
    (checkIons f v text parsed r).clean = r.clean := by
  unfold checkIons
  split
  · next hlt =>
    rw [Bool.and_eq_true] at hlt
    cases hr : r.clean with
    | false => simp [clean]
    | true => exact absurd (h hr) (by rw [hlt.2]; simp)
  · rfl

@[simp] theorem checkIons_sound (r : ConvergenceReport F) :
    (checkIons f v text parsed r).sound = r.sound := by
  unfold checkIons
  split <;> rfl

@[simp] theorem summarise_clean (r : ConvergenceReport F) : (summarise r).clean = r.clean := rfl
@[simp] theorem summarise_sound (r : ConvergenceReport F) : (summarise r).sound = r.sound := rfl

/-- Every entry of the walk. -/
def records (inp : VerificationInput F) (parsed : ParsedVCResult F) : Bool :=
  inp.jobSuccess && !allZero f parsed && contains inp.stdout "JOB DONE" && parsed.converged &&
    decide (Regex.Found (converged u) inp.stdout) &&
    (decide (Regex.Found (forceWord u) inp.stdout) &&
      f.le parsed.maxForceRyBohr v.forceThresholdRy) &&
    (decide (Regex.Found (pressureWord u) inp.stdout) &&
      f.le (f.abs parsed.pressureKbar) v.pressureThresholdKbar) &&
    parsed.cell.isSome

variable {f u v parsed}

theorem verifyT1_records {inp : VerificationInput F} {r : ConvergenceReport F}
    (h : verifyT1 f u v inp parsed = some r) :
    r.clean = gates f u v inp parsed ∧ r.sound = records f u v inp parsed := by
  unfold verifyT1 at h
  simp only [Option.bind_eq_bind, Option.pure_def, Option.bind_eq_some_iff, Option.some.injEq] at h
  obtain ⟨scf,hscf,falling,-,rfl⟩ := h
  have hwalk := checkJobSuccess_effect (F := F) inp.jobSuccess
    |>.then (checkDataQuality_effect f parsed)
    |>.then (checkJobDone_effect inp.stdout)
    |>.then (checkGeometry_effect parsed)
    |>.then (checkScf_effect scf)
    |>.then (checkForces_effect f u v inp.stdout parsed)
    |>.then (checkPressure_effect f u v inp.stdout parsed)
    |>.then (checkEnergies_effect (energies u inp.stdout) falling)
    |>.then (checkCell_effect f parsed)
  rw [parseScf_converged f u inp.stdout hscf, Bool.and_true, Bool.and_true] at hwalk
  have hclean : (checkCell f parsed _).clean = gates f u v inp parsed := hwalk.clean ⟨true,[],[],[],""⟩
  constructor
  · rw [summarise_clean, checkIons_clean f v inp.stdout parsed, hclean]
    intro hc
    have hg : gates f u v inp parsed = true := hclean.symm.trans hc
    simp only [gates, Bool.and_eq_true, Bool.not_eq_true'] at hg
    exact hg.1.1.2.2
  · rw [summarise_sound, checkIons_sound]
    exact hwalk.sound ⟨true,[],[],[],""⟩

/-- A stage with the verdict `ok`, and the entry that the later reports take from it. -/
structure Stage (name : String) (r : ConvergenceReport F) (ok : Bool) : Prop where
  passed : r.passed = ok
  clean : r.clean = ok
  sound : r.sound = ok
  entry : ((r.checks.lookup name).getD ⟨false,[]⟩).pass = ok

theorem Stage.of_note {r : ConvergenceReport F} {name summary : String} {check : Check F} {ok : Bool}
    (hname : name ≠ "energy_monotonicity") (hr : r.checks = []) (hp : r.passed = ok) (hc : r.clean = ok)
    (hcheck : check.pass = ok) : Stage name { r.note name check with summary } ok where
  passed := hp
  clean := hc
  sound := by
    have hsound : r.sound = true := by rw [ConvergenceReport.sound, hr]; rfl
    change (r.note name check).sound = ok
    rw [note_sound, hsound, settled, beq_eq_false_iff_ne.mpr hname, hcheck, Bool.false_or, Bool.true_and]
  entry := by simp [note, hr, hcheck]

theorem verifyScf_stage {stdout : Text} {r : ConvergenceReport F} (h : verifyScf f u stdout = some r) :
    Stage "scf" r (scfOk u stdout) := by
  have hpassed := verifyScf_passed h
  unfold verifyScf at h
  by_cases hshort : tooShort stdout = true
  · rw [if_pos hshort] at h
    obtain rfl := Option.some.inj h
    exact .of_note (by decide) rfl hpassed hpassed hpassed
  · rw [if_neg hshort] at h
    obtain ⟨scf,-,rfl⟩ := Option.map_eq_some_iff.mp h
    have hok : scf.converged = scfOk u stdout := by simpa using hpassed
    refine .of_note (by decide) (failUnless_checks _ _ _) hpassed ?_ hok
    rw [failUnless_clean]
    exact hok

/-- The three questions of `verify_nscf` on a fresh report. -/
theorem verifyNscf_stage {stdout : Text} {r : ConvergenceReport F} (h : verifyNscf f u stdout = some r) :
    Stage "nscf" r (nscfOk stdout) := by
  have hpassed := verifyNscf_passed h
  unfold verifyNscf at h
  by_cases hshort : tooShort stdout = true
  · rw [if_pos hshort] at h
    obtain rfl := Option.some.inj h
    exact .of_note (by decide) rfl hpassed hpassed hpassed
  · rw [if_neg hshort] at h
    obtain ⟨scf,-,rfl⟩ := Option.map_eq_some_iff.mp h
    refine .of_note (by decide) (by simp only [failUnless_checks]) hpassed ?_ hpassed
    simp only [note_passed, failUnless_passed] at hpassed
    simp only [failUnless_clean]
    exact hpassed

theorem checkStages_effect {scf nscf : ConvergenceReport F} {a b : Bool} (hs : Stage "scf" scf a)
    (hn : Stage "nscf" nscf b) : (checkStages scf nscf).passed = (a && b) ∧
      (checkStages scf nscf).clean = (a && b) ∧ (checkStages scf nscf).sound = (a && b) := by
  have he := (effect_failUnless_note "scf" "SCF stage failed"
      ((scf.checks.lookup "scf").getD ⟨false,[]⟩) scf.passed (by decide)).then
    (effect_failUnless_note "nscf" "NSCF stage did not pass"
      ((nscf.checks.lookup "nscf").getD ⟨false,[]⟩) nscf.passed (by decide))
  have hgate : (scf.passed && nscf.passed) = (a && b) := by rw [hs.passed, hn.passed]
  refine ⟨(he.passed _).trans hgate,(he.clean _).trans hgate,(he.sound _).trans ?_⟩
  rw [hs.entry, hn.entry]
  rfl

/-- What the file of bands.x does to the report: no bands close the gate, and only a
positive number of them passes the entry. -/
theorem checkBandsFile_effect (path : String) (bands : Option (ParsedBands F)) :
    Effect (fun r => checkBandsFile path r bands) (bands.any fun b => b.nBands ≠ 0)
      (bands.any fun b => 0 < b.nBands) := by
  cases bands with
  | none => exact effect_failUnless_note "bands_xml" _ ⟨false,[]⟩ false (by decide)
  | some b =>
    have he := (effect_failUnless_note (F := F) "bands_xml" "" ⟨true,[]⟩ true (by decide)).then
      (effect_failUnless_note "bands_data" "bands XML parsed but empty (no eigenvalues)"
        ⟨0 < b.nBands,[("n_bands",.int b.nBands),("n_kpoints",.int b.nKpoints),
          ("fermi_ev",.float b.fermiEnergyEv)]⟩ (b.nBands ≠ 0) (by decide))
    rwa [Bool.true_and, Bool.true_and] at he

theorem checkDosFile_effect (path : String) (dos : Option (ParsedDOS F)) :
    Effect (fun r => checkDosFile path r dos) (dos.any fun d => d.nEnergyPoints ≠ 0)
      (dos.any fun d => 0 < d.nEnergyPoints) := by
  cases dos with
  | none => exact effect_failUnless_note "dos_file" _ ⟨false,[]⟩ false (by decide)
  | some d => exact effect_failUnless_note "dos_file" _ ⟨_,_⟩ _ (by decide)

end Effects

section Consistency
open ConvergenceReport
variable {F : Type} (f : Floats F) (u : Unicode) (v : ScientificVerifier F)

/-- A call of one of the five verifiers; `verify_t1` parses the text unless it is given
the result. -/
inductive Verification (F : Type) where
  | t1 (inp : VerificationInput F) (parsed : Option (ParsedVCResult F))
  | scf (stdout : Text)
  | nscf (stdout : Text)
  | t2Bands (scf nscf : Text) (path : String) (bands : Option (ParsedBands F))
  | t2Dos (scf nscf : Text) (path : String) (dos : Option (ParsedDOS F))

def parsedOf (inp : VerificationInput F) : Option (ParsedVCResult F) → Option (ParsedVCResult F)
  | some parsed => some parsed
  | none => parseVcRelax f u inp.stdout inp.xml

def Verification.report : Verification F → Option (ConvergenceReport F)
  | .t1 inp parsed => (parsedOf f u inp parsed).bind (verifyT1 f u v inp)
  | .scf stdout => verifyScf f u stdout
  | .nscf stdout => verifyNscf f u stdout
  | .t2Bands first second path bands => verifyT2Bands f u first second path bands
  | .t2Dos first second path dos => verifyT2Dos f u first second path dos

/-- The questions of `verify_t1` that its entries answer as its gates do. -/
structure Ready (inp : VerificationInput F) (parsed : ParsedVCResult F) : Prop where
  success : inp.jobSuccess = true
  nonzero : allZero f parsed = false
  done : contains inp.stdout "JOB DONE" = true
  geometry : parsed.converged = true
  scf : Regex.Found (converged u) inp.stdout
  force : Regex.Found (forceWord u) inp.stdout
  pressure : Regex.Found (pressureWord u) inp.stdout

/-- Neither quantity is above its threshold. -/
def NoneAbove (parsed : ParsedVCResult F) : Prop :=
  f.lt v.forceThresholdRy parsed.maxForceRyBohr = false ∧
    f.lt v.pressureThresholdKbar (f.abs parsed.pressureKbar) = false

/-- Both quantities are at most their thresholds; more than `NoneAbove` where one of the
numbers is not a number. -/
def BothWithin (parsed : ParsedVCResult F) : Prop :=
  f.le parsed.maxForceRyBohr v.forceThresholdRy = true ∧
    f.le (f.abs parsed.pressureKbar) v.pressureThresholdKbar = true

/-- The calls whose report contradicts itself: a cell that is the only failure leaves no
entry, a quantity without an order passes its gate but not its entry, and so does a
negative number of bands. -/
inductive Contradicts : Verification F → Prop where
  | cell {inp : VerificationInput F} {given : Option (ParsedVCResult F)} {parsed : ParsedVCResult F}
      {cell : ParsedCell F} (hp : parsedOf f u inp given = some parsed) (hr : Ready f u inp parsed)
      (hw : BothWithin f v parsed) (hc : parsed.cell = some cell)
      (hu : f.reasonable cell.aBohr = false) : Contradicts (.t1 inp given)
  | unordered {inp : VerificationInput F} {given : Option (ParsedVCResult F)}
      {parsed : ParsedVCResult F} {cell : ParsedCell F} (hp : parsedOf f u inp given = some parsed)
      (hr : Ready f u inp parsed) (ha : NoneAbove f v parsed) (hw : ¬ BothWithin f v parsed)
      (hc : parsed.cell = some cell) (hu : f.reasonable cell.aBohr = true) : Contradicts (.t1 inp given)
  | bands {scf nscf : Text} {path : String} {bands : ParsedBands F} (hs : scfOk u scf = true)
      (hn : nscfOk nscf = true) (hb : bands.nBands < 0) : Contradicts (.t2Bands scf nscf path (some bands))

variable {f u v}

theorem gates_iff_ready {inp : VerificationInput F} {parsed : ParsedVCResult F} :
    gates f u v inp parsed = true ↔ Ready f u inp parsed ∧ NoneAbove f v parsed ∧
      ∃ cell, parsed.cell = some cell ∧ f.reasonable cell.aBohr = true := by
  simp only [gates, Bool.and_eq_true, Bool.not_eq_true', decide_eq_true_eq, Option.any_eq_true]
  constructor
  · rintro ⟨⟨⟨⟨⟨⟨⟨hj,hz⟩,hd⟩,hg⟩,hs⟩,hf,hlf⟩,hp,hlp⟩,hc⟩
    exact ⟨⟨hj,hz,hd,hg,hs,hf,hp⟩,⟨hlf,hlp⟩,hc⟩
  · rintro ⟨⟨hj,hz,hd,hg,hs,hf,hp⟩,⟨hlf,hlp⟩,hc⟩
    exact ⟨⟨⟨⟨⟨⟨⟨hj,hz⟩,hd⟩,hg⟩,hs⟩,hf,hlf⟩,hp,hlp⟩,hc⟩

theorem records_iff_ready {inp : VerificationInput F} {parsed : ParsedVCResult F} :
    records f u v inp parsed = true ↔ Ready f u inp parsed ∧ BothWithin f v parsed ∧
      ∃ cell, parsed.cell = some cell := by
  simp only [records, Bool.and_eq_true, Bool.not_eq_true', decide_eq_true_eq, Option.isSome_iff_exists]
  constructor
  · rintro ⟨⟨⟨⟨⟨⟨⟨hj,hz⟩,hd⟩,hg⟩,hs⟩,hf,hlf⟩,hp,hlp⟩,hc⟩
    exact ⟨⟨hj,hz,hd,hg,hs,hf,hp⟩,⟨hlf,hlp⟩,hc⟩
  · rintro ⟨⟨hj,hz,hd,hg,hs,hf,hp⟩,⟨hlf,hlp⟩,hc⟩
    exact ⟨⟨⟨⟨⟨⟨⟨hj,hz⟩,hd⟩,hg⟩,hs⟩,hf,hlf⟩,hp,hlp⟩,hc⟩

/-- The gates of a vc-relax and its entries differ on the cell, or on quantities without
an order. -/
theorem gates_eq_records_iff (hlt : ∀ x y, f.lt x y = true → f.le y x = false)
    {inp : VerificationInput F} {given : Option (ParsedVCResult F)} {parsed : ParsedVCResult F}
    (hp : parsedOf f u inp given = some parsed) :
    gates f u v inp parsed = records f u v inp parsed ↔ ¬ Contradicts f u v (.t1 inp given) := by
  have habove (hw : BothWithin f v parsed) : NoneAbove f v parsed := by
    constructor
    · refine Bool.eq_false_iff.mpr fun h => ?_
      exact absurd hw.1 (by rw [hlt _ _ h]; decide)
    · refine Bool.eq_false_iff.mpr fun h => ?_
      exact absurd hw.2 (by rw [hlt _ _ h]; decide)
  rw [Bool.eq_iff_iff, gates_iff_ready, records_iff_ready]
  constructor
  · rintro h (⟨hp',hr,hw,hc,hu⟩ | ⟨hp',hr,ha,hw,hc,hu⟩)
    · obtain rfl := Option.some.inj (hp.symm.trans hp')
      obtain ⟨-,-,cell,hcell,hreasonable⟩ := h.mpr ⟨hr,hw,_,hc⟩
      obtain rfl := Option.some.inj (hc.symm.trans hcell)
      rw [hu] at hreasonable
      cases hreasonable
    · obtain rfl := Option.some.inj (hp.symm.trans hp')
      exact hw (h.mp ⟨hr,ha,_,hc,hu⟩).2.1
  · intro h
    constructor
    · rintro ⟨hr,ha,cell,hc,hu⟩
      refine ⟨hr,?_,cell,hc⟩
      by_contra hw
      exact h (.unordered hp hr ha hw hc hu)
    · rintro ⟨hr,hw,cell,hc⟩
      refine ⟨hr,habove hw,cell,hc,?_⟩
      by_contra hu
      exact h (.cell hp hr hw hc (Bool.eq_false_iff.mpr hu))

theorem Stage.consistent {name : String} {r : ConvergenceReport F} {ok : Bool} (h : Stage name r ok) :
    r.Consistent := .of_verdict ok h.passed h.clean h.sound

/-- The two pw.x stages and the check of the last file. -/
theorem counted_consistent_iff {first second : Text} {scf nscf : ConvergenceReport F} {title : String}
    {step : ConvergenceReport F → ConvergenceReport F} {gate entry : Bool}
    (hs : verifyScf f u first = some scf) (hn : verifyNscf f u second = some nscf)
    (he : Effect step gate entry) : (counted title (step (checkStages scf nscf))).Consistent ↔
      (scfOk u first = true → nscfOk second = true → gate = entry) := by
  obtain ⟨hpassed,hclean,hsound⟩ := checkStages_effect (verifyScf_stage hs) (verifyNscf_stage hn)
  have hp := he.passed (checkStages scf nscf)
  have hc := he.clean (checkStages scf nscf)
  have hr := he.sound (checkStages scf nscf)
  rw [hpassed] at hp
  rw [hclean] at hc
  rw [hsound] at hr
  rw [consistent_iff]
  change (step _).passed = (step _).clean ∧ (step _).clean = (step _).sound ↔ _
  rw [hp, hc, hr]
  cases scfOk u first <;> cases nscfOk second <;> simp

theorem verifyT2Bands_consistent_iff {first second : Text} {path : String}
    {bands : Option (ParsedBands F)} {r : ConvergenceReport F}
    (h : verifyT2Bands f u first second path bands = some r) :
    r.Consistent ↔ ¬ Contradicts f u v (.t2Bands first second path bands) := by
  unfold verifyT2Bands at h
  simp only [Option.bind_eq_bind, Option.pure_def, Option.bind_eq_some_iff, Option.some.injEq] at h
  obtain ⟨scf,hs,nscf,hn,rfl⟩ := h
  rw [counted_consistent_iff hs hn (checkBandsFile_effect path bands)]
  constructor
  · rintro h (_ | _ | ⟨hs,hn,hb⟩)
    have hgate := h hs hn
    simp only [Option.any_some, decide_eq_decide] at hgate
    exact absurd (hgate.mp hb.ne) hb.not_gt
  · intro h hs hn
    cases bands with
    | none => rfl
    | some b =>
      have hb : 0 ≤ b.nBands := not_lt.mp fun hb => h (.bands hs hn hb)
      exact decide_eq_decide.mpr (lt_iff_le_and_ne.trans ⟨fun h => h.2.symm,fun h => ⟨hb,h.symm⟩⟩).symm

theorem verifyT2Dos_consistent {first second : Text} {path : String} {dos : Option (ParsedDOS F)}
    {r : ConvergenceReport F} (h : verifyT2Dos f u first second path dos = some r) : r.Consistent := by
  unfold verifyT2Dos at h
  simp only [Option.bind_eq_bind, Option.pure_def, Option.bind_eq_some_iff, Option.some.injEq] at h
  obtain ⟨scf,hs,nscf,hn,rfl⟩ := h
  rw [counted_consistent_iff hs hn (checkDosFile_effect path dos)]
  intro _ _
  cases dos with
  | none => rfl
  | some d => exact decide_eq_decide.mpr Nat.pos_iff_ne_zero.symm

/-- A report contradicts itself exactly on the calls above. -/
theorem report_consistent_iff (hlt : ∀ x y, f.lt x y = true → f.le y x = false) {x : Verification F}
    {r : ConvergenceReport F} (h : x.report f u v = some r) :
    r.Consistent ↔ ¬ Contradicts f u v x := by
  cases x with
  | t1 inp given =>
    obtain ⟨parsed,hp,h⟩ := Option.bind_eq_some_iff.mp h
    obtain ⟨hclean,hsound⟩ := verifyT1_records h
    rw [consistent_iff, verifyT1_passed f u v parsed h, hclean, hsound, gates_eq_records_iff hlt hp]
    exact ⟨fun h => h.2,fun h => ⟨rfl,h⟩⟩
  | scf stdout => exact iff_of_true (verifyScf_stage h).consistent nofun
  | nscf stdout => exact iff_of_true (verifyNscf_stage h).consistent nofun
  | t2Bands first second path bands => exact verifyT2Bands_consistent_iff h
  | t2Dos first second path dos => exact iff_of_true (verifyT2Dos_consistent h) nofun

end Consistency

/-- A finished relaxation of a cell of 150 Bohr. -/
def oversized : VerificationInput ℚ where
  stdout := ("bravais-lattice index = 1\nnumber of atoms/cell = 2\n" ++
    "convergence has been achieved in 12 iterations\n" ++
    "atom 1 type 1 force = 0.0 0.0 0.0\nP= 0.10\n" ++
    "End of BFGS Geometry Optimization\nBegin final coordinates\n" ++
    "CELL_PARAMETERS (alat= 150.0)\n 1.0 0.0 0.0\n 0.0 1.0 0.0\n 0.0 0.0 1.0\n" ++
    "End final coordinates\nJOB DONE.\n").toList

/-- Its report fails with every entry passed. -/
def failedInPassing (r : ConvergenceReport ℚ) : Bool := !r.passed && r.checks.all (·.2.pass)

theorem decimals_order (x y : ℚ) (h : decimals.lt x y = true) : decimals.le y x = false :=
  decide_eq_false_iff_not.mpr (not_le.mpr (of_decide_eq_true h))

theorem missing_dos_consistent : ∃ r,
    Verification.report decimals {} strictVerifier (.t2Dos [] [] "si.dos" none) = some r ∧
      r.failureReasons = ["SCF stage failed","NSCF stage did not pass","DOS file not found: si.dos"] ∧
      r.Consistent := by
  have hr : Verification.report decimals {} strictVerifier (.t2Dos [] [] "si.dos" none) = some _ := rfl
  exact ⟨_,hr,rfl,(report_consistent_iff decimals_order hr).mpr nofun⟩

set_option maxRecDepth 10000 in
theorem oversized_fails_in_passing : ¬ ∀ r,
    Verification.report decimals {} strictVerifier (.t1 oversized none) = some r → r.Consistent := by
  intro h
  have hfails : ((Verification.report decimals {} strictVerifier (.t1 oversized none)).any
      failedInPassing) = true := by
    delta oversized
    simp only [String.toList_append, -String.reduceToList, -String.reduceAppend]
    repeat rw [String.toList_ofList]
    decide +kernel
  obtain ⟨r,hr,hf⟩ := Option.any_eq_true _ _ |>.mp hfails
  simp only [failedInPassing, Bool.and_eq_true, Bool.not_eq_true', List.all_eq_true] at hf
  obtain ⟨hreasons,hentries⟩ := h r hr
  have hpassed := hreasons.mpr (hentries.mpr fun entry he _ => hf.2 entry he)
  rw [hf.1] at hpassed
  cases hpassed

end DftForge.Qe
