import DftForge.Qe.Stages

/-! # The words of the reasons

`classify` sorts the reasons of a report by their words. Nearly every reason has the
words of one kind only: most of them are fixed texts, and a formatted number never
supplies a word. A report of such reasons is sorted by the first of their kinds.
-/
namespace DftForge.Qe
open DftForge.Library DftForge.Runtime DftForge.Python DftForge.Hpc
open Regex (Found)

section Words

/-- The characters of a formatted number. -/
def numberChars : List Char :=
  ['0','1','2','3','4','5','6','7','8','9','+','-','.','e','i','n','f','a']

def keep (c : Char) : Bool := c ∉ numberChars

theorem lower_append (s t : Text) : lower (s ++ t) = lower s ++ lower t := List.flatMap_append

theorem lower_number {t : Text} (h : ∀ c ∈ t, c ∈ numberChars) : (lower t).filter keep = [] := by
  have hchars : ∀ c ∈ numberChars, lowerChar c = [c] := by
    simp only [numberChars, List.forall_mem_cons]
    exact ⟨rfl,rfl,rfl,rfl,rfl,rfl,rfl,rfl,rfl,rfl,rfl,rfl,rfl,rfl,rfl,rfl,rfl,rfl,by simp⟩
  rw [List.filter_eq_nil_iff]
  intro d hd
  obtain ⟨c,hc,hd⟩ := List.mem_flatMap.mp hd
  rw [hchars c (h c hc), List.mem_singleton] at hd
  subst hd
  simp [keep, h d hc]

/-- A word that is not in what is left of a text without the characters of numbers is not in
the text. -/
theorem contains_false {t : Text} {sub : String} (h : ¬ sub.toList.filter keep <:+: t.filter keep) :
    contains t sub = false := by
  refine decide_eq_false fun hsub => h ?_
  exact hsub.filter keep

theorem contains_of_substring {s t : Text} {sub : String} (hs : s <:+: t) (h : contains s sub = true) :
    contains t sub = true :=
  decide_eq_true ((of_decide_eq_true h).trans hs)

/-- A word starts in one of two texts or goes over their border. -/
theorem infix_append_cases {α : Type*} {p s t : List α} (h : p <:+: s ++ t) :
    p <:+: s ∨ p <:+: t ∨ ∃ k, 0 < k ∧ k ≤ p.length ∧ p.take k <:+ s := by
  obtain ⟨front,back,h⟩ := h
  rw [List.append_assoc] at h
  rcases List.append_eq_append_iff.mp h with ⟨rest,rfl,hrest⟩ | ⟨rest,rfl,hrest⟩
  · rcases List.append_eq_append_iff.mp hrest with ⟨tail,rfl,rfl⟩ | ⟨tail,rfl,rfl⟩
    · exact Or.inl ⟨front,tail,by rw [List.append_assoc]⟩
    · cases rest with
      | nil => exact Or.inr (Or.inl ⟨[],back,by simp⟩)
      | cons c rest =>
        refine Or.inr (Or.inr ⟨(c :: rest).length,by simp,by simp,?_⟩)
        rw [List.take_left']
        · exact List.suffix_append _ _
        · rfl
  · exact Or.inr (Or.inl ⟨rest,back,by rw [hrest, List.append_assoc]⟩)

end Words

/-- The kind of the first signature, in the order of the classifier, among the given ones. -/
def priority (kinds : List FailureKind) : FailureKind :=
  ((signatures.find? fun sig => sig.2 ∈ kinds).map (·.2)).getD .unknown

/-- A reason whose words are those of one signature, or of none. -/
def Marked (reason : String) (kind : FailureKind) : Prop :=
  ∀ sig ∈ signatures, (sig.1.any fun sub => contains (lower reason.toList) sub) = decide (sig.2 = kind)

theorem anyContains_marked {reasons : List String} {kinds : List FailureKind}
    (h : List.Forall₂ Marked reasons kinds) {sig : List String × FailureKind} (hsig : sig ∈ signatures) :
    anyContains (reasons.map fun r => lower r.toList) sig.1 = decide (sig.2 ∈ kinds) := by
  unfold anyContains
  induction h with
  | nil => rfl
  | @cons reason kind reasons kinds hreason _ ih =>
    rw [List.map_cons, List.any_cons, ih, hreason sig hsig]
    simp [List.mem_cons, Bool.decide_or]

theorem firstSignature_marked {reasons : List String} {kinds : List FailureKind}
    (h : List.Forall₂ Marked reasons kinds) (sigs : List (List String × FailureKind))
    (hsigs : ∀ sig ∈ sigs, sig ∈ signatures) :
    firstSignature (reasons.map fun r => lower r.toList) sigs =
      ((sigs.find? fun sig => sig.2 ∈ kinds).map (·.2)).getD .unknown := by
  induction sigs with
  | nil => rfl
  | cons sig sigs ih =>
    obtain ⟨subs,kind⟩ := sig
    have hrest := ih fun s hs => hsigs s (List.mem_cons_of_mem _ hs)
    rw [firstSignature, anyContains_marked h (hsigs _ List.mem_cons_self), List.find?_cons, hrest]
    by_cases hmem : kind ∈ kinds <;> simp [hmem]

theorem classify_of_reasons {F : Type} {report : ConvergenceReport F} (h : report.failureReasons ≠ []) :
    classify report = firstSignature (report.failureReasons.map fun r => lower r.toList) signatures := by
  unfold classify
  dsimp only
  rw [if_neg]
  rw [Bool.and_eq_true, List.isEmpty_iff, List.map_eq_nil_iff]
  exact fun hnone => h hnone.2

/-- A report whose reasons have one signature each is sorted by the first of them. -/
theorem classify_marked {F : Type} {report : ConvergenceReport F} {kinds : List FailureKind}
    (h : List.Forall₂ Marked report.failureReasons kinds) : classify report = priority kinds := by
  have hfirst := firstSignature_marked h signatures fun _ hs => hs
  by_cases hnone : report.failureReasons = []
  · rw [hnone] at h hfirst
    cases h
    unfold classify
    rw [hnone]
    dsimp only [List.map_nil]
    rw [hfirst]
    split_ifs
    · decide
    · rfl
  · rw [classify_of_reasons hnone]
    exact hfirst

theorem priority_cons (kinds : List FailureKind) (sig : List String × FailureKind)
    (sigs : List (List String × FailureKind)) :
    (((sig :: sigs).find? fun sig => sig.2 ∈ kinds).map (·.2)).getD .unknown =
      if sig.2 ∈ kinds then sig.2
      else ((sigs.find? fun sig => sig.2 ∈ kinds).map (·.2)).getD .unknown := by
  rw [List.find?_cons]
  by_cases h : sig.2 ∈ kinds <;> simp [h]

theorem priority_eq (kinds : List FailureKind) : priority kinds =
    if .scfNotConverged ∈ kinds then .scfNotConverged
    else if .nscfNotConverged ∈ kinds then .nscfNotConverged
    else if .bandsXmlMissing ∈ kinds then .bandsXmlMissing
    else if .dosFileMissing ∈ kinds then .dosFileMissing
    else if .forcesTooHigh ∈ kinds then .forcesTooHigh
    else if .pressureTooHigh ∈ kinds then .pressureTooHigh
    else if .badCell ∈ kinds then .badCell
    else if .jobTimeout ∈ kinds then .jobTimeout
    else if .toolFailure ∈ kinds then .toolFailure
    else if .parserMismatch ∈ kinds then .parserMismatch
    else .unknown := by
  unfold priority signatures
  simp only [priority_cons]
  rfl

/-- Three questions decide the kind, where nothing else takes precedence. -/
structure Ranked (kind : FailureKind) (conv force pressure : Prop) : Prop where
  ne_timeout : kind ≠ .jobTimeout
  ne_nscf : kind ≠ .nscfNotConverged
  scf : kind = .scfNotConverged ↔ ¬ conv
  forces : kind = .forcesTooHigh ↔ conv ∧ ¬ force
  pressure : kind = .pressureTooHigh ↔ conv ∧ force ∧ ¬ pressure

theorem priority_of_mem {kinds : List FailureKind} {conv force pressure : Prop}
    (hconv : .scfNotConverged ∈ kinds ↔ ¬ conv) (hforce : .forcesTooHigh ∈ kinds ↔ ¬ force)
    (hpressure : .pressureTooHigh ∈ kinds ↔ ¬ pressure)
    (hnone : ∀ kind ∈ kinds, kind ∈ [FailureKind.scfNotConverged,.forcesTooHigh,.pressureTooHigh,.badCell,
      .parserMismatch,.unknown]) : Ranked (priority kinds) conv force pressure := by
  have hnot : ∀ kind, kind ∉ [FailureKind.scfNotConverged,.forcesTooHigh,.pressureTooHigh,.badCell,
      .parserMismatch,.unknown] → kind ∉ kinds := fun kind h hmem => h (hnone kind hmem)
  rw [priority_eq, if_neg (hnot .nscfNotConverged (by decide)), if_neg (hnot .bandsXmlMissing (by decide)),
    if_neg (hnot .dosFileMissing (by decide)), if_neg (hnot .jobTimeout (by decide)),
    if_neg (hnot .toolFailure (by decide))]
  split_ifs with h1 h2 h3 h4 h5 <;> constructor <;> simp_all

/-- The reasons without a number or a path, by what they are sorted into. -/
def fixedReasons : FailureKind → List String
  | .scfNotConverged => ["SCF did not converge","SCF stage failed"]
  | .nscfNotConverged => ["NSCF stage did not pass"]
  | .bandsXmlMissing => ["bands XML parsed but empty (no eigenvalues)"]
  | .dosFileMissing => ["DOS file parsed but empty (no energy points)"]
  | .forcesTooHigh => ["No atomic-force block found in vc-relax output",
      "vc-relax did not converge: forces still above threshold"]
  | .pressureTooHigh => ["No pressure value found in vc-relax output"]
  | .badCell => ["No final cell parameters found in vc-relax output"]
  | .parserMismatch => ["Parser failed to extract values - possible format mismatch"]
  | .unknown => ["Job execution failed (non-zero exit / backend error)","JOB DONE not found in output",
      "Geometry optimization did not converge"]
  | _ => []

theorem fixedReasons_marked (kind : FailureKind) : ∀ reason ∈ fixedReasons kind, Marked reason kind := by
  unfold Marked signatures contains
  cases kind <;> dsimp only [fixedReasons] <;>
    simp only [List.forall_mem_cons, List.any_cons, List.any_nil]
  all_goals repeat rw [String.toList_ofList]
  all_goals decide +kernel

section Numbers
variable {F : Type} {f : Floats F}

/-- A formatted number has digits, signs, a point, an exponent, or says `inf` or `nan`. -/
def Floats.Plain (f : Floats F) : Prop := ∀ spec x, ∀ c ∈ (f.format spec x).toList, c ∈ numberChars

theorem kept_number (hf : f.Plain) (spec : String) (x : F) :
    (lower (f.format spec x).toList).filter keep = [] :=
  lower_number (hf spec x)

/-- A reason that starts with the words of its kind and gets no other words. -/
theorem marked_front {front rest : String} {kind : FailureKind} (kept : Text) (h : Marked front kind)
    (hrest : (lower rest.toList).filter keep = kept)
    (hother : ∀ sig ∈ signatures, sig.2 ≠ kind → (sig.1.any fun sub => decide
      (sub.toList.filter keep <:+: (lower front.toList).filter keep ++ kept)) = false) :
    Marked (front ++ rest) kind := by
  have hlower : lower (front ++ rest).toList = lower front.toList ++ lower rest.toList := by
    rw [String.toList_append, lower_append]
  intro sig hmem
  rw [hlower]
  by_cases hkind : sig.2 = kind
  · have hany := h sig hmem
    rw [decide_eq_true hkind, List.any_eq_true] at hany ⊢
    obtain ⟨sub,hsub,hcontains⟩ := hany
    exact ⟨sub,hsub,contains_of_substring List.infix_append_left hcontains⟩
  · rw [decide_eq_false hkind, List.any_eq_false]
    intro sub hsub
    have hsub := List.any_eq_false.mp (hother sig hmem hkind) sub hsub
    rw [← hrest, ← List.filter_append, decide_eq_true_eq] at hsub
    rw [contains_false hsub]
    exact Bool.false_ne_true

/-- A reason that names a value and the limit it exceeds. -/
theorem marked_limit (hf : f.Plain) {front middle : String} {kind : FailureKind} (h : Marked front kind)
    (hother : ∀ sig ∈ signatures, sig.2 ≠ kind → (sig.1.any fun sub => decide (sub.toList.filter keep <:+:
      (lower front.toList).filter keep ++ (lower middle.toList).filter keep)) = false)
    (spec spec' : String) (value limit : F) :
    Marked (front ++ f.format spec value ++ middle ++ f.format spec' limit) kind := by
  rw [String.append_assoc, String.append_assoc]
  refine marked_front ((lower middle.toList).filter keep) h ?_ hother
  simp only [String.toList_append, lower_append, List.filter_append, kept_number hf, List.append_nil,
    List.nil_append]

theorem marked_force (hf : f.Plain) (size limit : F) : Marked ("Max force " ++ f.format ".2e" size ++
    " Ry/Bohr exceeds threshold " ++ f.format ".0e" limit) .forcesTooHigh := by
  refine marked_limit hf ?_ ?_ ".2e" ".0e" size limit
  · simp only [Marked, signatures, contains, List.forall_mem_cons, List.any_cons, List.any_nil]
    repeat rw [String.toList_ofList]
    decide +kernel
  · simp only [signatures, List.forall_mem_cons, List.any_cons, List.any_nil]
    repeat rw [String.toList_ofList]
    decide +kernel

theorem marked_pressure (hf : f.Plain) (size limit : F) : Marked ("Pressure " ++ f.format ".2f" size ++
    " kbar exceeds threshold " ++ f.format "" limit) .pressureTooHigh := by
  refine marked_limit hf ?_ ?_ ".2f" "" size limit
  · simp only [Marked, signatures, contains, List.forall_mem_cons, List.any_cons, List.any_nil]
    repeat rw [String.toList_ofList]
    decide +kernel
  · simp only [signatures, List.forall_mem_cons, List.any_cons, List.any_nil]
    repeat rw [String.toList_ofList]
    decide +kernel

theorem marked_cell (hf : f.Plain) (a : F) : Marked ("Unreasonable cell: a=" ++ f.format "" a) .badCell := by
  refine marked_front [] ?_ (kept_number hf _ _) ?_
  all_goals
    simp only [Marked, signatures, contains, List.forall_mem_cons, List.any_cons, List.any_nil]
    repeat rw [String.toList_ofList]
    decide +kernel

end Numbers

end DftForge.Qe
