import DftForge.Agent.StepLoop

/-! # One malformed step

Every exit of the loop appends one entry to each of the three lists, so that they stay
aligned. What a session does not survive is an argument of a shape that the guard or the
preparation does not expect: both read the arguments outside the `try`.
-/
namespace DftForge.Agent
open DftForge.Runtime DftForge.Python DftForge.Engines DftForge.Tools DftForge.Qe

section Shapes
variable (h : Host) (w : World) (s : SessionState) (args : Dict)

def isObject : Json → Bool
  | .obj _ => true
  | _ => false

def selfDopant (host : String) : Json → Bool
  | .obj d => elementOf (h.textAt d "element" "") = host.toList
  | _ => false

/-- Every dopant before the first self-dopant is an object. -/
def DopantsShaped (host : String) (v : Json) : Prop :=
  truthy v = true → ∃ items, v = .arr items ∧
    ∀ d ∈ items.takeWhile fun d => !selfDopant h host d, isObject d = true

/-- The places that `structure.analyze` asks for can be asked for. -/
def SourceReadable : Prop :=
  let source := if truthyAt args "source" then h.textAt args "source" "" else ""
  let current := currentStructure s
  endsInJson (h.textAt args "output" "") = true ∨ source = "__generated__" ∨ truthy current = false ∨
    w.isFile source = some true ∨ (w.isFile source = some false ∧ (w.isFile (h.text current)).isSome = true)

/-- The atom counts of the last three energies can be compared and subtracted. -/
def CountsComparable : Prop :=
  ∀ m surface adsorbed rest, s.scfEnergies.reverse = m :: surface :: adsorbed :: rest →
    (truthy adsorbed.natoms && truthy surface.natoms && truthy m.natoms) = true →
      ((numberOf adsorbed.natoms).isSome = true ∧ (numberOf surface.natoms).isSome = true) ∨
        h.greater adsorbed.natoms surface.natoms = some false

/-- The arguments have the shapes that the guard and the preparation of the tool read. -/
structure WellShaped (toolId : String) : Prop where
  dopants : toolId = "structure.build2d" → ∀ host, hostElements (h.textAt args "kind" "") = [host] →
    DopantsShaped h host (field args "dopants")
  adsorb : toolId = "structure.build2d" → checkBuild2d h args = .passes → truthyAt args "adsorb" = true →
    isObject (field args "adsorb") = true
  inputs : toolId = "graph.run" → (h.dictAt args "inputs").isSome = true
  previous : toolId = "graph.run" → previousRaises h w s = false
  source : toolId = "structure.analyze" → SourceReadable h w s args
  counts : toolId = "thermo.eads" → isNone args "ry_a" = true → CountsComparable h s
  useLast : toolId = "analysis.compare" → truthyAt args "entries" = false → truthyAt args "use_last" = true →
    ∃ n, toInt h.nums (field args "use_last") = .ok n

theorem checkDopants_raises_iff (host : String) (items : List Json) : checkDopants h host items = .raises ↔
    ¬ ∀ d ∈ items.takeWhile fun d => !selfDopant h host d, isObject d = true := by
  induction items with
  | nil => simp [checkDopants]
  | cons d items ih =>
    cases d with
    | obj d =>
      by_cases hself : elementOf (h.textAt d "element" "") = host.toList
      · simp [checkDopants, selfDopant, hself]
      · simp only [checkDopants, if_neg hself, ih]
        simp [selfDopant, hself, isObject]
    | null => simp [checkDopants, selfDopant, isObject]
    | bool b => simp [checkDopants, selfDopant, isObject]
    | num q => simp [checkDopants, selfDopant, isObject]
    | str t => simp [checkDopants, selfDopant, isObject]
    | arr l => simp [checkDopants, selfDopant, isObject]

theorem checkBuild2d_raises_iff : checkBuild2d h args = .raises ↔
    ¬ ∀ host, hostElements (h.textAt args "kind" "") = [host] → DopantsShaped h host (field args "dopants") := by
  unfold checkBuild2d
  split
  · next host hhost =>
    have hone : (∀ x, [host] = [x] → DopantsShaped h x (field args "dopants")) ↔
        DopantsShaped h host (field args "dopants") :=
      ⟨fun hall => hall host rfl,fun hd x hx => by rwa [← (List.cons.inj hx).1]⟩
    rw [hhost, hone]
    rw [show (args.get? "dopants").getD .null = field args "dopants" from rfl]
    cases field args "dopants" with
    | arr dopants =>
      rw [checkDopants_raises_iff, not_iff_not]
      cases dopants with
      | nil => simp [DopantsShaped]
      | cons d ds => simp [DopantsShaped, truthy]
    | null => simp [DopantsShaped, truthy]
    | bool b => cases b <;> simp [DopantsShaped, truthy]
    | num q => by_cases hq : q = 0 <;> simp [DopantsShaped, truthy, hq]
    | str t => by_cases ht : t = "" <;> simp [DopantsShaped, truthy, ht]
    | obj d => cases d <;> simp [DopantsShaped, truthy]
  · next hnone =>
    simp only [reduceCtorEq, false_iff, not_not]
    exact fun host hhost => absurd hhost (hnone host)

theorem checkDope_ne_raises : checkDope h args ≠ .raises := by
  unfold checkDope
  split
  · exact nofun
  · split
    · split_ifs <;> exact nofun
    · exact nofun

theorem checkSelfDoping_raises_iff (toolId : String) : checkSelfDoping h args toolId = .raises ↔
    toolId = "structure.build2d" ∧ checkBuild2d h args = .raises := by
  unfold checkSelfDoping
  split_ifs with h1 h2
  · simp [h1]
  · simp [h1, checkDope_ne_raises]
  · simp [h1]

theorem adsorbSite_none_iff : adsorbSite h.toShell args = none ↔
    truthyAt args "adsorb" = true ∧ isObject (field args "adsorb") = false := by
  unfold adsorbSite truthyAt field
  cases args.get? "adsorb" with
  | none => simp
  | some v =>
    cases v with
    | obj fields => simp [isObject]
    | null => simp [truthy, isObject]
    | bool b => cases b <;> simp [truthy, isObject]
    | num q => by_cases hq : q = 0 <;> simp [truthy, isObject, hq]
    | str t => by_cases ht : t = "" <;> simp [truthy, isObject, ht]
    | arr l => cases l <;> simp [truthy, isObject]

theorem prepareAnalyze_raised_iff : prepareAnalyze h w s args = .raised ↔ ¬ SourceReadable h w s args := by
  unfold prepareAnalyze SourceReadable
  dsimp only
  generalize (if truthyAt args "source" then h.textAt args "source" "" else "") = source
  by_cases hout : endsInJson (h.textAt args "output" "") = true
  · simp [hout]
  · by_cases hgen : source = "__generated__"
    · simp [hgen, hout]
    · cases htruthy : truthy (currentStructure s) with
      | false => simp [hout, hgen]
      | true =>
        cases hfile : w.isFile source with
        | none => simp [hout, hgen]
        | some b =>
          cases b with
          | true => simp [hout, hgen]
          | false =>
            rcases w.isFile (h.text (currentStructure s)) with _ | _ | _ <;> simp [hout, hgen]

theorem prepareEads_raised_iff : prepareEads h s args = .raised ↔ ¬ CountsComparable h s := by
  unfold prepareEads CountsComparable
  rcases s.scfEnergies.reverse with _ | ⟨m,_ | ⟨surface,_ | ⟨adsorbed,rest⟩⟩⟩
  · simp
  · simp
  · simp
  · dsimp only
    have hone : (∀ m' surface' adsorbed' rest', m :: surface :: adsorbed :: rest =
        m' :: surface' :: adsorbed' :: rest' →
          (truthy adsorbed'.natoms && truthy surface'.natoms && truthy m'.natoms) = true →
            ((numberOf adsorbed'.natoms).isSome = true ∧ (numberOf surface'.natoms).isSome = true) ∨
              h.greater adsorbed'.natoms surface'.natoms = some false) ↔
        ((truthy adsorbed.natoms && truthy surface.natoms && truthy m.natoms) = true →
          ((numberOf adsorbed.natoms).isSome = true ∧ (numberOf surface.natoms).isSome = true) ∨
            h.greater adsorbed.natoms surface.natoms = some false) := by
      constructor
      · exact fun hall => hall m surface adsorbed rest rfl
      · rintro hc _ _ _ _ ⟨⟩
        exact hc
    rw [hone]
    cases htruthy : truthy adsorbed.natoms && truthy surface.natoms && truthy m.natoms with
    | false => simp
    | true =>
      cases hx : numberOf adsorbed.natoms with
      | none => rcases h.greater adsorbed.natoms surface.natoms with _ | _ | _ <;> simp
      | some x =>
        cases hy : numberOf surface.natoms with
        | none => rcases h.greater adsorbed.natoms surface.natoms with _ | _ | _ <;> simp
        | some y =>
          simp only [if_true, Option.isSome_some, and_self, true_or, implies_true, not_true_eq_false, iff_false]
          split_ifs <;> exact nofun

theorem prepareCompare_raised_iff : prepareCompare h s args = .raised ↔
    ¬ (truthyAt args "use_last" = true → ∃ n, toInt h.nums (field args "use_last") = .ok n) := by
  unfold prepareCompare
  cases huse : truthyAt args "use_last" with
  | false =>
    simp only [Bool.false_eq_true, if_false, toInt, false_implies, not_true_eq_false, iff_false]
    split_ifs <;> exact nofun
  | true =>
    simp only [if_true]
    cases hn : toInt h.nums (field args "use_last") with
    | error message =>
      have hget : toInt h.nums ((args.get? "use_last").getD .null) = .error message := hn
      simp [hget]
    | ok n =>
      have hget : toInt h.nums ((args.get? "use_last").getD .null) = .ok n := hn
      simp only [hget, true_implies, Except.ok.injEq, exists_eq', not_true_eq_false, iff_false]
      split_ifs <;> exact nofun

theorem prepareGraphRun_raised_iff : prepareStep h w s args "graph.run" = .raised ↔
    ¬ ((h.dictAt args "inputs").isSome = true ∧ previousRaises h w s = false) := by
  have hinputs : h.dictAt (args.set "workdir" (h.path "graphs".toList)) "inputs" = h.dictAt args "inputs" := by
    rw [Shell.dictAt, Dict.get?_set_of_ne (by decide)]
    rfl
  have htool : toolOf "graph.run" = .graphRun := rfl
  rw [prepareStep, htool]
  dsimp only
  cases previousRaises h w s with
  | true => simp
  | false =>
    simp only [Bool.false_eq_true, if_false, prepareStepArgs, prepareGraphRun, hinputs]
    cases h.dictAt args "inputs" with
    | none => simp
    | some inputs =>
      simp only [Option.isSome_some, and_self, not_true_eq_false, iff_false]
      split_ifs <;> exact nofun

theorem prepareBuild2d_raised_iff : prepareStep h w s args "structure.build2d" = .raised ↔
    ¬ (truthyAt args "adsorb" = true → isObject (field args "adsorb") = true) := by
  have htool : toolOf "structure.build2d" = .build .build2d := rfl
  rw [prepareStep, htool]
  dsimp only [prepareStepArgs, outputPath]
  have hsite := adsorbSite_none_iff h args
  cases hs : adsorbSite h.toShell args with
  | none =>
    obtain ⟨htruthy,hobject⟩ := hsite.mp hs
    simp [htruthy, hobject]
  | some site =>
    simp only [Option.map_some, reduceCtorEq, false_iff, not_not]
    intro htruthy
    by_contra hobject
    rw [hsite.mpr ⟨htruthy,by simpa using hobject⟩] at hs
    cases hs

theorem toolOf_spec (toolId : String) : toolOf toolId = .importStructure ∨
    (∃ b, toolOf toolId = .build b ∧ toolId = b.id) ∨ (toolOf toolId = .graphRun ∧ toolId = "graph.run") ∨
      toolOf toolId = .other toolId := by
  unfold toolOf
  by_cases h1 : toolId = "structure.import"
  · exact Or.inl (if_pos h1)
  by_cases h2 : toolId = "structure.generate"
  · exact Or.inr (Or.inl ⟨.generate,by rw [if_neg h1, if_pos h2],h2⟩)
  by_cases h3 : toolId = "structure.build2d"
  · exact Or.inr (Or.inl ⟨.build2d,by rw [if_neg h1, if_neg h2, if_pos h3],h3⟩)
  by_cases h4 : toolId = "structure.dope"
  · exact Or.inr (Or.inl ⟨.dope,by rw [if_neg h1, if_neg h2, if_neg h3, if_pos h4],h4⟩)
  by_cases h5 : toolId = "structure.molecule"
  · exact Or.inr (Or.inl ⟨.molecule,by rw [if_neg h1, if_neg h2, if_neg h3, if_neg h4, if_pos h5],h5⟩)
  by_cases h6 : toolId = "structure.reference"
  · exact Or.inr (Or.inl ⟨.reference,by
      rw [if_neg h1, if_neg h2, if_neg h3, if_neg h4, if_neg h5, if_pos h6],h6⟩)
  by_cases h7 : toolId = "graph.run"
  · exact Or.inr (Or.inr (Or.inl ⟨by
      rw [if_neg h1, if_neg h2, if_neg h3, if_neg h4, if_neg h5, if_neg h6, if_pos h7],h7⟩))
  · exact Or.inr (Or.inr (Or.inr (by
      rw [if_neg h1, if_neg h2, if_neg h3, if_neg h4, if_neg h5, if_neg h6, if_neg h7])))

theorem outputPath_none {b : Builder} (hnone : outputPath h.toShell args b = none) : b = .build2d := by
  cases b with
  | build2d => rfl
  | generate => cases hnone
  | dope => cases hnone
  | molecule =>
    dsimp only [outputPath] at hnone
    split at hnone
    · split_ifs at hnone
    · cases hnone
  | reference =>
    dsimp only [outputPath] at hnone
    split at hnone
    · split_ifs at hnone
    · cases hnone

theorem prepareFormation_ne_raised : prepareFormation h s args ≠ .raised := by
  unfold prepareFormation
  dsimp only
  split
  · split_ifs <;> exact nofun
  · exact nofun

/-- Only five tools have a preparation that may raise. -/
theorem prepareStep_raised {toolId : String} (hraised : prepareStep h w s args toolId = .raised) :
    toolId = "structure.build2d" ∨ toolId = "graph.run" ∨
      (toolId = "structure.analyze" ∧ prepareAnalyze h w s args = .raised) ∨
      (toolId = "thermo.eads" ∧ isNone args "ry_a" = true ∧ prepareEads h s args = .raised) ∨
      (toolId = "analysis.compare" ∧ truthyAt args "entries" = false ∧ prepareCompare h s args = .raised) := by
  rcases toolOf_spec toolId with htool | ⟨b,htool,hid⟩ | ⟨htool,hid⟩ | htool
  · rw [prepareStep, htool] at hraised
    cases hraised
  · rw [prepareStep, htool] at hraised
    dsimp only [prepareStepArgs] at hraised
    cases hout : outputPath h.toShell args b with
    | none =>
      obtain rfl := outputPath_none h args hout
      exact Or.inl hid
    | some output =>
      rw [hout] at hraised
      cases hraised
  · exact Or.inr (Or.inl hid)
  · rw [prepareStep, htool] at hraised
    dsimp only [prepareOther] at hraised
    split_ifs at hraised with h1 h2 h3 h4
    · exact Or.inr (Or.inr (Or.inl ⟨h1,hraised⟩))
    · rw [Bool.and_eq_true, decide_eq_true_eq] at h2
      exact Or.inr (Or.inr (Or.inr (Or.inl ⟨h2.1,h2.2,hraised⟩)))
    · exact absurd hraised (prepareFormation_ne_raised h s args)
    · rw [Bool.and_eq_true, decide_eq_true_eq, Bool.not_eq_true'] at h4
      exact Or.inr (Or.inr (Or.inr (Or.inr ⟨h4.1,h4.2,hraised⟩)))

theorem not_wellShaped_of_raised {toolId : String} (hguard : checkSelfDoping h args toolId = .passes)
    (hraised : prepareStep h w s args toolId = .raised) : ¬ WellShaped h w s args toolId := by
  intro hshaped
  rcases prepareStep_raised h w s args hraised with rfl | rfl | ⟨rfl,hr⟩ | ⟨rfl,hmissing,hr⟩ | ⟨rfl,hentries,hr⟩
  · exact (prepareBuild2d_raised_iff h w s args).mp hraised (hshaped.adsorb rfl hguard)
  · exact (prepareGraphRun_raised_iff h w s args).mp hraised ⟨hshaped.inputs rfl,hshaped.previous rfl⟩
  · exact (prepareAnalyze_raised_iff h w s args).mp hr (hshaped.source rfl)
  · exact (prepareEads_raised_iff h s args).mp hr (hshaped.counts rfl hmissing)
  · exact (prepareCompare_raised_iff h s args).mp hr (hshaped.useLast rfl hentries)

theorem wellShaped_of_ready {toolId : String} (hguard : checkSelfDoping h args toolId ≠ .raises)
    (hready : checkSelfDoping h args toolId = .passes → prepareStep h w s args toolId ≠ .raised) :
    WellShaped h w s args toolId where
  dopants := by
    rintro rfl
    by_contra hnot
    exact hguard ((checkSelfDoping_raises_iff h args _).mpr ⟨rfl,(checkBuild2d_raises_iff h args).mpr hnot⟩)
  adsorb := by
    rintro rfl hpasses
    by_contra hnot
    exact hready hpasses ((prepareBuild2d_raised_iff h w s args).mpr hnot)
  inputs := by
    rintro rfl
    by_contra hnot
    exact hready rfl ((prepareGraphRun_raised_iff h w s args).mpr fun hboth => hnot hboth.1)
  previous := by
    rintro rfl
    by_contra hnot
    exact hready rfl ((prepareGraphRun_raised_iff h w s args).mpr fun hboth => hnot hboth.2)
  source := by
    rintro rfl
    by_contra hnot
    exact hready rfl ((prepareAnalyze_raised_iff h w s args).mpr hnot)
  counts := by
    rintro rfl hmissing
    by_contra hnot
    refine hready rfl ?_
    have hprepare : prepareStep h w s args "thermo.eads" = if isNone args "ry_a" then prepareEads h s args
        else .ready args := by
      cases hry : isNone args "ry_a" <;> simp [prepareStep, toolOf, prepareOther, hry]
    rw [hprepare, if_pos hmissing]
    exact (prepareEads_raised_iff h s args).mpr hnot
  useLast := by
    rintro rfl hentries
    by_contra hnot
    refine hready rfl ?_
    have hprepare : prepareStep h w s args "analysis.compare" = prepareCompare h s args := by
      simp [prepareStep, toolOf, prepareOther, hentries]
    rw [hprepare]
    exact (prepareCompare_raised_iff h s args).mpr hnot

/-- An exception leaves the loop exactly at a step whose arguments have not the shapes that
its guard and its preparation read. -/
theorem execStep_none_iff (step : PlanStep) : execStep h w s step = none ↔
    ∃ toolId, step.tool = some toolId ∧ toolId ≠ "help" ∧ ¬ WellShaped h w s step.args toolId := by
  unfold execStep
  cases htool : step.tool with
  | none => simp
  | some toolId =>
    by_cases hhelp : toolId = "help"
    · simp [hhelp]
    · dsimp only
      rw [if_neg hhelp]
      simp only [Option.some.injEq, exists_eq_left', ne_eq, hhelp, not_false_eq_true, true_and]
      constructor
      · intro hnone
        split at hnone
        · next hguard =>
          intro hshaped
          obtain ⟨rfl,hr⟩ := (checkSelfDoping_raises_iff h step.args toolId).mp hguard
          exact (checkBuild2d_raises_iff h step.args).mp hr (hshaped.dopants rfl)
        · cases hnone
        · next hguard =>
          split at hnone
          · next hraised => exact not_wellShaped_of_raised h w s step.args hguard hraised
          · cases hnone
          · cases hnone
      · intro hnot
        by_contra hsome
        refine hnot (wellShaped_of_ready h w s step.args ?_ ?_)
        · intro hguard
          exact hsome (by rw [hguard])
        · intro hguard hraised
          exact hsome (by rw [hguard]; dsimp only; rw [hraised])

end Shapes
end DftForge.Agent
