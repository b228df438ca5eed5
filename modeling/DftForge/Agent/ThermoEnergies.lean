import DftForge.Agent.RunEnergies
import DftForge.Compiler.Prototypes
import DftForge.Library.Reports

/-! # The energies that thermochemistry uses

`prepare_step_args` hands the collected energies to `thermo.eads` and `thermo.formation` by
their position. They are those of the right runs exactly where the runs succeeded, reported
their total energy alone, and, for a formation energy, computed the compound and then its
elements and told their numbers of atoms.
-/
namespace DftForge.Agent
open DftForge.Library DftForge.Runtime DftForge.Python DftForge.Engines DftForge.Tools DftForge.Compiler

section Runs
variable (h : Host)

/-- The arguments that the step was called with. -/
def Met.args (m : Met) : Dict :=
  match execStep h m.world m.state m.step with
  | some (.called args _) => args
  | _ => []

/-- The data that `handle_tool_result` got, if it got a dictionary. -/
def Met.data (m : Met) : Dict :=
  match execStep h m.world m.state m.step with
  | some (.called _ result) =>
    match result.handled with
    | some (_, .obj data) => data
    | _ => []
  | _ => []

def Met.isRun (m : Met) : Bool := m.step.tool = some "graph.run"

/-- The energies that the nodes of the run report. -/
def Met.energies (m : Met) : List Energy := energiesOf m.index m.step.description (nodesOf (m.data h))

/-- The total energy of the run. -/
def Met.total (m : Met) : Option Energy := totalEnergy m.index m.step.description (nodesOf (m.data h))

def Met.succeeded (m : Met) : Prop := equalsText ((m.data h).get? "state") "succeeded" = true

/-- A session starts with a new `RunState`. -/
def SessionState.fresh (s : SessionState) : SessionState := { s with scfEnergies := [] }

/-- The `graph.run` steps before a step, in plan order. -/
def runsBefore (s : SessionState) (steps : List (PlanStep × World)) (m : Met) : List Met :=
  ((met h 0 s.fresh steps).take m.index).filter (·.isRun)

/-- Every run that the session meets answers as `_graph_run` does. -/
def Answering (s : SessionState) (steps : List (PlanStep × World)) : Prop :=
  ∀ r ∈ met h 0 s.fresh steps, r.isRun = true → Answered h.factsRaise (r.data h)

variable {h}

/-- What a step adds to the energies. -/
def Met.adds (h : Host) (m : Met) : List Energy :=
  if m.isRun then (graphRunAdds h.factsRaise m.index m.step.description (m.args h) (m.data h)).2 else []

theorem handle_energies (s : SessionState) (index : ℕ) (toolId description : String) (args data : Dict) :
    (s.handle h index toolId description args data).scfEnergies = s.scfEnergies ++
      if toolId = "graph.run" then (graphRunAdds h.factsRaise index description args data).2 else [] := by
  unfold SessionState.handle
  split_ifs <;> simp

theorem after_energies {m : Met} {exit : Exit} (hexit : execStep h m.world m.state m.step = some exit) :
    (m.state.after h m.index m.step exit).scfEnergies = m.state.scfEnergies ++ m.adds h := by
  have hnothing : (graphRunAdds h.factsRaise m.index m.step.description (m.args h) []).2 = [] := rfl
  unfold Met.adds Met.data
  rw [hexit]
  cases exit with
  | called args result =>
    have hargs : m.args h = args := by
      unfold Met.args
      rw [hexit]
    rw [hargs] at hnothing ⊢
    have hrun : m.isRun = true ↔ m.step.tool.getD "" = "graph.run" := by
      unfold Met.isRun
      rw [decide_eq_true_iff]
      cases m.step.tool <;> simp
    have hempty : m.state.scfEnergies = m.state.scfEnergies ++ if m.isRun = true then
        (graphRunAdds h.factsRaise m.index m.step.description args []).2 else [] := by
      rw [hnothing, ite_self, List.append_nil]
    unfold SessionState.after
    dsimp only
    rcases hhandled : result.handled with _ | ⟨source,reply⟩
    · exact hempty
    · cases reply with
      | obj data =>
        dsimp only
        rw [handle_energies]
        exact congrArg _ (if_congr hrun.symm rfl rfl)
      | _ => exact hempty
  | noTool => simp [SessionState.after, hnothing]
  | help => simp [SessionState.after, hnothing]
  | rejected => simp [SessionState.after, hnothing]
  | aborted => simp [SessionState.after, hnothing]

/-- A run of the loop: the energies before a step are those that the earlier steps added. -/
theorem met_energies {steps : List (PlanStep × World)} {index : ℕ} {s : SessionState} {i : ℕ} {m : Met}
    (hm : (met h index s steps)[i]? = some m) :
    m.state.scfEnergies = s.scfEnergies ++ ((met h index s steps).take i).flatMap (Met.adds h) := by
  induction steps generalizing index s i with
  | nil => simp [met] at hm
  | cons first rest ih =>
    obtain ⟨step,w⟩ := first
    unfold met at hm ⊢
    cases i with
    | zero =>
      obtain rfl := Option.some.inj hm
      simp
    | succ i =>
      rw [List.getElem?_cons_succ] at hm
      cases hexit : execStep h w s step with
      | none => simp [hexit] at hm
      | some exit =>
        rw [hexit] at hm
        have hafter := after_energies (m := ⟨index,s,step,w⟩) hexit
        rw [ih hm, hafter, List.take_succ_cons, List.flatMap_cons, List.append_assoc]

theorem met_indices (index : ℕ) (s : SessionState) (steps : List (PlanStep × World)) :
    (met h index s steps).map Met.index = List.range' index (met h index s steps).length := by
  refine List.ext_getElem? fun i => ?_
  rw [List.getElem?_map]
  cases hm : (met h index s steps)[i]? with
  | none =>
    rw [List.getElem?_eq_none_iff] at hm
    simp [hm]
  | some m =>
    obtain ⟨hi,_⟩ := List.getElem?_eq_some_iff.mp hm
    rw [List.getElem?_range' hi, Option.map_some, met_index hm, Nat.one_mul]

theorem prepareGraphRun_inputs {w : World} {s : SessionState} {args args' : Dict}
    (hready : prepareStep h w s args "graph.run" = .ready args') :
    ∃ inputs, args'.get? "inputs" = some (.obj inputs) := by
  have htool : toolOf "graph.run" = .graphRun := rfl
  unfold prepareStep at hready
  rw [htool] at hready
  dsimp only at hready
  split_ifs at hready
  unfold prepareStepArgs prepareGraphRun at hready
  dsimp only at hready
  split at hready
  · cases hready
  · split_ifs at hready
    · obtain rfl := Prepared.ready.inj hready
      exact ⟨_,Dict.get?_set_self _ _ _⟩
    · obtain rfl := Prepared.ready.inj hready
      exact ⟨_,Dict.get?_set_self _ _ _⟩

theorem args_inputs {r : Met} (hrun : r.isRun = true) :
    (fieldsOf ((r.args h).get? "inputs")).isSome = true := by
  unfold Met.args
  split
  · next args result hexit =>
    have htool : r.step.tool = some "graph.run" := of_decide_eq_true hrun
    rcases execStep_spec hexit with ⟨_,hexit⟩ | ⟨_,hexit⟩ |
      ⟨toolId,htool',_,⟨_,hexit⟩ | ⟨_,⟨_,hexit⟩ | ⟨_,hready,hexit⟩⟩⟩
    · cases hexit
    · cases hexit
    · cases hexit
    · cases hexit
    · obtain ⟨rfl,_⟩ := Exit.called.inj hexit
      obtain rfl := Option.some.inj (htool.symm.trans htool')
      obtain ⟨inputs,hinputs⟩ := prepareGraphRun_inputs hready
      rw [hinputs]
      rfl
  · rfl

theorem adds_of_run {r : Met} (hrun : r.isRun = true) (hdata : Answered h.factsRaise (r.data h)) :
    r.adds h = r.energies h := by
  unfold Met.adds
  rw [if_pos hrun]
  exact graphRunAdds_energies hdata (args_inputs hrun)

theorem flatMap_adds {ms : List Met} (hdata : ∀ r ∈ ms, r.isRun = true → Answered h.factsRaise (r.data h)) :
    ms.flatMap (Met.adds h) = (ms.filter (·.isRun)).flatMap (Met.energies h) := by
  induction ms with
  | nil => rfl
  | cons r ms ih =>
    rw [List.flatMap_cons, ih fun r' hr' => hdata r' (List.mem_cons_of_mem r hr')]
    by_cases hrun : r.isRun = true
    · have hadds := adds_of_run hrun (hdata r (List.mem_cons_self ..) hrun)
      rw [List.filter_cons_of_pos hrun, List.flatMap_cons, hadds]
    · rw [List.filter_cons_of_neg hrun, Met.adds, if_neg hrun, List.nil_append]

variable {s : SessionState} {steps : List (PlanStep × World)} {m : Met}

theorem mem_runsBefore {r : Met} (hr : r ∈ runsBefore h s steps m) :
    r ∈ met h 0 s.fresh steps ∧ r.isRun = true := by
  obtain ⟨htake,hrun⟩ := List.mem_filter.mp hr
  exact ⟨List.mem_of_mem_take htake,hrun⟩

/-- The energies before a step are those that the runs before it report. -/
theorem energies_before (hanswers : Answering h s steps) (hm : m ∈ met h 0 s.fresh steps) :
    m.state.scfEnergies = (runsBefore h s steps m).flatMap (Met.energies h) := by
  obtain ⟨i,hi⟩ := List.mem_iff_getElem?.mp hm
  have hindex : m.index = i := by rw [met_index hi, Nat.zero_add]
  unfold runsBefore
  rw [met_energies hi, hindex, ← flatMap_adds fun r hr => hanswers r (List.mem_of_mem_take hr)]
  rfl

/-- The runs before a step are told apart by their places in the plan. -/
theorem sourced_runs (hanswers : Answering h s steps) :
    Sourced Met.index Energy.step (Met.energies h) (Met.total h) (runsBefore h s steps m) := by
  refine ⟨?_,fun r _ e he => (mem_energiesOf he).1,fun r hr => ?_,fun r _ e he => totalEnergy_mem he⟩
  · have hall : ((met h 0 s.fresh steps).map Met.index).Nodup := by
      rw [met_indices]
      exact List.nodup_range'
    exact hall.sublist ((List.filter_sublist.trans (List.take_sublist _ _)).map _)
  · obtain ⟨hmet,hrun⟩ := mem_runsBefore hr
    refine energiesOf_nodup ?_
    rcases hanswers r hmet hrun with hnone | ⟨g,hg,_⟩
    · rw [hnone]
      exact List.nodup_nil
    · rw [hg]
      change ((g.nodes.map fun n => (n.1,Json.obj n.2.info)).map Prod.fst).Nodup
      rw [List.map_map]
      exact g.distinct

end Runs

section Eads
variable (h : Host)

/-- The step's arguments are changed by the preparation. -/
def Met.Injects (m : Met) (toolId : String) (args : Dict) : Prop :=
  m.step.tool = some toolId ∧ prepareStep h m.world m.state m.step.args toolId = .ready args ∧
    args ≠ m.step.args

/-- The run succeeded, and the energy is its total energy. -/
def Met.Gives (r : Met) (e : Energy) : Prop := r.succeeded h ∧ r.total h = some e

/-- The adsorption energy is computed from the total energies of the three runs nearest
before the step. -/
def EadsRight (runs : List Met) (m : Met) (args : Dict) : Prop :=
  ∃ mol surface adsorbed before eM eS eA older,
    runs.reverse = mol :: surface :: adsorbed :: before ∧
    m.state.scfEnergies.reverse = eM :: eS :: eA :: older ∧
    mol.Gives h eM ∧ surface.Gives h eS ∧ adsorbed.Gives h eA ∧
    args.get? "ry_a" = some eA.energyRy ∧ args.get? "ry_s" = some eS.energyRy ∧
    args.get? "ry_m" = some eM.energyRy

/-- The run succeeded and reports its total energy and no other. -/
def Met.Only (r : Met) : Prop := r.succeeded h ∧ ∃ e, r.total h = some e ∧ r.energies h = [e]

/-- The run succeeded and reports its total energy last. -/
def Met.Last (r : Met) : Prop := r.succeeded h ∧ ∃ e, r.total h = some e ∧ (r.energies h).getLast? = some e

/-- The two runs nearest before the step report their total energies only, and the third
reports it last. -/
def EadsFits (runs : List Met) : Prop :=
  ∃ mol surface adsorbed before, runs.reverse = mol :: surface :: adsorbed :: before ∧
    mol.Only h ∧ surface.Only h ∧ adsorbed.Last h

variable {h}

/-- A band structure or DOS run never reports its total energy alone. -/
theorem Met.not_only_of_nscf {F : Type} {u : Unicode} {number : F → ℚ} {r : Met} {g : GraphReport}
    (hdata : r.data h = g.payload) {scf nscf : NodeReport} {more : List (String × NodeReport)}
    (hnodes : g.nodes = ("scf",scf) :: ("nscf",nscf) :: more) (hscf : scf.state = "succeeded")
    (hnscf : nscf.state = "succeeded") {stdout : Text} {parsed parsed' : Qe.ParsedSCF F}
    {atoms : Option (List String)} {file file' : String} {nbnd : Json}
    (houtputs : scf.outputs = scfOutputs u number stdout parsed atoms file)
    (houtputs' : nscf.outputs = nscfOutputs number parsed' nbnd file') : ¬ r.Only h := by
  rintro ⟨_,e,_,honly⟩
  obtain ⟨e₁,e₂,rest,htwo,_⟩ := nscf_reports_two hnodes hscf hnscf houtputs houtputs'
  unfold Met.energies at honly
  rw [hdata, htwo] at honly
  cases honly

/-- What is injected are the last three energies. -/
theorem prepareEads_spec {s : SessionState} {args args' : Dict} (hready : prepareEads h s args = .ready args')
    (hne : args' ≠ args) : ∃ eM eS eA older, s.scfEnergies.reverse = eM :: eS :: eA :: older ∧
      args'.get? "ry_a" = some eA.energyRy ∧ args'.get? "ry_s" = some eS.energyRy ∧
      args'.get? "ry_m" = some eM.energyRy := by
  unfold prepareEads at hready
  split at hready
  · next eM eS eA older hrev =>
    refine ⟨eM,eS,eA,older,hrev,?_⟩
    generalize hbase : ((args.set "ry_a" eA.energyRy).set "ry_s" eS.energyRy).set "ry_m" eM.energyRy = base
      at hready
    have hbaseArgs : base.get? "ry_a" = some eA.energyRy ∧ base.get? "ry_s" = some eS.energyRy ∧
        base.get? "ry_m" = some eM.energyRy := by
      rw [← hbase]
      simp
    have hcounts : ∀ a b : Json, ((base.set "nat_a" a).set "nat_mol" b).get? "ry_a" = some eA.energyRy ∧
        ((base.set "nat_a" a).set "nat_mol" b).get? "ry_s" = some eS.energyRy ∧
        ((base.set "nat_a" a).set "nat_mol" b).get? "ry_m" = some eM.energyRy := by
      intro a b
      simpa using hbaseArgs
    dsimp only at hready
    split at hready
    · split at hready
      · split at hready
        · obtain rfl := Prepared.ready.inj hready
          exact hcounts _ _
        · obtain rfl := Prepared.ready.inj hready
          exact hbaseArgs
      · split at hready
        · obtain rfl := Prepared.ready.inj hready
          exact hbaseArgs
        · cases hready
    · obtain rfl := Prepared.ready.inj hready
      exact hbaseArgs
  · exact absurd (Prepared.ready.inj hready).symm hne

theorem Met.Injects.eads {m : Met} {args : Dict} (hinjects : m.Injects h "thermo.eads" args) :
    ∃ eM eS eA older, m.state.scfEnergies.reverse = eM :: eS :: eA :: older ∧
      args.get? "ry_a" = some eA.energyRy ∧ args.get? "ry_s" = some eS.energyRy ∧
      args.get? "ry_m" = some eM.energyRy := by
  obtain ⟨_,hready,hne⟩ := hinjects
  cases hry : isNone m.step.args "ry_a" with
  | true =>
    have hbranch : prepareEads h m.state m.step.args = .ready args := by
      rw [← hready]
      simp [prepareStep, toolOf, prepareOther, hry]
    exact prepareEads_spec hbranch hne
  | false =>
    have hsame : prepareStep h m.world m.state m.step.args "thermo.eads" = .ready m.step.args := by
      simp [prepareStep, toolOf, prepareOther, hry]
    exact absurd (Prepared.ready.inj (hready.symm.trans hsame)) hne

theorem reverse_flatMap_energies (runs : List Met) :
    (runs.flatMap (Met.energies h)).reverse = runs.reverse.flatMap fun r => (r.energies h).reverse := by
  rw [List.reverse_flatMap]
  rfl

/-- Read backwards, the runs are still the sources of the energies. -/
theorem sourced_reverse {runs : List Met}
    (hs : Sourced Met.index Energy.step (Met.energies h) (Met.total h) runs) :
    Sourced Met.index Energy.step (fun r => (r.energies h).reverse) (Met.total h) runs.reverse := by
  refine ⟨?_,fun r hr e he => ?_,fun r hr => ?_,fun r hr e he => ?_⟩
  · rw [List.map_reverse]
    exact List.nodup_reverse.mpr hs.distinct
  · exact hs.tags r (List.mem_reverse.mp hr) e (List.mem_reverse.mp he)
  · exact List.nodup_reverse.mpr (hs.nodup r (List.mem_reverse.mp hr))
  · exact List.mem_reverse.mpr (hs.main_mem r (List.mem_reverse.mp hr) e he)

theorem reverse_eq_singleton_iff {l : List Energy} {e : Energy} : l.reverse = [e] ↔ l = [e] := by
  rw [List.reverse_eq_iff, List.reverse_singleton]

theorem reverse_eq_cons_iff {l : List Energy} {e : Energy} :
    (∃ more, l.reverse = e :: more) ↔ l.getLast? = some e := by
  rw [List.getLast?_eq_head?_reverse, List.head?_eq_some_iff]

/-- The last three energies are those of the nearest runs exactly where these fit. -/
theorem eads_iff {runs : List Met} {m : Met} {args : Dict} (hinjects : m.Injects h "thermo.eads" args)
    (hs : Sourced Met.index Energy.step (Met.energies h) (Met.total h) runs)
    (henergies : m.state.scfEnergies = runs.flatMap (Met.energies h)) :
    EadsRight h runs m args ↔ EadsFits h runs := by
  have hrev := sourced_reverse hs
  have hstate : m.state.scfEnergies.reverse = runs.reverse.flatMap fun r => (r.energies h).reverse := by
    rw [henergies, reverse_flatMap_energies]
  constructor
  · rintro ⟨mol,surface,adsorbed,before,eM,eS,eA,older,hruns,hlast,⟨hM,htM⟩,⟨hS,htS⟩,⟨hA,htA⟩,_⟩
    rw [hruns] at hrev hstate
    rw [hstate] at hlast
    obtain ⟨hmol,hlast⟩ := (hrev.head_next_iff htM (List.mem_cons_self ..) htS).mp hlast
    obtain ⟨hsurface,hlast⟩ := (hrev.tail.head_next_iff htS (List.mem_cons_self ..) htA).mp hlast
    obtain ⟨more,hadsorbed,_⟩ := (hrev.tail.tail.head_iff htA).mp hlast
    exact ⟨mol,surface,adsorbed,before,hruns,⟨hM,eM,htM,reverse_eq_singleton_iff.mp hmol⟩,
      ⟨hS,eS,htS,reverse_eq_singleton_iff.mp hsurface⟩,
      ⟨hA,eA,htA,reverse_eq_cons_iff.mp ⟨more,hadsorbed⟩⟩⟩
  · rintro ⟨mol,surface,adsorbed,before,hruns,⟨hM,eM,htM,hmol⟩,⟨hS,eS,htS,hsurface⟩,⟨hA,eA,htA,hadsorbed⟩⟩
    rw [hruns] at hrev hstate
    obtain ⟨more,hmore⟩ := reverse_eq_cons_iff.mpr hadsorbed
    have h₁ := (hrev.tail.tail.head_iff htA).mpr ⟨more,hmore,rfl⟩
    have h₂ := (hrev.tail.head_next_iff htS (List.mem_cons_self ..) htA).mpr
      ⟨reverse_eq_singleton_iff.mpr hsurface,h₁⟩
    have h₃ := (hrev.head_next_iff htM (List.mem_cons_self ..) htS).mpr
      ⟨reverse_eq_singleton_iff.mpr hmol,h₂⟩
    rw [← hstate] at h₃
    obtain ⟨eM',eS',eA',older,hlast,hargs⟩ := hinjects.eads
    rw [hlast] at h₃
    simp only [List.cons.injEq] at h₃
    obtain ⟨rfl,rfl,rfl,_⟩ := h₃
    exact ⟨mol,surface,adsorbed,before,eM',eS',eA',older,hruns,hlast,⟨hM,htM⟩,⟨hS,htS⟩,⟨hA,htA⟩,hargs⟩

end Eads

section Formation

/-- A system whose energy a formation energy needs. -/
inductive ThermoSystem where
  | compound (formula : String)
  | element (el : String)

/-- The amount of an element in a composition. -/
def amount (comp : List (String × ℚ)) (el : String) : ℚ := (comp.lookup el).getD 0

/-- The cell is made of a composition. -/
def MadeOf (comp : List (String × ℚ)) (cell : List String) : Prop :=
  cell ≠ [] ∧ ∃ k : ℚ, ∀ el, (cell.count el : ℚ) = k * amount comp el

def ThermoSystem.composition (c : Formulas) : ThermoSystem → Option (List (String × ℚ))
  | .compound formula => (c.composition formula).toOption
  | .element el => some [(el,1)]

/-- The compound and its elements, as the energies are expected. -/
def systems (formula : String) (elements : List String) : List ThermoSystem :=
  .compound formula :: elements.map .element

/-- `e.get("natoms") or 1`. -/
def Energy.atoms (e : Energy) : Json := if truthy e.natoms then e.natoms else .num 1

/-- The host with the elements of a formula as `reference_elements` finds them. -/
def Host.withFormulas (h : Host) (c : Formulas) : Host :=
  { h with referenceElements := fun formula => (c.referenceElements formula).toOption }

variable (h : Host) (c : Formulas) (read : ℕ → String → Except String (List String))

/-- The cell that the run computed, by the inputs of its template; the templates take silicon
where no material is given. -/
def Met.cell (m : Met) : Option (List String) :=
  let inputs := (fieldsOf ((m.args h).get? "inputs")).getD []
  let structure_ := if truthyAt inputs "structure" then some (h.textAt inputs "structure" "") else none
  (c.cell (read m.index) (h.textAt inputs "material" "Si") structure_).toOption

/-- The run succeeded and computed the system, and the number of atoms that is taken for a
reference is that of its cell. -/
structure Serves (system : ThermoSystem) (r : Met) (e : Energy) : Prop where
  succeeded : r.succeeded h
  computed : ∃ comp cell, system.composition c = some comp ∧ r.cell h c read = some cell ∧ MadeOf comp cell ∧
    ∀ el, system = .element el → e.atoms = .num cell.length

/-- The arguments have the energy, and the number of atoms of a reference. -/
def Told (args : Dict) (e : Energy) : ThermoSystem → Prop
  | .compound _ => args.get? "compound_energy" = some e.energyRy
  | .element el => ∃ refs : Dict, args.get? "refs" = some (.obj refs) ∧
      refs.get? el = some (.obj [("energy_ry",e.energyRy),("natoms",e.atoms)])

/-- `reference_elements` of the step's formula. -/
def Met.elements (m : Met) : List String := (h.referenceElements (h.textAt m.step.args "formula" "")).getD []

def Met.systems (m : Met) : List ThermoSystem :=
  DftForge.Agent.systems (h.textAt m.step.args "formula" "") (m.elements h)

/-- The compound's and the references' energies are the total energies of runs that computed
them. -/
def FormationRight (runs : List Met) (m : Met) (args : Dict) : Prop :=
  Placed (Met.total h) (fun system r e => Serves h c read system r e ∧ Told args e system) (m.systems h) runs
    m.state.scfEnergies

/-- The runs that report energies computed the compound and then its elements in order,
succeeded, and reported their total energies. -/
def FormationFits (runs : List Met) (m : Met) : Prop :=
  Serial (Met.energies h) (Met.total h) (Serves h c read) (m.systems h) runs

variable {h c read}

theorem get?_foldl_of_not_mem {el : String} (pairs : List (String × Energy)) (refs : Dict)
    (hel : el ∉ pairs.map Prod.fst) : (pairs.foldl (fun refs p => refs.set p.1
      (.obj [("energy_ry",p.2.energyRy),("natoms",if truthy p.2.natoms then p.2.natoms else .num 1)])) refs).get? el =
      refs.get? el := by
  induction pairs generalizing refs with
  | nil => rfl
  | cons p pairs ih =>
    rw [List.map_cons, List.mem_cons, not_or] at hel
    rw [List.foldl_cons, ih _ hel.2, Dict.get?_set_of_ne hel.1]

theorem get?_foldl_of_mem {el : String} {e : Energy} (pairs : List (String × Energy)) (refs : Dict)
    (hnodup : (pairs.map Prod.fst).Nodup) (hmem : (el,e) ∈ pairs) : (pairs.foldl (fun refs p => refs.set p.1
      (.obj [("energy_ry",p.2.energyRy),("natoms",if truthy p.2.natoms then p.2.natoms else .num 1)])) refs).get? el =
      some (.obj [("energy_ry",e.energyRy),("natoms",e.atoms)]) := by
  induction pairs generalizing refs with
  | nil => exact absurd hmem List.not_mem_nil
  | cons p pairs ih =>
    rw [List.map_cons, List.nodup_cons] at hnodup
    rw [List.foldl_cons]
    rcases List.mem_cons.mp hmem with rfl | hmem
    · rw [get?_foldl_of_not_mem _ _ hnodup.1, Dict.get?_set_self]
      rfl
    · exact ih _ hnodup.2 hmem

theorem get?_referenceEnergies {elements : List String} {energies : List Energy} {i : ℕ} {el : String}
    {e : Energy} (hnodup : elements.Nodup) (hlength : elements.length ≤ energies.length)
    (hel : elements[i]? = some el) (he : energies[i]? = some e) :
    (referenceEnergies elements energies).get? el =
      some (.obj [("energy_ry",e.energyRy),("natoms",e.atoms)]) := by
  refine get?_foldl_of_mem _ _ ?_ ?_
  · rw [List.map_fst_zip hlength]
    exact hnodup
  · refine List.mem_of_getElem? (i := i) ?_
    rw [List.getElem?_zip_eq_some]
    exact ⟨hel,he⟩

theorem Met.elements_nodup (m : Met) : (m.elements (h.withFormulas c)).Nodup := by
  unfold Met.elements Host.withFormulas
  dsimp only
  cases helements : c.referenceElements _ with
  | error message => exact List.nodup_nil
  | ok elements => exact Formulas.referenceElements_nodup helements

theorem Met.Injects.formation {m : Met} {args : Dict} (hinjects : m.Injects h "thermo.formation" args) :
    ∃ compound rest, m.state.scfEnergies = compound :: rest ∧ (m.elements h).length ≤ rest.length ∧
      args = (m.step.args.set "compound_energy" compound.energyRy).set "refs"
        (.obj (referenceEnergies (m.elements h) rest)) := by
  obtain ⟨_,hready,hne⟩ := hinjects
  cases hrefs : truthyAt m.step.args "refs" with
  | false =>
    have hbranch : prepareFormation h m.state m.step.args = .ready args := by
      rw [← hready]
      simp [prepareStep, toolOf, prepareOther, hrefs]
    unfold prepareFormation at hbranch
    dsimp only at hbranch
    split at hbranch
    · next compound rest hstate =>
      split_ifs at hbranch with hlength
      · exact ⟨compound,rest,hstate,hlength,(Prepared.ready.inj hbranch).symm⟩
      · exact absurd (Prepared.ready.inj hbranch).symm hne
    · exact absurd (Prepared.ready.inj hbranch).symm hne
  | true =>
    have hsame : prepareStep h m.world m.state m.step.args "thermo.formation" = .ready m.step.args := by
      simp [prepareStep, toolOf, prepareOther, hrefs]
    exact absurd (Prepared.ready.inj (hready.symm.trans hsame)) hne

/-- The arguments have the energies at the positions of the systems. -/
theorem told_of_injects {m : Met} {args : Dict} (hinjects : m.Injects h "thermo.formation" args)
    (hnodup : (m.elements h).Nodup) {i : ℕ} {system : ThermoSystem} {e : Energy}
    (hsystem : (m.systems h)[i]? = some system) (he : m.state.scfEnergies[i]? = some e) :
      Told args e system := by
  obtain ⟨compound,rest,hstate,hlength,rfl⟩ := hinjects.formation
  rw [hstate] at he
  cases i with
  | zero =>
    obtain rfl := Option.some.inj hsystem
    obtain rfl := Option.some.inj he
    unfold Told
    dsimp only
    rw [Dict.get?_set_of_ne (by decide), Dict.get?_set_self]
  | succ i =>
    rw [List.getElem?_cons_succ] at he
    change ((m.elements h).map ThermoSystem.element)[i]? = some system at hsystem
    rw [List.getElem?_map, Option.map_eq_some_iff] at hsystem
    obtain ⟨el,hel,rfl⟩ := hsystem
    exact ⟨_,Dict.get?_set_self _ _ _,get?_referenceEnergies hnodup hlength hel he⟩

/-- The first energies are those of the right runs exactly where the runs fit. -/
theorem formation_iff {runs : List Met} {m : Met} {args : Dict} (hinjects : m.Injects h "thermo.formation" args)
    (hnodup : (m.elements h).Nodup)
    (hs : Sourced Met.index Energy.step (Met.energies h) (Met.total h) runs)
    (henergies : m.state.scfEnergies = runs.flatMap (Met.energies h)) :
    FormationRight h c read runs m args ↔ FormationFits h c read runs m := by
  unfold FormationFits FormationRight
  rw [serial_iff hs, ← henergies]
  constructor
  · intro hplaced i system hi
    obtain ⟨r,hr,e,he,htotal,hserves,_⟩ := hplaced i system hi
    exact ⟨r,hr,e,he,htotal,hserves⟩
  · intro hplaced i system hi
    obtain ⟨r,hr,e,he,htotal,hserves⟩ := hplaced i system hi
    exact ⟨r,hr,e,he,htotal,hserves,told_of_injects hinjects hnodup hi he⟩

end Formation

section Worlds
variable {h : Host}

theorem mem_of_met {steps : List (PlanStep × World)} {index : ℕ} {s : SessionState} {m : Met}
    (hm : m ∈ met h index s steps) : (m.step,m.world) ∈ steps := by
  induction steps generalizing index s with
  | nil => exact absurd hm List.not_mem_nil
  | cons first rest ih =>
    obtain ⟨step,w⟩ := first
    unfold met at hm
    rcases List.mem_cons.mp hm with rfl | hm
    · exact List.mem_cons_self ..
    · split at hm
      · exact absurd hm List.not_mem_nil
      · exact List.mem_cons_of_mem _ (ih hm)

/-- It is enough that the worlds of the runs answer as `_graph_run` does. -/
theorem answering_of_worlds {s : SessionState} {steps : List (PlanStep × World)}
    (hworlds : ∀ p ∈ steps, p.1.tool = some "graph.run" → ∀ args source data,
      (p.2.result h "graph.run" args).handled = some (source,.obj data) → Answered h.factsRaise data) :
    Answering h s steps := by
  intro r hr hrun
  have htool : r.step.tool = some "graph.run" := of_decide_eq_true hrun
  unfold Met.data
  split
  · next args result hexit =>
    rcases execStep_spec hexit with ⟨_,hexit⟩ | ⟨_,hexit⟩ |
      ⟨toolId,htool',_,⟨_,hexit⟩ | ⟨_,⟨_,hexit⟩ | ⟨_,_,hexit⟩⟩⟩
    · cases hexit
    · cases hexit
    · cases hexit
    · cases hexit
    · obtain ⟨rfl,rfl⟩ := Exit.called.inj hexit
      obtain rfl := Option.some.inj (htool.symm.trans htool')
      split
      · next source data hhandled => exact hworlds _ (mem_of_met hr) htool _ _ _ hhandled
      · exact Or.inl rfl
  · exact Or.inl rfl

/-- The answer of a run of `t0_scf`. -/
def scfReport (state : String) (energy : ℚ) : GraphReport where
  runId := "t0_scf"
  state := state
  nodes := [("scf",⟨state,none,[("energy_ry",.num energy),("natoms",.num 2)]⟩)]
  outputs := []
  named := by decide
  distinct := by simp

def reportWorld (g : GraphReport) : World := { quietWorld with call := fun _ => ⟨.raw g.payload,none⟩ }

theorem reportWorld_handled (g : GraphReport) (args : Dict) :
    ((reportWorld g).result quietHost "graph.run" args).handled = some (none,.obj g.payload) := rfl

end Worlds

/-- In every session, thermochemistry uses the right energies exactly where the runs before
the step fit. -/
theorem thermo_right_iff (h : Host) (c : Formulas) (read : ℕ → String → Except String (List String))
    (s : SessionState) (steps : List (PlanStep × World)) (hanswers : Answering (h.withFormulas c) s steps)
    {m : Met} (hm : m ∈ met (h.withFormulas c) 0 s.fresh steps) (args : Dict) :
    (m.Injects (h.withFormulas c) "thermo.eads" args →
      (EadsRight (h.withFormulas c) (runsBefore (h.withFormulas c) s steps m) m args ↔
        EadsFits (h.withFormulas c) (runsBefore (h.withFormulas c) s steps m))) ∧
    (m.Injects (h.withFormulas c) "thermo.formation" args →
      (FormationRight (h.withFormulas c) c read (runsBefore (h.withFormulas c) s steps m) m args ↔
        FormationFits (h.withFormulas c) c read (runsBefore (h.withFormulas c) s steps m) m)) := by
  have hsourced := sourced_runs (m := m) hanswers
  have henergies := energies_before hanswers hm
  exact ⟨fun hinjects => eads_iff hinjects hsourced henergies,
    fun hinjects => formation_iff hinjects m.elements_nodup hsourced henergies⟩

section Sessions

def silentState : SessionState := ⟨⟨.null,.null⟩,[],[],.null,.null⟩

def thermoHost : Host := quietHost.withFormulas catalogueFormulas

/-- A run of silicon that ends as the report says. -/
def siliconRun (g : GraphReport) : PlanStep × World :=
  ({ toolId := some "graph.run"
     args := [("template_id",.str "t0_scf"),("inputs",.obj [("material",.str "Si")])] },reportWorld g)

def eadsStep : PlanStep × World := ({ toolId := some "thermo.eads", args := [] },quietWorld)

def formationStep : PlanStep × World :=
  ({ toolId := some "thermo.formation", args := [("formula",.str "Si")] },quietWorld)

theorem thermo_answering {steps : List (PlanStep × World)}
    (hsteps : ∀ p ∈ steps, p = eadsStep ∨ p = formationStep ∨ ∃ state energy,
      p = siliconRun (scfReport state energy)) :
    Answering thermoHost silentState steps := by
  refine answering_of_worlds fun p hp htool args source data hhandled => ?_
  rcases hsteps p hp with rfl | rfl | ⟨state,energy,rfl⟩
  · exact absurd (Option.some.inj htool) (by decide)
  · exact absurd (Option.some.inj htool) (by decide)
  · obtain ⟨_,hdata⟩ := Prod.mk.inj (Option.some.inj ((reportWorld_handled _ args).symm.trans hhandled))
    obtain rfl := Json.obj.inj hdata
    exact Or.inr ⟨_,rfl,fun _ _ => rfl⟩

/-- The runs end well, and both thermochemistry steps follow. -/
def threeRuns : List (PlanStep × World) :=
  [siliconRun (scfReport "succeeded" (-158)),siliconRun (scfReport "succeeded" (-156)),
    siliconRun (scfReport "succeeded" (-1)),eadsStep,formationStep]

theorem threeRuns_answering : Answering thermoHost silentState threeRuns := by
  refine thermo_answering fun p hp => ?_
  simp only [threeRuns, List.mem_cons, List.not_mem_nil, or_false] at hp
  rcases hp with rfl | rfl | rfl | rfl | rfl
  · exact Or.inr (Or.inr ⟨_,_,rfl⟩)
  · exact Or.inr (Or.inr ⟨_,_,rfl⟩)
  · exact Or.inr (Or.inr ⟨_,_,rfl⟩)
  · exact Or.inl rfl
  · exact Or.inr (Or.inl rfl)

theorem silicon_madeOf : MadeOf [("Si",1)] ["Si","Si"] := by
  refine ⟨List.cons_ne_nil _ _,2,fun el => ?_⟩
  by_cases hel : el = "Si"
  · subst hel
    simp [amount]
  · have hne : (el == "Si") = false := by simpa using hel
    simp [amount, List.lookup_cons, hne, Ne.symm hel]

theorem silicon_elements : thermoHost.referenceElements "Si" = some ["Si"] := by decide +kernel

theorem formationStep_ready {s : SessionState} {e₀ e₁ : Energy} {more : List Energy}
    (hs : s.scfEnergies = e₀ :: e₁ :: more) :
    prepareStep thermoHost quietWorld s formationStep.1.args "thermo.formation" = .ready
      [("formula",.str "Si"),("compound_energy",e₀.energyRy),
        ("refs",.obj [("Si",.obj [("energy_ry",e₁.energyRy),("natoms",e₁.atoms)])])] := by
  change prepareFormation thermoHost s formationStep.1.args = _
  have helements : thermoHost.referenceElements (thermoHost.textAt formationStep.1.args "formula" "") =
      some ["Si"] := silicon_elements
  unfold prepareFormation
  rw [helements, hs]
  rfl

theorem three_runs_right :
    (∃ m ∈ met thermoHost 0 silentState.fresh threeRuns, ∃ args, m.Injects thermoHost "thermo.eads" args ∧
      EadsRight thermoHost (runsBefore thermoHost silentState threeRuns m) m args) ∧
    ∃ m ∈ met thermoHost 0 silentState.fresh threeRuns, ∃ args, m.Injects thermoHost "thermo.formation" args ∧
      FormationRight thermoHost catalogueFormulas (fun _ _ => .error "")
        (runsBefore thermoHost silentState threeRuns m) m args := by
  constructor
  · obtain ⟨m,hat⟩ : ∃ m, (met thermoHost 0 silentState.fresh threeRuns)[3]? = some m := ⟨_,rfl⟩
    have hinjects : m.Injects thermoHost "thermo.eads"
        [("ry_a",.num (-158)),("ry_s",.num (-156)),("ry_m",.num (-1))] := by
      obtain rfl := Option.some.inj hat
      exact ⟨rfl,rfl,List.cons_ne_nil _ _⟩
    have hfits : EadsFits thermoHost (runsBefore thermoHost silentState threeRuns m) := by
      obtain rfl := Option.some.inj hat
      exact ⟨_,_,_,[],rfl,⟨rfl,_,rfl,rfl⟩,⟨rfl,_,rfl,rfl⟩,⟨rfl,_,rfl,rfl⟩⟩
    exact ⟨m,List.mem_of_getElem? hat,_,hinjects,((thermo_right_iff quietHost catalogueFormulas
      (fun _ _ => .error "") silentState threeRuns threeRuns_answering (List.mem_of_getElem? hat) _).1
        hinjects).mpr hfits⟩
  · obtain ⟨m,hat⟩ : ∃ m, (met thermoHost 0 silentState.fresh threeRuns)[4]? = some m := ⟨_,rfl⟩
    obtain ⟨hstep,hworld⟩ : m.step = formationStep.1 ∧ m.world = quietWorld := by
      obtain rfl := Option.some.inj hat
      exact ⟨rfl,rfl⟩
    have hinjects : m.Injects thermoHost "thermo.formation" [("formula",.str "Si"),
        ("compound_energy",.num (-158)),
        ("refs",.obj [("Si",.obj [("energy_ry",.num (-156)),("natoms",.num 2)])])] := by
      have hstate : m.state.scfEnergies = [⟨.num (-158),.num 2,":scf",0⟩,⟨.num (-156),.num 2,":scf",1⟩,
          ⟨.num (-1),.num 2,":scf",2⟩] := by
        obtain rfl := Option.some.inj hat
        rfl
      unfold Met.Injects
      rw [hstep, hworld]
      refine ⟨rfl,formationStep_ready hstate,fun heq => ?_⟩
      cases heq
    have hfits : FormationFits thermoHost catalogueFormulas (fun _ _ => .error "")
        (runsBefore thermoHost silentState threeRuns m) m := by
      have hsystems : m.systems thermoHost = [.compound "Si",.element "Si"] := by
        unfold Met.systems Met.elements
        rw [hstep]
        change systems "Si" ((thermoHost.referenceElements "Si").getD []) = _
        rw [silicon_elements]
        rfl
      obtain rfl := Option.some.inj hat
      unfold FormationFits
      rw [hsystems]
      refine Or.inr ⟨_,[],rfl,rfl,⟨rfl,[("Si",1)],["Si","Si"],rfl,rfl,silicon_madeOf,nofun⟩,Or.inr ⟨rfl,?_⟩⟩
      exact Or.inr ⟨_,[],rfl,rfl,⟨rfl,[("Si",1)],["Si","Si"],rfl,rfl,silicon_madeOf,fun _ _ => rfl⟩,Or.inl rfl⟩
    exact ⟨m,List.mem_of_getElem? hat,_,hinjects,((thermo_right_iff quietHost catalogueFormulas
      (fun _ _ => .error "") silentState threeRuns threeRuns_answering (List.mem_of_getElem? hat) _).2
        hinjects).mpr hfits⟩

/-- The run of the surface fails, and the energy of an earlier run takes its place. -/
def failedSurface : List (PlanStep × World) :=
  [siliconRun (scfReport "succeeded" (-12)),siliconRun (scfReport "succeeded" (-158)),
    siliconRun (scfReport "failed" (-156)),siliconRun (scfReport "succeeded" (-1)),eadsStep]

theorem failed_surface_wrong : ¬ ∀ steps, Answering thermoHost silentState steps →
    ∀ m ∈ met thermoHost 0 silentState.fresh steps, ∀ args,
      (m.Injects thermoHost "thermo.eads" args →
        EadsRight thermoHost (runsBefore thermoHost silentState steps m) m args) ∧
      (m.Injects thermoHost "thermo.formation" args →
        FormationRight thermoHost catalogueFormulas (fun _ _ => .error "")
          (runsBefore thermoHost silentState steps m) m args) := by
  intro hall
  have hanswers : Answering thermoHost silentState failedSurface := by
    refine thermo_answering fun p hp => ?_
    simp only [failedSurface, List.mem_cons, List.not_mem_nil, or_false] at hp
    rcases hp with rfl | rfl | rfl | rfl | rfl
    · exact Or.inr (Or.inr ⟨_,_,rfl⟩)
    · exact Or.inr (Or.inr ⟨_,_,rfl⟩)
    · exact Or.inr (Or.inr ⟨_,_,rfl⟩)
    · exact Or.inr (Or.inr ⟨_,_,rfl⟩)
    · exact Or.inl rfl
  obtain ⟨m,hat⟩ : ∃ m, (met thermoHost 0 silentState.fresh failedSurface)[4]? = some m := ⟨_,rfl⟩
  have hinjects : m.Injects thermoHost "thermo.eads"
      [("ry_a",.num (-12)),("ry_s",.num (-158)),("ry_m",.num (-1))] := by
    obtain rfl := Option.some.inj hat
    exact ⟨rfl,rfl,List.cons_ne_nil _ _⟩
  have hfailed : ((runsBefore thermoHost silentState failedSurface m).reverse[1]?).map
      (fun r => equalsText ((r.data thermoHost).get? "state") "succeeded") = some false := by
    obtain rfl := Option.some.inj hat
    rfl
  obtain ⟨_,surface,_,_,_,_,_,_,hruns,_,_,⟨hsucceeded,_⟩,_⟩ :=
    (hall failedSurface hanswers m (List.mem_of_getElem? hat) _).1 hinjects
  rw [hruns] at hfailed
  exact Bool.false_ne_true ((Option.some.inj hfailed).symm.trans hsucceeded)

end Sessions

end DftForge.Agent
