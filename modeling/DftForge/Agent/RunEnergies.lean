import DftForge.Agent.StepLoop

/-! # The energies of a graph run

What `_graph_run` answers, what the calculations of `QECalcTool` put into the outputs of
their nodes, and which energies `_handle_graph_run` collects from the answer. A run's total
energy is that of its first SCF or relaxation node, as in the session's ledger.
-/
namespace DftForge.Agent
open DftForge.Library DftForge.Runtime DftForge.Python DftForge.Engines DftForge.Tools DftForge.Qe

section Answer

/-- A node of the answer. -/
structure NodeReport where
  state : String
  error : Option String
  outputs : Dict

/-- The answer of `_graph_run`; the ids of the nodes are the keys of a dictionary. -/
structure GraphReport where
  runId : String
  state : String
  nodes : List (String × NodeReport)
  outputs : Dict
  named : runId ≠ ""
  distinct : (nodes.map Prod.fst).Nodup

def NodeReport.info (n : NodeReport) : Dict :=
  [("state",.str n.state),("error",(n.error.map Json.str).getD .null),
    ("outputs",if n.state = "succeeded" then .obj n.outputs else .null)]

def GraphReport.nodesJson (g : GraphReport) : Dict := g.nodes.map fun n => (n.1,.obj n.2.info)

def GraphReport.payload (g : GraphReport) : Dict :=
  [("run_id",.str g.runId),("state",.str g.state),("nodes",.obj g.nodesJson),("outputs",.obj g.outputs)]

end Answer

section Calculations
variable {F : Type} (f : Floats F) (u : Unicode)

/-- The atoms that pw.x counts, else those of the structure. -/
def countedAtoms (stdout : Text) (atoms : Option (List String)) : Json :=
  match Regex.search (atomsPerCell u) stdout with
  | some m => .num (natOf u (m.group 1))
  | none => (atoms.map fun symbols => Json.num symbols.length).getD .null

variable (number : F → ℚ)

/-- The outputs of `_run_scf`. -/
def scfOutputs (stdout : Text) (parsed : ParsedSCF F) (atoms : Option (List String)) (stdoutFile : String) :
    Dict :=
  [("energy_ry",.num (number parsed.totalEnergyRy)),("fermi_ev",.num (number parsed.fermiEnergyEv)),
    ("n_iterations",.num parsed.nIterations),("natoms",countedAtoms u stdout atoms),
    ("stdout_file",.str stdoutFile)]

/-- The outputs of `_run_nscf`. -/
def nscfOutputs (parsed : ParsedSCF F) (nbnd : Json) (stdoutFile : String) : Dict :=
  [("energy_ry",.num (number parsed.totalEnergyRy)),("nbnd_used",nbnd),("stdout_file",.str stdoutFile)]

end Calculations

section Energies
variable (step : ℕ) (description : String)

/-- The energies that the nodes of an answer report. -/
def energiesOf (nodes : Dict) : List Energy :=
  nodes.flatMap fun node =>
    match node.2 with
    | .obj info =>
      match Dict.get? info "outputs" with
      | some (.obj outs) => nodeEnergy step description node.1 info outs
      | _ => []
    | _ => []

def nodesOf (data : Dict) : Dict :=
  match data.get? "nodes" with
  | some (.obj nodes) => nodes
  | _ => []

/-- The nodes whose energy is the total energy of a run. -/
def totals (nodes : Dict) : Dict := nodes.filter fun node => node.1 = "scf" || node.1 = "vc_relax"

/-- The total energy of a run. -/
def totalEnergy (nodes : Dict) : Option Energy := (energiesOf step description (totals nodes)).head?

variable {step description}

theorem energiesOf_cons (node : String × Json) (nodes : Dict) :
    energiesOf step description (node :: nodes) =
      energiesOf step description [node] ++ energiesOf step description nodes := by
  simp [energiesOf]

theorem mem_nodeEnergy {nid : String} {info outs : Dict} {e : Energy}
    (he : e ∈ nodeEnergy step description nid info outs) :
    e.step = step ∧ e.label = description ++ ":" ++ nid := by
  unfold nodeEnergy at he
  split_ifs at he
  · obtain rfl := List.mem_singleton.mp he
    exact ⟨rfl,rfl⟩
  · exact absurd he List.not_mem_nil

theorem mem_energiesOf {nodes : Dict} {e : Energy} (he : e ∈ energiesOf step description nodes) :
    e.step = step ∧ ∃ node ∈ nodes, e.label = description ++ ":" ++ node.1 ∧
      e ∈ energiesOf step description [node] := by
  obtain ⟨node,hnode,hin⟩ := List.mem_flatMap.mp he
  have hsingle : e ∈ energiesOf step description [node] := List.mem_flatMap.mpr ⟨node,by simp,hin⟩
  split at hin
  · split at hin
    · obtain ⟨hstep,hlabel⟩ := mem_nodeEnergy hin
      exact ⟨hstep,node,hnode,hlabel,hsingle⟩
    · exact absurd hin List.not_mem_nil
  · exact absurd hin List.not_mem_nil

theorem label_inj {a b : String} (h : description ++ ":" ++ a = description ++ ":" ++ b) : a = b := by
  have hlist := congrArg String.toList h
  simp only [String.toList_append] at hlist
  exact String.toList_inj.mp (List.append_cancel_left hlist)

theorem energiesOf_singleton_length (step : ℕ) (description : String) (node : String × Json) :
    (energiesOf step description [node]).length ≤ 1 := by
  have hnode : ∀ info outs : Dict, (nodeEnergy step description node.1 info outs).length ≤ 1 := by
    intro info outs
    unfold nodeEnergy
    split_ifs <;> simp
  unfold energiesOf
  rw [List.flatMap_cons, List.flatMap_nil, List.append_nil]
  split
  · split
    · exact hnode _ _
    · simp
  · simp

/-- Nodes with different ids report different energies. -/
theorem energiesOf_nodup {nodes : Dict} (hdistinct : (nodes.map Prod.fst).Nodup) :
    (energiesOf step description nodes).Nodup := by
  induction nodes with
  | nil => exact List.nodup_nil
  | cons node nodes ih =>
    rw [List.map_cons, List.nodup_cons] at hdistinct
    rw [energiesOf_cons]
    refine List.Nodup.append ?_ (ih hdistinct.2) ?_
    · have hlength := energiesOf_singleton_length step description node
      match energiesOf step description [node], hlength with
      | [], _ => exact List.nodup_nil
      | [e], _ => exact List.nodup_singleton e
    · intro e he he'
      obtain ⟨_,n,hn,hlabel,_⟩ := mem_energiesOf he
      obtain ⟨_,n',hn',hlabel',_⟩ := mem_energiesOf he'
      obtain rfl := List.mem_singleton.mp hn
      have hid := label_inj (hlabel.symm.trans hlabel')
      exact hdistinct.1 (hid ▸ List.mem_map_of_mem hn')

theorem totalEnergy_mem {nodes : Dict} {e : Energy} (h : totalEnergy step description nodes = some e) :
    e ∈ energiesOf step description nodes := by
  obtain ⟨node,hnode,hin⟩ := List.mem_flatMap.mp (List.mem_of_head? h)
  exact List.mem_flatMap.mpr ⟨node,List.mem_of_mem_filter hnode,hin⟩

end Energies

section Handler
variable {factsRaise : Dict → Bool} {step : ℕ} {description : String}

/-- The outputs that the handler sees. -/
def NodeReport.told (n : NodeReport) : Dict := if n.state = "succeeded" then n.outputs else []

/-- The data come from `_graph_run`, and the lines about them can be written. -/
def Answered (factsRaise : Dict → Bool) (data : Dict) : Prop :=
  nodesOf data = [] ∨ ∃ g : GraphReport, data = g.payload ∧ ∀ n ∈ g.nodes, factsRaise n.2.told = false

theorem NodeReport.fieldsOf_info (n : NodeReport) : fieldsOf (Dict.get? n.info "outputs") = some n.told := by
  change fieldsOf (some (if n.state = "succeeded" then .obj n.outputs else .null)) = _
  unfold NodeReport.told
  split_ifs <;> rfl

theorem NodeReport.succeededOutputs_info (n : NodeReport) :
    succeededOutputs (.obj n.info) = some (if n.state = "succeeded" then some n.told else none) := by
  change (if equalsText (some (.str n.state)) "succeeded" then
    (fieldsOf (Dict.get? n.info "outputs")).map some else some none) = _
  rw [n.fieldsOf_info]
  by_cases hs : n.state = "succeeded"
  · rw [if_pos hs, if_pos (by simpa [equalsText] using hs)]
    rfl
  · rw [if_neg hs, if_neg (by simpa [equalsText] using hs)]

theorem energiesOf_node (nid : String) (n : NodeReport) : energiesOf step description [(nid,.obj n.info)] =
    if n.state = "succeeded" ∧ isNone n.told "energy_ry" = false then
      [{ energyRy := field n.told "energy_ry", natoms := field n.told "natoms"
         label := description ++ ":" ++ nid, step }]
    else [] := by
  change (match some (if n.state = "succeeded" then Json.obj n.outputs else .null) with
    | some (.obj outs) => nodeEnergy step description nid n.info outs
    | _ => []) ++ [] = _
  rw [List.append_nil, NodeReport.told]
  by_cases hs : n.state = "succeeded"
  · have htext : equalsText (Dict.get? n.info "state") "succeeded" = true := by
      change equalsText (some (.str n.state)) "succeeded" = true
      simpa [equalsText] using hs
    rw [if_pos hs, if_pos hs]
    dsimp only
    unfold nodeEnergy
    rw [htext, Bool.true_and]
    simp [hs]
  · rw [if_neg hs, if_neg fun hboth => hs hboth.1]

theorem nodeEnergy_told (nid : String) (n : NodeReport) : nodeEnergy step description nid n.info n.told =
    energiesOf step description [(nid,.obj n.info)] := by
  rw [energiesOf_node]
  unfold nodeEnergy
  have htext : equalsText (Dict.get? n.info "state") "succeeded" = decide (n.state = "succeeded") := rfl
  rw [htext]
  simp

/-- The handler collects the energies of every node. -/
theorem nodeEnergies_nodes {nodes : List (String × NodeReport)}
    (hfacts : ∀ n ∈ nodes, factsRaise n.2.told = false) :
    nodeEnergies factsRaise step description (nodes.map fun n => (n.1,.obj n.2.info)) =
      energiesOf step description (nodes.map fun n => (n.1,.obj n.2.info)) := by
  induction nodes with
  | nil => rfl
  | cons node nodes ih =>
    obtain ⟨nid,n⟩ := node
    rw [List.map_cons, energiesOf_cons, ← nodeEnergy_told, nodeEnergies, n.fieldsOf_info]
    dsimp only
    rw [hfacts (nid,n) (List.mem_cons_self ..), if_neg Bool.false_ne_true,
      ih fun m hm => hfacts m (List.mem_cons_of_mem _ hm)]

theorem bandsOut_nodes (nodes : List (String × NodeReport)) :
    (bandsOut (nodes.map fun n => (n.1,.obj n.2.info))).isSome = true := by
  unfold bandsOut
  split
  · rfl
  · next v hv =>
    obtain ⟨before,after,htable,_⟩ := List.lookup_eq_some_iff.mp hv
    have hmem : ("bands",v) ∈ nodes.map fun n => (n.1,Json.obj n.2.info) := by
      rw [htable]
      exact List.mem_append_right _ (List.mem_cons_self ..)
    obtain ⟨n,_,hn⟩ := List.mem_map.mp hmem
    obtain ⟨_,rfl⟩ := Prod.mk.inj hn
    rw [n.2.succeededOutputs_info]
    rfl

theorem scfOut_nodes (nodes : List (String × NodeReport)) :
    (scfOut (nodes.map fun n => (n.1,.obj n.2.info))).isSome = true := by
  induction nodes with
  | nil => rfl
  | cons node nodes ih =>
    rw [List.map_cons, scfOut, node.2.succeededOutputs_info]
    split
    · split
      · next h => cases h
      · exact ih
      · split
        · exact ih
        · rfl
    · exact ih

theorem ledgerEntry_isSome (g : GraphReport) (description : String) {args : Dict}
    (hinputs : (fieldsOf (args.get? "inputs")).isSome = true) :
    (ledgerEntry args g.payload g.nodesJson description).isSome = true := by
  obtain ⟨bands,hbands⟩ := Option.isSome_iff_exists.mp (bandsOut_nodes g.nodes)
  obtain ⟨scf,hscf⟩ := Option.isSome_iff_exists.mp (scfOut_nodes g.nodes)
  obtain ⟨inputs,hinputs⟩ := Option.isSome_iff_exists.mp hinputs
  unfold ledgerEntry
  rw [GraphReport.nodesJson, hbands, hscf, hinputs]
  rfl

/-- The energies that `_handle_graph_run` adds are those of the nodes. -/
theorem graphRunAdds_energies {args data : Dict} (hdata : Answered factsRaise data)
    (hinputs : (fieldsOf (args.get? "inputs")).isSome = true) :
    (graphRunAdds factsRaise step description args data).2 = energiesOf step description (nodesOf data) := by
  rcases hdata with hnone | ⟨g,rfl,hfacts⟩
  · rw [hnone]
    have hnodes : ∀ nodes, fieldsOf (data.get? "nodes") = some nodes → nodes = [] := by
      intro nodes hn
      unfold nodesOf at hnone
      unfold fieldsOf at hn
      split at hn
      · next fields hget =>
        rw [hget] at hnone
        obtain rfl := Option.some.inj hn
        exact hnone
      · split_ifs at hn
        exact (Option.some.inj hn).symm
      · exact (Option.some.inj hn).symm
    unfold graphRunAdds
    by_cases hrun : truthyAt data "run_id" = true
    · rw [if_pos hrun]
      cases hn : fieldsOf (data.get? "nodes") with
      | none => rfl
      | some nodes =>
        obtain rfl := hnodes nodes hn
        dsimp only
        cases ledgerEntry args data [] description <;> split_ifs <;> rfl
    · rw [if_neg hrun]
      rfl
  · have hrun : truthyAt g.payload "run_id" = true := by
      change (truthy (.str g.runId)) = true
      simpa [truthy] using g.named
    have hnodes : fieldsOf (g.payload.get? "nodes") = some g.nodesJson := rfl
    obtain ⟨entry,hentry⟩ := Option.isSome_iff_exists.mp (ledgerEntry_isSome g description hinputs)
    have henergies : nodeEnergies factsRaise step description g.nodesJson =
        energiesOf step description (nodesOf g.payload) := nodeEnergies_nodes hfacts
    unfold graphRunAdds
    rw [if_pos hrun, hnodes]
    dsimp only
    rw [hentry]
    split_ifs <;> exact henergies

theorem scfOut_total (nodes : List (String × NodeReport)) : ∃ outs,
    scfOut (nodes.map fun n => (n.1,.obj n.2.info)) = some outs ∧ field outs "energy_ry" =
      ((totalEnergy step description (nodes.map fun n => (n.1,.obj n.2.info))).map (·.energyRy)).getD .null := by
  induction nodes with
  | nil => exact ⟨[],rfl,rfl⟩
  | cons node nodes ih =>
    obtain ⟨nid,n⟩ := node
    obtain ⟨outs,hout,htotal⟩ := ih
    rw [List.map_cons, scfOut, n.succeededOutputs_info]
    by_cases hid : (nid = "scf" || nid = "vc_relax") = true
    · have hkeep : totals ((nid,.obj n.info) :: nodes.map fun n => (n.1,.obj n.2.info)) =
          (nid,.obj n.info) :: totals (nodes.map fun n => (n.1,.obj n.2.info)) :=
        List.filter_cons_of_pos hid
      rw [if_pos hid, totalEnergy, hkeep, energiesOf_cons, energiesOf_node]
      by_cases hreports : n.state = "succeeded" ∧ isNone n.told "energy_ry" = false
      · rw [if_pos hreports.1, if_pos hreports]
        dsimp only
        rw [hreports.2, if_neg Bool.false_ne_true]
        exact ⟨_,rfl,rfl⟩
      · rw [if_neg hreports, List.nil_append]
        refine ⟨outs,?_,htotal⟩
        by_cases hs : n.state = "succeeded"
        · rw [if_pos hs]
          dsimp only
          rw [if_pos (by simpa [hs] using hreports)]
          exact hout
        · rw [if_neg hs]
          exact hout
    · have hdrop : totals ((nid,.obj n.info) :: nodes.map fun n => (n.1,.obj n.2.info)) =
          totals (nodes.map fun n => (n.1,.obj n.2.info)) := List.filter_cons_of_neg hid
      rw [if_neg hid, totalEnergy, hdrop]
      exact ⟨outs,hout,htotal⟩

end Handler

section Templates
variable {F : Type} {u : Unicode} {number : F → ℚ} {step : ℕ} {description : String}

/-- A run with a non-self-consistent calculation reports that energy besides its own. -/
theorem nscf_reports_two {g : GraphReport} {scf nscf : NodeReport} {more : List (String × NodeReport)}
    (hnodes : g.nodes = ("scf",scf) :: ("nscf",nscf) :: more) (hscf : scf.state = "succeeded")
    (hnscf : nscf.state = "succeeded") {stdout : Text} {parsed parsed' : ParsedSCF F}
    {atoms : Option (List String)} {file file' : String} {nbnd : Json}
    (houtputs : scf.outputs = scfOutputs u number stdout parsed atoms file)
    (houtputs' : nscf.outputs = nscfOutputs number parsed' nbnd file') : ∃ e e' rest,
      energiesOf step description (nodesOf g.payload) = e :: e' :: rest ∧
        e'.energyRy = .num (number parsed'.totalEnergyRy) := by
  change ∃ e e' rest, energiesOf step description (g.nodes.map fun n => (n.1,.obj n.2.info)) =
    e :: e' :: rest ∧ _
  have hfirst : scf.state = "succeeded" ∧ isNone scf.told "energy_ry" = false := by
    rw [NodeReport.told, if_pos hscf, houtputs]
    exact ⟨hscf,rfl⟩
  have hsecond : nscf.state = "succeeded" ∧ isNone nscf.told "energy_ry" = false := by
    rw [NodeReport.told, if_pos hnscf, houtputs']
    exact ⟨hnscf,rfl⟩
  rw [hnodes, List.map_cons, List.map_cons, energiesOf_cons, energiesOf_node, if_pos hfirst, energiesOf_cons,
    energiesOf_node, if_pos hsecond]
  refine ⟨_,_,_,rfl,?_⟩
  dsimp only
  rw [NodeReport.told, if_pos hnscf, houtputs']
  rfl

end Templates
end DftForge.Agent
