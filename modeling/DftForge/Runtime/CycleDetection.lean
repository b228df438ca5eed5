import DftForge.Runtime.Graph

/-! # Cycle detection of graph templates

`_detect_cycle` walks the dependencies between known nodes. It answers with a closed
walk along them, and with nothing exactly when there is none.
-/
namespace DftForge.Runtime.GraphTemplate
open Relation

variable {t : GraphTemplate}

/-- The node `id` depends on `d`, and both are nodes of the template. -/
def DependsOn (t : GraphTemplate) (d id : NodeId) : Prop :=
  d ∈ t.ids ∧ ∃ n ∈ t.nodes, n.id = id ∧ d ∈ n.dependsOn

theorem mem_adjacency {a b : NodeId} (h : a ∈ t.adjacency b) :
    ∃ n ∈ t.nodes, n.id = b ∧ a ∈ n.dependsOn ∧ a ∈ t.ids := by
  unfold adjacency at h
  split at h
  case h_1 n hfind =>
    obtain ⟨ha,hids⟩ := List.mem_filter.mp h
    exact ⟨n,List.mem_reverse.mp (List.mem_of_find?_eq_some hfind),by simpa using List.find?_some hfind,ha,
      by simpa using hids⟩
  case h_2 => cases h

theorem adjacency_known : ∀ v ∈ t.ids, ∀ w ∈ t.adjacency v, w ∈ t.ids := by
  intro v _ w hw
  obtain ⟨_,_,_,_,hids⟩ := mem_adjacency hw
  exact hids

/-- The search finds no cycle exactly if there is none. -/
theorem detectCycle_none_iff :
    t.detectCycle = none ↔ ∀ id, ¬ TransGen (Dag.Edge t.adjacency) id id := by
  constructor
  · intro h id hcycle
    obtain ⟨a,ha⟩ : ∃ a, a ∈ t.adjacency id := by
      cases hcycle with
      | single h => exact ⟨_,h⟩
      | tail _ h => exact ⟨_,h⟩
    obtain ⟨n,hn,rfl,_⟩ := mem_adjacency ha
    have hacc := Dag.findCycle_none adjacency_known h n.id (mem_ids_of_mem hn)
    exact Dag.acc_irrefl hacc.transGen hcycle
  · intro h
    cases hfind : t.detectCycle with
    | none => rfl
    | some path =>
      obtain ⟨id,hcycle⟩ := (Dag.findCycle_closed adjacency_known hfind).1.cycle
      exact absurd hcycle (h id)

/-- With unique ids the dictionary of `_detect_cycle` holds the dependencies of every node. -/
theorem edge_adjacency (hnodup : t.ids.Nodup) : Dag.Edge t.adjacency = t.DependsOn := by
  funext d id
  apply propext
  constructor
  · intro h
    obtain ⟨n,hn,hid,hd,hknown⟩ := mem_adjacency h
    exact ⟨hknown,n,hn,hid,hd⟩
  · rintro ⟨hknown,n,hn,rfl,hd⟩
    unfold Dag.Edge adjacency
    cases hfind : t.nodes.reverse.find? (·.id = n.id) with
    | none => simpa using List.find?_eq_none.mp hfind n (List.mem_reverse.mpr hn)
    | some m =>
      have hid : m.id = n.id := by simpa using List.find?_some hfind
      have hm : m ∈ t.nodes := List.mem_reverse.mp (List.mem_of_find?_eq_some hfind)
      rw [List.inj_on_of_nodup_map hnodup hm hn hid]
      exact List.mem_filter.mpr ⟨hd,by simpa using hknown⟩

/-- Cycle detection is exact, and its answer is a closed walk along dependencies. -/
theorem detect_cycle_exact (t : GraphTemplate) (hnodup : t.ids.Nodup) :
    (t.detectCycle = none ↔ ∀ id, ¬ TransGen t.DependsOn id id) ∧
      ∀ path, t.detectCycle = some path →
        2 ≤ path.length ∧ path.head? = path.getLast? ∧ (∀ id ∈ path, id ∈ t.ids) ∧
          ∀ i v w, path[i]? = some v → path[i + 1]? = some w →
            ∃ n ∈ t.nodes, n.id = v ∧ w ∈ n.dependsOn := by
  refine ⟨by rw [detectCycle_none_iff,edge_adjacency hnodup],?_⟩
  intro path hpath
  obtain ⟨⟨hlong,hclosed,hedges⟩,hknown⟩ := Dag.findCycle_closed adjacency_known hpath
  refine ⟨hlong,hclosed,hknown,?_⟩
  intro i v w hv hw
  obtain ⟨hi,rfl⟩ := List.getElem?_eq_some_iff.mp hv
  obtain ⟨hi',rfl⟩ := List.getElem?_eq_some_iff.mp hw
  have hedge : path[i + 1] ∈ t.adjacency path[i] := List.isChain_iff_getElem.mp hedges i hi'
  obtain ⟨n,hn,hid,hd,_⟩ := mem_adjacency hedge
  exact ⟨n,hn,hid,hd⟩

/-- Two nodes that depend on each other, one of them also on a node that does not exist. -/
def mutualTemplate : GraphTemplate where
  templateId := "mutual"
  nodes := [{ id := "scf", tool := "qe", dependsOn := ["relax","nscf"] },
    { id := "nscf", tool := "qe", dependsOn := ["scf"] }]

theorem detect_cycle_mutual : mutualTemplate.detectCycle ≠ none := by
  intro h
  have hdown : mutualTemplate.DependsOn "nscf" "scf" := ⟨by decide,_,List.mem_cons_self,rfl,by decide⟩
  have hup : mutualTemplate.DependsOn "scf" "nscf" :=
    ⟨by decide,_,List.mem_cons_of_mem _ List.mem_cons_self,rfl,by decide⟩
  exact (detect_cycle_exact mutualTemplate (by decide)).1.mp h "scf" (.head hup (.single hdown))

end DftForge.Runtime.GraphTemplate
