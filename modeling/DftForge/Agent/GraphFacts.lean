import DftForge.Agent.StepLoop
import DftForge.Python.Lines
import DftForge.Tools.GraphTools

/-! # The values that a reply must keep

`_graph_facts` collects the headline values of a graph run, and `run_session` appends them, with the
comparisons, to whatever the language model made of the reply.
-/
namespace DftForge.Agent
open DftForge.Runtime DftForge.Python DftForge.Engines DftForge.Tools

section Facts

/-- The outputs of the template that are reported. -/
def headlineKeys : List String := [
  "energy_ry","scf_energy_ry","a_angstrom","volume_a3","pressure_kbar","max_force_ry_bohr","band_gap_ev","fermi_ev",
  "is_metal","natoms","n_iterations"]

/-- The outputs of a node that are reported. -/
def nodeFactKeys : List String := [
  "energy_ry","a_angstrom","volume_a3","pressure_kbar","band_gap_ev","fermi_ev","is_metal","natoms","n_iterations"]

def topOffers (data : Dict) : Dict :=
  match data.get? "outputs" with
  | some (.obj top) => headlineKeys.map fun key => (key,field top key)
  | _ => []

/-- What one node offers; nothing where its outputs have an odd shape, which raises. -/
def nodeOffers : Json → Option Dict
  | .obj info => do
    let out ← fieldsOf (Dict.get? info "outputs")
    let analysis ← fieldsOf (Dict.get? out "analysis")
    let symmetry ← fieldsOf (Dict.get? analysis "symmetry")
    let conventional ← fieldsOf (Dict.get? symmetry "conventional_cell")
    return nodeFactKeys.map (fun key => (key,field out key)) ++
      [("conventional_a_angstrom",field conventional "a_angstrom"),
        ("space_group",if truthyAt symmetry "space_group" then field symmetry "space_group" else .null)]
  | _ => none

/-- The first value that is not `None` stays. -/
def addFact (out : Dict) (offer : String × Json) : Dict :=
  match offer.2 with
  | .null => out
  | v => if out.contains offer.1 then out else out ++ [(offer.1,v)]

/-- The dictionary `out` of `_graph_facts`. -/
def factEntries (data : Dict) : Option Dict := do
  let nodes ← fieldsOf (data.get? "nodes")
  let offers ← nodes.mapM fun node => nodeOffers node.2
  return (topOffers data ++ offers.flatten).foldl addFact []

def factLabels : List (String × String) := [
  ("energy_ry","总能量 (Ry)"),("scf_energy_ry","总能量 (Ry)"),("a_angstrom","平衡晶格参数 a (Å)"),
  ("conventional_a_angstrom","常规胞 a (Å)"),("volume_a3","体积 (Å³)"),("pressure_kbar","压力 (kbar)"),
  ("max_force_ry_bohr","最大力 (Ry/Bohr)"),("band_gap_ev","带隙 (eV)"),("fermi_ev","费米能级 (eV)"),
  ("is_metal","是否金属"),("natoms","原子数"),("n_iterations","迭代次数"),("space_group","空间群")]

variable (valueText : Json → Text)

def factText (fact : String × Json) : Text :=
  ((factLabels.lookup fact.1).getD fact.1).toList ++ '=' :: valueText fact.2

/-- `_graph_facts` of some entries. -/
def graphFacts (entries : Dict) : Text :=
  "关键计算结果（来自执行输出）：".toList ++ "；".toList.intercalate (entries.map (factText valueText))

/-- The entries of `result_dict["facts"]`. -/
def ResultEntry.facts (r : ResultEntry) : Option Dict :=
  match r.toolId, r.json with
  | some toolId, some (.obj data) =>
    if raisedError r.error || hasError (.obj data) then none
    else if toolId = "graph.run" && truthyAt data "run_id" || toolId = "graph.status" then factEntries data
    else none
  | _, _ => none

def factBlocks (log : Log) : List Text :=
  (log.results.filterMap fun r => r.facts.filter (· ≠ [])).map (graphFacts valueText)

end Facts

section Replies
variable (h : Host) (valueText : Json → Text)

/-- The blocks of `compare_block`. -/
def compareBlocks (log : Log) : List Text :=
  (log.commands.zip log.results).filterMap fun (c, r) =>
    match r.json with
    | some (.obj data) =>
      if c.command = "analysis.compare" && truthyAt data "ok" then (h.compareBlock data).toOption.map String.toList
      else none
    | _ => none

def withCompareBlocks (reply : Text) (blocks : List Text) : Text :=
  let missing := blocks.filter fun block => !decide (block <:+: reply)
  if missing = [] then reply else rstrip reply ++ '\n' :: ['\n'].intercalate missing

def withFactBlock (reply block : Text) : Text := if block <:+: reply then reply else rstrip reply ++ '\n' :: block

/-- The reply of `run_session`; an empty `narrated` is no provider, an exception or an empty answer. -/
def replyOf (log : Log) (parts : List Text) (narrated : Text) : Text :=
  let reply := if parts = [] then "我已收到你的消息。".toList else ['\n'].intercalate parts
  let reply := if narrated = [] || log.commands.isEmpty then reply else narrated
  (factBlocks valueText log).foldl withFactBlock (withCompareBlocks reply (compareBlocks h log))

end Replies

section Entries
variable {out : Dict} {key : String} {v : Json}

def nonNull : Json → Option Json
  | .null => none
  | v => some v

/-- What an offer says about a key. -/
def saysOf (key : String) (offer : String × Json) : Option Json := if offer.1 = key then nonNull offer.2 else none

theorem get?_append_singleton (out : Dict) (key' : String) (v : Json) :
    Dict.get? (out ++ [(key',v)]) key = (out.get? key).or (if key' = key then some v else none) := by
  rw [Dict.get?,List.lookup_append]
  by_cases hkey : key' = key
  · subst hkey
    simp [Dict.get?]
  · have hne : (key == key') = false := by simpa using Ne.symm hkey
    simp [Dict.get?,List.lookup_cons,hne,hkey]

theorem get?_addFact (out : Dict) (offer : String × Json) :
    (addFact out offer).get? key = (out.get? key).or (saysOf key offer) := by
  obtain ⟨key',v⟩ := offer
  have hstays (hv : nonNull v = some v) : Dict.get? (if out.contains key' then out else out ++ [(key',v)]) key =
      (out.get? key).or (saysOf key (key',v)) := by
    rw [saysOf,hv]
    by_cases hcontains : out.contains key'
    · rw [if_pos hcontains]
      by_cases hkey : key' = key
      · subst hkey
        obtain ⟨w,hw⟩ := Option.isSome_iff_exists.mp hcontains
        rw [hw,Option.some_or]
      · rw [if_neg hkey,Option.or_none]
    · rw [if_neg hcontains,get?_append_singleton]
  cases v with
  | null => simp only [addFact,saysOf,nonNull,ite_self,Option.or_none]
  | _ => exact hstays rfl

/-- The first offer of a value counts. -/
theorem get?_foldl_addFact (offers out : Dict) :
    (offers.foldl addFact out).get? key = (out.get? key).or (offers.findSome? (saysOf key)) := by
  induction offers generalizing out with
  | nil => rw [List.foldl_nil,List.findSome?_nil,Option.or_none]
  | cons offer offers ih =>
    rw [List.foldl_cons,ih,get?_addFact,Option.or_assoc,List.findSome?_cons]
    cases saysOf key offer <;> rfl

theorem findSome?_topOffers {data top : Dict} (htop : data.get? "outputs" = some (.obj top)) (hkey : key ∈ headlineKeys)
    (hv : top.get? key = some v) (hnull : nonNull v = some v) : (topOffers data).findSome? (saysOf key) = some v := by
  have hsaid : saysOf key (key,field top key) = some v := by
    rw [saysOf,if_pos rfl,field,hv,Option.getD_some,hnull]
  rw [topOffers,htop]
  cases hfound : (headlineKeys.map fun key => (key,field top key)).findSome? (saysOf key) with
  | none =>
    have hnone := List.findSome?_eq_none_iff.mp hfound (key,field top key) (List.mem_map.mpr ⟨key,hkey,rfl⟩)
    rw [hsaid] at hnone
    cases hnone
  | some w =>
    obtain ⟨offer,hoffer,hw⟩ := List.exists_of_findSome?_eq_some hfound
    obtain ⟨key',-,rfl⟩ := List.mem_map.mp hoffer
    obtain rfl : key' = key := by
      by_contra hne
      rw [saysOf,if_neg hne] at hw
      cases hw
    rw [← hw,hsaid]

/-- The declared outputs come first. -/
theorem factEntries_headline {data entries top : Dict} (h : factEntries data = some entries)
    (htop : data.get? "outputs" = some (.obj top)) (hkey : key ∈ headlineKeys) (hv : top.get? key = some v)
    (hnull : nonNull v = some v) : (key,v) ∈ entries := by
  obtain ⟨nodes,-,h⟩ := Option.bind_eq_some_iff.mp h
  obtain ⟨offers,-,h⟩ := Option.bind_eq_some_iff.mp h
  obtain rfl := Option.some.inj h
  refine Dict.mem_of_get? ?_
  rw [get?_foldl_addFact,List.findSome?_append,findSome?_topOffers htop hkey hv hnull]
  rfl

end Entries

section Blocks
variable {p t reply block : Text} {valueText : Json → Text}

theorem rstrip_rstrip (t : Text) : rstrip (rstrip t) = rstrip t := rstrip_eq_self (getLast?_rstrip t)

/-- What stands in a text stands in it without the white space at the ends. -/
theorem rstrip_infix_rstrip (h : p <:+: t) : rstrip p <:+: rstrip t := by
  obtain ⟨a,c,rfl⟩ := h
  by_cases hc : rstrip c = []
  · rw [rstrip_spaces (rstrip_eq_nil_iff.mp hc)]
    by_cases hp : rstrip p = []
    · rw [hp]
      exact List.nil_infix
    · rw [rstrip_append hp]
      exact List.infix_append' a (rstrip p) [] |>.trans (by rw [List.append_nil])
  · obtain ⟨spaces,-,hspaces⟩ := rstrip_prefix p
    rw [rstrip_append hc]
    refine ⟨a,spaces ++ rstrip c,?_⟩
    conv_rhs => rw [hspaces]
    simp only [List.append_assoc]

theorem rstrip_infix_self (t : Text) : rstrip t <:+: t := by
  obtain ⟨spaces,-,hspaces⟩ := rstrip_prefix t
  exact ⟨[],spaces,by rw [List.nil_append,← hspaces]⟩

theorem infix_intercalate {sep : Text} {texts : List Text} (h : p ∈ texts) : p <:+: sep.intercalate texts := by
  induction texts with
  | nil => exact absurd h List.not_mem_nil
  | cons text texts ih =>
    cases texts with
    | nil =>
      rw [List.mem_singleton.mp h,List.intercalate_singleton]
    | cons text' texts =>
      rw [List.intercalate_cons_cons]
      rcases List.mem_cons.mp h with rfl | h
      · exact ⟨[],sep ++ sep.intercalate (text' :: texts),by simp⟩
      · exact (ih h).trans ⟨text ++ sep,[],by simp⟩

theorem withFactBlock_keeps (h : rstrip p <:+: reply) (block : Text) : rstrip p <:+: withFactBlock reply block := by
  unfold withFactBlock
  split_ifs
  · exact h
  · have hkept : rstrip p <:+: rstrip reply := rstrip_rstrip p ▸ rstrip_infix_rstrip h
    exact hkept.trans (List.prefix_append _ _).isInfix

theorem withFactBlock_tells (reply block : Text) : rstrip block <:+: withFactBlock reply block := by
  unfold withFactBlock
  split_ifs with hreply
  · exact (rstrip_infix_self block).trans hreply
  · exact (rstrip_infix_self block).trans ⟨rstrip reply ++ ['\n'],[],by simp⟩

theorem foldl_keeps (h : rstrip p <:+: reply) (blocks : List Text) :
    rstrip p <:+: blocks.foldl withFactBlock reply := by
  induction blocks generalizing reply with
  | nil => exact h
  | cons block blocks ih => exact ih (withFactBlock_keeps h block)

theorem foldl_tells {blocks : List Text} (hp : p ∈ blocks) (reply : Text) :
    rstrip p <:+: blocks.foldl withFactBlock reply := by
  induction blocks generalizing reply with
  | nil => exact absurd hp List.not_mem_nil
  | cons block blocks ih =>
    rcases List.mem_cons.mp hp with rfl | hp
    · exact foldl_keeps (withFactBlock_tells reply p) blocks
    · exact ih hp _

theorem withCompareBlocks_tells {blocks : List Text} (hp : p ∈ blocks) (reply : Text) :
    rstrip p <:+: withCompareBlocks reply blocks := by
  by_cases hreply : p <:+: reply
  · have hsaid : rstrip p <:+: reply := (rstrip_infix_self p).trans hreply
    unfold withCompareBlocks
    dsimp only
    split_ifs
    · exact hsaid
    · have hkept : rstrip p <:+: rstrip reply := rstrip_rstrip p ▸ rstrip_infix_rstrip hsaid
      exact hkept.trans (List.prefix_append _ _).isInfix
  · have hmissing : p ∈ blocks.filter fun block => !decide (block <:+: reply) :=
      List.mem_filter.mpr ⟨hp,by simp [hreply]⟩
    have hjoined : p <:+: ['\n'].intercalate (blocks.filter fun block => !decide (block <:+: reply)) :=
      infix_intercalate hmissing
    rw [withCompareBlocks,if_neg (List.ne_nil_of_mem hmissing)]
    exact ((rstrip_infix_self p).trans hjoined).trans ⟨rstrip reply ++ ['\n'],[],by simp⟩

/-- A fact stands in its block. -/
theorem factText_infix_facts {entries : Dict} {fact : String × Json} (h : fact ∈ entries) :
    factText valueText fact <:+: graphFacts valueText entries :=
  (infix_intercalate (List.mem_map_of_mem h)).trans (List.suffix_append _ _).isInfix

end Blocks

section Survival
variable (h : Host) (valueText : Json → Text)

theorem fact_stays {log : Log} (parts : List Text) (narrated : Text) {r : ResultEntry} (hr : r ∈ log.results)
    {entries : Dict} (hentries : r.facts = some entries) {fact : String × Json} (hfact : fact ∈ entries) :
    rstrip (factText valueText fact) <:+: replyOf h valueText log parts narrated := by
  have hblock : graphFacts valueText entries ∈ factBlocks valueText log := by
    refine List.mem_map_of_mem (List.mem_filterMap.mpr ⟨r,hr,?_⟩)
    rw [hentries]
    exact Option.filter_eq_some_iff.mpr ⟨rfl,decide_eq_true (List.ne_nil_of_mem hfact)⟩
  have hsaid : rstrip (graphFacts valueText entries) <:+: replyOf h valueText log parts narrated := foldl_tells hblock _
  exact (rstrip_infix_rstrip (factText_infix_facts hfact)).trans hsaid

/-- Whatever the language model made of the reply, every reported value of every result and every
comparison stands in it. -/
theorem reply_keeps (log : Log) (parts : List Text) (narrated : Text) :
    let reply := replyOf h valueText log parts narrated
    (∀ r ∈ log.results, ∀ entries, r.facts = some entries → ∀ fact ∈ entries, rstrip (factText valueText fact) <:+: reply) ∧
      ∀ block ∈ compareBlocks h log, rstrip block <:+: reply :=
  ⟨fun _ hr _ hentries _ hfact => fact_stays h valueText parts narrated hr hentries hfact,
    fun _ hblock => foldl_keeps (withCompareBlocks_tells hblock _) _⟩

end Survival

section Runs
variable {e : GraphEngine} {v : ValidTemplate} {st : Store} {templateId : String} {runId : RunId} {inputs : Dict}
  {run : GraphRun} {env : Env} {input : ℕ → Tick}

/-- The result of a step that ran a graph. -/
def runResult (t : GraphTemplate) (run : GraphRun) : ResultEntry :=
  ⟨some "graph.run",0,some (.obj (graphRunAnswer t run)),none⟩

theorem facts_runResult {t : GraphTemplate} {run : GraphRun} (hid : run.runId ≠ "") :
    (runResult t run).facts = factEntries (graphRunAnswer t run) := by
  have hrun : truthyAt (graphRunAnswer t run) "run_id" = true := by
    show truthy (.str run.runId) = true
    simpa [truthy] using hid
  have herror : hasError (.obj (graphRunAnswer t run)) = false := rfl
  simp [runResult,ResultEntry.facts,raisedError,herror,hrun]

/-- From the tools to the reader: an output that the template declares stands in the reply with the value of the
reference semantics, whatever the order of completions, the limit and the mode of the scheduler, and
whatever the language model writes. -/
theorem headline_reported (h : Host) (valueText : Json → Text) (hv : e.getTemplate templateId = .ok v)
    (hcreate : createRun v.template runId inputs = .ok run) (hnew : ∀ id, st.nodeRuns (runId,id) = none)
    (henv : ∀ n, (input n).env = env) (hc : ∀ n, (input n).cancelled = false)
    (hfair : Fair e.scheduler v.template input (entered st run))
    (hbind : (GraphScheduler.new 1 e.baseDir false).Binds v.template env run) (hrunId : runId ≠ "")
    {reference : GraphRun} (hreference : reference = referenceRun (.new 1 e.baseDir false) v.template env run)
    (hfacts : (factEntries (graphRunAnswer v.template reference)).isSome) {key ref id output : String} {value : Json}
    (hkey : key ∈ headlineKeys) (hcontract : v.template.outputs.get? key = some (.str ref))
    (href : parseOutputRef ref.toList = some (id,output)) (hid : id ∈ v.template.ids)
    (hdone : (reference.nodes id).state = .succeeded) (hvalue : (reference.nodes id).outputs.get? output = some value)
    (hnull : nonNull value = some value) :
    ∃ s n s', runTemplate e st templateId runId inputs = .enters v s ∧
      e.scheduler.run v.template input s n = .returned s' ∧
      ∀ log parts narrated, runResult v.template s'.run ∈ log.results →
        rstrip (factText valueText (key,value)) <:+: replyOf h valueText log parts narrated := by
  obtain ⟨s,n,s',hs,hn,hsame,hstate,hnodes⟩ := runTemplate_reference hv hcreate hnew henv hc hfair hbind
  rw [← hreference] at hsame hstate hnodes
  refine ⟨s,n,s',hs,hn,fun log parts narrated hr => ?_⟩
  obtain ⟨entries,hentries⟩ := Option.isSome_iff_exists.mp hfacts
  rw [← graphRunAnswer_congr hsame hstate hnodes] at hentries
  have hanswered : s'.run.runId ≠ "" := by
    rw [hsame,hreference]
    show run.runId ≠ ""
    rwa [createRun_ok hcreate]
  have htop : (resolveTemplateOutputs v.template s'.run).get? key = some value := by
    rw [← hnodes id hid] at hdone hvalue
    rw [get?_resolveTemplateOutputs,hcontract,Option.map_some]
    simp only [contractValue,href,if_pos (And.intro hid hdone),hvalue,Option.getD_some]
  have hmem : (key,value) ∈ entries := factEntries_headline hentries rfl hkey htop hnull
  exact fact_stays h valueText parts narrated hr ((facts_runResult hanswered).trans hentries) hmem

def energyTemplate : GraphTemplate where
  templateId := "t0_scf"
  nodes := [{ id := "scf", tool := "qe" }]
  outputs := [("energy_ry",.str "$\x7bnodes.scf.outputs.energy_ry\x7d")]

def energyRun : ValidTemplate := ⟨energyTemplate,none,rfl⟩

def siliconEnv : Env := constantEnv [("energy_ry",.num (-15)),("natoms",.num 2)]

def doneScf : NodeRun where
  nodeId := "scf"
  state := .succeeded
  attempt := 1
  paramsResolved := true
  outputs := [("energy_ry",.num (-15)),("natoms",.num 2)]
  workdir := some "/work/run_1/scf"

theorem energy_evaluates : (GraphScheduler.new 1 "/work" false).evaluate energyRun.template siliconEnv
    (freshRun energyRun.template) "scf" = doneScf := by
  have hspec : ({ id := "scf", tool := "qe" } : NodeSpec) ∈ energyRun.template.nodes := List.mem_singleton.mpr rfl
  refine (evaluate_eq energyRun.wellFormed (freshRun energyRun.template) hspec).trans ?_
  have hattempt (run : GraphRun) (hrun : run.runId = "run_1") :
      (GraphScheduler.new 1 "/work" false).attempt energyRun.template siliconEnv run { id := "scf", tool := "qe" }
        { nodeId := "scf" } = some doneScf := by
    obtain ⟨runId,templateId,state,nodes,inputs⟩ := run
    obtain rfl := hrun
    rfl
  rw [GraphScheduler.verdict,if_neg (by decide),if_pos (fun d hd => absurd hd List.not_mem_nil),GraphScheduler.settle_eq,
    show (freshRun energyRun.template).nodes "scf" = { nodeId := "scf" } from rfl,hattempt _ rfl]
  rfl

theorem energy_reported : ∃ s n s',
    runTemplate (soleEngine energyRun true) {} "t0_scf" "run_1" [] = .enters energyRun s ∧
      (soleEngine energyRun true).scheduler.run energyRun.template (fun _ => { env := siliconEnv, done := ["scf"] }) s n =
        .returned s' ∧
      ∀ log parts narrated, runResult energyRun.template s'.run ∈ log.results →
        rstrip "总能量 (Ry)=-15".toList <:+: replyOf quietHost (fun _ => "-15".toList) log parts narrated := by
  have honly : ∀ id ∈ energyRun.template.ids, id = "scf" := fun id hid => List.mem_singleton.mp hid
  have hanswer : graphRunAnswer energyRun.template
        (referenceRun (.new 1 "/work" false) energyRun.template siliconEnv (freshRun energyRun.template)) =
      graphRunAnswer energyRun.template { freshRun energyRun.template with state := .succeeded, nodes := fun _ => doneScf } := by
    refine graphRunAnswer_congr rfl ?_ fun id hid => ?_
    · exact congrArg (fun node : NodeRun => determineRunStatus [node.state]) energy_evaluates
    · rw [honly id hid]
      exact energy_evaluates
  have hfair : Fair (soleEngine energyRun true).scheduler energyRun.template
      (fun _ => { env := siliconEnv, done := ["scf"] }) (entered {} (freshRun energyRun.template)) :=
    fair_of_done energyRun.wellFormed rfl fun _ id hid => List.mem_singleton.mpr (honly id hid)
  have hbind : (GraphScheduler.new 1 "/work" false).Binds energyRun.template siliconEnv (freshRun energyRun.template) := by
    intro spec hspec _
    rw [List.mem_singleton.mp hspec]
    exact ⟨[],rfl⟩
  have hfacts : (factEntries (graphRunAnswer energyRun.template
      (referenceRun (.new 1 "/work" false) energyRun.template siliconEnv (freshRun energyRun.template)))).isSome := by
    rw [hanswer]
    rfl
  have hcontract : energyRun.template.outputs.get? "energy_ry" = some (.str "$\x7bnodes.scf.outputs.energy_ry\x7d") := rfl
  have href : parseOutputRef "$\x7bnodes.scf.outputs.energy_ry\x7d".toList = some ("scf","energy_ry") := by decide
  have hvalue : ((GraphScheduler.new 1 "/work" false).evaluate energyRun.template siliconEnv
      (freshRun energyRun.template) "scf").outputs.get? "energy_ry" = some (.num (-15)) := by
    rw [energy_evaluates]
    rfl
  have hcreate : createRun energyRun.template "run_1" [] = .ok (freshRun energyRun.template) := rfl
  have hv : (soleEngine energyRun true).getTemplate "t0_scf" = .ok energyRun := rfl
  have hkey : "energy_ry" ∈ headlineKeys := List.mem_cons_self
  have hdone : ((GraphScheduler.new 1 "/work" false).evaluate energyRun.template siliconEnv
      (freshRun energyRun.template) "scf").state = .succeeded := by
    rw [energy_evaluates]
    rfl
  have hreported := headline_reported quietHost (fun _ => "-15".toList) hv hcreate (fun _ => rfl) (fun _ => rfl)
    (fun _ => rfl) hfair hbind (by decide) rfl hfacts hkey hcontract href (List.mem_singleton.mpr rfl) hdone hvalue rfl
  exact hreported

end Runs

end DftForge.Agent
