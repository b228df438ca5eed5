import DftForge.Agent.Malformed

/-! # The lists of a session

What the loop has appended after its last step, and when a session gets there.
-/
namespace DftForge.Agent
open DftForge.Runtime DftForge.Python DftForge.Engines DftForge.Tools

/-- The three entries that an exit appends. -/
structure Entry where
  command : Command
  result : ResultEntry
  chain : ChainEntry

/-- The entries are those of the step. -/
structure Entry.Of (e : Entry) (step : PlanStep) : Prop where
  command : e.command.description = step.description
  result : e.result.toolId = step.tool
  tool : e.chain.tool = step.tool
  description : e.chain.description = step.description

/-- The entries say that the step failed. -/
structure Entry.Failed (e : Entry) : Prop where
  error : raisedError e.result.error = true
  status : e.chain.status = .error

variable (h : Host)

/-- The arguments cannot be used: the guard or the preparation refuses them, cannot read
them, or the registry refuses the call. -/
def Met.Unusable (m : Met) : Prop := ∃ toolId, m.step.tool = some toolId ∧ toolId ≠ "help" ∧
  (¬ WellShaped h m.world m.state m.step.args toolId ∨
    checkSelfDoping h m.step.args toolId = .rejects ∨
    (checkSelfDoping h m.step.args toolId = .passes ∧
      (prepareStep h m.world m.state m.step.args toolId = .aborted ∨
        ∃ args, prepareStep h m.world m.state m.step.args toolId = .ready args ∧
          raisedError (m.world.call args).error = true)))

/-- The entries of an exit. -/
def Exit.entry (step : PlanStep) : Exit → Entry
  | .noTool => ⟨⟨"noop",step.description,none⟩,⟨none,-1,none,some "No matching tool"⟩,
      ⟨none,step.description,.error⟩⟩
  | .help => ⟨⟨"help",step.description,some step.args⟩,⟨some "help",0,none,none⟩,
      ⟨some "help",step.description,.done⟩⟩
  | .rejected => ⟨⟨"noop",step.description,none⟩,
      ⟨step.tool,-1,none,some "self-doping rejected (dopant == host element)"⟩,
      ⟨step.tool,step.description,.error⟩⟩
  | .aborted => ⟨⟨"noop",step.description,none⟩,
      ⟨step.tool,-1,none,some "no structure to chain (previous build step failed) and no material given"⟩,
      ⟨step.tool,step.description,.error⟩⟩
  | .called args result => ⟨⟨step.tool.getD "",step.description,some args⟩,
      ⟨step.tool,result.returncode,result.json.map (·.2),result.error⟩,
      ⟨step.tool,step.description,result.status (step.tool.getD "")⟩⟩

/-- The entry is the one of the step's exit. -/
def Answers (m : Met) (e : Entry) : Prop :=
  ∃ exit, execStep h m.world m.state m.step = some exit ∧ e = exit.entry m.step

/-- A session kept its lists: one entry of each for every step at its place, the one of its exit, which
is what the registry answers to a step that can be used and an error where the arguments cannot. -/
structure Contained (s : SessionState) (steps : List (PlanStep × World)) (log : Log) : Prop where
  commands : log.commands.length = steps.length
  results : log.results.length = steps.length
  chain : log.chain.length = steps.length
  entries : ∀ (i : ℕ) step w, steps[i]? = some (step,w) → ∃ e : Entry, log.commands[i]? = some e.command ∧
    log.results[i]? = some e.result ∧ log.chain[i]? = some e.chain ∧ e.Of step
  answered : ∀ m ∈ met h 0 s steps, ∃ e : Entry, log.commands[m.index]? = some e.command ∧
    log.results[m.index]? = some e.result ∧ log.chain[m.index]? = some e.chain ∧ Answers h m e
  unusable : ∀ m ∈ met h 0 s steps, m.Unusable h → ∃ e : Entry, log.commands[m.index]? = some e.command ∧
    log.results[m.index]? = some e.result ∧ log.chain[m.index]? = some e.chain ∧ e.Of m.step ∧ e.Failed

/-- The arguments have the expected shapes, and `compare_block` can write a comparison that
reports success. -/
structure Met.Safe (m : Met) : Prop where
  shaped : ∀ toolId, m.step.tool = some toolId → toolId ≠ "help" →
    WellShaped h m.world m.state m.step.args toolId
  compared : m.step.tool = some "analysis.compare" → ∀ args,
    prepareStep h m.world m.state m.step.args "analysis.compare" = .ready args →
      compareFails h "analysis.compare" ((m.world.result h "analysis.compare" args).json.map (·.2)) = false

section Entries
variable {h}

theorem record_commands (log : Log) (step : PlanStep) (exit : Exit) :
    (log.record step exit).commands = log.commands ++ [(exit.entry step).command] := by
  cases exit <;> rfl

theorem record_results (log : Log) (step : PlanStep) (exit : Exit) :
    (log.record step exit).results = log.results ++ [(exit.entry step).result] := by
  cases exit <;> rfl

theorem record_chain (log : Log) (step : PlanStep) (exit : Exit) :
    (log.record step exit).chain = log.chain ++ [(exit.entry step).chain] := by
  cases exit <;> rfl

theorem Answers.of {m : Met} {e : Entry} (ha : Answers h m e) : e.Of m.step := by
  obtain ⟨exit,hexit,rfl⟩ := ha
  rcases execStep_spec hexit with ⟨htool,rfl⟩ | ⟨htool,rfl⟩ |
    ⟨toolId,htool,_,⟨_,rfl⟩ | ⟨_,⟨_,rfl⟩ | ⟨args,_,rfl⟩⟩⟩
  · exact ⟨rfl,htool.symm,htool.symm,rfl⟩
  · exact ⟨rfl,htool.symm,htool.symm,rfl⟩
  · exact ⟨rfl,rfl,rfl,rfl⟩
  · exact ⟨rfl,rfl,rfl,rfl⟩
  · exact ⟨rfl,rfl,rfl,rfl⟩

/-- A call that the registry refuses is recorded as an error. -/
theorem result_of_error {w : World} (toolId : String) {args : Dict}
    (herror : raisedError (w.call args).error = true) :
    (w.result h toolId args).error = (w.call args).error ∧ (w.result h toolId args).status toolId = .error := by
  have hanswer : (w.result h toolId args).error = (w.call args).error := by
    unfold World.result stepResult
    dsimp only
    rw [if_pos herror]
  refine ⟨hanswer,?_⟩
  rw [StepResult.status, hanswer, herror, Bool.true_or, if_pos rfl]

theorem Answers.failed {m : Met} {e : Entry} (ha : Answers h m e) (hsafe : m.Safe h) (hm : m.Unusable h) :
    e.Failed := by
  obtain ⟨toolId,htool,hhelp,hcases⟩ := hm
  obtain ⟨exit,hexit,rfl⟩ := ha
  rcases execStep_spec hexit with ⟨hnone,_⟩ | ⟨hother,_⟩ | ⟨toolId',htool',_,hspec⟩
  · rw [htool] at hnone
    cases hnone
  · exact absurd (Option.some.inj (htool.symm.trans hother)) hhelp
  · obtain rfl := Option.some.inj (htool.symm.trans htool')
    rcases hcases with hshape | hrejects | ⟨hpasses,hprepared⟩
    · exact absurd (hsafe.shaped toolId htool hhelp) hshape
    · rcases hspec with ⟨_,rfl⟩ | ⟨hpasses,_⟩
      · exact ⟨by simp [Exit.entry, raisedError],rfl⟩
      · rw [hrejects] at hpasses
        cases hpasses
    · rcases hspec with ⟨hrejects,_⟩ | ⟨_,⟨_,rfl⟩ | ⟨args,hready,rfl⟩⟩
      · rw [hpasses] at hrejects
        cases hrejects
      · exact ⟨by simp [Exit.entry, raisedError],rfl⟩
      · rcases hprepared with haborted | ⟨args',hready',herror⟩
        · rw [hready] at haborted
          cases haborted
        · obtain rfl := Prepared.ready.inj (hready.symm.trans hready')
          obtain ⟨hresult,hstatus⟩ := result_of_error (h := h) toolId herror
          refine ⟨?_,?_⟩
          · change raisedError (m.world.result h toolId args).error = true
            rw [hresult, herror]
          · change (m.world.result h toolId args).status (m.step.tool.getD "") = .error
            rw [htool]
            exact hstatus

/-- What a loop that came to its end has appended, step by step. -/
theorem runLoop_log {steps : List (PlanStep × World)} {index : ℕ} {s : SessionState} {log out : Log}
    (hrun : runLoop h index s log steps = some out) : ∃ entries : List Entry,
      out.commands = log.commands ++ entries.map (·.command) ∧
      out.results = log.results ++ entries.map (·.result) ∧
      out.chain = log.chain ++ entries.map (·.chain) ∧
      List.Forall₂ (Answers h) (met h index s steps) entries ∧
      (met h index s steps).map (fun m => (m.step,m.world)) = steps := by
  induction steps generalizing index s log with
  | nil =>
    obtain rfl := Option.some.inj hrun
    exact ⟨[],by simp,by simp,by simp,.nil,rfl⟩
  | cons first rest ih =>
    obtain ⟨step,w⟩ := first
    unfold runLoop at hrun
    cases hexit : execStep h w s step with
    | none =>
      rw [hexit] at hrun
      cases hrun
    | some exit =>
      rw [hexit] at hrun
      obtain ⟨entries,hcommands,hresults,hchain,hanswers,hsteps⟩ := ih hrun
      refine ⟨exit.entry step :: entries,?_,?_,?_,?_,?_⟩
      · rw [hcommands, record_commands, List.append_assoc]
        rfl
      · rw [hresults, record_results, List.append_assoc]
        rfl
      · rw [hchain, record_chain, List.append_assoc]
        rfl
      · unfold met
        rw [hexit]
        exact .cons ⟨exit,hexit,rfl⟩ hanswers
      · unfold met
        rw [hexit, List.map_cons, hsteps]

/-- The loop comes to its end exactly when no step that it meets raises. -/
theorem runLoop_isSome_iff {steps : List (PlanStep × World)} {index : ℕ} {s : SessionState} {log : Log} :
    (runLoop h index s log steps).isSome = true ↔
      ∀ m ∈ met h index s steps, execStep h m.world m.state m.step ≠ none := by
  induction steps generalizing index s log with
  | nil => simp [runLoop, met]
  | cons first rest ih =>
    obtain ⟨step,w⟩ := first
    unfold runLoop met
    cases hexit : execStep h w s step with
    | none => simp [hexit]
    | some exit => simp [hexit, ih]

theorem execStep_ne_none_iff {m : Met} : execStep h m.world m.state m.step ≠ none ↔
    ∀ toolId, m.step.tool = some toolId → toolId ≠ "help" →
      WellShaped h m.world m.state m.step.args toolId := by
  rw [ne_eq, execStep_none_iff]
  push Not
  rfl

theorem compareFails_of_ne {command : String} (hne : command ≠ "analysis.compare") (json : Option Json) :
    compareFails h command json = false := by
  unfold compareFails
  split
  · simp [hne]
  · rfl

/-- Only the entries of a comparison can make the end of the session raise. -/
theorem Answers.compareFails {m : Met} {e : Entry} (ha : Answers h m e) (hsafe : m.Safe h) :
    compareFails h e.command.command e.result.json = false := by
  obtain ⟨exit,hexit,rfl⟩ := ha
  rcases execStep_spec hexit with ⟨_,rfl⟩ | ⟨_,rfl⟩ |
    ⟨toolId,htool,_,⟨_,rfl⟩ | ⟨_,⟨_,rfl⟩ | ⟨args,hready,rfl⟩⟩⟩
  · rfl
  · rfl
  · rfl
  · rfl
  · by_cases hcompare : toolId = "analysis.compare"
    · subst hcompare
      change DftForge.Agent.compareFails h (m.step.tool.getD "") _ = false
      rw [htool]
      exact hsafe.compared htool args hready
    · refine compareFails_of_ne ?_ _
      change m.step.tool.getD "" ≠ _
      rw [htool]
      exact hcompare

theorem Answers.compared {m : Met} {e : Entry} (ha : Answers h m e)
    (hgood : DftForge.Agent.compareFails h e.command.command e.result.json = false)
    (htool : m.step.tool = some "analysis.compare") {args : Dict}
    (hready : prepareStep h m.world m.state m.step.args "analysis.compare" = .ready args) :
    DftForge.Agent.compareFails h "analysis.compare"
      ((m.world.result h "analysis.compare" args).json.map (·.2)) = false := by
  obtain ⟨exit,hexit,rfl⟩ := ha
  have hcalled : execStep h m.world m.state m.step =
      some (.called args (m.world.result h "analysis.compare" args)) := by
    have hguard : checkSelfDoping h m.step.args "analysis.compare" = .passes := rfl
    unfold execStep
    rw [htool]
    dsimp only
    rw [if_neg (by decide), hguard]
    dsimp only
    rw [hready]
  obtain rfl := Option.some.inj (hexit.symm.trans hcalled)
  change DftForge.Agent.compareFails h (m.step.tool.getD "") _ = false at hgood
  rw [htool] at hgood
  exact hgood

end Entries

/-- Where the steps answer well the lists are those of the steps. -/
theorem contained_of_answers {s : SessionState} {steps : List (PlanStep × World)} {log : Log}
    {entries : List Entry} (hcommands : log.commands = entries.map (·.command))
    (hresults : log.results = entries.map (·.result)) (hchain : log.chain = entries.map (·.chain))
    (hanswers : List.Forall₂ (Answers h) (met h 0 s steps) entries)
    (hsteps : (met h 0 s steps).map (fun m => (m.step,m.world)) = steps)
    (hsafe : ∀ m ∈ met h 0 s steps, m.Safe h) : Contained h s steps log := by
  have hlength : entries.length = steps.length := by
    have hmap := congrArg List.length hsteps
    rw [List.length_map] at hmap
    rw [← hanswers.length_eq, hmap]
  have hat : ∀ (i : ℕ) (m : Met), (met h 0 s steps)[i]? = some m → ∃ e : Entry,
      log.commands[i]? = some e.command ∧ log.results[i]? = some e.result ∧ log.chain[i]? = some e.chain ∧
        Answers h m e := by
    intro i m hm
    obtain ⟨hi,hmi⟩ := List.getElem?_eq_some_iff.mp hm
    have hi' : i < entries.length := hanswers.length_eq ▸ hi
    have hanswer := hanswers.get hi hi'
    rw [List.get_eq_getElem, hmi] at hanswer
    refine ⟨entries[i],?_,?_,?_,hanswer⟩
    · rw [hcommands, List.getElem?_map, List.getElem?_eq_getElem hi']
      rfl
    · rw [hresults, List.getElem?_map, List.getElem?_eq_getElem hi']
      rfl
    · rw [hchain, List.getElem?_map, List.getElem?_eq_getElem hi']
      rfl
  refine ⟨by rw [hcommands, List.length_map, hlength],by rw [hresults, List.length_map, hlength],
    by rw [hchain, List.length_map, hlength],?_,?_,?_⟩
  · intro i step w hi
    rw [← hsteps, List.getElem?_map, Option.map_eq_some_iff] at hi
    obtain ⟨m,hm,hpair⟩ := hi
    obtain ⟨e,hc,hr,hch,ha⟩ := hat i m hm
    have hof := ha.of
    rw [(Prod.mk.inj hpair).1] at hof
    exact ⟨e,hc,hr,hch,hof⟩
  · intro m hm
    obtain ⟨i,hi⟩ := List.mem_iff_getElem?.mp hm
    rw [met_index hi, Nat.zero_add]
    exact hat i m hi
  · intro m hm hunusable
    obtain ⟨i,hi⟩ := List.mem_iff_getElem?.mp hm
    obtain ⟨e,hc,hr,hch,ha⟩ := hat i m hi
    rw [met_index hi, Nat.zero_add]
    exact ⟨e,hc,hr,hch,ha.of,ha.failed (hsafe m hm) hunusable⟩

/-- A session returns with its lists aligned exactly when every step it meets has arguments
of the expected shapes. -/
theorem session_contained_iff (s : SessionState) (steps : List (PlanStep × World)) :
    (∃ log, runSession h s steps = some log ∧ Contained h s steps log) ↔ ∀ m ∈ met h 0 s steps, m.Safe h := by
  constructor
  · rintro ⟨log,hrun,_⟩
    obtain ⟨out,hloop,hend⟩ := Option.bind_eq_some_iff.mp hrun
    split_ifs at hend with hcompare
    obtain ⟨entries,hcommands,hresults,_,hanswers,_⟩ := runLoop_log hloop
    have hexec := runLoop_isSome_iff.mp (by rw [hloop]; rfl)
    intro m hm
    refine ⟨execStep_ne_none_iff.mp (hexec m hm),fun htool args hready => ?_⟩
    obtain ⟨i,hi,rfl⟩ := List.mem_iff_getElem.mp hm
    have hi' : i < entries.length := hanswers.length_eq ▸ hi
    refine (hanswers.get hi hi').compared ?_ htool hready
    rw [hcommands, hresults, List.nil_append, List.nil_append, List.zip_map', Bool.not_eq_true,
      List.any_eq_false] at hcompare
    have hgood := hcompare (entries[i].command,entries[i].result)
      (List.mem_map.mpr ⟨entries[i],List.getElem_mem hi',rfl⟩)
    exact Bool.not_eq_true _ |>.mp hgood
  · intro hsafe
    have hsome : (runLoop h 0 s {} steps).isSome = true :=
      runLoop_isSome_iff.mpr fun m hm => execStep_ne_none_iff.mpr (hsafe m hm).shaped
    obtain ⟨log,hloop⟩ := Option.isSome_iff_exists.mp hsome
    obtain ⟨entries,hcommands,hresults,hchain,hanswers,hsteps⟩ := runLoop_log hloop
    rw [List.nil_append] at hcommands hresults hchain
    refine ⟨log,?_,contained_of_answers h hcommands hresults hchain hanswers hsteps hsafe⟩
    rw [runSession, hloop, Option.bind_some, if_neg]
    rw [hcommands, hresults, List.zip_map', Bool.not_eq_true, List.any_eq_false]
    intro pair hpair
    obtain ⟨e,he,rfl⟩ := List.mem_map.mp hpair
    obtain ⟨i,hi,rfl⟩ := List.mem_iff_getElem.mp he
    have hi' : i < (met h 0 s steps).length := hanswers.length_eq ▸ hi
    have hgood := (hanswers.get hi' hi).compareFails (hsafe _ (List.getElem_mem hi'))
    simpa using hgood

/-- Graphene with its dopants given as symbols instead of objects, as a planner may write it. -/
def symbolDopants : PlanStep where
  toolId := some "structure.build2d"
  args := [("kind",.str "graphene"),("dopants",.arr [.str "B"])]

theorem symbol_dopants_abort : ¬ ∀ steps : List (PlanStep × World),
    ∃ log, runSession quietHost ⟨⟨.null,.null⟩,[],[],.null,.null⟩ steps = some log ∧
      Contained quietHost ⟨⟨.null,.null⟩,[],[],.null,.null⟩ steps log := by
  intro hall
  obtain ⟨log,hrun,_⟩ := hall [(symbolDopants,quietWorld)]
  have hexit : execStep quietHost quietWorld ⟨⟨.null,.null⟩,[],[],.null,.null⟩ symbolDopants = none := by
    decide +kernel
  rw [runSession, runLoop, hexit] at hrun
  cases hrun

end DftForge.Agent
