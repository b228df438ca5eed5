import DftForge.Hpc.JobLife

/-! # What the job registry guarantees

A fetch succeeds only for a job that has ended, `cancel_all` leaves out no job that has
not, and no running call completes a job whose cancel succeeded. The three hold in every
run that keeps away from what breaks them: a job that the scheduler reports as pending, an
unknown job, a live job that a cancel does not end or that `submit` or a running call gives
up (the poll deadline passes while it runs), a call that launches its job after the cancel,
and one that is told of its success after the cancel or is already downloading.
-/
namespace DftForge.Hpc
open DftForge.Library DftForge.Runtime DftForge.Python

variable (tr : Transport) (scheduled : Bool)

/-- The state string a running call writes on an answer. -/
def Jobs.written (s : Jobs) (tool : ℕ) (answer : Answer) : Option String :=
  s.tools[tool]?.bind fun t => (toolStep tr t.job scheduled t.stage answer).2

/-- What the life cycle promises of one step. -/
def Sound (s : Jobs) : Op → Prop
  | .fetch id raises => s.fetch id raises = true → ∃ a, s.record id = some a ∧ (s.heap a).phase = .ended
  | .cancelAll accepted =>
    ∀ e ∈ s.registry, (s.heap e.2).phase ≠ .ended → e.1 ∈ (s.cancelAll scheduled accepted).2
  | .toolAnswer tool answer => ∀ t, s.tools[tool]? = some t → (s.heap t.address).cancelled = true →
      s.written tr scheduled tool answer ≠ some "completed"
  | _ => True

/-- The answers after which a call goes on to its download. -/
def Succeeds (t : InFlight) (answer : Answer) : Prop :=
  ∃ schedId, (toolStep tr t.job scheduled t.stage answer).1 = .downloading schedId

/-- The phase of the job of an id, or that of a new record. -/
def Jobs.phaseOf (s : Jobs) (id : JobId) : Phase := ((s.record id).map fun a => (s.heap a).phase).getD .staged

/-- A live job is ended by the cancel, and where the cancel returns true no call is downloading the outputs. -/
def Cancellable (s : Jobs) (accepted : Bool) (a : ℕ) : Prop :=
  ((s.heap a).phase = .live → accepted = true) ∧
    ((viaScheduler scheduled (s.heap a).record = true → accepted = true) →
      ∀ t ∈ s.tools, t.address = a → ∀ schedId, t.stage ≠ .downloading schedId)

/-- A call that writes a state has no live job, one that learns that its job is live has a live record, and
one whose job was cancelled is not told of its success. -/
structure Attended (s : Jobs) (t : InFlight) (answer : Answer) : Prop where
  given : (toolStep tr t.job scheduled t.stage answer).2.isSome →
    heardAnswer tr scheduled t.stage answer (s.heap t.address).phase ≠ .live
  launched : heardAnswer tr scheduled t.stage answer (s.heap t.address).phase = .live →
    (s.heap t.address).record.state ∈ liveStates ∨ (s.heap t.address).record.state = "pending"
  told : (s.heap t.address).cancelled = true → (∀ schedId, t.stage ≠ .downloading schedId) →
    ¬Succeeds tr scheduled t answer

/-- The condition on a step. -/
def Meets (s : Jobs) : Op → Prop
  | .submit id outcome => outcome.state tr ∉ liveStates → outcome.heard tr (s.phaseOf id) ≠ .live
  | .fetch id _ => ∃ a, s.record id = some a ∧ (s.heap a).record.state ≠ "pending"
  | .cancel id accepted => ∀ a, s.record id = some a → Cancellable scheduled s accepted a
  | .cancelAll accepted => ∀ e ∈ s.registry, (s.heap e.2).record.state ≠ "pending" ∧
      ((s.heap e.2).record.state ∈ liveStates →
        ∀ a, s.record e.1 = some a → Cancellable scheduled s (accepted e.1) a)
  | .toolAnswer tool answer => ∀ t, s.tools[tool]? = some t → Attended tr scheduled s t answer
  | _ => True

/-- A record that is neither live nor pending belongs to a job that has ended. -/
def Cell.Honest (c : Cell) : Prop :=
  c.record.state ∉ liveStates → c.record.state ≠ "pending" → c.phase = .ended

structure Jobs.Inv (s : Jobs) : Prop where
  honest : ∀ a, (s.heap a).Honest
  fetching : ∀ t ∈ s.tools, ∀ schedId, t.stage = .downloading schedId → (s.heap t.address).cancelled = false
  bounded : ∀ e ∈ s.registry, e.2 < s.next
  injective : ∀ e ∈ s.registry, ∀ e' ∈ s.registry, e.2 = e'.2 → e.1 = e'.1

theorem Cell.honest_default : Cell.Honest {} := fun hlive => absurd (List.mem_cons_self) hlive

theorem Cell.honest_of_live {c : Cell} (h : c.record.state ∈ liveStates ∨ c.record.state = "pending") :
    c.Honest := fun hlive hpending => (h.elim hlive hpending).elim

theorem Cell.honest_of_ended {c : Cell} (h : c.phase = .ended) : c.Honest := fun _ _ => h

theorem Cell.Honest.live_or_pending {c : Cell} (h : c.Honest) (hphase : c.phase ≠ .ended) :
    c.record.state ∈ liveStates ∨ c.record.state = "pending" := by
  by_contra hnot
  obtain ⟨hlive,hpending⟩ := not_or.mp hnot
  exact hphase (h hlive hpending)

theorem Phase.giveUp_ended {phase : Phase} (h : phase ≠ .live) : phase.giveUp = .ended := by
  cases phase with
  | live => exact absurd rfl h
  | _ => rfl

theorem Phase.giveUp_ne_live {phase : Phase} (h : phase.giveUp ≠ .live) : phase.giveUp = .ended := by
  cases phase with
  | live => exact absurd rfl h
  | _ => rfl

theorem mem_setEntry {id : JobId} {a : ℕ} {l : List (JobId × ℕ)} {e : JobId × ℕ}
    (h : e ∈ setEntry id a l) : e = (id,a) ∨ e ∈ l := by
  induction l with
  | nil => exact .inl (List.mem_singleton.mp h)
  | cons kv rest ih =>
    obtain ⟨k,b⟩ := kv
    unfold setEntry at h
    split_ifs at h with hk
    · rcases List.mem_cons.mp h with h | h
      · exact .inl h
      · exact .inr (List.mem_cons_of_mem _ h)
    · rcases List.mem_cons.mp h with h | h
      · exact .inr (h ▸ List.mem_cons_self)
      · rcases ih h with h | h
        · exact .inl h
        · exact .inr (List.mem_cons_of_mem _ h)

theorem mem_of_record {s : Jobs} {id : JobId} {a : ℕ} (h : s.record id = some a) : (id,a) ∈ s.registry := by
  obtain ⟨before,after,hl,_⟩ := List.lookup_eq_some_iff.mp h
  rw [hl]
  exact List.mem_append_right before List.mem_cons_self

theorem lookup_setEntry (id : JobId) (a : ℕ) (l : List (JobId × ℕ)) : (setEntry id a l).lookup id = some a := by
  induction l with
  | nil => simp [setEntry]
  | cons kv rest ih =>
    obtain ⟨k,b⟩ := kv
    unfold setEntry
    split_ifs with hk
    · simp
    · rw [List.lookup_cons,beq_false_of_ne (Ne.symm hk)]
      exact ih

theorem Jobs.phaseOf_setDefault {s : Jobs} {id : JobId} {a : ℕ} (h : (s.setDefault id).record id = some a) :
    ((s.setDefault id).heap a).phase = s.phaseOf id := by
  unfold Jobs.setDefault at h ⊢
  unfold Jobs.phaseOf
  cases hrec : s.record id with
  | some b =>
    rw [hrec,Option.isSome_some,if_pos rfl] at h
    obtain rfl := Option.some.inj (hrec.symm.trans h)
    rfl
  | none =>
    rw [hrec,Option.isSome_none,if_neg Bool.false_ne_true] at h
    obtain rfl : s.next = a := Option.some.inj ((lookup_setEntry id s.next s.registry).symm.trans h)
    simp [Jobs.stage]

/-- What `submit` gives up has ended, unless it is live. -/
theorem SubmitOutcome.heard_ended {outcome : SubmitOutcome} {phase : Phase} (hstate : outcome.state tr ∉ liveStates)
    (h : outcome.heard tr phase ≠ .live) : outcome.heard tr phase = .ended := by
  cases outcome with
  | scheduler ok schedId =>
    cases ok with
    | true => exact absurd (List.mem_cons_of_mem _ List.mem_cons_self) hstate
    | false => exact Phase.giveUp_ne_live h
  | direct res =>
    rw [heard] at h ⊢
    split_ifs at h ⊢
    · rfl
    · exact absurd rfl h
  | _ => exact Phase.giveUp_ne_live h

theorem Cell.cancel_phase (c : Cell) (ok : Bool) {accepted : Bool} (h : c.phase = .live → accepted = true) :
    (c.cancel ok accepted).phase = .ended := by
  cases accepted with
  | true => rfl
  | false => exact Phase.giveUp_ended fun hlive => Bool.false_ne_true (h hlive)

namespace Jobs.Inv
variable {s : Jobs}

/-- A change of one record that leaves its history of cancels alone. -/
theorem update (h : s.Inv) (a : ℕ) {f : Cell → Cell} (hf : (f (s.heap a)).Honest)
    (hcancel : (f (s.heap a)).cancelled = (s.heap a).cancelled) : (s.update a f).Inv where
  honest b := by
    by_cases hb : b = a
    · subst hb
      simpa [Jobs.update] using hf
    · simpa [Jobs.update,hb] using h.honest b
  fetching t ht schedId hst := by
    have := h.fetching t ht schedId hst
    by_cases hb : t.address = a
    · rw [hb] at this
      simpa [Jobs.update,hb,hcancel] using this
    · simpa [Jobs.update,hb] using this
  bounded := h.bounded
  injective := h.injective

theorem stage (h : s.Inv) (id : JobId) : (s.stage id).Inv where
  honest b := by
    by_cases hb : b = s.next
    · subst hb
      simpa [Jobs.stage] using Cell.honest_default
    · simpa [Jobs.stage,hb] using h.honest b
  fetching t ht schedId hst := by
    by_cases hb : t.address = s.next
    · simp [Jobs.stage,hb]
    · simpa [Jobs.stage,hb] using h.fetching t ht schedId hst
  bounded e he := by
    rcases mem_setEntry he with rfl | he
    · exact Nat.lt_succ_self _
    · exact Nat.lt_succ_of_lt (h.bounded e he)
  injective e he e' he' heq := by
    rcases mem_setEntry he with rfl | hm <;> rcases mem_setEntry he' with rfl | hm'
    · rfl
    · exact absurd heq.symm (Nat.ne_of_lt (h.bounded e' hm'))
    · exact absurd heq (Nat.ne_of_lt (h.bounded e hm))
    · exact h.injective e hm e' hm' heq

theorem setDefault (h : s.Inv) (id : JobId) : (s.setDefault id).Inv := by
  unfold Jobs.setDefault
  split_ifs
  · exact h
  · exact h.stage id

theorem submit (h : s.Inv) {id : JobId} {outcome : SubmitOutcome}
    (hm : outcome.state tr ∉ liveStates → outcome.heard tr (s.phaseOf id) ≠ .live) :
    (s.submit tr id outcome).Inv := by
  unfold Jobs.submit
  have hs := h.setDefault id
  cases hrec : (s.setDefault id).record id with
  | none => simpa [hrec] using hs
  | some a =>
    have hput {s' : Jobs} (h : s'.Inv) (hphase : (s'.heap a).phase = s.phaseOf id) :
        (s'.update a fun c => (c.hear (outcome.heard tr)).put (outcome.state tr)).Inv := by
      refine h.update a (fun hlive _ => ?_) rfl
      have hgone := SubmitOutcome.heard_ended tr hlive (hm hlive)
      rw [← hphase] at hgone
      exact hgone
    have hphase := Jobs.phaseOf_setDefault hrec
    cases outcome with
    | scheduler ok schedId =>
      have hid := hs.update a (f := (·.setSchedId schedId)) (hs.honest a) rfl
      simpa [hrec] using hput hid (by simpa [Jobs.update,Cell.setSchedId] using hphase)
    | inputMissing => simpa [hrec] using hput hs hphase
    | uploadFailed => simpa [hrec] using hput hs hphase
    | direct res => simpa [hrec] using hput hs hphase

theorem status (h : s.Inv) (id : JobId) (answer : Option JobStatus) :
    (s.status scheduled id answer).1.Inv := by
  unfold Jobs.status
  cases hrec : s.record id with
  | none => exact h
  | some a =>
    by_cases hvia : viaScheduler scheduled (s.heap a).record = true
    · cases answer with
      | none => simpa [hvia] using h
      | some status =>
        simp only [hvia,if_true]
        refine h.update a ?_ rfl
        cases status with
        | pending => exact Cell.honest_of_live (.inr rfl)
        | running => exact Cell.honest_of_live (.inl (List.mem_cons_of_mem _ (List.mem_cons_of_mem _ List.mem_cons_self)))
        | _ => exact Cell.honest_of_ended rfl
    · simpa [hvia] using h

theorem cancel (h : s.Inv) {id : JobId} {accepted : Bool}
    (hc : ∀ a, s.record id = some a → Cancellable scheduled s accepted a) :
    (s.cancel scheduled id accepted).1.Inv := by
  unfold Jobs.cancel
  cases hrec : s.record id with
  | none => exact h
  | some a =>
    obtain ⟨hended,hfree⟩ := hc a hrec
    refine ⟨fun b => ?_,fun t ht schedId hst => ?_,h.bounded,h.injective⟩
    · by_cases hb : b = a
      · subst hb
        have hphase := Cell.cancel_phase (s.heap b) (!viaScheduler scheduled (s.heap b).record || accepted) hended
        exact Cell.honest_of_ended (by simpa [Jobs.update] using hphase)
      · simpa [Jobs.update,hb] using h.honest b
    · by_cases ha : t.address = a
      · -- a call is downloading, so the cancel has not returned true
        have hok : (!viaScheduler scheduled (s.heap a).record || accepted) = false := by
          by_contra hok
          rw [Bool.not_eq_false,Bool.or_eq_true,Bool.not_eq_true'] at hok
          refine hfree (fun hvia => ?_) t ht ha schedId hst
          exact hok.resolve_left (by rw [hvia]; decide)
        have hbefore := h.fetching t ht schedId hst
        rw [ha] at hbefore
        simp [Jobs.update,ha,Cell.cancel,hok,hbefore]
      · simpa [Jobs.update,ha] using h.fetching t ht schedId hst

end Jobs.Inv

section CancelAll
variable {scheduled} {s : Jobs} {accepted : JobId → Bool}

theorem cancel_registry (id : JobId) (ok : Bool) : (s.cancel scheduled id ok).1.registry = s.registry := by
  unfold Jobs.cancel
  cases s.record id <;> rfl

theorem cancel_tools (id : JobId) (ok : Bool) : (s.cancel scheduled id ok).1.tools = s.tools := by
  unfold Jobs.cancel
  cases s.record id <;> rfl

/-- A cancel changes one record, and there only the state. -/
theorem cancel_record (scheduled : Bool) (s : Jobs) (id : JobId) (ok : Bool) (a : ℕ) :
    ((s.cancel scheduled id ok).1.heap a).record = (s.heap a).record ∨
      (s.record id = some a ∧ ((s.cancel scheduled id ok).1.heap a).record =
        { (s.heap a).record with state := "cancelled" }) := by
  unfold Jobs.cancel
  cases hrec : s.record id with
  | none => exact .inl rfl
  | some b =>
    by_cases hb : a = b
    · subst hb
      exact .inr ⟨rfl,by simp [Jobs.update,Cell.cancel]⟩
    · exact .inl (by simp [Jobs.update,hb])

/-- A cancel makes no job live. -/
theorem live_of_cancel (id : JobId) (ok : Bool) {a : ℕ}
    (h : ((s.cancel scheduled id ok).1.heap a).phase = .live) : (s.heap a).phase = .live := by
  unfold Jobs.cancel at h
  cases hrec : s.record id with
  | none => rwa [hrec] at h
  | some b =>
    rw [hrec] at h
    by_cases hb : a = b
    · subst hb
      have hphase : (if ok then Phase.ended else (s.heap a).phase.giveUp) = .live := by
        simpa [Jobs.update,Cell.cancel] using h
      split_ifs at hphase
      cases hlive : (s.heap a).phase with
      | live => rfl
      | _ => rw [hlive] at hphase; cases hphase
    · simpa [Jobs.update,hb] using h

/-- Every live entry of the list can be cancelled. -/
def Clear (scheduled : Bool) (accepted : JobId → Bool) (l : List (JobId × ℕ)) (s : Jobs) : Prop :=
  ∀ e ∈ l, (s.heap e.2).record.state ∈ liveStates →
    ∀ a, s.record e.1 = some a → Cancellable scheduled s (accepted e.1) a

theorem Clear.cancel {l : List (JobId × ℕ)} (h : Clear scheduled accepted l s) (id : JobId) (ok : Bool) :
    Clear scheduled accepted l (s.cancel scheduled id ok).1 := by
  intro e he hlive a hrec
  have hlive' : (s.heap e.2).record.state ∈ liveStates := by
    rcases cancel_record scheduled s id ok e.2 with hsame | ⟨_,hnew⟩
    · rwa [hsame] at hlive
    · rw [hnew] at hlive
      simp [liveStates] at hlive
  have hrec' : s.record e.1 = some a := by rwa [Jobs.record,cancel_registry] at hrec
  obtain ⟨hended,hfree⟩ := h e he hlive' a hrec'
  have hphase : ((s.cancel scheduled id ok).1.heap a).phase = .live → (s.heap a).phase = .live :=
    live_of_cancel id ok
  have hvia : viaScheduler scheduled ((s.cancel scheduled id ok).1.heap a).record =
      viaScheduler scheduled (s.heap a).record := by
    rcases cancel_record scheduled s id ok a with hsame | ⟨_,hnew⟩
    · rw [hsame]
    · rw [hnew]; rfl
  exact ⟨fun hl => hended (hphase hl),by rwa [hvia,cancel_tools]⟩

theorem cancelEach_inv {l : List (JobId × ℕ)} (h : s.Inv) (hclear : Clear scheduled accepted l s) :
    (Jobs.cancelEach scheduled accepted l s).1.Inv := by
  induction l generalizing s with
  | nil => exact h
  | cons e rest ih =>
    obtain ⟨id,a⟩ := e
    unfold Jobs.cancelEach
    have hrest : Clear scheduled accepted rest s := fun e he => hclear e (List.mem_cons_of_mem _ he)
    split_ifs with hlive
    · have hc := hclear (id,a) List.mem_cons_self hlive
      exact ih (h.cancel scheduled hc) (hrest.cancel id _)
    · exact ih h hrest

theorem cancelEach_attempts {l : List (JobId × ℕ)} (h : ∀ e ∈ l, e ∈ s.registry)
    (hinj : ∀ e ∈ s.registry, ∀ e' ∈ s.registry, e.2 = e'.2 → e.1 = e'.1)
    {e : JobId × ℕ} (he : e ∈ l) (hlive : (s.heap e.2).record.state ∈ liveStates) :
    e.1 ∈ (Jobs.cancelEach scheduled accepted l s).2 := by
  induction l generalizing s with
  | nil => cases he
  | cons head rest ih =>
    obtain ⟨id,a⟩ := head
    have hrest : ∀ e ∈ rest, e ∈ s.registry := fun e he => h e (List.mem_cons_of_mem _ he)
    unfold Jobs.cancelEach
    rcases List.mem_cons.mp he with rfl | hmem
    · rw [if_pos hlive]
      exact List.mem_cons_self
    · split_ifs with hhead
      · rcases cancel_record scheduled s id (accepted id) e.2 with hsame | ⟨hrec,_⟩
        · refine List.mem_cons_of_mem _ (ih ?_ ?_ hmem ?_)
          · simpa only [cancel_registry] using hrest
          · simpa only [cancel_registry] using hinj
          · rwa [hsame]
        · have hid := hinj e (h e he) (id,e.2) (mem_of_record hrec) rfl
          rw [hid]
          exact List.mem_cons_self
      · exact ih hrest hinj hmem hlive

end CancelAll

namespace Jobs.Inv
variable {tr scheduled} {s : Jobs}

theorem cancelAll (h : s.Inv) {accepted : JobId → Bool}
    (hm : Meets tr scheduled s (.cancelAll accepted)) : (s.cancelAll scheduled accepted).1.Inv :=
  cancelEach_inv h fun e he => (hm e he).2

theorem toolStart (h : s.Inv) (id : JobId) (job : ToolCall) : (s.toolStart id job).Inv := by
  have hlive : "running" ∈ liveStates := by decide
  have hs := (h.stage id).update s.next (f := (·.put "running")) (Cell.honest_of_live (.inl hlive)) rfl
  refine ⟨hs.honest,fun t ht schedId hst => ?_,hs.bounded,hs.injective⟩
  rcases List.mem_append.mp ht with ht | ht
  · exact hs.fetching t ht schedId hst
  · rw [List.mem_singleton.mp ht] at hst
    cases hst

/-- A running call writes `failed`, `timeout`, or at the end of its download `completed`. -/
theorem toolStep_written {job : ToolCall} {stage : Stage} {answer : Answer} {state : String}
    (h : (toolStep tr job scheduled stage answer).2 = some state) :
    state = "failed" ∨ state = "timeout" ∨ (state = "completed" ∧ ∃ schedId, stage = .downloading schedId) := by
  cases stage with
  | uploading =>
    cases answer with
    | upload outcome =>
      cases outcome with
      | error message => exact .inl (Option.some.inj h).symm
      | ok _ => cases h
    | _ => cases h
  | submitting =>
    cases answer with
    | submit ok message schedId =>
      cases ok with
      | true => cases h
      | false => exact .inl (Option.some.inj h).symm
    | _ => cases h
  | polling schedId =>
    cases answer with
    | poll status =>
      rcases status with _ | status
      · cases h
      · cases status with
        | pending => cases h
        | running => cases h
        | completed => cases h
        | _ => exact .inl (Option.some.inj h).symm
    | deadline => exact .inr (.inl (Option.some.inj h).symm)
    | _ => cases h
  | running =>
    cases answer with
    | run res =>
      cases hok : (runDirect tr job res).ok with
      | true => simp [toolStep,afterRun,hok] at h
      | false =>
        simp only [toolStep,afterRun,hok] at h
        exact .inl (Option.some.inj h).symm
    | _ => cases h
  | downloading schedId =>
    cases answer with
    | download outcome =>
      cases outcome with
      | error message => exact .inl (Option.some.inj h).symm
      | ok _ => exact .inr (.inr ⟨(Option.some.inj h).symm,schedId,rfl⟩)
    | _ => cases h
  | returned result => cases answer <;> cases h

theorem noteSchedId_state (c : Cell) (stage : Stage) (answer : Answer) :
    (Jobs.noteSchedId stage answer c).record.state = c.record.state := by
  unfold Jobs.noteSchedId
  split <;> rfl

theorem noteSchedId_phase (c : Cell) (stage : Stage) (answer : Answer) :
    (Jobs.noteSchedId stage answer c).phase = c.phase := by
  unfold Jobs.noteSchedId
  split <;> rfl

theorem noteSchedId_cancelled (c : Cell) (stage : Stage) (answer : Answer) :
    (Jobs.noteSchedId stage answer c).cancelled = c.cancelled := by
  unfold Jobs.noteSchedId
  split <;> rfl

/-- No answer takes a job back to where it has not been started. -/
theorem staged_of_heard {stage : Stage} {answer : Answer} {phase : Phase}
    (h : heardAnswer tr scheduled stage answer phase = .staged) : phase = .staged := by
  have hgive {phase : Phase} (h : phase.giveUp = .staged) : phase = .staged := by cases phase <;> cases h
  unfold heardAnswer at h
  split at h
  · split_ifs at h
    exact h
  · exact hgive h
  · split_ifs at h
    exact hgive h
  · rw [Phase.reported] at h
    split_ifs at h
  · exact hgive h
  · split_ifs at h
    exact h
  · exact hgive h
  · exact h

/-- Where a call writes a state it has heard the end of its job, gives it up, or leaves it live. -/
theorem heardAnswer_ended {job : ToolCall} {stage : Stage} {answer : Answer} {phase : Phase}
    (hw : (toolStep tr job scheduled stage answer).2.isSome) (h : heardAnswer tr scheduled stage answer phase ≠ .live) :
    heardAnswer tr scheduled stage answer phase = .ended := by
  unfold toolStep at hw
  split at hw
  case h_1 outcome =>
    cases outcome with
    | error message => exact Phase.giveUp_ne_live h
    | ok _ => cases hw
  case h_2 ok message schedId =>
    cases ok with
    | true => cases hw
    | false => exact Phase.giveUp_ne_live h
  case h_3 schedId status =>
    cases status with
    | none => cases hw
    | some status =>
      rw [heardAnswer,Phase.reported] at h ⊢
      split_ifs at h ⊢
      · rfl
      · exact absurd rfl h
  case h_4 => exact Phase.giveUp_ne_live h
  case h_5 res =>
    cases hmarker : reportedExit tr.unicode res.stdout with
    | some code => simp [heardAnswer,hmarker]
    | none =>
      have hok : (runDirect tr job res).ok = true := by simp [runDirect,CommandResult.ok,hmarker]
      rw [afterRun,hok] at hw
      cases hw
  case h_6 => exact Phase.giveUp_ne_live h
  case h_7 => cases hw

theorem writeAnswer_tools (t : InFlight) (answer : Answer) (written : Option String) :
    (s.writeAnswer tr scheduled t answer written).tools = s.tools := by
  unfold Jobs.writeAnswer
  cases written <;> rfl

theorem writeAnswer_cancelled (t : InFlight) (answer : Answer) (written : Option String) (b : ℕ) :
    ((s.writeAnswer tr scheduled t answer written).heap b).cancelled = (s.heap b).cancelled := by
  unfold Jobs.writeAnswer
  by_cases hb : b = t.address
  · subst hb
    cases written <;> simp [Jobs.update,Cell.put,Cell.hear,noteSchedId_cancelled]
  · cases written <;> simp [Jobs.update,hb]

theorem writeAnswer (h : s.Inv) {t : InFlight} {answer : Answer} (hm : Attended tr scheduled s t answer) :
    (s.writeAnswer tr scheduled t answer (toolStep tr t.job scheduled t.stage answer).2).Inv := by
  have hphase : ((Jobs.noteSchedId t.stage answer (s.heap t.address)).hear
      (heardAnswer tr scheduled t.stage answer)).phase =
        heardAnswer tr scheduled t.stage answer (s.heap t.address).phase := by
    rw [Cell.hear,noteSchedId_phase]
  have hnote (hhonest : Cell.Honest _) := h.update t.address
    (f := fun c => (Jobs.noteSchedId t.stage answer c).hear (heardAnswer tr scheduled t.stage answer))
    hhonest (noteSchedId_cancelled _ _ _)
  unfold Jobs.writeAnswer
  cases hw : (toolStep tr t.job scheduled t.stage answer).2 with
  | none =>
    refine hnote ?_
    cases hheard : heardAnswer tr scheduled t.stage answer (s.heap t.address).phase with
    | ended => exact Cell.honest_of_ended (hphase.trans hheard)
    | live =>
      refine Cell.honest_of_live ?_
      rw [Cell.hear,noteSchedId_state]
      exact hm.launched hheard
    | staged =>
      have hstaged := staged_of_heard hheard
      refine Cell.honest_of_live ?_
      rw [Cell.hear,noteSchedId_state]
      exact (h.honest t.address).live_or_pending (by rw [hstaged]; decide)
  | some state =>
    have hended := heardAnswer_ended (by rw [hw]; rfl) (hm.given (by rw [hw]; rfl))
    have hhonest := Cell.honest_of_ended (hphase.trans hended)
    refine (hnote hhonest).update t.address (f := (·.put state)) (Cell.honest_of_ended ?_) rfl
    simpa [Jobs.update,Cell.put] using hphase.trans hended

theorem toolAnswer (h : s.Inv) {tool : ℕ} {answer : Answer}
    (hm : Meets tr scheduled s (.toolAnswer tool answer)) : (s.toolAnswer tr scheduled tool answer).Inv := by
  unfold Jobs.toolAnswer
  cases ht : s.tools[tool]? with
  | none => exact h
  | some t =>
    have hmem : t ∈ s.tools := List.mem_of_getElem? ht
    have hw := h.writeAnswer (hm t ht)
    have hnew : ∀ schedId, (toolStep tr t.job scheduled t.stage answer).1 = .downloading schedId →
        (s.heap t.address).cancelled = false := by
      intro schedId hst
      by_contra hc
      rw [Bool.not_eq_false] at hc
      have hold : ∀ schedId, t.stage ≠ .downloading schedId := fun schedId hold => by
        rw [h.fetching t hmem schedId hold] at hc
        cases hc
      exact (hm t ht).told hc hold ⟨schedId,hst⟩
    refine ⟨hw.honest,fun t' ht' schedId hst => ?_,hw.bounded,hw.injective⟩
    refine (writeAnswer_cancelled t answer _ t'.address).trans ?_
    have htools : t' ∈ s.tools.set tool { t with stage := (toolStep tr t.job scheduled t.stage answer).1 } := by
      have := ht'
      simp only [writeAnswer_tools] at this
      exact this
    rcases List.mem_or_eq_of_mem_set htools with hold | rfl
    · exact h.fetching t' hold schedId hst
    · exact hnew schedId hst

theorem step (h : s.Inv) {op : Op} (hm : Meets tr scheduled s op) : (s.step tr scheduled op).Inv := by
  cases op with
  | stage id => exact h.stage id
  | submit id outcome => exact h.submit tr hm
  | status id answer => exact h.status scheduled id answer
  | fetch id raises => exact h
  | cancel id accepted => exact h.cancel scheduled hm
  | cancelAll accepted => exact h.cancelAll hm
  | toolStart id job => exact h.toolStart id job
  | toolAnswer tool answer => exact h.toolAnswer hm

theorem sound (h : s.Inv) {op : Op} (hm : Meets tr scheduled s op) : Sound tr scheduled s op := by
  cases op with
  | fetch id raises =>
    intro hfetch
    obtain ⟨a,hrec,hpending⟩ := hm
    simp only [Jobs.fetch,hrec,Bool.and_eq_true,decide_eq_true_eq] at hfetch
    exact ⟨a,hrec,h.honest a hfetch.1 hpending⟩
  | cancelAll accepted =>
    intro e he hphase
    refine cancelEach_attempts (fun e he => he) h.injective he ?_
    exact ((h.honest e.2).live_or_pending hphase).resolve_right (hm e he).1
  | toolAnswer tool answer =>
    intro t ht hcancelled hw
    rw [Jobs.written,ht,Option.bind_some] at hw
    rcases toolStep_written hw with hw | hw | ⟨_,schedId,hst⟩
    · exact absurd hw (by decide)
    · exact absurd hw (by decide)
    · rw [h.fetching t (List.mem_of_getElem? ht) schedId hst] at hcancelled
      cases hcancelled
  | _ => trivial

end Jobs.Inv

end DftForge.Hpc
