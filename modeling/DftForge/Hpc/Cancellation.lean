import DftForge.Library.EventRuns
import DftForge.Hpc.LocalTool

/-! # Who ended a cancelled run

A local run is reported as cancelled when its child has died of a signal. `cancel_all`
is one sender of signals among others, so the report is right for the runs whose child
dies of a signal just when `cancel_all` ended it.
-/
namespace DftForge.Hpc.Local
open DftForge.Library DftForge.Python DftForge.Hpc

namespace Call
variable (c : Call)

/-- `cancel_all` terminated the child while it was running. -/
def Cancelled : Prop := ∃ e, c.ending = some e ∧ e.cause = .killed .cancelAll

/-- The result says so exactly when it happened. -/
def Attributed : Prop :=
  ∀ r, c.phase = .returned r → (r.errorMessage = c.request.cancelledMessage ↔ c.Cancelled)

/-- The child died of a signal, or it failed and all it wrote to stderr are the words of a
cancellation. -/
def Signalled (e : Ending) : Prop :=
  e.returncode < 0 ∨ 0 < e.returncode ∧ e.stderr.take 1000 = c.request.cancelledMessage

/-- Of a call about to return: a child that ended in time did so by a signal exactly when
`cancel_all` ended it, and a child that was late was not ended by `cancel_all`. -/
def Told : Prop :=
  match c.phase, c.ending with
  | .collected _, some e => c.Signalled e ↔ e.cause = .killed .cancelAll
  | .expired, some e => e.cause ≠ .killed .cancelAll
  | _, _ => True

/-- What a call knows about its child in each phase. -/
def Good : Prop :=
  match c.phase with
  | .collected cancelled => ∃ e, c.ending = some e ∧ cancelled = wasCancelled e
  | .expired => c.ending ≠ none
  | .returned _ => c.child = none ∨ c.ending ≠ none
  | _ => True

end Call

/-- Every result returned so far is attributed correctly. -/
def Host.Attributed (h : Host) : Prop := ∀ c ∈ h.calls, c.Attributed

/-- An event that lets a call return finds a child whose end tells who caused it. -/
def Host.Told (h : Host) : Event → Prop
  | .finish k _ => ∀ c, h.calls[k]? = some c → c.Told
  | _ => True

def Host.Good (h : Host) : Prop := ∀ c ∈ h.calls, c.Good

section Messages
variable {q : Request}

theorem cancelledMessage_ne_nil : q.cancelledMessage ≠ [] := by
  simp [Request.cancelledMessage]

theorem timedOut_not_cancelled {limit : Text} :
    q.tool.binary.toList ++ " timed out after ".toList ++ limit ++ "s".toList ≠ q.cancelledMessage := by
  rw [Request.cancelledMessage,List.append_assoc,List.append_assoc,Ne,List.append_cancel_left_eq]
  intro h
  simp at h

theorem binary_head (t : Tool) : t.binary.toList.head? ∈ [some 'p',some 'b',some 'd'] := by
  cases t <;> simp [Tool.binary]

/-- No message of a call without a child is that of a cancellation. -/
theorem opening_not_cancelled :
    q.inputMissing.errorMessage ≠ q.cancelledMessage ∧ q.binaryMissing.errorMessage ≠ q.cancelledMessage ∧
      ∀ e, (q.launchFailed e).errorMessage ≠ q.cancelledMessage := by
  have hbinary := binary_head q.tool
  have hhead (t : Text) (ht : t.head? ∉ [some 'p',some 'b',some 'd']) (hne : t ≠ []) :
      t ≠ q.cancelledMessage := by
    rintro rfl
    rw [Request.cancelledMessage,List.head?_append_of_ne_nil] at ht
    · exact ht hbinary
    · intro hnil
      simp [hnil] at hbinary
  refine ⟨hhead _ ?_ ?_,hhead _ ?_ ?_,fun e => hhead _ ?_ ?_⟩ <;>
    simp [Request.inputMissing,Request.binaryMissing,Request.launchFailed]

end Messages

section Calls
variable {c c' : Call}

/-- Of a child that has come to its end, the report says a cancellation for a signal. -/
theorem report_cancelled_iff (e : Ending) (outputFiles : List String) :
    (c.request.report e (wasCancelled e) outputFiles).errorMessage = c.request.cancelledMessage ↔
      c.Signalled e := by
  rw [Request.report,wasCancelled,Call.Signalled]
  by_cases hneg : e.returncode < 0
  · simp [hneg]
  · by_cases hzero : e.returncode = 0
    · simp [hzero,cancelledMessage_ne_nil.symm]
    · have hpos : 0 < e.returncode := by omega
      simp [hneg,hzero,hpos]

/-- A step of some thread that leaves the call where it is. -/
structure Kept (c c' : Call) : Prop where
  request : c'.request = c.request
  phase : c'.phase = c.phase
  child : c'.child = none ↔ c.child = none
  ending : c'.ending = c.ending

theorem Kept.refl (c : Call) : Kept c c := ⟨rfl,rfl,Iff.rfl,rfl⟩

theorem Kept.good (h : Kept c c') (hg : c.Good) : c'.Good := by
  simpa only [Call.Good,h.phase,h.ending,h.child] using hg

theorem Kept.attributed (h : Kept c c') (ha : c.Attributed) : c'.Attributed := by
  simpa only [Call.Attributed,Call.Cancelled,h.request,h.phase,h.ending] using ha

theorem kept_reap : Kept c c.reap := by
  refine ⟨rfl,rfl,by simp [Call.reap],?_⟩
  cases hchild : c.child <;> simp [Call.ending,Call.reap,hchild]

theorem kept_receive (pid : ℕ) (killer : Killer) (signal : Signal) :
    Kept c (c.receive pid killer signal) := by
  rw [Call.receive]
  split_ifs
  · refine ⟨rfl,rfl,by simp,?_⟩
    cases hchild : c.child <;> simp [Call.ending,hchild]
  · exact Kept.refl c

/-- The phases in which a call has not seen the end of its child. -/
def Early : Phase → Prop
  | .launched | .communicating | .stopping _ | .draining => True
  | .collected _ | .expired | .returned _ => False

/-- What one event can do to a call that does not return at it. -/
inductive Advance (c c' : Call) : Prop
  | kept (h : Kept c c')
  | early (h : Early c'.phase)
  | ended (hphase : c'.phase = c.phase) (hchild : c.child ≠ none) (hopen : c.ending = none)
  | collected (e : Ending) (hphase : c'.phase = .collected (wasCancelled e)) (hend : c'.ending = some e)
  | expired (hphase : c'.phase = .expired) (hend : c'.ending ≠ none)

theorem Advance.good (h : Advance c c') (hg : c.Good) : c'.Good := by
  cases h with
  | kept h => exact h.good hg
  | early h =>
    unfold Call.Good
    cases hphase : c'.phase <;> simp_all [Early]
  | ended hphase hchild hopen =>
    unfold Call.Good at hg ⊢
    rw [hphase]
    cases hc : c.phase <;> simp_all
  | collected e hphase hend =>
    unfold Call.Good
    rw [hphase]
    exact ⟨e,hend,rfl⟩
  | expired hphase hend =>
    unfold Call.Good
    rw [hphase]
    exact hend

theorem Advance.attributed (h : Advance c c') (hg : c.Good) (ha : c.Attributed) : c'.Attributed := by
  cases h with
  | kept h => exact h.attributed ha
  | early h =>
    intro r hr
    rw [hr] at h
    exact h.elim
  | ended hphase hchild hopen =>
    intro r hr
    rw [hphase] at hr
    unfold Call.Good at hg
    rw [hr] at hg
    exact absurd hopen (hg.resolve_left hchild)
  | collected e hphase hend =>
    intro r hr
    rw [hphase] at hr
    cases hr
  | expired hphase hend =>
    intro r hr
    rw [hphase] at hr
    cases hr

theorem advance_setPhase {phase : Phase} (h : Early phase) : Advance c (c'.setPhase phase) := .early h

theorem advance_finishChild (e : Ending) : Advance c (c.finishChild e) := by
  cases hchild : c.child with
  | none =>
    exact .kept ⟨rfl,rfl,by simp [Call.finishChild,hchild],
      by simp [Call.finishChild,Call.ending,hchild]⟩
  | some child =>
    by_cases hrunning : child.ending = none
    · exact .ended rfl (by simp [hchild]) (by simpa [Call.ending,hchild] using hrunning)
    · refine .kept ⟨rfl,rfl,by simp [Call.finishChild],?_⟩
      simp [Call.finishChild,Call.ending,hchild,Child.running,Option.isNone_iff_eq_none,hrunning]

theorem advance_communicated : Advance c c.communicated := by
  unfold Call.communicated
  split
  · next e hphase hend => exact .collected e rfl (kept_reap.ending.trans hend)
  · next e hphase hend =>
    exact .expired rfl fun hnone => by cases hnone.symm.trans (kept_reap.ending.trans hend)
  · exact .kept (Kept.refl c)

theorem advance_registered : Advance c c.registered := by
  unfold Call.registered
  split
  · exact advance_setPhase trivial
  · exact .kept (Kept.refl c)

theorem advance_timeoutExpired : Advance c c.timeoutExpired := by
  unfold Call.timeoutExpired
  split
  · exact advance_setPhase trivial
  · exact .kept (Kept.refl c)

theorem finish_eq_self (hcollected : ∀ cancelled, c.phase ≠ .collected cancelled)
    (hexpired : c.phase ≠ .expired) (outputFiles : List String) : c.finish outputFiles = c := by
  unfold Call.finish
  split
  · next cancelled e hphase hend => exact absurd hphase (hcollected cancelled)
  · next e hphase hend => exact absurd hphase hexpired
  · rfl

theorem good_finish (hg : c.Good) (outputFiles : List String) : (c.finish outputFiles).Good := by
  unfold Call.finish
  split
  · next cancelled e hphase hend => exact .inr fun hnone => by cases hnone.symm.trans hend
  · next e hphase hend => exact .inr fun hnone => by cases hnone.symm.trans hend
  · exact hg

/-- A call returns the right word about its child exactly when the end of the child tells. -/
theorem attributed_finish (hg : c.Good) (ha : c.Attributed) (outputFiles : List String) :
    (c.finish outputFiles).Attributed ↔ c.Told := by
  have hcancelled {e : Ending} (hend : c.ending = some e) : c.Cancelled ↔ e.cause = .killed .cancelAll := by
    simp [Call.Cancelled,hend]
  have hreturned {r : JobResult} :
      (c.setPhase (.returned r)).Attributed ↔ (r.errorMessage = c.request.cancelledMessage ↔ c.Cancelled) :=
    ⟨fun h => h r rfl,fun h r' hr => by cases hr; exact h⟩
  unfold Call.Told
  cases hphase : c.phase with
  | collected cancelled =>
    unfold Call.Good at hg
    rw [hphase] at hg
    obtain ⟨e,hend,rfl⟩ := hg
    simp only [Call.finish,hphase,hend]
    rw [hreturned,report_cancelled_iff,hcancelled hend]
  | expired =>
    unfold Call.Good at hg
    rw [hphase] at hg
    obtain ⟨e,hend⟩ := Option.ne_none_iff_exists'.mp hg
    simp only [Call.finish,hphase,hend]
    rw [hreturned,hcancelled hend,Request.timedOut,iff_false_left timedOut_not_cancelled]
  | _ =>
    rw [finish_eq_self (by simp [hphase]) (by simp [hphase])]
    exact iff_of_true ha trivial

end Calls

section Hosts
variable {h : Host}

theorem mem_modify {α : Type*} {l : List α} {k : ℕ} {f : α → α} {x : α} (hx : x ∈ l.modify k f) :
    x ∈ l ∨ ∃ a ∈ l, x = f a := by
  obtain ⟨i,hi,rfl⟩ := List.mem_iff_getElem.mp hx
  rw [List.getElem_modify]
  split_ifs
  · exact .inr ⟨_,List.getElem_mem _,rfl⟩
  · exact .inl (List.getElem_mem _)

theorem forall_mem_modify_iff {α : Type*} {P : α → Prop} {l : List α} (hall : ∀ a ∈ l, P a) (k : ℕ)
    (f : α → α) : (∀ x ∈ l.modify k f, P x) ↔ ∀ a, l[k]? = some a → P (f a) := by
  constructor
  · intro h a hk
    refine h _ (List.mem_of_getElem? (i := k) ?_)
    rw [List.getElem?_modify_eq,hk]
    rfl
  · intro h x hx
    obtain ⟨i,hi⟩ := List.mem_iff_getElem?.mp hx
    rw [List.getElem?_modify] at hi
    obtain ⟨a,ha,rfl⟩ := Option.map_eq_some_iff.mp hi
    split_ifs with hik
    · exact h a (hik ▸ ha)
    · exact hall a (List.mem_of_getElem? ha)

/-- Each call of the second list is a right one, or comes from the first list. -/
def Advances (l l' : List Call) : Prop :=
  ∀ c' ∈ l', c'.Good ∧ c'.Attributed ∨ ∃ c ∈ l, Advance c c'

theorem advances_modify {f : Call → Call} (hf : ∀ c, Advance c (f c)) (k : ℕ) :
    Advances h.calls (h.modify k f).calls := by
  intro c' hc'
  rcases mem_modify hc' with hmem | ⟨c,hc,rfl⟩
  · exact .inr ⟨c',hmem,.kept (Kept.refl c')⟩
  · exact .inr ⟨c,hc,hf c⟩

theorem kept_modify_reap (k : ℕ) : ∀ c' ∈ (h.modify k (·.reap)).calls, ∃ c ∈ h.calls, Kept c c' := by
  intro c' hc'
  rcases mem_modify hc' with hmem | ⟨c,hc,rfl⟩
  · exact ⟨c',hmem,Kept.refl c'⟩
  · exact ⟨c,hc,kept_reap⟩

theorem kept_signal (child : Option Child) (killer : Killer) (signal : Signal) :
    ∀ c' ∈ ((child.map fun child => h.signal child.pid killer signal).getD h).calls,
      ∃ c ∈ h.calls, Kept c c' := by
  intro c' hc'
  cases child with
  | none => exact ⟨c',hc',Kept.refl c'⟩
  | some child =>
    obtain ⟨c,hc,rfl⟩ := List.mem_map.mp hc'
    exact ⟨c,hc,kept_receive child.pid killer signal⟩

/-- `_terminate_group` leaves every call where it is. -/
theorem kept_terminateGroup (killer : Killer) (k : ℕ) (late : Bool) (stage : Stage) :
    ∀ c' ∈ (h.terminateGroup killer k late stage).1.calls, ∃ c ∈ h.calls, Kept c c' := by
  have hself : ∀ c' ∈ h.calls, ∃ c ∈ h.calls, Kept c c' := fun c' hc' => ⟨c',hc',Kept.refl c'⟩
  cases stage with
  | poll =>
    rw [Host.terminateGroup]
    split_ifs
    · exact kept_modify_reap k
    · exact hself
  | sigterm => exact kept_signal (h.child? k) killer .sigterm
  | grace =>
    rw [Host.terminateGroup]
    split_ifs
    · exact hself
    · exact kept_modify_reap k
    · exact hself
  | sigkill => exact kept_signal (h.child? k) killer .sigkill
  | last =>
    rw [Host.terminateGroup]
    split_ifs
    · exact hself
    · exact kept_modify_reap k
    · exact hself

theorem advances_of_kept {l l' : List Call} (hkept : ∀ c' ∈ l', ∃ c ∈ l, Kept c c') : Advances l l' :=
  fun c' hc' => .inr ((hkept c' hc').imp fun _ hc => ⟨hc.1,.kept hc.2⟩)

theorem advances_stop {h' : Host} (hkept : ∀ c' ∈ h'.calls, ∃ c ∈ h.calls, Kept c c') (k : ℕ)
    (phase : Phase) (hphase : Early phase) : Advances h.calls (h'.modify k (·.setPhase phase)).calls := by
  intro c' hc'
  rcases mem_modify hc' with hmem | ⟨a,ha,rfl⟩
  · exact advances_of_kept hkept c' hmem
  · obtain ⟨c,hc,-⟩ := hkept a ha
    exact .inr ⟨c,hc,advance_setPhase hphase⟩

theorem advances_opened (q : Request) (opening : Opening) :
    Advances h.calls (h.calls ++ h.opened q opening) := by
  intro c' hc'
  rcases List.mem_append.mp hc' with hmem | hmem
  · exact .inr ⟨c',hmem,.kept (Kept.refl c')⟩
  · left
    have hclosed (r : JobResult) (hr : r.errorMessage ≠ q.cancelledMessage) :
        (⟨q,none,.returned r⟩ : Call).Good ∧ (⟨q,none,.returned r⟩ : Call).Attributed := by
      refine ⟨.inl rfl,fun r' hr' => ?_⟩
      cases hr'
      exact iff_of_false hr (by simp [Call.Cancelled,Call.ending])
    obtain ⟨hinput,hbinary,hlaunch⟩ := opening_not_cancelled (q := q)
    cases opening with
    | noInput => exact List.mem_singleton.mp hmem ▸ hclosed _ hinput
    | noBinary => exact List.mem_singleton.mp hmem ▸ hclosed _ hbinary
    | failed e => exact List.mem_singleton.mp hmem ▸ hclosed _ (hlaunch e)
    | child pid =>
      rw [Host.opened] at hmem
      split_ifs at hmem
      · simp at hmem
      · rw [List.mem_singleton.mp hmem]
        exact ⟨trivial,fun r hr => by cases hr⟩

/-- Only `finish` lets a call with a child return. -/
theorem advances_step (e : Event) (he : ∀ k outputFiles, e ≠ .finish k outputFiles) :
    Advances h.calls (h.step e).calls := by
  have hself : Advances h.calls h.calls := advances_of_kept fun c' hc' => ⟨c',hc',Kept.refl c'⟩
  cases e with
  | runTool q opening => exact advances_opened q opening
  | register k => exact advances_modify (fun _ => advance_registered) k
  | ends k e => exact advances_modify (fun _ => advance_finishChild e) k
  | communicated k => exact advances_modify (fun _ => advance_communicated) k
  | timeoutExpired k => exact advances_modify (fun _ => advance_timeoutExpired) k
  | stop k late =>
    rw [Host.step]
    split
    · next stage hk =>
      have hkept := kept_terminateGroup (h := h) .timeout k late stage
      split
      · next h' next hterm => exact advances_stop (by simpa [hterm] using hkept) k (.stopping next) trivial
      · next h' hterm => exact advances_stop (by simpa [hterm] using hkept) k .draining trivial
    · exact hself
  | finish k outputFiles => exact absurd rfl (he k outputFiles)
  | cancelAll =>
    refine advances_of_kept fun c' hc' => ?_
    obtain ⟨k,hk,rfl⟩ := List.mem_mapIdx.mp hc'
    refine ⟨h.calls[k],List.getElem_mem hk,?_⟩
    split_ifs
    · exact kept_reap
    · exact Kept.refl _
  | sweep j late =>
    rw [Host.step]
    split
    · next k rest stage count hj =>
      have hkept := kept_terminateGroup (h := h) .cancelAll k late stage
      split
      · next h' next hterm => exact advances_of_kept (by simpa [hterm] using hkept)
      · next h' hterm => exact advances_of_kept (by simpa [hterm] using hkept)
    · exact hself

theorem good_step (hg : h.Good) (e : Event) : (h.step e).Good := by
  cases e with
  | finish k outputFiles =>
    exact (forall_mem_modify_iff hg k _).mpr fun c hk =>
      good_finish (hg c (List.mem_of_getElem? hk)) outputFiles
  | _ =>
    intro c' hc'
    rcases advances_step _ (by simp) c' hc' with hnew | ⟨c,hc,hadvance⟩
    · exact hnew.1
    · exact hadvance.good (hg c hc)

/-- A step keeps every result right exactly when the call that returns at it has a child
whose end tells. -/
theorem attributed_step (hg : h.Good) (ha : h.Attributed) (e : Event) :
    (h.step e).Attributed ↔ h.Told e := by
  cases e with
  | finish k outputFiles =>
    refine (forall_mem_modify_iff ha k _).trans (forall₂_congr fun c hk => ?_)
    have hc := List.mem_of_getElem? hk
    exact attributed_finish (hg c hc) (ha c hc) outputFiles
  | _ =>
    refine iff_of_true (fun c' hc' => ?_) trivial
    rcases advances_step _ (by simp) c' hc' with hnew | ⟨c,hc,hadvance⟩
    · exact hnew.2
    · exact hadvance.attributed (hg c hc) (ha c hc)

/-- Every result of a run says that it was cancelled exactly when `cancel_all` terminated
its process, as long as the end of each process that is reported on tells who caused it. -/
theorem cancellation_attributed_iff (events : List Event) :
    Throughout Host.Attributed Host.step Host.idle events ↔ Each Host.Told Host.step Host.idle events := by
  refine throughout_iff_each Host.Good ?_ (fun _ e hg => good_step hg e) ?_
    (fun _ e hg ha => attributed_step hg ha e) events
  · intro c hc
    cases hc
  · intro c hc
    cases hc

def sampleRequest : Request :=
  { tool := .pw, inputFile := "/w/si.in".toList, binPath := "/qe/pw.x".toList, workdir := "/w".toList
    limit := "3600".toList }

/-- A run whose process ends of its own with a status, and is then reported on. -/
def endedRun (returncode : ℤ) : List Event :=
  [.runTool sampleRequest (.child 100),.register 0,.ends 0 ⟨.itself,returncode,[],[]⟩,
    .communicated 0,.finish 0 []]

/-- A segmentation fault and a SIGKILL of the system are reported as cancellations. -/
theorem crash_called_cancelled :
    ¬Throughout Host.Attributed Host.step Host.idle (endedRun (-11)) ∧
    ¬Throughout Host.Attributed Host.step Host.idle (endedRun (-9)) := by
  refine ⟨fun h => ?_,fun h => ?_⟩ <;>
  · have hreport := h _ [] (List.append_nil _).symm _ (List.mem_singleton.mpr rfl) _ rfl
    exact absurd (hreport.mp rfl) (by rintro ⟨e,hend,hcause⟩; cases hend; cases hcause)

end Hosts

end DftForge.Hpc.Local
