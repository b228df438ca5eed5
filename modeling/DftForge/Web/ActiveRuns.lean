import DftForge.Library.EventRuns
import Mathlib.Data.List.Perm.Basic
import Mathlib.Logic.Basic

/-! # The computations of the web sessions

`chat_stream` checks and registers in `WEB_ACTIVE_RUNS`, `run_action` only checks, and
`chat` does neither. These run on the event loop, where a handler is one step up to its
next await; the deletion of a session and the switch of the backend run in worker
threads, where anything may happen between the check and what follows it, and while the
directory is being removed or the engines are being reset.
-/
namespace DftForge.Web

/-- A request that has been accepted and is not answered, and how far it is. -/
inductive Handled (S : Type*) where
  | chat (s : S)
  | chatStream (s : S)
  | runAction (s : S)
  /-- `delete_session` after its check. -/
  | deleting (s : S)
  /-- `shutil.rmtree` of the session directory. -/
  | removing (s : S)
  /-- `save_compute_config` after its checks. -/
  | saving
  /-- `reset_engine_cache`, which cancels the running executors. -/
  | switching
  deriving DecidableEq

namespace Handled
variable {S : Type*}

/-- The session for which the request computes. -/
def computes : Handled S → Option S
  | .chat s => some s
  | .chatStream s => some s
  | .runAction s => some s
  | _ => none

/-- The session that the request has in `WEB_ACTIVE_RUNS`. -/
def registers : Handled S → Option S
  | .chatStream s => some s
  | _ => none

end Handled

structure Server (S : Type*) where
  /-- The keys of `WEB_ACTIVE_RUNS`. -/
  activeRuns : List S
  requests : List (Handled S)

inductive Event (S : Type*) where
  | chat (s : S)
  | chatStream (s : S)
  | runAction (s : S)
  /-- A computation ends; a streamed one leaves `WEB_ACTIVE_RUNS` in the same step. -/
  | finish (r : Handled S)
  | deleteCheck (s : S)
  | removeBegin (s : S)
  | removeEnd (s : S)
  | configCheck
  | switchBegin
  | switchEnd

namespace Server
variable {S : Type*} [DecidableEq S] (w : Server S)

def idle : Server S := ⟨[],[]⟩

def accept (r : Handled S) : Server S := { w with requests := r :: w.requests }

/-- One step of a handler that accepts its request; a refusal changes nothing. -/
def step : Event S → Server S
  | .chat s => w.accept (.chat s)
  | .chatStream s =>
    if s ∈ w.activeRuns then w
    else { w.accept (.chatStream s) with activeRuns := s :: w.activeRuns }
  | .runAction s => if s ∈ w.activeRuns then w else w.accept (.runAction s)
  | .finish r =>
    if r ∈ w.requests ∧ r.computes.isSome then
      { activeRuns := match r.registers with
          | some s => w.activeRuns.erase s
          | none => w.activeRuns
        requests := w.requests.erase r }
    else w
  | .deleteCheck s => if s ∈ w.activeRuns then w else w.accept (.deleting s)
  | .removeBegin s =>
    if .deleting s ∈ w.requests then { w with requests := .removing s :: w.requests.erase (.deleting s) } else w
  | .removeEnd s => { w with requests := w.requests.erase (.removing s) }
  | .configCheck => if w.activeRuns = [] then w.accept .saving else w
  | .switchBegin =>
    if .saving ∈ w.requests then { w with requests := .switching :: w.requests.erase .saving } else w
  | .switchEnd => { w with requests := w.requests.erase .switching }

/-- The computations of a session. -/
def running (s : S) : List (Handled S) := w.requests.filter (·.computes = some s)

/-- At most one computation for each session, none where the directory is being removed, and none at all
while the backend is being switched. -/
structure Apart : Prop where
  oneEach : ∀ s, (w.running s).length ≤ 1
  removed : ∀ s, .removing s ∈ w.requests → w.running s = []
  switched : .switching ∈ w.requests → ∀ s, w.running s = []

/-- No request of the two endpoints that do not register is being handled for the session. -/
def Unseen (s : S) : Prop := .chat s ∉ w.requests ∧ .runAction s ∉ w.requests

/-- Neither is the directory of the session being removed nor the backend being switched. -/
def Settled (s : S) : Prop := .removing s ∉ w.requests ∧ .switching ∉ w.requests

/-- What the handlers leave to the order of the requests: a chat comes when its session is not registered, and
like every computation that is accepted it comes when no unregistered one is being handled, no removal and no
switch; a removal and a switch begin when nothing has registered since their checks and no unregistered
computation is being handled. -/
def Orderly : Event S → Prop
  | .chat s => s ∉ w.activeRuns ∧ w.Unseen s ∧ w.Settled s
  | .chatStream s => s ∉ w.activeRuns → w.Unseen s ∧ w.Settled s
  | .runAction s => s ∉ w.activeRuns → w.Unseen s ∧ w.Settled s
  | .removeBegin s => .deleting s ∈ w.requests → s ∉ w.activeRuns ∧ w.Unseen s
  | .switchBegin => .saving ∈ w.requests → w.activeRuns = [] ∧ ∀ s, w.Unseen s
  | _ => True

def run (events : List (Event S)) : Server S := events.foldl step idle

/-- The claim for the requests in some order: the computations are apart in every state. -/
def Exclusive (events : List (Event S)) : Prop := Library.Throughout Apart step idle events

/-- Every step of the requests in some order is orderly. -/
def OrderlyRun (events : List (Event S)) : Prop := Library.Each Orderly step idle events

/-- `WEB_ACTIVE_RUNS` shows the streamed computations. -/
def Registered : Prop := w.activeRuns.Perm (w.requests.filterMap Handled.registers)

section Steps
variable {w : Server S} {s : S} {e : Event S}

theorem running_eq_nil_iff : w.running s = [] ↔ ∀ r ∈ w.requests, r.computes ≠ some s := by
  rw [running,List.filter_eq_nil_iff]
  simp

omit [DecidableEq S] in
theorem mem_activeRuns (h : w.Registered) : s ∈ w.activeRuns ↔ .chatStream s ∈ w.requests := by
  rw [h.mem_iff,List.mem_filterMap]
  constructor
  · rintro ⟨r,hr,hs⟩
    cases r with
    | chatStream s' =>
      obtain rfl := Option.some.inj hs
      exact hr
    | _ => cases hs
  · exact fun hr => ⟨_,hr,rfl⟩

/-- A session computes nothing when it is neither registered nor computing unseen. -/
theorem running_eq_nil (h : w.Registered) : w.running s = [] ↔ s ∉ w.activeRuns ∧ w.Unseen s := by
  rw [running_eq_nil_iff,mem_activeRuns h]
  constructor
  · exact fun hnone => ⟨fun hr => hnone _ hr rfl,fun hr => hnone _ hr rfl,fun hr => hnone _ hr rfl⟩
  · rintro ⟨hstream,hchat,haction⟩ r hr hs
    cases r with
    | chat s' => exact hchat (Option.some.inj hs ▸ hr)
    | chatStream s' => exact hstream (Option.some.inj hs ▸ hr)
    | runAction s' => exact haction (Option.some.inj hs ▸ hr)
    | _ => cases hs

theorem running_sublist {w' : Server S} (hsub : w'.requests.Sublist w.requests) (s : S) :
    (w'.running s).Sublist (w.running s) := hsub.filter _

/-- Requests that end keep the others apart. -/
theorem Apart.sublist {w' : Server S} (h : w.Apart) (hsub : w'.requests.Sublist w.requests) : w'.Apart where
  oneEach s := Nat.le_trans (running_sublist hsub s).length_le (h.oneEach s)
  removed s hs := List.sublist_nil.mp (h.removed s (hsub.subset hs) ▸ running_sublist hsub s)
  switched hs s := List.sublist_nil.mp (h.switched (hsub.subset hs) s ▸ running_sublist hsub s)

/-- A computation is accepted. -/
theorem accept_apart {r : Handled S} (h : w.Apart) (hr : r.computes = some s) :
    (w.accept r).Apart ↔ w.running s = [] ∧ w.Settled s := by
  have hself : (w.accept r).running s = r :: w.running s := List.filter_cons_of_pos (by simpa using hr)
  have hother {s' : S} (hne : s' ≠ s) : (w.accept r).running s' = w.running s' :=
    List.filter_cons_of_neg (by simpa [hr] using hne.symm)
  have hmem {r' : Handled S} (hnone : r'.computes = none) : r' ∈ (w.accept r).requests ↔ r' ∈ w.requests :=
    List.mem_cons.trans (or_iff_right fun heq => by rw [heq,hr] at hnone; cases hnone)
  constructor
  · intro happ
    refine ⟨?_,fun hremoving => ?_,fun hswitching => ?_⟩
    · have hone := happ.oneEach s
      rw [hself,List.length_cons] at hone
      exact List.eq_nil_of_length_eq_zero (by omega)
    · have hnone := happ.removed s ((hmem rfl).mpr hremoving)
      rw [hself] at hnone
      cases hnone
    · have hnone := happ.switched ((hmem rfl).mpr hswitching) s
      rw [hself] at hnone
      cases hnone
  · rintro ⟨hnone,hremoving,hswitching⟩
    refine ⟨fun s' => ?_,fun s' hs' => ?_,fun hs' => absurd ((hmem rfl).mp hs') hswitching⟩
    · by_cases heq : s' = s
      · rw [heq,hself,hnone]
        exact Nat.le_refl 1
      · rw [hother heq]
        exact h.oneEach s'
    · have hs' := (hmem rfl).mp hs'
      have hne : s' ≠ s := fun heq => hremoving (heq ▸ hs')
      rw [hother hne]
      exact h.removed s' hs'

/-- A request is accepted that only waits. -/
theorem accept_waiting {r : Handled S} (h : w.Apart) (hr : r.computes = none) (hremoving : ∀ s, r ≠ .removing s)
    (hswitching : r ≠ .switching) : (w.accept r).Apart := by
  have hrunning (s : S) : (w.accept r).running s = w.running s := List.filter_cons_of_neg (by simp [hr])
  have hmem {r' : Handled S} (hne : r ≠ r') : r' ∈ (w.accept r).requests → r' ∈ w.requests :=
    fun hr' => (List.mem_cons.mp hr').resolve_left fun heq => hne heq.symm
  refine ⟨fun s => ?_,fun s hs => ?_,fun hs s => ?_⟩
  · rw [hrunning]
    exact h.oneEach s
  · rw [hrunning]
    exact h.removed s (hmem (hremoving s) hs)
  · rw [hrunning]
    exact h.switched (hmem hswitching hs) s

/-- The request that has passed its check goes on to what it was for. -/
theorem running_replace {r r' : Handled S} (hr : r.computes = none) (hr' : r'.computes = none) (s : S) :
    ({ w with requests := r' :: w.requests.erase r } : Server S).running s = w.running s := by
  rw [running,List.filter_cons_of_neg (by simp [hr']),← List.erase_filter,List.erase_of_not_mem]
  · rfl
  · simp [hr]

theorem removeBegin_apart (h : w.Apart) (hs : .deleting s ∈ w.requests) :
    (w.step (.removeBegin s)).Apart ↔ w.running s = [] := by
  rw [step,if_pos hs]
  have hrunning (s' : S) : ({ w with requests := .removing s :: w.requests.erase (.deleting s) } : Server S).running s' =
      w.running s' := running_replace rfl rfl s'
  constructor
  · intro happ
    exact (hrunning s).symm.trans (happ.removed s List.mem_cons_self)
  · intro hnone
    refine ⟨fun s' => ?_,fun s' hs' => ?_,fun hs' s' => ?_⟩
    · rw [hrunning]
      exact h.oneEach s'
    · rw [hrunning]
      rcases List.mem_cons.mp hs' with heq | hs'
      · rw [Handled.removing.inj heq]
        exact hnone
      · exact h.removed s' (List.mem_of_mem_erase hs')
    · rw [hrunning]
      exact h.switched (List.mem_of_mem_erase ((List.mem_cons.mp hs').resolve_left nofun)) s'

theorem switchBegin_apart (h : w.Apart) (hs : .saving ∈ w.requests) :
    (w.step .switchBegin).Apart ↔ ∀ s, w.running s = [] := by
  rw [step,if_pos hs]
  have hrunning (s' : S) : ({ w with requests := .switching :: w.requests.erase .saving } : Server S).running s' =
      w.running s' := running_replace rfl rfl s'
  constructor
  · intro happ s
    exact (hrunning s).symm.trans (happ.switched List.mem_cons_self s)
  · intro hnone
    refine ⟨fun s' => ?_,fun s' _ => ?_,fun _ s' => ?_⟩
    · rw [hrunning]
      exact h.oneEach s'
    · rw [hrunning]
      exact hnone s'
    · rw [hrunning]
      exact hnone s'

omit [DecidableEq S] in
theorem registered_cons {r : Handled S} (h : w.Registered) (hr : r.registers = none) : (w.accept r).Registered := by
  rw [Registered,accept,List.filterMap_cons_none hr]
  exact h

/-- Taking away a request that is not registered. -/
theorem filterMap_erase {r : Handled S} (hr : r.registers = none) (l : List (Handled S)) :
    (l.erase r).filterMap Handled.registers = l.filterMap Handled.registers := by
  induction l with
  | nil => rfl
  | cons r' l ih =>
    by_cases heq : r' = r
    · rw [heq,List.erase_cons_head,List.filterMap_cons_none hr]
    · rw [List.erase_cons_tail (by simpa using heq),List.filterMap_cons,List.filterMap_cons,ih]

theorem registered_finish {r : Handled S} (h : w.Registered) (hr : r ∈ w.requests) (hcomputes : r.computes.isSome) :
    (w.step (.finish r)).Registered := by
  rw [step,if_pos ⟨hr,hcomputes⟩]
  cases hs : r.registers with
  | none =>
    rw [Registered,filterMap_erase hs]
    exact h
  | some s =>
    have hperm := (h.trans ((List.perm_cons_erase hr).filterMap _)).erase s
    rw [List.filterMap_cons_some hs,List.erase_cons_head] at hperm
    exact hperm

theorem registered_step (h : w.Registered) (e : Event S) : (w.step e).Registered := by
  cases e with
  | chat s => exact registered_cons h rfl
  | chatStream s =>
    rw [step]
    split_ifs
    · exact h
    · exact h.cons s
  | runAction s =>
    rw [step]
    split_ifs
    · exact h
    · exact registered_cons h rfl
  | finish r =>
    by_cases hr : r ∈ w.requests ∧ r.computes.isSome
    · exact registered_finish h hr.1 hr.2
    · rwa [step,if_neg hr]
  | deleteCheck s =>
    rw [step]
    split_ifs
    · exact h
    · exact registered_cons h rfl
  | removeBegin s =>
    rw [step]
    split_ifs
    · rw [Registered,List.filterMap_cons_none rfl,filterMap_erase rfl]
      exact h
    · exact h
  | removeEnd s =>
    rw [step,Registered,filterMap_erase rfl]
    exact h
  | configCheck =>
    rw [step]
    split_ifs
    · exact registered_cons h rfl
    · exact h
  | switchBegin =>
    rw [step]
    split_ifs
    · rw [Registered,List.filterMap_cons_none rfl,filterMap_erase rfl]
      exact h
    · exact h
  | switchEnd =>
    rw [step,Registered,filterMap_erase rfl]
    exact h

/-- A step keeps the computations apart exactly when it is orderly. -/
theorem step_apart (h : w.Registered) (happ : w.Apart) : (w.step e).Apart ↔ w.Orderly e := by
  cases e with
  | chat s =>
    rw [step,accept_apart happ rfl,running_eq_nil h,and_assoc]
    rfl
  | chatStream s =>
    rw [step]
    split_ifs with hs
    · exact iff_of_true happ fun hnot => absurd hs hnot
    · have haccept : (w.accept (.chatStream s)).Apart ↔ _ := accept_apart happ rfl
      rw [running_eq_nil h,and_assoc] at haccept
      have hsame : ({ w.accept (.chatStream s) with activeRuns := s :: w.activeRuns } : Server S).Apart ↔
          (w.accept (.chatStream s)).Apart := ⟨fun hx => ⟨hx.1,hx.2,hx.3⟩,fun hx => ⟨hx.1,hx.2,hx.3⟩⟩
      rw [hsame,haccept]
      exact ⟨fun hboth _ => hboth.2,fun horderly => ⟨hs,horderly hs⟩⟩
  | runAction s =>
    rw [step]
    split_ifs with hs
    · exact iff_of_true happ fun hnot => absurd hs hnot
    · rw [accept_apart happ rfl,running_eq_nil h,and_assoc]
      exact ⟨fun hboth _ => hboth.2,fun horderly => ⟨hs,horderly hs⟩⟩
  | finish r =>
    refine iff_of_true ?_ trivial
    rw [step]
    split_ifs
    · exact happ.sublist List.erase_sublist
    · exact happ
  | deleteCheck s =>
    refine iff_of_true ?_ trivial
    rw [step]
    split_ifs
    · exact happ
    · exact accept_waiting happ rfl nofun nofun
  | removeBegin s =>
    by_cases hs : .deleting s ∈ w.requests
    · rw [removeBegin_apart happ hs,running_eq_nil h]
      exact ⟨fun hboth _ => hboth,fun horderly => horderly hs⟩
    · rw [step,if_neg hs]
      exact iff_of_true happ fun hmem => absurd hmem hs
  | removeEnd s => exact iff_of_true (happ.sublist List.erase_sublist) trivial
  | configCheck =>
    refine iff_of_true ?_ trivial
    rw [step]
    split_ifs
    · exact accept_waiting happ rfl nofun nofun
    · exact happ
  | switchBegin =>
    by_cases hs : .saving ∈ w.requests
    · rw [switchBegin_apart happ hs]
      simp only [running_eq_nil h,forall_and,← List.eq_nil_iff_forall_not_mem]
      exact ⟨fun hboth _ => hboth,fun horderly => horderly hs⟩
    · rw [step,if_neg hs]
      exact iff_of_true happ fun hmem => absurd hmem hs
  | switchEnd => exact iff_of_true (happ.sublist List.erase_sublist) trivial

omit [DecidableEq S] in
theorem registered_idle : (idle : Server S).Registered := List.Perm.refl []

theorem apart_idle : (idle : Server S).Apart := ⟨fun _ => Nat.zero_le 1,fun _ _ => rfl,fun _ _ => rfl⟩

end Steps
end Server

/-- Requests in some order keep the computations apart exactly when each step of them
is orderly. -/
theorem exclusive_iff {S : Type*} [DecidableEq S] (events : List (Event S)) :
    Server.Exclusive events ↔ Server.OrderlyRun events :=
  Library.throughout_iff_each Server.Registered Server.registered_idle
    (fun _ e h => Server.registered_step h e) Server.apart_idle (fun _ _ h happ => Server.step_apart h happ) events

/-- A chat and a streamed chat of one session are both accepted; a streamed chat slips in between the check of a
deletion and the removal, or comes while the directory is being removed; and a chat is not seen by the switch. -/
theorem requests_collide :
    ¬Server.Exclusive [.chat "s",.chatStream "s"] ∧
    ¬Server.Exclusive [.deleteCheck "s",.chatStream "s",.removeBegin "s"] ∧
    ¬Server.Exclusive [.deleteCheck "s",.removeBegin "s",.chatStream "s"] ∧
    ¬Server.Exclusive [.chat "s",.configCheck,.switchBegin] := by
  refine ⟨fun h => ?_,fun h => ?_,fun h => ?_,fun h => ?_⟩
  · have hone := (h _ [] (List.append_nil _).symm).oneEach "s"
    revert hone
    decide
  · have hremoved := (h _ [] (List.append_nil _).symm).removed "s" (by decide)
    revert hremoved
    decide
  · have hremoved := (h _ [] (List.append_nil _).symm).removed "s" (by decide)
    revert hremoved
    decide
  · have hswitched := (h _ [] (List.append_nil _).symm).switched (by decide) "s"
    revert hswitched
    decide

end DftForge.Web
