import DftForge.Web.NewestFigures
import DftForge.Library.EventRuns

/-! # The conversations of the web sessions

A session is a dictionary in `WEB_SESSION_CTX`, under its id, and a file. A request keeps the
dictionary it was given, whatever becomes of the entry; `_load_session` looks for the entry, reads
the file and makes the entry, `delete_session` drops the entry before it removes the directory, and
both can run in worker threads, between any two steps of the others. The event loop appends the messages of a turn
one by one and writes the file after it has made the copy, with no await in between: no other step of
the loop comes there, but those of the threads do. The process can end between any two steps.
-/
namespace DftForge.Web
open DftForge.Library DftForge.Runtime DftForge.Engines DftForge.Agent

/-- How far a request is with its session. -/
inductive Request where
  | idle
  /-- It has found no entry. -/
  | missing
  /-- What was read, before it is entered. -/
  | loading (data : Dict)
  | holds (address : ℕ)

/-- What the event loop is in the middle of. -/
inductive Loop where
  | idle
  /-- A request appends its turn, and has appended these messages. -/
  | saying (r address : ℕ) (said : List Json)
  /-- `_save_session` has made its copy. -/
  | saving (copy : Dict)

/-- The messages of an unfinished turn in a dictionary. -/
def Loop.begun (address : ℕ) : Loop → List Json
  | .saying _ a said => if a = address then said else []
  | _ => []

/-- One session: the entry in memory, the dictionaries it has had, the file, and the requests. -/
structure Desk where
  memory : Option ℕ := none
  objects : ℕ → Dict := fun _ => []
  made : ℕ := 0
  disk : Option Dict := none
  requests : ℕ → Request := fun _ => .idle
  loop : Loop := .idle
  /-- The turns in the order in which they ended, to say what is kept of them. -/
  turns : List (List Json) := []

inductive Action where
  /-- `_load_session` looks for the entry. -/
  | lookUp (r : ℕ)
  /-- The file is read, which may fail. -/
  | read (r : ℕ) (now : ℚ) (readable : Bool)
  /-- The entry is made of what was read. -/
  | publish (r : ℕ)
  /-- A message of a turn is appended, its last one or not. -/
  | say (r : ℕ) (message : Json) (last : Bool)
  /-- Another field of the session is set. -/
  | edit (r : ℕ) (key : String) (v : Json) (other : key ≠ "messages")
  /-- `_save_session` up to the copy. -/
  | copy (r : ℕ)
  /-- The file is replaced, or stays if it cannot be written. -/
  | write (written : Bool)
  /-- The first half of `delete_session`. -/
  | forget
  /-- The second half. -/
  | remove

def freshSession (now : ℚ) : Dict :=
  [("ctx",.obj []),("messages",.arr []),("created_at",.num now),("title",.str "")]

namespace Desk
variable (w : Desk)

def setRequest (r : ℕ) (q : Request) : Desk := { w with requests := Function.update w.requests r q }

def setObject (address : ℕ) (session : Dict) : Desk :=
  { w with objects := Function.update w.objects address session }

/-- What `_load_session` finds in the file; a file that it cannot read counts as none. -/
def stored (now : ℚ) (readable : Bool) : Dict :=
  match w.disk with
  | some data => if readable then withoutCancelEvent data else freshSession now
  | none => freshSession now

def lookUp (r : ℕ) : Desk :=
  match w.memory with
  | some address => w.setRequest r (.holds address)
  | none => w.setRequest r .missing

def read (r : ℕ) (now : ℚ) (readable : Bool) : Desk :=
  match w.requests r with
  | .missing => w.setRequest r (.loading (w.stored now readable))
  | _ => w

def publish (r : ℕ) : Desk :=
  match w.requests r with
  | .loading data =>
    { (w.setObject w.made data).setRequest r (.holds w.made) with memory := some w.made, made := w.made + 1 }
  | _ => w

/-- The message stands in the dictionary; after the last one the turn has ended. -/
def append (r address : ℕ) (said : List Json) (message : Json) (last : Bool) : Desk :=
  let w := w.setObject address ((w.objects address).set "messages" (.arr (messagesOf (w.objects address) ++ [message])))
  if last then { w with loop := .idle, turns := w.turns ++ [said ++ [message]] }
  else { w with loop := .saying r address (said ++ [message]) }

def say (r : ℕ) (message : Json) (last : Bool) : Desk :=
  match w.loop, w.requests r with
  | .idle, .holds address => w.append r address [] message last
  | .saying r' address said, _ => if r' = r then w.append r address said message last else w
  | _, _ => w

def edit (r : ℕ) (key : String) (v : Json) : Desk :=
  match w.loop, w.requests r with
  | .idle, .holds address => w.setObject address ((w.objects address).set key v)
  | _, _ => w

/-- It is the entry that is copied, not what the request holds. -/
def copy (r : ℕ) : Desk :=
  match w.loop, w.requests r, w.memory with
  | .idle, .holds _, some address =>
    match slimForDisk (w.objects address) with
    | .ok copy => { w with loop := .saving copy }
    | .error _ => w
  | _, _, _ => w

def write (written : Bool) : Desk :=
  match w.loop with
  | .saving copy => { w with loop := .idle, disk := if written then some copy else w.disk }
  | _ => w

def act : Action → Desk
  | .lookUp r => w.lookUp r
  | .read r now readable => w.read r now readable
  | .publish r => w.publish r
  | .say r message last => w.say r message last
  | .edit r key v _ => w.edit r key v
  | .copy r => w.copy r
  | .write written => w.write written
  | .forget => { w with memory := none }
  | .remove => { w with disk := none }

/-- The process ends, and another begins with the file alone. -/
def restart : Desk := { disk := w.disk, turns := w.turns }

end Desk

inductive DeskEvent (S : Type*) where
  | step (s : S) (a : Action)
  | restart

/-- One step of the server with all its sessions. -/
def deskStep {S : Type*} [DecidableEq S] (w : S → Desk) : DeskEvent S → S → Desk
  | .step s a => Function.update w s ((w s).act a)
  | .restart => fun s => (w s).restart

def conversations {S : Type*} [DecidableEq S] (events : List (DeskEvent S)) : S → Desk :=
  events.foldl deskStep fun _ => {}

section Words

/-- A message but for its results, which the file does not keep in full. -/
def words : Json → Json
  | .obj msg => .obj (pop msg "results")
  | v => v

def wordsOf (session : Dict) : List Json := (messagesOf session).map words

theorem pop_set_self (d : Dict) (key : String) (v : Json) : pop (d.set key v) key = pop d key := by
  induction d with
  | nil => simp [Dict.set,pop]
  | cons kv rest ih =>
    by_cases hk : kv.1 = key
    · rw [Dict.set,if_pos hk]
      simp [pop,hk]
    · rw [Dict.set,if_neg hk,pop,pop,List.filter_cons_of_pos (by simp [hk]),List.filter_cons_of_pos (by simp [hk])]
      exact congrArg (kv :: ·) ih

theorem words_withResults (rs : List Json) (msg : Json) : words (withResults rs msg) = words msg := by
  cases msg with
  | obj msg =>
    rw [withResults]
    split_ifs
    · rw [words,words,pop_set_self]
    · rfl
  | _ => rfl

theorem words_oldestMessages (messages : List Json) :
    (oldestMessages messages).map words = messages.map words := by
  induction messages with
  | nil => rfl
  | cons msg later ih => rw [oldestMessages,List.map_cons,List.map_cons,words_withResults,ih]

theorem messagesOf_set (d : Dict) (messages : List Json) : messagesOf (d.set "messages" (.arr messages)) = messages := by
  rw [messagesOf,arrAt_set_self,Option.getD_some]

theorem messagesOf_set_of_ne {d : Dict} {key : String} (h : key ≠ "messages") (v : Json) :
    messagesOf (d.set key v) = messagesOf d := by
  rw [messagesOf,messagesOf,arrAt,arrAt,Dict.get?_set_of_ne (Ne.symm h)]

theorem messagesOf_withoutCancelEvent (d : Dict) : messagesOf (withoutCancelEvent d) = messagesOf d := by
  rw [messagesOf,arrAt_withoutCancelEvent,messagesOf]

/-- The copy on disk says what the session says. -/
theorem wordsOf_slim {session copy : Dict} (h : slimForDisk session = .ok copy) : wordsOf copy = wordsOf session := by
  obtain ⟨-,rfl⟩ := slimForDisk_eq_ok.mp h
  unfold wordsOf oldestOnly
  simp only [arrAt_withoutCancelEvent]
  cases hmessages : arrAt session "messages" with
  | none =>
    simp only
    rw [messagesOf_withoutCancelEvent]
  | some messages =>
    simp only
    rw [messagesOf_set,words_oldestMessages,messagesOf,hmessages,Option.getD_some]

theorem withoutCancelEvent_of_slim {session copy : Dict} (h : slimForDisk session = .ok copy) :
    withoutCancelEvent copy = copy := by
  obtain ⟨-,rfl⟩ := slimForDisk_eq_ok.mp h
  exact withoutCancelEvent_oldestOnly

end Words

section Whole

/-- A session says whole turns, each at most once and in their order, and then the messages of a turn
that has not ended. -/
def Whole (turns : List (List Json)) (said : List Json) (session : Dict) : Prop :=
  ∃ kept : List (List Json), kept.Sublist turns ∧ wordsOf session = (kept.flatten ++ said).map words

variable {turns : List (List Json)} {said : List Json} {session : Dict}

theorem Whole.of_wordsOf {session' : Dict} (h : Whole turns said session) (heq : wordsOf session' = wordsOf session) :
    Whole turns said session' := by
  obtain ⟨kept,hkept,hwords⟩ := h
  exact ⟨kept,hkept,heq.trans hwords⟩

theorem Whole.mono (h : Whole turns said session) (turn : List Json) : Whole (turns ++ [turn]) said session := by
  obtain ⟨kept,hkept,hwords⟩ := h
  exact ⟨kept,hkept.trans (List.sublist_append_left turns [turn]),hwords⟩

theorem Whole.say (h : Whole turns said session) (message : Json) :
    Whole turns (said ++ [message]) (session.set "messages" (.arr (messagesOf session ++ [message]))) := by
  obtain ⟨kept,hkept,hwords⟩ := h
  refine ⟨kept,hkept,?_⟩
  rw [wordsOf,messagesOf_set,List.map_append,← wordsOf,hwords,← List.map_append,List.append_assoc]

/-- The last message of a turn ends it. -/
theorem Whole.ended (h : Whole turns said session) : Whole (turns ++ [said]) [] session := by
  obtain ⟨kept,hkept,hwords⟩ := h
  refine ⟨kept ++ [said],hkept.append (List.Sublist.refl _),?_⟩
  rw [hwords,List.flatten_append,List.flatten_singleton,List.append_nil]

theorem whole_fresh (now : ℚ) : Whole turns [] (freshSession now) := ⟨[],List.nil_sublist turns,rfl⟩

/-- A request has read whole turns, which could be saved again, or holds a dictionary that was made. -/
def Request.Fits (w : Desk) : Request → Prop
  | .loading data => Whole w.turns [] data ∧ ∃ copy, slimForDisk data = .ok copy
  | .holds address => address < w.made
  | _ => True

/-- The loop appends to a dictionary that was made, or has copied whole turns. -/
def Loop.Fits (w : Desk) : Loop → Prop
  | .idle => True
  | .saying _ address _ => address < w.made
  | .saving copy => Whole w.turns [] copy ∧ slimForDisk copy = .ok copy

/-- What a request and the loop have stays fit when more is made or said. -/
theorem Request.Fits.mono {w w' : Desk} {q : Request} (h : q.Fits w) (hmade : w.made ≤ w'.made)
    (hturns : ∀ session, Whole w.turns [] session → Whole w'.turns [] session) : q.Fits w' := by
  cases q with
  | loading data => exact ⟨hturns _ h.1,h.2⟩
  | holds address => exact Nat.lt_of_lt_of_le h hmade
  | _ => trivial

theorem Loop.Fits.mono {w w' : Desk} {l : Loop} (h : l.Fits w) (hmade : w.made ≤ w'.made)
    (hturns : ∀ session, Whole w.turns [] session → Whole w'.turns [] session) : l.Fits w' := by
  cases l with
  | idle => trivial
  | saying _ address _ => exact Nat.lt_of_lt_of_le h hmade
  | saving copy => exact ⟨hturns _ h.1,h.2⟩

/-- Whatever of a session exists says whole turns, but for the one that is being appended. -/
structure Desk.Sound (w : Desk) : Prop where
  memory : ∀ address ∈ w.memory, address < w.made
  requests : ∀ r, (w.requests r).Fits w
  loop : w.loop.Fits w
  objects : ∀ address < w.made, Whole w.turns (w.loop.begun address) (w.objects address)
  disk : ∀ data ∈ w.disk, Whole w.turns [] data ∧ slimForDisk data = .ok data

namespace Desk.Sound
variable {w : Desk}

theorem empty : Sound {} := ⟨by simp,fun _ => trivial,trivial,fun _ h => absurd h (Nat.not_lt_zero _),by simp⟩

theorem setRequest (h : w.Sound) {r : ℕ} {q : Request} (hq : q.Fits w) : (w.setRequest r q).Sound := by
  refine ⟨h.memory,fun r' => ?_,h.loop,h.objects,h.disk⟩
  unfold Desk.setRequest
  by_cases heq : r' = r
  · subst heq
    simp only [Function.update_self]
    exact hq
  · simp only [Function.update_of_ne heq]
    exact h.requests r'

theorem setObject (h : w.Sound) {address : ℕ} {session : Dict}
    (hsession : Whole w.turns (w.loop.begun address) session) : (w.setObject address session).Sound := by
  refine ⟨h.memory,h.requests,h.loop,fun other hother => ?_,h.disk⟩
  unfold Desk.setObject
  by_cases heq : other = address
  · subst heq
    simp only [Function.update_self]
    exact hsession
  · simp only [Function.update_of_ne heq]
    exact h.objects other hother

theorem lookUp (h : w.Sound) (r : ℕ) : (w.lookUp r).Sound := by
  unfold Desk.lookUp
  cases hmemory : w.memory with
  | some address => exact h.setRequest (q := .holds address) (h.memory address hmemory)
  | none => exact h.setRequest (q := .missing) trivial

/-- What is read are whole turns, or none. -/
theorem stored (h : w.Sound) (now : ℚ) (readable : Bool) : (Request.loading (w.stored now readable)).Fits w := by
  unfold Desk.stored
  cases hdisk : w.disk with
  | none => exact ⟨whole_fresh now,_,rfl⟩
  | some data =>
    cases readable with
    | false => exact ⟨whole_fresh now,_,rfl⟩
    | true =>
      obtain ⟨hwhole,hslim⟩ := h.disk data hdisk
      refine ⟨hwhole.of_wordsOf (congrArg (List.map words) (messagesOf_withoutCancelEvent data)),data,?_⟩
      exact (congrArg slimForDisk (withoutCancelEvent_of_slim hslim)).trans hslim

theorem read (h : w.Sound) (r : ℕ) (now : ℚ) (readable : Bool) : (w.read r now readable).Sound := by
  unfold Desk.read
  split
  · exact h.setRequest (h.stored now readable)
  · exact h

theorem begun_made (h : w.Sound) : w.loop.begun w.made = [] := by
  have hloop := h.loop
  cases hw : w.loop with
  | saying r address said =>
    rw [hw] at hloop
    exact if_neg (Nat.ne_of_lt hloop)
  | _ => rfl

/-- A dictionary is made of whole turns. -/
theorem make (h : w.Sound) {session : Dict} (hsession : Whole w.turns [] session) :
    Sound { w.setObject w.made session with made := w.made + 1 } := by
  refine ⟨fun address haddress => Nat.lt_succ_of_lt (h.memory address haddress),
    fun r => (h.requests r).mono (Nat.le_succ _) fun _ hwhole => hwhole,
    h.loop.mono (Nat.le_succ _) fun _ hwhole => hwhole,fun address haddress => ?_,h.disk⟩
  rcases Nat.lt_succ_iff_lt_or_eq.mp haddress with hlt | rfl
  · rw [show (w.setObject w.made session).objects address = w.objects address from
      Function.update_of_ne (Nat.ne_of_lt hlt) _ _]
    exact h.objects address hlt
  · rw [show (w.setObject w.made session).objects w.made = session from Function.update_self _ _ _]
    show Whole w.turns (w.loop.begun w.made) session
    rw [h.begun_made]
    exact hsession

theorem publish (h : w.Sound) (r : ℕ) : (w.publish r).Sound := by
  unfold Desk.publish
  cases hr : w.requests r with
  | loading data =>
    have hdata := h.requests r
    rw [hr] at hdata
    have hheld := (h.make hdata.1).setRequest (r := r) (q := .holds w.made) (Nat.lt_succ_self _)
    refine ⟨fun address haddress => ?_,hheld.requests,hheld.loop,hheld.objects,hheld.disk⟩
    obtain rfl := Option.some.inj haddress
    exact Nat.lt_succ_self _
  | _ => exact h

/-- A message is appended to the dictionary whose turn it belongs to. -/
theorem append (h : w.Sound) {r address : ℕ} {said : List Json} (haddress : address < w.made)
    (hbegun : ∀ other, w.loop.begun other = if other = address then said else []) (message : Json) (last : Bool) :
    (w.append r address said message last).Sound := by
  have hwhole : ∀ other < w.made, Whole w.turns (if other = address then said ++ [message] else [])
      (Function.update w.objects address
        ((w.objects address).set "messages" (.arr (messagesOf (w.objects address) ++ [message]))) other) := by
    intro other hother
    have hobject := h.objects other hother
    rw [hbegun] at hobject
    by_cases heq : other = address
    · subst heq
      rw [Function.update_self,if_pos rfl]
      rw [if_pos rfl] at hobject
      exact hobject.say message
    · rw [Function.update_of_ne heq,if_neg heq]
      rwa [if_neg heq] at hobject
  unfold Desk.append
  cases last with
  | true =>
    have hmono (session : Dict) (hw : Whole w.turns [] session) : Whole (w.turns ++ [said ++ [message]]) [] session :=
      hw.mono _
    refine ⟨h.memory,fun r' => (h.requests r').mono le_rfl hmono,trivial,fun other hother => ?_,
      fun data hdata => ⟨hmono _ (h.disk data hdata).1,(h.disk data hdata).2⟩⟩
    have hobject := hwhole other hother
    by_cases heq : other = address
    · rw [if_pos heq] at hobject
      exact hobject.ended
    · rw [if_neg heq] at hobject
      exact hmono _ hobject
  | false =>
    refine ⟨h.memory,h.requests,haddress,fun other hother => ?_,h.disk⟩
    show Whole w.turns (if address = other then said ++ [message] else []) _
    simp only [eq_comm (a := address)]
    exact hwhole other hother

theorem say (h : w.Sound) (r : ℕ) (message : Json) (last : Bool) : (w.say r message last).Sound := by
  unfold Desk.say
  split
  · next address hloop hr =>
    have haddress := h.requests r
    rw [hr] at haddress
    refine h.append haddress (fun other => ?_) message last
    rw [hloop,ite_self]
    rfl
  · next r' address said hloop =>
    have haddress := h.loop
    rw [hloop] at haddress
    split_ifs with heq
    · refine h.append haddress (fun other => ?_) message last
      rw [hloop,Loop.begun]
      simp only [eq_comm (a := address)]
    · exact h
  · exact h

theorem edit (h : w.Sound) (r : ℕ) {key : String} (other : key ≠ "messages") (v : Json) :
    (w.edit r key v).Sound := by
  unfold Desk.edit
  split
  · next address hloop hr =>
    have haddress := h.requests r
    rw [hr] at haddress
    exact h.setObject ((h.objects address haddress).of_wordsOf
      (congrArg (List.map words) (messagesOf_set_of_ne other v)))
  · exact h

theorem copy (h : w.Sound) (r : ℕ) : (w.copy r).Sound := by
  unfold Desk.copy
  split
  · next held address hloop hr hmemory =>
    split
    · next copy hcopy =>
      have hwhole := h.objects _ (h.memory _ hmemory)
      rw [hloop] at hwhole
      refine ⟨h.memory,h.requests,⟨hwhole.of_wordsOf (wordsOf_slim hcopy),slimForDisk_again hcopy⟩,
        fun other hother => ?_,h.disk⟩
      have hobject := h.objects other hother
      rw [hloop] at hobject
      exact hobject
    · exact h
  · exact h

theorem write (h : w.Sound) (written : Bool) : (w.write written).Sound := by
  unfold Desk.write
  split
  · next copy hloop =>
    have hcopy := h.loop
    rw [hloop] at hcopy
    refine ⟨h.memory,h.requests,trivial,fun other hother => ?_,?_⟩
    · have hobject := h.objects other hother
      rw [hloop] at hobject
      exact hobject
    · cases written with
      | true =>
        intro data hdata
        obtain rfl := Option.some.inj hdata
        exact hcopy
      | false => exact h.disk
  · exact h

theorem act (h : w.Sound) (a : Action) : (w.act a).Sound := by
  cases a with
  | lookUp r => exact h.lookUp r
  | read r now readable => exact h.read r now readable
  | publish r => exact h.publish r
  | say r message last => exact h.say r message last
  | edit r key v other => exact h.edit r other v
  | copy r => exact h.copy r
  | write written => exact h.write written
  | forget => exact ⟨by simp [Desk.act],h.requests,h.loop,h.objects,h.disk⟩
  | remove => exact ⟨h.memory,h.requests,h.loop,h.objects,by simp [Desk.act]⟩

theorem restart (h : w.Sound) : w.restart.Sound :=
  ⟨by simp [Desk.restart],fun _ => trivial,trivial,fun _ hmade => absurd hmade (Nat.not_lt_zero _),h.disk⟩

end Desk.Sound

variable {S : Type*} [DecidableEq S]

theorem deskStep_sound (w : S → Desk) (e : DeskEvent S) (h : ∀ s, (w s).Sound) (s : S) : (deskStep w e s).Sound := by
  cases e with
  | restart => exact (h s).restart
  | step s' a =>
    by_cases heq : s = s'
    · subst heq
      rw [deskStep,Function.update_self]
      exact (h s).act a
    · rw [deskStep,Function.update_of_ne heq]
      exact h s

theorem conversations_sound (events : List (DeskEvent S)) (s : S) : (conversations events s).Sound := by
  have h : ∀ s, (conversations events s).Sound := foldl_invariant (fun _ => .empty) deskStep_sound events
  exact h s

/-- In every order of steps, deletions and restarts among them, the file of a session says whole turns
of that session, each at most once and in the order in which they ended. The entry and what any request
holds say such turns too, and then what has been appended of a turn that is just being appended there. -/
theorem conversations_whole (events : List (DeskEvent S)) (s : S) :
    let w := conversations events s
    (∀ data ∈ w.disk, Whole w.turns [] data) ∧
      ∀ address, (address ∈ w.memory ∨ ∃ r, w.requests r = .holds address) →
        Whole w.turns (w.loop.begun address) (w.objects address) := by
  have h := conversations_sound events s
  refine ⟨fun data hdata => (h.disk data hdata).1,fun address haddress => h.objects address ?_⟩
  rcases haddress with hmemory | ⟨r,hr⟩
  · exact h.memory address hmemory
  · have hfits := h.requests r
    rwa [hr] at hfits

end Whole

section Kept
variable {S : Type*} [DecidableEq S] {w : Desk} {turn : List Json}

/-- A turn stands in a session, in one piece. -/
def Says (turn : List Json) (session : Dict) : Prop := (turn.map words).IsInfix (wordsOf session)

/-- A turn stands in the file, in the entry, in the copy that is about to become the file, and in
whatever is about to become the entry. -/
structure Desk.Keeps (w : Desk) (turn : List Json) : Prop where
  disk : ∃ data ∈ w.disk, Says turn data
  memory : ∀ address ∈ w.memory, Says turn (w.objects address)
  loading : ∀ r data, w.requests r = .loading data → Says turn data
  saving : ∀ copy, w.loop = .saving copy → Says turn copy

theorem Says.of_wordsOf {session session' : Dict} (h : Says turn session) (heq : wordsOf session' = wordsOf session) :
    Says turn session' := by
  rw [Says,heq]
  exact h

theorem Says.say {session : Dict} (h : Says turn session) (more : List Json) :
    Says turn (session.set "messages" (.arr (messagesOf session ++ more))) := by
  rw [Says,wordsOf,messagesOf_set,List.map_append]
  exact h.trans (List.prefix_append _ _).isInfix

namespace Desk.Keeps

theorem setObject (h : w.Keeps turn) {address : ℕ} {session : Dict}
    (hsession : Says turn (w.objects address) → Says turn session) : (w.setObject address session).Keeps turn := by
  refine ⟨h.disk,fun other hother => ?_,h.loading,h.saving⟩
  have hsaid := h.memory other hother
  unfold Desk.setObject
  by_cases heq : other = address
  · subst heq
    simp only [Function.update_self]
    exact hsession hsaid
  · simp only [Function.update_of_ne heq]
    exact hsaid

theorem setRequest (h : w.Keeps turn) {r : ℕ} {q : Request} (hq : ∀ data, q = .loading data → Says turn data) :
    (w.setRequest r q).Keeps turn := by
  refine ⟨h.disk,h.memory,fun r' data hr' => ?_,h.saving⟩
  unfold Desk.setRequest at hr'
  by_cases heq : r' = r
  · subst heq
    simp only [Function.update_self] at hr'
    exact hq data hr'
  · simp only [Function.update_of_ne heq] at hr'
    exact h.loading r' data hr'

theorem lookUp (h : w.Keeps turn) (r : ℕ) : (w.lookUp r).Keeps turn := by
  unfold Desk.lookUp
  split <;> exact h.setRequest (by simp)

theorem read (h : w.Keeps turn) (r : ℕ) (now : ℚ) : (w.read r now true).Keeps turn := by
  unfold Desk.read
  split
  · refine h.setRequest fun data hdata => ?_
    obtain ⟨copy,hcopy,hsaid⟩ := h.disk
    obtain rfl := Request.loading.inj hdata
    rw [stored,Option.mem_def.mp hcopy]
    exact hsaid.of_wordsOf (congrArg (List.map words) (messagesOf_withoutCancelEvent copy))
  · exact h

theorem publish (h : w.Keeps turn) (r : ℕ) : (w.publish r).Keeps turn := by
  unfold Desk.publish
  cases hr : w.requests r with
  | loading data =>
    have hheld := h.setRequest (r := r) (q := .holds w.made) (by simp)
    refine ⟨h.disk,fun address haddress => ?_,hheld.loading,h.saving⟩
    obtain rfl := Option.some.inj haddress
    show Says turn (Function.update w.objects w.made data w.made)
    rw [Function.update_self]
    exact h.loading r data hr
  | _ => exact h

theorem append (h : w.Keeps turn) (r address : ℕ) (said : List Json) (message : Json) (last : Bool) :
    (w.append r address said message last).Keeps turn := by
  have hset : (w.setObject address _).Keeps turn := h.setObject fun hsaid => hsaid.say [message]
  unfold Desk.append
  cases last <;> exact ⟨hset.disk,hset.memory,hset.loading,by simp⟩

theorem say (h : w.Keeps turn) (r : ℕ) (message : Json) (last : Bool) : (w.say r message last).Keeps turn := by
  unfold Desk.say
  split
  · exact h.append _ _ _ _ _
  · split_ifs
    · exact h.append _ _ _ _ _
    · exact h
  · exact h

theorem edit (h : w.Keeps turn) (r : ℕ) {key : String} (other : key ≠ "messages") (v : Json) :
    (w.edit r key v).Keeps turn := by
  unfold Desk.edit
  split
  · exact h.setObject fun hsaid => hsaid.of_wordsOf (congrArg (List.map words) (messagesOf_set_of_ne other v))
  · exact h

theorem copy (h : w.Keeps turn) (r : ℕ) : (w.copy r).Keeps turn := by
  unfold Desk.copy
  split
  · next held address hloop hr hmemory =>
    split
    · next copy hcopy =>
      refine ⟨h.disk,h.memory,h.loading,fun copy' hcopy' => ?_⟩
      obtain rfl := Loop.saving.inj hcopy'
      exact (h.memory _ hmemory).of_wordsOf (wordsOf_slim hcopy)
    · exact h
  · exact h

theorem write (h : w.Keeps turn) (written : Bool) : (w.write written).Keeps turn := by
  unfold Desk.write
  split
  · next copy hloop =>
    cases written with
    | true => exact ⟨⟨copy,rfl,h.saving copy hloop⟩,h.memory,h.loading,by simp⟩
    | false => exact ⟨h.disk,h.memory,h.loading,by simp⟩
  · exact h

theorem restart (h : w.Keeps turn) : w.restart.Keeps turn :=
  ⟨h.disk,by simp [Desk.restart],by simp [Desk.restart],by simp [Desk.restart]⟩

end Desk.Keeps

/-- A step that removes the file of the session, or fails to read it. -/
def Action.losesFile : Action → Prop
  | .remove => True
  | .read _ _ readable => readable = false
  | _ => False

theorem Desk.Keeps.act (h : w.Keeps turn) {a : Action} (ha : ¬a.losesFile) : (w.act a).Keeps turn := by
  cases a with
  | lookUp r => exact h.lookUp r
  | read r now readable =>
    obtain rfl : readable = true := by simpa [Action.losesFile] using ha
    exact h.read r now
  | publish r => exact h.publish r
  | say r message last => exact h.say r message last
  | edit r key v other => exact h.edit r other v
  | copy r => exact h.copy r
  | write written => exact h.write written
  | forget => exact ⟨h.disk,by simp [Desk.act],h.loading,h.saving⟩
  | remove => exact absurd trivial ha

/-- The directory of the session is not removed, and its file can be read whenever it is looked for. -/
def FileStays (s : S) (events : List (DeskEvent S)) : Prop := ∀ a, DeskEvent.step s a ∈ events → ¬a.losesFile

theorem Desk.Keeps.later {w : S → Desk} {s : S} (h : (w s).Keeps turn) {events : List (DeskEvent S)}
    (hstays : FileStays s events) : (events.foldl deskStep w s).Keeps turn := by
  induction events generalizing w with
  | nil => exact h
  | cons e events ih =>
    refine ih (w := deskStep w e) ?_ fun a ha => hstays a (List.mem_cons_of_mem _ ha)
    cases e with
    | restart => exact h.restart
    | step s' a =>
      by_cases heq : s = s'
      · subst heq
        rw [deskStep,Function.update_self]
        exact h.act (hstays a List.mem_cons_self)
      · rw [deskStep,Function.update_of_ne heq]
        exact h

theorem conversations_append (before after : List (DeskEvent S)) :
    conversations (before ++ after) = after.foldl deskStep (conversations before) := List.foldl_append

/-- One session alone under steps of its own. -/
theorem foldl_steps (w : S → Desk) (s : S) (actions : List Action) :
    (actions.map (DeskEvent.step s)).foldl deskStep w s = actions.foldl Desk.act (w s) := by
  induction actions generalizing w with
  | nil => rfl
  | cons a actions ih =>
    rw [List.map_cons,List.foldl_cons,ih,deskStep,Function.update_self,List.foldl_cons]

omit [DecidableEq S] in
theorem fileStays_steps {s : S} {actions : List Action} (h : ∀ a ∈ actions, ¬a.losesFile) :
    FileStays s (actions.map (DeskEvent.step s)) := by
  intro a ha
  obtain ⟨a',ha',heq⟩ := List.mem_map.mp ha
  cases heq
  exact h _ ha'

/-- A request that holds the entry saves it. -/
theorem copy_write {r held entry : ℕ} {copy : Dict} (hloop : w.loop = .idle) (hr : w.requests r = .holds held)
    (hmemory : w.memory = some entry) (hslim : slimForDisk (w.objects entry) = .ok copy) :
    ((w.act (.copy r)).act (.write true)).disk = some copy := by
  simp only [Desk.act,Desk.copy,hloop,hr,hmemory,hslim,Desk.write,if_true]

/-- A request looks the entry up and saves it. -/
theorem lookUp_save {r entry : ℕ} {copy : Dict} (hloop : w.loop = .idle) (hmemory : w.memory = some entry)
    (hslim : slimForDisk (w.objects entry) = .ok copy) :
    (([.lookUp r,.copy r,.write true] : List Action).foldl Desk.act w).disk = some copy := by
  have hlook : w.act (.lookUp r) = w.setRequest r (.holds entry) := by
    simp only [Desk.act,Desk.lookUp,hmemory]
  rw [List.foldl_cons,hlook]
  exact copy_write (w := w.setRequest r (.holds entry)) hloop (Function.update_self _ _ _) hmemory hslim

/-- A request makes its entry and saves it. -/
theorem publish_save {r : ℕ} {data copy : Dict} (hloop : w.loop = .idle) (hr : w.requests r = .loading data)
    (hslim : slimForDisk data = .ok copy) :
    (([.publish r,.copy r,.write true] : List Action).foldl Desk.act w).disk = some copy := by
  have hpublish : w.act (.publish r) = { (w.setObject w.made data).setRequest r (.holds w.made) with
      memory := some w.made, made := w.made + 1 } := by
    simp only [Desk.act,Desk.publish,hr]
  have hobject : (w.setObject w.made data).objects w.made = data := Function.update_self _ _ _
  rw [List.foldl_cons,hpublish]
  exact copy_write (w := { (w.setObject w.made data).setRequest r (.holds w.made) with
    memory := some w.made, made := w.made + 1 }) hloop (Function.update_self _ _ _) rfl
      ((congrArg slimForDisk hobject).trans hslim)

/-- A turn stays in the file that is written, whatever else is requested and however often the process
ends, as long as the directory is not removed and the file can be read, exactly if the copy has it, and
the entry of the session, and what requests have read to make the entry anew. -/
theorem saved_turn_kept_iff (before : List (DeskEvent S)) (s : S) (turn : List Json) (copy : Dict)
    (hloop : (conversations before s).loop = .saving copy)
    (hslim : ∀ address ∈ (conversations before s).memory,
      ∃ copy', slimForDisk ((conversations before s).objects address) = .ok copy') :
    (∀ after, FileStays s after →
      ∃ data ∈ (conversations (before ++ DeskEvent.step s (.write true) :: after) s).disk, Says turn data) ↔
    Says turn copy ∧ (∀ address ∈ (conversations before s).memory, Says turn ((conversations before s).objects address)) ∧
      ∀ r data, (conversations before s).requests r = .loading data → Says turn data := by
  have hstep : deskStep (conversations before) (.step s (.write true)) s =
      { conversations before s with loop := .idle, disk := some copy } := by
    rw [deskStep,Function.update_self,Desk.act,Desk.write,hloop]
    rfl
  simp only [conversations_append before,List.foldl_cons]
  constructor
  · intro hkept
    -- what some request does next becomes the file
    have hnext (actions : List Action) (hfile : ∀ a ∈ actions, ¬a.losesFile) {copy' : Dict}
        (hdisk : (actions.foldl Desk.act { conversations before s with loop := .idle, disk := some copy }).disk =
          some copy') : Says turn copy' := by
      obtain ⟨data,hdata,hsaid⟩ := hkept _ (fileStays_steps hfile)
      rw [foldl_steps,hstep,hdisk] at hdata
      obtain rfl := Option.some.inj hdata
      exact hsaid
    refine ⟨hnext [] (by simp) rfl,fun address haddress => ?_,fun r data hr => ?_⟩
    · obtain ⟨copy',hcopy'⟩ := hslim address haddress
      have hsaid := hnext [.lookUp 0,.copy 0,.write true] (by simp [Action.losesFile])
        (lookUp_save (w := { conversations before s with loop := .idle, disk := some copy }) rfl haddress hcopy')
      exact hsaid.of_wordsOf (wordsOf_slim hcopy').symm
    · have hfits := (conversations_sound before s).requests r
      rw [hr] at hfits
      obtain ⟨-,copy',hcopy'⟩ := hfits
      have hsaid := hnext [.publish r,.copy r,.write true] (by simp [Action.losesFile])
        (publish_save (w := { conversations before s with loop := .idle, disk := some copy }) rfl hr hcopy')
      exact hsaid.of_wordsOf (wordsOf_slim hcopy').symm
  · rintro ⟨hcopy,hmemory,hloading⟩ after hstays
    have hsaved : (deskStep (conversations before) (.step s (.write true)) s).Keeps turn := by
      rw [hstep]
      exact ⟨⟨copy,rfl,hcopy⟩,hmemory,hloading,by simp⟩
    exact (hsaved.later hstays).disk

def question : Json := .obj [("role",.str "user"),("text",.str "band gap of Si?")]

def answer : Json := .obj [("role",.str "agent"),("text",.str "0.6 eV"),("results",.arr [])]

/-- A session is opened, and a turn ends. -/
def firstTurn : List (DeskEvent String) :=
  [.step "s" (.lookUp 0),.step "s" (.read 0 0 true),.step "s" (.publish 0),.step "s" (.say 0 question false),
    .step "s" (.say 0 answer true),.step "s" (.copy 0)]

theorem first_turn_kept : (conversations firstTurn "s").memory = some 0 ∧
    ∀ after, FileStays "s" after →
      ∃ data ∈ (conversations (firstTurn ++ DeskEvent.step "s" (.write true) :: after) "s").disk,
        Says [question,answer] data := by
  refine ⟨rfl,(saved_turn_kept_iff firstTurn "s" [question,answer] _ rfl fun address haddress => ?_).mpr
    ⟨List.infix_refl _,fun address haddress => ?_,fun r data hr => ?_⟩⟩
  · obtain rfl := Option.some.inj haddress
    exact ⟨_,rfl⟩
  · obtain rfl := Option.some.inj haddress
    exact List.infix_refl _
  · cases r with
    | zero => cases hr
    | succ r => cases hr

/-- Another request read the file before the turn was saved, and makes the entry after it: what that
request then saves is without the turn. -/
example : (conversations ([.step "s" (.lookUp 1),.step "s" (.read 1 0 true)] ++ firstTurn ++
    [.step "s" (.write true),.step "s" (.publish 1),.step "s" (.copy 1),.step "s" (.write true)]) "s").disk.map wordsOf =
      some [] := rfl

end Kept

end DftForge.Web
