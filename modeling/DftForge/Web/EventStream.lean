import DftForge.Library.JsonText
import DftForge.Library.Frames
import DftForge.Library.EventRuns
import DftForge.Library.FairLoop
import DftForge.Python.Text

/-! # The event stream of a chat

The worker of `chat_stream` emits events with `call_soon_threadsafe`, which puts them into a queue
later; the generator takes them from the queue and sends each as a frame. The browser reads the
stream in pieces that the network chooses.
-/
namespace DftForge.Web
open DftForge.Library DftForge.Python
open DftForge.Library.JsonText (Value Numerals)

variable {N : Type*}

/-- Where the generator stands. -/
inductive GenPhase where
  | starting
  | taking
  /-- It has seen the end of the queue and awaits the task. -/
  | awaiting
  | finished
  deriving DecidableEq, Repr

structure ChatStream (N : Type*) where
  /-- The callbacks `q.put_nowait(ev)` that the event loop still has to run; nothing is the end. -/
  scheduled : List (Option (Value N)) := []
  queue : List (Option (Value N)) := []
  /-- The events that were sent. -/
  sent : List (Value N) := []
  phase : GenPhase := .starting
  working : Bool := true
  /-- The session is in `WEB_ACTIVE_RUNS`. -/
  active : Bool := true
  /-- What the worker has emitted, to say what arrives of it. -/
  emitted : List (Value N) := []

def startEvent (sessionId : List Char) : Value N :=
  .obj [("type".toList,.str "start".toList),("session_id".toList,.str sessionId)]

def doneEvent (sessionId : List Char) : Value N :=
  .obj [("type".toList,.str "done".toList),("session_id".toList,.str sessionId)]

inductive StreamStep (N : Type*) where
  | emit (ev : Value N)
  /-- `finally`: the session leaves `WEB_ACTIVE_RUNS`, and the end is emitted. -/
  | finish
  /-- The event loop runs the next callback. -/
  | deliver
  /-- The generator goes on to its next await. -/
  | advance

namespace ChatStream
variable (sessionId : List Char) (s : ChatStream N)

def emit (ev : Value N) : ChatStream N :=
  if s.working then { s with scheduled := s.scheduled ++ [some ev], emitted := s.emitted ++ [ev] } else s

def finish : ChatStream N :=
  if s.working then { s with scheduled := s.scheduled ++ [none], working := false, active := false } else s

def deliver : ChatStream N :=
  match s.scheduled with
  | [] => s
  | ev :: scheduled => { s with scheduled, queue := s.queue ++ [ev] }

def advance : ChatStream N :=
  match s.phase, s.queue with
  | .starting, _ => { s with sent := s.sent ++ [startEvent sessionId], phase := .taking }
  | .taking, some ev :: queue => { s with sent := s.sent ++ [ev], queue }
  | .taking, none :: queue => { s with queue, phase := .awaiting }
  | .taking, [] => s
  | .awaiting, _ =>
    if s.working then s else { s with sent := s.sent ++ [doneEvent sessionId], phase := .finished }
  | .finished, _ => s

def step : StreamStep N → ChatStream N
  | .emit ev => s.emit ev
  | .finish => s.finish
  | .deliver => s.deliver
  | .advance => s.advance sessionId

def run (steps : List (StreamStep N)) : ChatStream N := steps.foldl (step sessionId) {}

end ChatStream

section Texts
variable (nums : Numerals N)

/-- `json.dumps(ev, ensure_ascii=False)` after `data: `. -/
def eventFrame (ev : Value N) : Text := "data: ".toList ++ JsonText.write nums { ascii := false } 0 ev

/-- What the browser gets. -/
def ChatStream.text (s : ChatStream N) : Text := Frames.join '\n' (s.sent.map (eventFrame nums))

/-- The event of a frame: `JSON.parse` of the first line that begins with `data: `; a frame that
cannot be parsed is skipped. -/
def frameEvent (frame : Text) : Option (Value N) :=
  ((splitChar '\n' frame).find? ("data: ".toList.isPrefixOf ·)).bind fun line => JsonText.loads nums (line.drop 6)

/-- The events that the browser handles, of the pieces it has read. -/
def handledEvents (pieces : List Text) : List (Value N) := (Frames.readAll '\n' pieces).1.filterMap (frameEvent nums)

variable {nums} {ev : Value N}

theorem newline_not_mem (hev : JsonText.WellFormed nums ev) : '\n' ∉ eventFrame nums ev := by
  intro hmem
  rcases List.mem_append.mp hmem with hmem | hmem
  · exact absurd hmem (by decide)
  · exact absurd (JsonText.printable_write nums rfl ev hev 0 '\n' hmem) (by decide)

theorem frameEvent_eventFrame (hev : JsonText.WellFormed nums ev) : frameEvent nums (eventFrame nums ev) = some ev := by
  have hinitial : "data: ".toList.isPrefixOf (eventFrame nums ev) = true :=
    List.isPrefixOf_iff_prefix.mpr (List.prefix_append _ _)
  have hdrop : (eventFrame nums ev).drop 6 = JsonText.write nums { ascii := false } 0 ev := rfl
  rw [frameEvent,splitChar_of_not_mem (newline_not_mem hev),List.find?_cons_of_pos hinitial,Option.bind_some,hdrop,
    JsonText.loads_write nums _ hev]

theorem filterMap_frames {evs : List (Value N)} (hevs : ∀ ev ∈ evs, JsonText.WellFormed nums ev) :
    (evs.map (eventFrame nums)).filterMap (frameEvent nums) = evs := by
  rw [List.filterMap_map]
  conv_rhs => rw [← List.filterMap_some (l := evs)]
  exact List.filterMap_congr fun ev hev => frameEvent_eventFrame (hevs ev hev)

theorem newline_not_mem_frames {evs : List (Value N)} (hevs : ∀ ev ∈ evs, JsonText.WellFormed nums ev) :
    ∀ frame ∈ evs.map (eventFrame nums), '\n' ∉ frame := by
  intro frame hframe
  obtain ⟨ev,hev,rfl⟩ := List.mem_map.mp hframe
  exact newline_not_mem (hevs ev hev)

end Texts

section Ends
variable {α : Type*} {taken evs : List α} {p q : List (Option α)}

/-- The end comes once, after everything else. -/
theorem taken_before_end (hq : q = [] ∨ q = [none]) (h : taken.map some ++ none :: p = evs.map some ++ q) :
    q = [none] ∧ taken = evs ∧ p = [] := by
  induction taken generalizing evs with
  | nil =>
    cases evs with
    | nil =>
      obtain rfl | rfl := hq
      · cases h
      · exact ⟨rfl,rfl,(List.cons.inj h).2⟩
    | cons ev evs => cases (List.cons.inj h).1
  | cons ev taken ih =>
    cases evs with
    | nil =>
      obtain rfl | rfl := hq
      · cases h
      · cases (List.cons.inj h).1
    | cons ev' evs =>
      obtain ⟨hev,hrest⟩ := List.cons.inj h
      obtain ⟨hend,rfl,hnil⟩ := ih hrest
      exact ⟨hend,by rw [Option.some.inj hev],hnil⟩

theorem taken_prefix (hq : q = [] ∨ q = [none]) (h : taken.map some ++ p = evs.map some ++ q) : taken <+: evs := by
  induction taken generalizing evs with
  | nil => exact List.nil_prefix
  | cons ev taken ih =>
    cases evs with
    | nil =>
      obtain rfl | rfl := hq
      · cases h
      · cases (List.cons.inj h).1
    | cons ev' evs =>
      obtain ⟨hev,hrest⟩ := List.cons.inj h
      rw [Option.some.inj hev]
      exact List.cons_prefix_cons.mpr ⟨rfl,ih hrest⟩

end Ends

section Order
variable {sessionId : List Char} {s : ChatStream N}

/-- What the generator still has to take. -/
def ChatStream.pending (s : ChatStream N) : List (Option (Value N)) := s.queue ++ s.scheduled

/-- The emitted events, and the end once the worker has ended. -/
def ChatStream.log (s : ChatStream N) : List (Option (Value N)) :=
  s.emitted.map some ++ if s.working then [] else [none]

/-- What was sent, by what was taken from the queue. -/
def GenPhase.sent (sessionId : List Char) : GenPhase → List (Value N) → List (Value N)
  | .starting, _ => []
  | .finished, taken => startEvent sessionId :: (taken ++ [doneEvent sessionId])
  | _, taken => startEvent sessionId :: taken

/-- The end, where the generator has taken it. -/
def GenPhase.ended : GenPhase → List (Option (Value N))
  | .starting => []
  | .taking => []
  | _ => [none]

/-- What was taken and what is pending are what was emitted, in its order. -/
structure ChatStream.Ordered (sessionId : List Char) (s : ChatStream N) (taken : List (Value N)) : Prop where
  active : s.active = s.working
  starting : s.phase = .starting → taken = []
  sent : s.sent = s.phase.sent sessionId taken
  order : taken.map some ++ (s.phase.ended ++ s.pending) = s.log

namespace ChatStream.Ordered
variable {taken : List (Value N)}

theorem empty : Ordered sessionId ({} : ChatStream N) [] := ⟨rfl,fun _ => rfl,rfl,rfl⟩

theorem emit (h : s.Ordered sessionId taken) (ev : Value N) : (s.emit ev).Ordered sessionId taken := by
  unfold ChatStream.emit
  split_ifs with hworking
  · refine ⟨h.active,h.starting,h.sent,?_⟩
    have horder := h.order
    simp only [log,hworking,if_true,List.append_nil] at horder
    simp only [log,pending,hworking,if_true,List.append_nil,List.map_append,List.map_singleton,← horder,
      List.append_assoc]
  · exact h

theorem finish (h : s.Ordered sessionId taken) : s.finish.Ordered sessionId taken := by
  unfold ChatStream.finish
  split_ifs with hworking
  · refine ⟨rfl,h.starting,h.sent,?_⟩
    have horder := h.order
    simp only [log,hworking,if_true,List.append_nil] at horder
    simp only [log,pending,Bool.false_eq_true,if_false,← horder,List.append_assoc]
  · exact h

theorem deliver (h : s.Ordered sessionId taken) : s.deliver.Ordered sessionId taken := by
  unfold ChatStream.deliver
  cases hscheduled : s.scheduled with
  | nil => exact h
  | cons ev scheduled =>
    refine ⟨h.active,h.starting,h.sent,?_⟩
    have horder := h.order
    rw [pending,hscheduled] at horder
    rw [pending,List.append_assoc]
    exact horder

theorem advance (h : s.Ordered sessionId taken) : ∃ taken', (s.advance sessionId).Ordered sessionId taken' := by
  obtain ⟨hactive,hstarting,hsent,horder⟩ := h
  unfold ChatStream.advance
  split
  · next hphase =>
    obtain rfl := hstarting hphase
    rw [hphase] at hsent horder
    exact ⟨[],hactive,(fun h => by cases h),(by rw [hsent]; rfl),horder⟩
  · next ev queue hphase hqueue =>
    rw [hphase] at hsent horder
    rw [pending,hqueue] at horder
    refine ⟨taken ++ [ev],hactive,fun h => ?_,by simp only [hsent,hphase]; rfl,?_⟩
    · rw [hphase] at h
      cases h
    · rw [pending,hphase,List.map_append,List.append_assoc]
      exact horder
  · next queue hphase hqueue =>
    rw [hphase] at hsent horder
    rw [pending,hqueue] at horder
    exact ⟨taken,hactive,(fun h => by cases h),hsent,horder⟩
  · exact ⟨taken,hactive,hstarting,hsent,horder⟩
  · next hphase =>
    split_ifs
    · exact ⟨taken,hactive,hstarting,hsent,horder⟩
    · rw [hphase] at hsent horder
      exact ⟨taken,hactive,(fun h => by cases h),(by rw [hsent]; rfl),horder⟩
  · exact ⟨taken,hactive,hstarting,hsent,horder⟩

theorem step (h : s.Ordered sessionId taken) (e : StreamStep N) :
    ∃ taken', (s.step sessionId e).Ordered sessionId taken' := by
  cases e with
  | emit ev => exact ⟨taken,h.emit ev⟩
  | finish => exact ⟨taken,h.finish⟩
  | deliver => exact ⟨taken,h.deliver⟩
  | advance => exact h.advance

/-- Once the generator has taken the end, it has taken all. -/
theorem taken_all (h : s.Ordered sessionId taken) (hended : s.phase.ended (N := N) = [none]) :
    s.working = false ∧ taken = s.emitted ∧ s.pending = [] := by
  have horder := h.order
  rw [hended,log] at horder
  obtain ⟨hend,htaken,hpending⟩ := taken_before_end (by split_ifs <;> simp) horder
  refine ⟨?_,htaken,hpending⟩
  cases hworking : s.working with
  | false => rfl
  | true =>
    rw [hworking] at hend
    cases hend

theorem taken_prefix (h : s.Ordered sessionId taken) : taken <+: s.emitted :=
  Web.taken_prefix (by split_ifs <;> simp) h.order

/-- What was sent, in whatever order the steps come. -/
theorem sent_prefix (h : s.Ordered sessionId taken) :
    s.sent <+: startEvent sessionId :: (s.emitted ++ [doneEvent sessionId]) := by
  have htaken : startEvent sessionId :: taken <+: startEvent sessionId :: (s.emitted ++ [doneEvent sessionId]) :=
    List.cons_prefix_cons.mpr ⟨rfl,h.taken_prefix.trans (List.prefix_append _ _)⟩
  rw [h.sent]
  cases hphase : s.phase with
  | starting => exact List.nil_prefix
  | taking => exact htaken
  | awaiting => exact htaken
  | finished =>
    obtain ⟨-,rfl,-⟩ := h.taken_all (by rw [hphase]; rfl)
    exact List.prefix_refl _

theorem sent_of_finished (h : s.Ordered sessionId taken) (hphase : s.phase = .finished) :
    s.working = false ∧ s.sent = startEvent sessionId :: (s.emitted ++ [doneEvent sessionId]) := by
  obtain ⟨hworking,rfl,-⟩ := h.taken_all (by rw [hphase]; rfl)
  refine ⟨hworking,?_⟩
  rw [h.sent,hphase]
  rfl

theorem finished_of_length (h : s.Ordered sessionId taken) (hlength : s.emitted.length + 2 ≤ s.sent.length) :
    s.phase = .finished := by
  have htaken := h.taken_prefix.length_le
  rw [h.sent] at hlength
  cases hphase : s.phase with
  | finished => rfl
  | _ =>
    rw [hphase] at hlength
    simp only [GenPhase.sent,List.length_cons,List.length_nil] at hlength
    omega

/-- When the worker has ended and neither the event loop nor the generator can go on, all is sent. -/
theorem finished_of_stuck (h : s.Ordered sessionId taken) (hworking : s.working = false) (hdeliver : s.deliver = s)
    (hadvance : s.advance sessionId = s) : s.phase = .finished := by
  have hscheduled : s.scheduled = [] := by
    cases hevs : s.scheduled with
    | nil => rfl
    | cons ev scheduled =>
      rw [ChatStream.deliver,hevs] at hdeliver
      have hlength := congrArg (fun s => s.scheduled.length) hdeliver
      simp only [hevs,List.length_cons] at hlength
      omega
  have hphaseEq := congrArg ChatStream.phase hadvance
  have hqueueEq := congrArg (fun s => s.queue.length) hadvance
  unfold ChatStream.advance at hphaseEq hqueueEq
  cases hphase : s.phase with
  | finished => rfl
  | starting =>
    simp only [hphase] at hphaseEq
    cases hphaseEq
  | awaiting =>
    simp only [hphase,hworking,Bool.false_eq_true,if_false] at hphaseEq
    cases hphaseEq
  | taking =>
    cases hqueue : s.queue with
    | nil =>
      have horder := h.order
      rw [hphase,pending,hqueue,hscheduled,log,hworking] at horder
      have hmem : none ∈ taken.map some := by
        simp only [GenPhase.ended,List.append_nil] at horder
        rw [horder]
        simp
      obtain ⟨_,-,hnone⟩ := List.mem_map.mp hmem
      cases hnone
    | cons ev queue =>
      cases ev with
      | none =>
        simp only [hphase,hqueue] at hphaseEq
        cases hphaseEq
      | some ev =>
        simp only [hphase,hqueue,List.length_cons] at hqueueEq
        omega

end ChatStream.Ordered

theorem run_ordered (sessionId : List Char) (steps : List (StreamStep N)) :
    ∃ taken, (ChatStream.run sessionId steps).Ordered sessionId taken := by
  refine @foldl_invariant _ _ _ _ (fun s => ∃ taken, ChatStream.Ordered sessionId s taken) ⟨[],.empty⟩ ?_ steps
  rintro s e ⟨taken,h⟩
  exact h.step e

section Ending

/-- What the event loop and the generator still have to do. -/
def GenPhase.left : GenPhase → ℕ
  | .starting => 3
  | .taking => 2
  | .awaiting => 1
  | .finished => 0

def ChatStream.left (s : ChatStream N) : ℕ := 2 * s.scheduled.length + s.queue.length + s.phase.left

/-- Without the worker, a step that changes anything leaves less to do. -/
theorem ChatStream.step_left (hworking : s.working = false) (e : StreamStep N) :
    (s.step sessionId e).working = false ∧ (s.step sessionId e = s ∨ (s.step sessionId e).left < s.left) := by
  cases e with
  | emit ev => simp [step,emit,hworking]
  | finish => simp [step,finish,hworking]
  | deliver =>
    rw [step]
    unfold deliver
    cases hscheduled : s.scheduled with
    | nil => exact ⟨hworking,.inl rfl⟩
    | cons ev scheduled =>
      refine ⟨hworking,.inr ?_⟩
      simp only [left,hscheduled,List.length_cons,List.length_append,List.length_nil]
      omega
  | advance =>
    rw [step]
    unfold advance
    split
    · next hphase => exact ⟨hworking,.inr (by simp [left,hphase,GenPhase.left])⟩
    · next hphase hqueue => exact ⟨hworking,.inr (by simp [left,hphase,hqueue])⟩
    · next hphase hqueue => exact ⟨hworking,.inr (by simp [left,hphase,hqueue,GenPhase.left])⟩
    · exact ⟨hworking,.inl rfl⟩
    · next hphase =>
      rw [if_neg (by simp [hworking])]
      exact ⟨hworking,.inr (by simp [left,hphase,GenPhase.left])⟩
    · exact ⟨hworking,.inl rfl⟩

/-- The stream as a loop that ends when the generator does. -/
def ChatStream.turn (sessionId : List Char) (e : StreamStep N) (s : ChatStream N) :
    Loop.Outcome (ChatStream N) Empty :=
  if s.phase = .finished then .returned s else .loop (s.step sessionId e)

/-- The loop is the run, up to its end. -/
theorem ChatStream.exec_turn (more : ℕ → StreamStep N) (n : ℕ) :
    Loop.exec (turn sessionId) more s n = .loop (((List.range n).map more).foldl (step sessionId) s) ∨
      ∃ k, (((List.range k).map more).foldl (step sessionId) s).phase = .finished := by
  induction n with
  | zero => exact .inl rfl
  | succ n ih =>
    rcases ih with hloop | hfinished
    · rw [Loop.exec_succ hloop]
      unfold turn
      split_ifs with hphase
      · exact .inr ⟨n,hphase⟩
      · rw [List.range_succ,List.map_append,List.foldl_append]
        exact .inl rfl
    · exact .inr hfinished

/-- Once the worker has ended, the stream ends, when the event loop and the generator both go on. -/
theorem ChatStream.Ordered.finishes {taken : List (Value N)} (h : s.Ordered sessionId taken)
    (hworking : s.working = false) {more : ℕ → StreamStep N} (hdeliver : ∀ n, ∃ m ≥ n, more m = .deliver)
    (hadvance : ∀ n, ∃ m ≥ n, more m = .advance) :
    ∃ n, (((List.range n).map more).foldl (ChatStream.step sessionId) s).phase = .finished := by
  have hkept : ∀ {n t}, Loop.exec (ChatStream.turn sessionId) more s n = .loop t →
      t.working = false ∧ ∃ taken, t.Ordered sessionId taken := by
    refine fun hn => Loop.exec_invariant
      (P := fun t : ChatStream N => t.working = false ∧ ∃ taken, t.Ordered sessionId taken)
      ⟨hworking,taken,h⟩ ?_ hn
    rintro n t t' - ⟨hended,taken,hordered⟩ hturn
    unfold ChatStream.turn at hturn
    split_ifs at hturn
    obtain rfl := Loop.Outcome.loop.inj hturn
    exact ⟨(ChatStream.step_left hended _).1,hordered.step _⟩
  obtain ⟨n,hn⟩ : ∃ n, ∀ t, Loop.exec (ChatStream.turn sessionId) more s n ≠ .loop t := by
    refine Loop.exec_terminates ChatStream.left (fun t => t.phase ≠ .finished)
      (fun e t => t.step sessionId e ≠ t) ?_ ?_
    · intro n t hn t' hturn
      unfold ChatStream.turn at hturn
      split_ifs at hturn with hphase
      obtain rfl := Loop.Outcome.loop.inj hturn
      rcases (ChatStream.step_left (hkept hn).1 (more n)).2 with hsame | hless
      · exact .inr ⟨hsame,hphase,not_not.mpr hsame⟩
      · exact .inl hless
    · intro n t hn hphase
      obtain ⟨hended,taken,hordered⟩ := hkept hn
      -- one of the two can still go on, and it gets its turn
      by_cases hstuck : t.deliver = t
      · obtain ⟨m,hm,hmore⟩ := hadvance n
        exact ⟨m,hm,fun hsame => hphase (hordered.finished_of_stuck hended hstuck (by rwa [hmore] at hsame))⟩
      · obtain ⟨m,hm,hmore⟩ := hdeliver n
        exact ⟨m,hm,by rwa [hmore]⟩
  exact (ChatStream.exec_turn more n).resolve_left (hn _)

end Ending

end Order

section Delivery
variable {nums : Numerals N} {sessionId : List Char}

theorem wellFormed_start (sessionId : List Char) : JsonText.WellFormed nums (startEvent sessionId) :=
  ⟨show (["type","session_id"].map String.toList).Nodup by decide,trivial,trivial,trivial⟩

theorem wellFormed_done (sessionId : List Char) : JsonText.WellFormed nums (doneEvent sessionId) :=
  ⟨show (["type","session_id"].map String.toList).Nodup by decide,trivial,trivial,trivial⟩

/-- However the worker, the event loop and the generator take turns, and wherever the network cuts
the stream, the browser handles the start, the emitted events and the end, each once and in this
order, as far as it has read; it has the end only when the session is no longer active, and gets to it once
the worker has ended, when the event loop and the generator go on. The events are JSON, without NaN. -/
theorem stream_delivers (sessionId : List Char) (steps : List (StreamStep N)) (pieces : List Text)
    (hjson : ∀ ev ∈ (ChatStream.run sessionId steps).emitted, JsonText.WellFormed nums ev)
    (hpieces : pieces.flatten <+: (ChatStream.run sessionId steps).text nums) :
    let s := ChatStream.run sessionId steps
    handledEvents nums pieces <+: startEvent sessionId :: (s.emitted ++ [doneEvent sessionId]) ∧
    (s.phase = .finished → pieces.flatten = s.text nums →
      handledEvents nums pieces = startEvent sessionId :: (s.emitted ++ [doneEvent sessionId])) ∧
    (handledEvents nums pieces = startEvent sessionId :: (s.emitted ++ [doneEvent sessionId]) →
      s.working = false ∧ s.active = false) ∧
    (s.working = false → s.deliver = s → s.advance sessionId = s → s.phase = .finished) ∧
    (s.working = false → ∀ more : ℕ → StreamStep N, (∀ n, ∃ m ≥ n, more m = .deliver) →
      (∀ n, ∃ m ≥ n, more m = .advance) →
        ∃ n, (ChatStream.run sessionId (steps ++ (List.range n).map more)).phase = .finished) := by
  obtain ⟨taken,h⟩ := run_ordered sessionId steps
  generalize hrun : ChatStream.run sessionId steps = s at h hjson hpieces
  have hall : ∀ ev ∈ startEvent sessionId :: (s.emitted ++ [doneEvent sessionId]), JsonText.WellFormed nums ev := by
    intro ev hev
    rcases List.mem_cons.mp hev with rfl | hev
    · exact wellFormed_start sessionId
    · rcases List.mem_append.mp hev with hev | hev
      · exact hjson ev hev
      · rw [List.mem_singleton.mp hev]
        exact wellFormed_done sessionId
  have hsent : ∀ ev ∈ s.sent, JsonText.WellFormed nums ev := fun ev hev => hall ev (h.sent_prefix.subset hev)
  have hframes := newline_not_mem_frames hsent
  have hread : handledEvents nums pieces <+: s.sent := by
    have hinitial := (Frames.readAll_prefix hframes hpieces).filterMap (frameEvent nums)
    rwa [filterMap_frames hsent] at hinitial
  refine ⟨hread.trans h.sent_prefix,fun hphase hwhole => ?_,fun hcomplete => ?_,
    fun hworking hdeliver hadvance => h.finished_of_stuck hworking hdeliver hadvance,
    fun hworking more hdeliver hadvance => ?_⟩
  · rw [handledEvents,Frames.readAll_join hframes hwhole,filterMap_frames hsent,(h.sent_of_finished hphase).2]
  · have hlength := hread.length_le
    rw [hcomplete,List.length_cons,List.length_append,List.length_singleton] at hlength
    have hworking := (h.sent_of_finished (h.finished_of_length hlength)).1
    exact ⟨hworking,h.active.trans hworking⟩
  · obtain ⟨n,hn⟩ := h.finishes hworking hdeliver hadvance
    refine ⟨n,?_⟩
    rwa [ChatStream.run,List.foldl_append,← ChatStream.run,hrun]

/-- Texts without numbers. -/
def noNumbers : Numerals Empty where
  text := Empty.elim
  read _ := none
  Writable _ := True
  number_text n := n.elim
  read_text n := n.elim

def replyEvent : Value Empty := .obj [("type".toList,.str "reply".toList),("text".toList,.str "0.6 eV\n\ndata: ".toList)]

/-- The reply is emitted before the generator starts, and taken after the worker has ended. -/
def replySteps : List (StreamStep Empty) :=
  [.emit replyEvent,.deliver,.advance,.finish,.advance,.deliver,.advance,.advance]

theorem stream_delivers_reply :
    let text := (ChatStream.run "s".toList replySteps).text noNumbers
    handledEvents noNumbers [text.take 9,text.drop 9] =
      [startEvent "s".toList,replyEvent,doneEvent "s".toList] := by
  refine (stream_delivers "s".toList replySteps _ ?_ ?_).2.1 rfl ?_
  · intro ev hev
    obtain rfl := List.mem_singleton.mp hev
    exact ⟨show (["type","text"].map String.toList).Nodup by decide,trivial,trivial,trivial⟩
  · rw [List.flatten_cons,List.flatten_singleton,List.take_append_drop]
  · rw [List.flatten_cons,List.flatten_singleton,List.take_append_drop]

end Delivery

end DftForge.Web
