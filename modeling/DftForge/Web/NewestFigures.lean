import DftForge.Web.SlimSession

/-! # The newest figures

Of the figures in the last message that has one, the copy keeps the first, where the documentation
asks for the last: the two are compared result by result. Slimming a copy again changes nothing.
-/
namespace DftForge.Web
open DftForge.Library DftForge.Runtime DftForge.Engines DftForge.Agent

section Comparison
variable {f : Figure}

/-- Where keeping the first and keeping the last of some results come to the same, by the flags
with which they start and the number of the results that show the figure. -/
def Agree (a b : Bool) (n : ℕ) : Prop := n = 0 ∨ a = b ∧ (a = true ∨ n ≤ 1)

theorem agree_cons (a b h : Bool) (n : ℕ) :
    (h = true → a = (b || decide (0 < n))) ∧ Agree (a || h) b n ↔
      Agree a b (n + if h = true then 1 else 0) := by
  cases h with
  | false => simp
  | true =>
    rw [if_pos rfl, Agree, Agree]
    cases a <;> cases b <;> simp
    omega

theorem oldestResults_eq_iff {a b : Kept} {rs : List Json} :
    oldestResults a rs = newestResults b rs ↔ ∀ f, Agree (a f) (b f) (rs.countP (shows f)) := by
  induction rs generalizing a with
  | nil => simp [oldestResults, newestResults, Agree]
  | cons r rs ih =>
    rw [oldestResults, newestResults, List.cons.injEq, trimmed_eq_iff, ih, ← forall_and]
    refine forall_congr' fun f => ?_
    have hany : rs.any (shows f) = decide (0 < rs.countP (shows f)) := by
      rw [Bool.eq_iff_iff, List.any_eq_true, decide_eq_true_eq, List.countP_pos_iff]
    rw [List.countP_cons, hany]
    exact agree_cons (a f) (b f) (shows f r) (rs.countP (shows f))

theorem withResults_inj {v : Json} {rs rs' : List Json} (h : resultsOf v ≠ [] ∨ rs = rs') :
    withResults rs v = withResults rs' v ↔ rs = rs' := by
  refine ⟨fun heq => h.elim (fun hne => ?_) id,fun heq => by rw [heq]⟩
  cases v with
  | obj msg =>
    have harr : (arrAt msg "results").isSome = true := by
      cases hget : arrAt msg "results" with
      | none => exact absurd (by rw [resultsOf, hget]; rfl) hne
      | some rs => rfl
    simp only [withResults, harr, if_true, Json.obj.injEq] at heq
    have hboth := congrArg (fun d => arrAt d "results") heq
    simpa using hboth
  | _ => exact absurd rfl hne

theorem oneNewest_cons {msg : Json} {later : List Json} : OneNewest f (msg :: later) ↔
    (later.any (showsIn f) = true ∨ (resultsOf msg).countP (shows f) ≤ 1) ∧ OneNewest f later := by
  have hnone : later.any (showsIn f) = false ↔ later.filter (showsIn f) = [] := by
    rw [List.filter_eq_nil_iff, List.any_eq_false]
  have hcount : showsIn f msg = true ↔ 0 < (resultsOf msg).countP (shows f) := by
    rw [showsIn, List.any_eq_true, List.countP_pos_iff]
  rw [OneNewest, OneNewest, List.filter_cons]
  cases hany : later.any (showsIn f) with
  | true =>
    have hne : later.filter (showsIn f) ≠ [] := fun h => by
      rw [hnone.mpr h] at hany
      cases hany
    cases showsIn f msg <;> simp [List.getLast?_cons_of_ne_nil hne]
  | false =>
    rw [hnone.mp hany]
    cases hmsg : showsIn f msg with
    | false =>
      have hzero : (resultsOf msg).countP (shows f) = 0 := by
        have hnot := (not_congr hcount).mp (by rw [hmsg]; exact Bool.false_ne_true)
        omega
      simp [hzero]
    | true =>
      have hpos := hcount.mp hmsg
      simp
      omega

theorem oldestMessages_eq_iff {messages : List Json} :
    oldestMessages messages = newestMessages messages ↔ ∀ f, OneNewest f messages := by
  induction messages with
  | nil => simp [oldestMessages, newestMessages, OneNewest]
  | cons msg later ih =>
    have hinj : withResults (oldestResults (fun f => later.any (showsIn f)) (resultsOf msg)) msg =
        withResults (newestResults (fun f => later.any (showsIn f)) (resultsOf msg)) msg ↔
          oldestResults (fun f => later.any (showsIn f)) (resultsOf msg) =
            newestResults (fun f => later.any (showsIn f)) (resultsOf msg) := by
      refine withResults_inj ?_
      cases resultsOf msg with
      | nil => exact .inr rfl
      | cons r rs => exact .inl (List.cons_ne_nil r rs)
    rw [oldestMessages, newestMessages, List.cons.injEq, hinj, ih, oldestResults_eq_iff, ← forall_and]
    refine forall_congr' fun f => ?_
    rw [oneNewest_cons]
    refine and_congr_left fun _ => ?_
    rw [Agree]
    cases later.any (showsIn f) with
    | true => exact iff_of_true (.inr ⟨rfl,.inl rfl⟩) (.inl rfl)
    | false =>
      constructor
      · rintro (hzero | ⟨-,htrue | hle⟩)
        · exact .inr (by omega)
        · cases htrue
        · exact .inr hle
      · rintro (htrue | hle)
        · cases htrue
        · exact .inr ⟨rfl,.inr hle⟩

end Comparison

section Copies
variable {kept : Kept} {f : Figure} {session copy : Dict}

theorem showsAny_oldestResults (rs : List Json) :
    (oldestResults kept rs).any (shows f) = (rs.any (shows f) && !kept f) := by
  induction rs generalizing kept with
  | nil => rfl
  | cons r rs ih =>
    rw [oldestResults, List.any_cons, List.any_cons, shows_trimmed, ih]
    cases kept f <;> cases shows f r <;> simp

theorem oldestResults_oldestResults (rs : List Json) :
    oldestResults kept (oldestResults kept rs) = oldestResults kept rs := by
  induction rs generalizing kept with
  | nil => rfl
  | cons r rs ih =>
    have hflags : (fun f => kept f || shows f (trimmed kept r)) = fun f => kept f || shows f r := by
      funext f
      rw [shows_trimmed]
      cases kept f <;> simp
    rw [oldestResults, oldestResults, trimmed_trimmed, hflags, ih]

theorem resultsOf_withResults {v : Json} {rs : List Json} (h : resultsOf v ≠ [] ∨ rs = []) :
    resultsOf (withResults rs v) = rs := by
  cases v with
  | obj msg =>
    cases harr : arrAt msg "results" with
    | none =>
      have hnil : resultsOf (.obj msg) = [] := by rw [resultsOf, harr]; rfl
      rw [withResults, harr, h.resolve_left fun hne => hne hnil]
      exact hnil
    | some rs' =>
      simp [withResults, harr, resultsOf]
  | _ => exact (h.resolve_left fun hne => hne rfl).symm

theorem withResults_withResults (v : Json) (rs rs' : List Json) :
    withResults rs' (withResults rs v) = withResults rs' v := by
  cases v with
  | obj msg =>
    cases harr : (arrAt msg "results").isSome with
    | false => simp [withResults, harr]
    | true => simp [withResults, harr, set_set]
  | _ => rfl

/-- A message reads back as what its own results become, where none become none. -/
theorem resultsOf_withResults_self {g : List Json → List Json} (hg : g [] = []) (msg : Json) :
    resultsOf (withResults (g (resultsOf msg)) msg) = g (resultsOf msg) := by
  refine resultsOf_withResults ?_
  cases resultsOf msg with
  | nil => exact .inr hg
  | cons r rs => exact .inl (List.cons_ne_nil r rs)

theorem resultsOf_oldest (kept : Kept) (msg : Json) :
    resultsOf (withResults (oldestResults kept (resultsOf msg)) msg) =
      oldestResults kept (resultsOf msg) := resultsOf_withResults_self rfl msg

theorem any_oldestMessages (messages : List Json) :
    (oldestMessages messages).any (showsIn f) = messages.any (showsIn f) := by
  induction messages with
  | nil => rfl
  | cons msg later ih =>
    rw [oldestMessages, List.any_cons, List.any_cons, ih, showsIn, resultsOf_oldest, showsAny_oldestResults,
      ← showsIn]
    cases later.any (showsIn f) <;> simp

/-- Slimming the messages again changes nothing. -/
theorem oldestMessages_oldestMessages (messages : List Json) :
    oldestMessages (oldestMessages messages) = oldestMessages messages := by
  induction messages with
  | nil => rfl
  | cons msg later ih =>
    rw [oldestMessages, oldestMessages, ih, resultsOf_oldest]
    simp only [any_oldestMessages]
    rw [oldestResults_oldestResults, withResults_withResults]

theorem slimmable_oldestResults {rs : List Json} (h : ∀ r ∈ rs, Slimmable r) :
    ∀ r ∈ oldestResults kept rs, Slimmable r := by
  induction rs generalizing kept with
  | nil => exact nofun
  | cons r rs ih =>
    rw [List.forall_mem_cons] at h
    exact List.forall_mem_cons.mpr ⟨slimmable_trimmed h.1,ih h.2⟩

theorem slimmableMessage_oldest {msg : Json} (h : SlimmableMessage msg) :
    SlimmableMessage (withResults (oldestResults kept (resultsOf msg)) msg) := by
  have hresults := resultsOf_oldest kept msg
  obtain ⟨m,rfl,harr,hrs⟩ := h
  cases hget : (arrAt m "results").isSome with
  | false =>
    have hsame : withResults (oldestResults kept (resultsOf (.obj m))) (.obj m) = .obj m := by
      simp [withResults, hget]
    rw [hsame]
    exact ⟨m,rfl,harr,hrs⟩
  | true =>
    have hset : withResults (oldestResults kept (resultsOf (.obj m))) (.obj m) =
        .obj (Dict.set m "results" (.arr (oldestResults kept (resultsOf (.obj m))))) := by
      simp [withResults, hget]
    rw [hset] at hresults ⊢
    refine ⟨_,rfl,fun results hres => ?_,by rw [hresults]; exact slimmable_oldestResults hrs⟩
    rw [Dict.get?_set_self, Option.filter_eq_some_iff] at hres
    exact ⟨_,(Option.some.inj hres.1).symm⟩

theorem slimmable_oldestMessages {messages : List Json} (h : ∀ msg ∈ messages, SlimmableMessage msg) :
    ∀ msg ∈ oldestMessages messages, SlimmableMessage msg := by
  induction messages with
  | nil => exact nofun
  | cons msg later ih =>
    rw [List.forall_mem_cons] at h
    exact List.forall_mem_cons.mpr ⟨slimmableMessage_oldest h.1,ih h.2⟩

/-- What the copy is, of a session with messages that can be slimmed. -/
def oldestOnly (session : Dict) : Dict :=
  let slim := withoutCancelEvent session
  match arrAt slim "messages" with
  | some messages => slim.set "messages" (.arr (oldestMessages messages))
  | none => slim

theorem withoutCancelEvent_get?_of_ne {key : String} (h : key ≠ "ctx") :
    (withoutCancelEvent session).get? key = session.get? key := by
  unfold withoutCancelEvent
  cases objAt session "ctx" with
  | none => rfl
  | some ctx => exact Dict.get?_set_of_ne h _ _

theorem arrAt_withoutCancelEvent :
    arrAt (withoutCancelEvent session) "messages" = arrAt session "messages" := by
  rw [arrAt, withoutCancelEvent_get?_of_ne (by decide), arrAt]

/-- A session whose messages can be slimmed. -/
def SlimmableSession (session : Dict) : Prop := ∀ v, session.get? "messages" = some v →
  (∃ messages, v = .arr messages ∧ ∀ msg ∈ messages, SlimmableMessage msg) ∨ v = .str "" ∨ v = .obj []

theorem slimForDisk_eq_ok :
    slimForDisk session = .ok copy ↔ SlimmableSession session ∧ copy = oldestOnly session := by
  have hget : (withoutCancelEvent session).get? "messages" = session.get? "messages" :=
    withoutCancelEvent_get?_of_ne (by decide)
  unfold slimForDisk oldestOnly SlimmableSession
  simp only [arrAt, hget]
  cases session.get? "messages" with
  | none => simp [asArr, eq_comm]
  | some v =>
    cases v with
    | arr messages =>
      simp only [bind_eq_ok, slimMessages_eq_ok, Option.bind_some, asArr]
      constructor
      · rintro ⟨_,⟨hslim,rfl⟩,h⟩
        refine ⟨fun v hv => ?_,(Except.ok.inj h).symm⟩
        cases hv
        exact .inl ⟨messages,rfl,hslim⟩
      · rintro ⟨hslim,rfl⟩
        obtain ⟨_,heq,hslim⟩ := (hslim _ rfl).resolve_right (by simp)
        cases heq
        exact ⟨_,⟨hslim,rfl⟩,rfl⟩
    | str s => by_cases hs : s = "" <;> simp [asArr, hs, eq_comm]
    | obj d => cases d <;> simp [asArr, eq_comm]
    | _ => simp

theorem withoutCancelEvent_oldestOnly : withoutCancelEvent (oldestOnly session) = oldestOnly session := by
  have hctx : objAt (oldestOnly session) "ctx" =
      (objAt session "ctx").map fun ctx => pop ctx "cancel_event" := by
    have hslim : objAt (oldestOnly session) "ctx" = objAt (withoutCancelEvent session) "ctx" := by
      unfold oldestOnly
      simp only
      cases arrAt (withoutCancelEvent session) "messages" with
      | none => rfl
      | some messages => exact congrArg (Option.bind · asObj) (Dict.get?_set_of_ne (by decide) _ _)
    rw [hslim, withoutCancelEvent]
    cases hobj : objAt session "ctx" with
    | none => exact hobj
    | some ctx => exact objAt_set_self _
  rw [withoutCancelEvent, hctx]
  cases hobj : objAt session "ctx" with
  | none => rfl
  | some ctx =>
    rw [hobj, Option.map_some] at hctx
    simp only [Option.map_some, pop_pop_self]
    exact set_get?_self (objAt_eq_some.mp hctx)

/-- Slimming the copy again changes nothing. -/
theorem slimForDisk_again (h : slimForDisk session = .ok copy) : slimForDisk copy = .ok copy := by
  obtain ⟨hslim,rfl⟩ := slimForDisk_eq_ok.mp h
  cases harr : arrAt session "messages" with
  | none =>
    have hcopy : oldestOnly session = withoutCancelEvent session := by
      rw [oldestOnly, arrAt_withoutCancelEvent, harr]
    have hsame : arrAt (oldestOnly session) "messages" = none := by
      rw [hcopy, arrAt_withoutCancelEvent, harr]
    refine slimForDisk_eq_ok.mpr ⟨fun v hv => hslim v ?_,?_⟩
    · rwa [hcopy, withoutCancelEvent_get?_of_ne (by decide)] at hv
    · rw [oldestOnly.eq_def (oldestOnly session), withoutCancelEvent_oldestOnly]
      simp only [hsame]
  | some messages =>
    have hcopy : oldestOnly session =
        (withoutCancelEvent session).set "messages" (.arr (oldestMessages messages)) := by
      rw [oldestOnly, arrAt_withoutCancelEvent, harr]
    have hsome : arrAt (oldestOnly session) "messages" = some (oldestMessages messages) := by
      rw [hcopy, arrAt_set_self]
    refine slimForDisk_eq_ok.mpr ⟨fun v hv => ?_,?_⟩
    · rw [arrAt_eq_some.mp hsome] at hv
      cases hv
      obtain ⟨_,heq,hmessages⟩ := (hslim _ (arrAt_eq_some.mp harr)).resolve_right (by simp)
      cases heq
      exact .inl ⟨_,rfl,slimmable_oldestMessages hmessages⟩
    · rw [oldestOnly.eq_def (oldestOnly session), withoutCancelEvent_oldestOnly]
      simp only [hsome, oldestMessages_oldestMessages]
      exact (set_get?_self (arrAt_eq_some.mp hsome)).symm

/-- The copy keeps exactly the newest figures just if, for the chart and for the viewer, the last
message that shows one shows it in a single result. -/
theorem keepsNewest_iff (hrun : slimForDisk session = .ok copy) :
    KeepsNewest session copy ↔ ∀ f, OneNewest f (messagesOf session) := by
  obtain ⟨-,hcopy⟩ := slimForDisk_eq_ok.mp hrun
  have heq : oldestOnly session = newestOnly session ↔ ∀ f, OneNewest f (messagesOf session) := by
    rw [oldestOnly, newestOnly, messagesOf, arrAt_withoutCancelEvent]
    cases arrAt session "messages" with
    | none => simp [OneNewest]
    | some messages =>
      rw [Option.getD_some, ← oldestMessages_eq_iff]
      refine ⟨fun h => ?_,fun h => by simp only [h]⟩
      have hboth := congrArg (fun d => arrAt d "messages") h
      simpa using hboth
  rw [← heq, ← hcopy]
  exact ⟨fun h => h.newest,fun h => ⟨h,slimForDisk_again hrun⟩⟩

end Copies

section Figures
variable {f : Figure}

/-- What a result shows of a figure. -/
def figureOf (f : Figure) (v : Json) : Option Json :=
  if shows f v then (asObj v).bind fun r => r.get? f.key else none

/-- What the results show of a figure, in their order. -/
def figures (f : Figure) (messages : List Json) : List Json :=
  messages.flatMap fun msg => (resultsOf msg).filterMap (figureOf f)

theorem figureOf_isSome {v : Json} : (figureOf f v).isSome = shows f v := by
  cases v with
  | obj r =>
    rw [figureOf, shows, truthyAt]
    cases h : Dict.get? r f.key with
    | none => rfl
    | some w => cases hw : truthy w <;> simp [asObj, h, hw]
  | _ => rfl

theorem figureOf_trimmed {drop : Kept} (v : Json) :
    figureOf f (trimmed drop v) = if drop f then none else figureOf f v := by
  have hshows := @shows_trimmed drop f v
  cases hdrop : drop f with
  | true =>
    rw [hdrop, Bool.not_true, Bool.and_false] at hshows
    rw [figureOf, hshows]
    rfl
  | false =>
    rw [hdrop, Bool.not_false, Bool.and_true] at hshows
    rw [figureOf, hshows, figureOf]
    cases v with
    | obj r =>
      have hget (g : Figure) (r' : Dict) : (dropFigure drop g r').get? f.key = r'.get? f.key := by
        by_cases hg : f = g
        · rw [dropFigure, ← hg, hdrop]
          rfl
        · exact dropFigure_get?_of_ne (Figure.key_ne hg)
      simp only [trimmed, asObj, Option.bind_some, thin_get?_of_ne f.key_ne_json, hget]
      rfl
    | _ => rfl

theorem any_shows_eq_false {rs : List Json} :
    rs.any (shows f) = false ↔ rs.filterMap (figureOf f) = [] := by
  rw [List.any_eq_false, List.filterMap_eq_nil_iff]
  refine forall₂_congr fun v _ => ?_
  rw [← figureOf_isSome, Bool.not_eq_true, Option.isSome_eq_false_iff, Option.isNone_iff_eq_none]

theorem figures_newestResults {later : Kept} (rs : List Json) :
    (newestResults later rs).filterMap (figureOf f) =
      if later f then [] else (rs.filterMap (figureOf f)).getLast?.toList := by
  induction rs with
  | nil => cases later f <;> rfl
  | cons r rs ih =>
    rw [newestResults, List.filterMap_cons, figureOf_trimmed, ih, List.filterMap_cons]
    cases hlater : later f with
    | true => simp
    | false =>
      cases hshows : rs.any (shows f) with
      | true =>
        have hne : rs.filterMap (figureOf f) ≠ [] := fun h => by
          rw [any_shows_eq_false.mpr h] at hshows
          cases hshows
        cases figureOf f r <;> simp [List.getLast?_cons_of_ne_nil hne]
      | false =>
        rw [any_shows_eq_false.mp hshows]
        cases figureOf f r <;> simp

theorem resultsOf_newest (later : Kept) (msg : Json) :
    resultsOf (withResults (newestResults later (resultsOf msg)) msg) =
      newestResults later (resultsOf msg) := resultsOf_withResults_self rfl msg

theorem any_showsIn_eq_false {messages : List Json} :
    messages.any (showsIn f) = false ↔ figures f messages = [] := by
  rw [figures, List.flatMap_eq_nil_iff, List.any_eq_false]
  refine forall₂_congr fun msg _ => ?_
  rw [Bool.not_eq_true, showsIn, any_shows_eq_false]

/-- The newest-only messages show one figure where the messages show any, that of the last result
with one. -/
theorem figures_newestMessages (messages : List Json) :
    figures f (newestMessages messages) = (figures f messages).getLast?.toList := by
  induction messages with
  | nil => rfl
  | cons msg later ih =>
    have hcons (m : Json) (ms : List Json) :
        figures f (m :: ms) = (resultsOf m).filterMap (figureOf f) ++ figures f ms := List.flatMap_cons
    rw [newestMessages, hcons, hcons, ih, resultsOf_newest, figures_newestResults]
    cases hany : later.any (showsIn f) with
    | true =>
      have hne : figures f later ≠ [] := fun h => by
        rw [any_showsIn_eq_false.mpr h] at hany
        cases hany
      rw [if_pos rfl, List.nil_append, List.getLast?_append_of_ne_nil _ hne]
    | false =>
      rw [any_showsIn_eq_false.mp hany]
      simp

end Figures

section Samples

/-- A session whose last message has two charts. -/
def chartedTwice : Dict :=
  [("ctx",.obj []),("messages",.arr [.obj [("results",.arr [
    .obj [("chart",.str "scf")],.obj [("chart",.str "bands")]])]])]

/-- A session whose messages have one chart each. -/
def chartedOnce : Dict :=
  [("ctx",.obj []),("messages",.arr [.obj [("results",.arr [.obj [("chart",.str "scf")]])],
    .obj [("results",.arr [.obj [("chart",.str "bands")]])]])]

theorem chartedOnce_slim : slimForDisk chartedOnce = .ok [("ctx",.obj []),
    ("messages",.arr [.obj [("results",.arr [.obj []])],
      .obj [("results",.arr [.obj [("chart",.str "bands")]])]])] := by
  rfl

theorem chartedOnce_newest : ∃ copy, slimForDisk chartedOnce = .ok copy ∧ KeepsNewest chartedOnce copy := by
  refine ⟨_,chartedOnce_slim,(keepsNewest_iff chartedOnce_slim).mpr fun f => ?_⟩
  cases f with
  | chart => exact fun msg h => by cases h; rfl
  | viewer => exact fun msg h => by cases h

/-- Of two charts in one message, the first is kept. -/
theorem older_chart_kept : ∃ copy, slimForDisk chartedTwice = .ok copy ∧ ¬ KeepsNewest chartedTwice copy := by
  have hslim : slimForDisk chartedTwice = .ok [("ctx",.obj []),("messages",.arr [.obj [("results",.arr [
    .obj [("chart",.str "scf")],.obj []])]])] := rfl
  refine ⟨_,hslim,fun h => ?_⟩
  have hspec : newestOnly chartedTwice = [("ctx",.obj []),("messages",.arr [.obj [("results",.arr [
    .obj [],.obj [("chart",.str "bands")]])]])] := rfl
  have hnewest := h.newest
  rw [hspec] at hnewest
  simp at hnewest

end Samples
end DftForge.Web
