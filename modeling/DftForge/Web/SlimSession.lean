import DftForge.Library.Fallible
import DftForge.Agent.Session
import Mathlib.Logic.Function.Basic

/-! # Slim copies of sessions

`_slim_for_disk` drops the charts and the viewers of a session but the newest ones, and what is
bulky in the outputs of its nodes. The messages are scanned from the last to the first, but the
results of a message from the first to the last. A session is the value that `json.dumps` writes
and `json.loads` reads back.
-/
namespace DftForge.Web
open DftForge.Library DftForge.Runtime DftForge.Engines DftForge.Agent

section Access

def asObj : Json → Option Dict
  | .obj d => some d
  | _ => none

def asArr : Json → Option (List Json)
  | .arr items => some items
  | _ => none

def objAt (d : Dict) (key : String) : Option Dict := (d.get? key).bind asObj

def arrAt (d : Dict) (key : String) : Option (List Json) := (d.get? key).bind asArr

end Access

section Slim

/-- The payloads of a result of which only the newest is kept. -/
inductive Figure where
  | chart
  | viewer
  deriving DecidableEq, Repr

def Figure.key : Figure → String
  | .chart => "chart"
  | .viewer => "viewer"

/-- `keep_chart` and `keep_viewer`. -/
abbrev Kept := Figure → Bool

def bulkyNodeOutputs : List String :=
  ["eigenvalues_ev","dos_curve","pdos_curve","k_axis","k_ticks","k_labels"]

def attributeError : String := "AttributeError"

def typeError : String := "TypeError"

def slimOutputs (node : Dict) : Dict :=
  match objAt node "outputs" with
  | some outs => node.set "outputs" (.obj (bulkyNodeOutputs.foldl pop outs))
  | none => node

def slimNode : String × Json → Except String (String × Json)
  | (id, .obj node) => .ok (id,.obj (slimOutputs node))
  | _ => .error attributeError

/-- The json of a result; `j.get("nodes") or {}` are its nodes. -/
def slimJson (j : Dict) : Except String Dict :=
  match (j.get? "nodes").filter truthy with
  | none => .ok j
  | some (.obj nodes) => do
    let nodes ← nodes.mapM slimNode
    return j.set "nodes" (.obj nodes)
  | some _ => .error attributeError

def slimEntry (r : Dict) : Except String Dict :=
  match objAt r "json" with
  | some j => do
    let j ← slimJson j
    return r.set "json" (.obj j)
  | none => .ok r

/-- One of the two tests on a result. -/
def slimFigure (f : Figure) (s : Kept × Dict) : Kept × Dict :=
  if truthyAt s.2 f.key then
    if s.1 f then (s.1,pop s.2 f.key) else (Function.update s.1 f true,s.2)
  else s

def slimResult (kept : Kept) : Json → Except String (Kept × Json)
  | .obj r => do
    let s := slimFigure .viewer (slimFigure .chart (kept,r))
    let r ← slimEntry s.2
    return (s.1,.obj r)
  | _ => .error attributeError

/-- The loop over the results of a message. -/
def slimResults (kept : Kept) : List Json → Except String (Kept × List Json)
  | [] => .ok (kept,[])
  | r :: rs => do
    let (kept,r) ← slimResult kept r
    let (kept,rs) ← slimResults kept rs
    return (kept,r :: rs)

def slimMessage (kept : Kept) : Json → Except String (Kept × Json)
  | .obj msg =>
    match (Dict.get? msg "results").filter truthy with
    | none => .ok (kept,.obj msg)
    | some (.arr rs) => do
      let (kept,rs) ← slimResults kept rs
      return (kept,.obj (Dict.set msg "results" (.arr rs)))
    | some (.str _) => .error attributeError
    | some (.obj _) => .error attributeError
    | some _ => .error typeError
  | _ => .error attributeError

/-- The loop over the messages, from the last to the first. -/
def slimMessages : List Json → Except String (Kept × List Json)
  | [] => .ok (fun _ => false,[])
  | msg :: later => do
    let (kept,later) ← slimMessages later
    let (kept,msg) ← slimMessage kept msg
    return (kept,msg :: later)

def withoutCancelEvent (s : Dict) : Dict :=
  match objAt s "ctx" with
  | some ctx => s.set "ctx" (.obj (pop ctx "cancel_event"))
  | none => s

/-- `_slim_for_disk`. -/
def slimForDisk (session : Dict) : Except String Dict :=
  let slim := withoutCancelEvent session
  match slim.get? "messages" with
  | none => .ok slim
  | some (.arr messages) => do
    let (_,messages) ← slimMessages messages
    return slim.set "messages" (.arr messages)
  | some (.str s) => if s = "" then .ok slim else .error attributeError
  | some (.obj d) => if d.isEmpty then .ok slim else .error attributeError
  | some _ => .error typeError

end Slim

section Newest

/-- A result shows a figure. -/
def shows (f : Figure) : Json → Bool
  | .obj r => truthyAt r f.key
  | _ => false

def resultsOf : Json → List Json
  | .obj msg => (arrAt msg "results").getD []
  | _ => []

/-- A message shows a figure. -/
def showsIn (f : Figure) (msg : Json) : Bool := (resultsOf msg).any (shows f)

def dropFigure (drop : Kept) (f : Figure) (r : Dict) : Dict :=
  if drop f && truthyAt r f.key then pop r f.key else r

def withoutBulky (node : Dict) : Dict :=
  match objAt node "outputs" with
  | some outs => node.set "outputs" (.obj (outs.filter fun kv => kv.1 ∉ bulkyNodeOutputs))
  | none => node

/-- A node without its bulky outputs; what is no node stays. -/
def thinNode : String × Json → String × Json
  | (id, .obj node) => (id,.obj (withoutBulky node))
  | node => node

def thinJson (j : Dict) : Dict :=
  match objAt j "nodes" with
  | some nodes => j.set "nodes" (.obj (nodes.map thinNode))
  | none => j

/-- A result whose nodes are without their bulky outputs. -/
def thin (r : Dict) : Dict :=
  match objAt r "json" with
  | some j => r.set "json" (.obj (thinJson j))
  | none => r

/-- A result without the figures that are dropped and without what is bulky. -/
def trimmed (drop : Kept) : Json → Json
  | .obj r => .obj (thin (dropFigure drop .viewer (dropFigure drop .chart r)))
  | r => r

/-- The results of a message, where a figure that a later result also shows is dropped; `later`
tells what the later messages show. -/
def newestResults (later : Kept) : List Json → List Json
  | [] => []
  | r :: rs => trimmed (fun f => later f || rs.any (shows f)) r :: newestResults later rs

def withResults (rs : List Json) : Json → Json
  | .obj msg => if (arrAt msg "results").isSome then .obj (Dict.set msg "results" (.arr rs)) else .obj msg
  | msg => msg

def newestMessages : List Json → List Json
  | [] => []
  | msg :: later =>
    withResults (newestResults (fun f => later.any (showsIn f)) (resultsOf msg)) msg :: newestMessages later

/-- The session in which a figure stays just where no later result shows one, without the bulky
outputs and the cancel event; the rest is as it was. -/
def newestOnly (session : Dict) : Dict :=
  let slim := withoutCancelEvent session
  match arrAt slim "messages" with
  | some messages => slim.set "messages" (.arr (newestMessages messages))
  | none => slim

/-- A copy keeps exactly the newest figures, and slimming it again changes nothing. -/
structure KeepsNewest (session copy : Dict) : Prop where
  newest : copy = newestOnly session
  again : slimForDisk copy = .ok copy

def messagesOf (session : Dict) : List Json := (arrAt session "messages").getD []

/-- The last message that shows a figure shows it in one result. -/
def OneNewest (f : Figure) (messages : List Json) : Prop :=
  ∀ msg ∈ (messages.filter (showsIn f)).getLast?, (resultsOf msg).countP (shows f) = 1

end Newest

section Dicts
variable {d : Dict} {key : String}

theorem set_get?_self {v : Json} (h : d.get? key = some v) : d.set key v = d := by
  induction d with
  | nil => cases h
  | cons kv rest ih =>
    obtain ⟨k,w⟩ := kv
    by_cases hk : k = key
    · subst hk
      rw [Dict.get?, List.lookup_cons_self, Option.some.injEq] at h
      rw [Dict.set, if_pos rfl, h]
    · have hne : (key == k) = false := by simpa using Ne.symm hk
      rw [Dict.get?, List.lookup_cons, hne] at h
      rw [Dict.set, if_neg hk, ih h]

theorem set_set (d : Dict) (key : String) (v w : Json) : (d.set key v).set key w = d.set key w := by
  induction d with
  | nil => simp [Dict.set]
  | cons kv rest ih =>
    obtain ⟨k,u⟩ := kv
    by_cases hk : k = key
    · simp [Dict.set, hk]
    · simp [Dict.set, hk, ih]

theorem objAt_eq_some {o : Dict} : objAt d key = some o ↔ d.get? key = some (.obj o) := by
  rw [objAt, Option.bind_eq_some_iff]
  constructor
  · rintro ⟨v,hv,hobj⟩
    cases v with
    | obj o' => rw [hv, ← Option.some.inj hobj]
    | _ => cases hobj
  · intro h
    exact ⟨_,h,rfl⟩

theorem arrAt_eq_some {items : List Json} : arrAt d key = some items ↔ d.get? key = some (.arr items) := by
  rw [arrAt, Option.bind_eq_some_iff]
  constructor
  · rintro ⟨v,hv,harr⟩
    cases v with
    | arr items' => rw [hv, ← Option.some.inj harr]
    | _ => cases harr
  · intro h
    exact ⟨_,h,rfl⟩

@[simp] theorem objAt_set_self (o : Dict) : objAt (d.set key (.obj o)) key = some o := by
  rw [objAt_eq_some, Dict.get?_set_self]

@[simp] theorem arrAt_set_self (items : List Json) : arrAt (d.set key (.arr items)) key = some items := by
  rw [arrAt_eq_some, Dict.get?_set_self]

end Dicts

section Entries
variable {r : Dict}

/-- The nodes of a result, if it has some, are objects. -/
def Regular (r : Dict) : Prop :=
  ∀ j, objAt r "json" = some j → ∀ nodes, (j.get? "nodes").filter truthy = some nodes →
    ∃ ns : Dict, nodes = .obj ns ∧ ∀ n ∈ ns, ∃ node, n.2 = .obj node

theorem slimOutputs_eq (node : Dict) : slimOutputs node = withoutBulky node := by
  rw [slimOutputs, withoutBulky]
  simp only [foldl_pop]

theorem slimNode_eq_ok (n n' : String × Json) :
    slimNode n = .ok n' ↔ (∃ node, n.2 = .obj node) ∧ n' = thinNode n := by
  obtain ⟨id,v⟩ := n
  cases v with
  | obj node => simp [slimNode, thinNode, slimOutputs_eq, eq_comm]
  | _ => simp [slimNode]

theorem slimJson_eq_ok {j j' : Dict} : slimJson j = .ok j' ↔
    (∀ nodes, (j.get? "nodes").filter truthy = some nodes →
      ∃ ns : Dict, nodes = .obj ns ∧ ∀ n ∈ ns, ∃ node, n.2 = .obj node) ∧ j' = thinJson j := by
  unfold slimJson
  cases hnodes : (j.get? "nodes").filter truthy with
  | none =>
    have hthin : thinJson j = j := by
      unfold thinJson
      cases hobj : objAt j "nodes" with
      | none => rfl
      | some ns =>
        rw [objAt_eq_some] at hobj
        rw [hobj, Option.filter_some] at hnodes
        cases ns with
        | nil => exact set_get?_self hobj
        | cons n ns => simp [truthy] at hnodes
    simp [hthin, eq_comm]
  | some v =>
    have hget : j.get? "nodes" = some v := (Option.filter_eq_some_iff.mp hnodes).1
    cases v with
    | obj ns =>
      have hthin : thinJson j = j.set "nodes" (.obj (ns.map thinNode)) := by
        rw [thinJson, objAt_eq_some.mpr hget]
      rw [hthin]
      simp only [bind_eq_ok, mapM_eq_ok_map_iff slimNode_eq_ok]
      constructor
      · rintro ⟨_,⟨hobj,rfl⟩,h⟩
        exact ⟨fun nodes hnodes => ⟨ns,(Option.some.inj hnodes).symm,hobj⟩,(Except.ok.inj h).symm⟩
      · rintro ⟨hobj,rfl⟩
        obtain ⟨ns',heq,hobj⟩ := hobj _ rfl
        cases heq
        exact ⟨_,⟨hobj,rfl⟩,rfl⟩
    | _ => simp

theorem slimEntry_eq_ok {r' : Dict} : slimEntry r = .ok r' ↔ Regular r ∧ r' = thin r := by
  unfold slimEntry thin Regular
  cases hj : objAt r "json" with
  | none => simp [eq_comm]
  | some j =>
    simp only [bind_eq_ok, slimJson_eq_ok, Option.some.injEq, forall_eq']
    constructor
    · rintro ⟨_,⟨hreg,rfl⟩,h⟩
      exact ⟨hreg,(Except.ok.inj h).symm⟩
    · rintro ⟨hreg,rfl⟩
      exact ⟨_,⟨hreg,rfl⟩,rfl⟩

theorem withoutBulky_withoutBulky (node : Dict) : withoutBulky (withoutBulky node) = withoutBulky node := by
  cases houts : objAt node "outputs" with
  | none =>
    have hsame : withoutBulky node = node := by rw [withoutBulky, houts]
    rw [hsame, hsame]
  | some outs =>
    have hset : withoutBulky node =
        node.set "outputs" (.obj (outs.filter fun kv => kv.1 ∉ bulkyNodeOutputs)) := by
      rw [withoutBulky, houts]
    rw [hset, withoutBulky, objAt_set_self]
    simp only [List.filter_filter, Bool.and_self]
    exact set_get?_self (Dict.get?_set_self _ _ _)

theorem thinNode_thinNode (n : String × Json) : thinNode (thinNode n) = thinNode n := by
  obtain ⟨id,v⟩ := n
  cases v with
  | obj node => simp [thinNode, withoutBulky_withoutBulky]
  | _ => rfl

theorem thinJson_thinJson (j : Dict) : thinJson (thinJson j) = thinJson j := by
  cases hnodes : objAt j "nodes" with
  | none =>
    have hsame : thinJson j = j := by rw [thinJson, hnodes]
    rw [hsame, hsame]
  | some nodes =>
    have hset : thinJson j = j.set "nodes" (.obj (nodes.map thinNode)) := by rw [thinJson, hnodes]
    rw [hset, thinJson, objAt_set_self]
    simp only [List.map_map, Function.comp_def, thinNode_thinNode]
    exact set_get?_self (Dict.get?_set_self _ _ _)

theorem thin_thin (r : Dict) : thin (thin r) = thin r := by
  cases hj : objAt r "json" with
  | none =>
    have hsame : thin r = r := by rw [thin, hj]
    rw [hsame, hsame]
  | some j =>
    have hset : thin r = r.set "json" (.obj (thinJson j)) := by rw [thin, hj]
    rw [hset, thin, objAt_set_self]
    simp only [thinJson_thinJson]
    exact set_get?_self (Dict.get?_set_self _ _ _)

theorem thin_get?_of_ne {key : String} (h : key ≠ "json") (r : Dict) : (thin r).get? key = r.get? key := by
  unfold thin
  cases objAt r "json" with
  | none => rfl
  | some j => exact Dict.get?_set_of_ne h _ _

theorem regular_thin (h : Regular r) : Regular (thin r) := by
  cases hj : objAt r "json" with
  | none =>
    have hsame : thin r = r := by rw [thin, hj]
    rw [hsame]
    exact h
  | some j =>
    have hset : thin r = r.set "json" (.obj (thinJson j)) := by rw [thin, hj]
    rw [Regular, hset, objAt_set_self]
    rintro _ ⟨⟩ nodes hnodes
    cases hobj : objAt j "nodes" with
    | none =>
      have hsame : thinJson j = j := by rw [thinJson, hobj]
      rw [hsame] at hnodes
      exact h j hj nodes hnodes
    | some ns =>
      have hthin : thinJson j = j.set "nodes" (.obj (ns.map thinNode)) := by rw [thinJson, hobj]
      rw [hthin, Dict.get?_set_self, Option.filter_eq_some_iff] at hnodes
      obtain ⟨heq,htruthy⟩ := hnodes
      cases heq
      obtain ⟨ns',heq,hobjs⟩ := h j hj (.obj ns) (by
        rw [objAt_eq_some.mp hobj, Option.filter_eq_some_iff]
        refine ⟨rfl,?_⟩
        cases ns with
        | nil => exact htruthy
        | cons n ns => rfl)
      cases heq
      refine ⟨_,rfl,fun n hn => ?_⟩
      obtain ⟨⟨id,v⟩,hm,rfl⟩ := List.mem_map.mp hn
      obtain ⟨node,hnode⟩ := hobjs _ hm
      exact ⟨withoutBulky node,by rw [show v = .obj node from hnode]; rfl⟩

end Entries

section Figures
variable {r : Dict} {drop kept : Kept} {f g : Figure}

theorem Figure.key_ne (h : g ≠ f) : g.key ≠ f.key := by
  cases f <;> cases g <;> first | exact absurd rfl h | decide

theorem Figure.key_ne_json (f : Figure) : f.key ≠ "json" := by
  cases f <;> decide

theorem dropFigure_get?_of_ne {key : String} (h : key ≠ f.key) :
    (dropFigure drop f r).get? key = r.get? key := by
  unfold dropFigure
  split_ifs
  · exact pop_get?_of_ne h r
  · rfl

theorem truthyAt_dropFigure : truthyAt (dropFigure drop f r) g.key =
    (truthyAt r g.key && !(decide (g = f) && drop f)) := by
  by_cases hg : g = f
  · subst hg
    unfold dropFigure
    by_cases hdrop : (drop g && truthyAt r g.key) = true
    · rw [if_pos hdrop, truthyAt, pop_get?_self]
      rw [Bool.and_eq_true] at hdrop
      simp [hdrop.1]
    · rw [if_neg hdrop]
      cases htruthy : truthyAt r g.key with
      | false => rfl
      | true => simpa [htruthy] using hdrop
  · rw [truthyAt_congr (dropFigure_get?_of_ne (Figure.key_ne hg))]
    simp [hg]

theorem slimFigure_eq : slimFigure f (kept,r) =
    (fun g => kept g || (decide (g = f) && truthyAt r f.key),dropFigure kept f r) := by
  unfold slimFigure dropFigure
  cases htruthy : truthyAt r f.key with
  | false => simp
  | true =>
    cases hkept : kept f with
    | true =>
      have hflags : (fun g => kept g || decide (g = f)) = kept := by
        funext g
        by_cases hg : g = f
        · rw [hg, hkept]
          rfl
        · simp [hg]
      simp [hkept, hflags]
    | false =>
      have hflags : (fun g => kept g || decide (g = f)) = Function.update kept f true := by
        funext g
        by_cases hg : g = f
        · subst hg
          simp
        · simp [hg]
      simp [hkept, hflags]

/-- A result that is an object with regular nodes. -/
def Slimmable (v : Json) : Prop := ∃ r, v = .obj r ∧ Regular r

theorem regular_congr {r' : Dict} (h : r'.get? "json" = r.get? "json") : Regular r' ↔ Regular r := by
  rw [Regular, Regular, objAt, objAt, h]

theorem regular_dropFigure : Regular (dropFigure drop f r) ↔ Regular r :=
  regular_congr (dropFigure_get?_of_ne f.key_ne_json.symm)

theorem slimResult_eq_ok {v : Json} {p : Kept × Json} : slimResult kept v = .ok p ↔
    Slimmable v ∧ p = (fun f => kept f || shows f v,trimmed kept v) := by
  cases v with
  | obj r =>
    have hflags : (slimFigure .viewer (slimFigure .chart (kept,r))).1 =
        fun f => kept f || truthyAt r f.key := by
      rw [slimFigure_eq, slimFigure_eq]
      funext f
      cases f <;> simp [truthyAt_dropFigure]
    have hdict : (slimFigure .viewer (slimFigure .chart (kept,r))).2 =
        dropFigure kept .viewer (dropFigure kept .chart r) := by
      rw [slimFigure_eq, slimFigure_eq]
      simp [dropFigure]
    simp only [slimResult, bind_eq_ok, slimEntry_eq_ok]
    rw [hdict, hflags, regular_dropFigure, regular_dropFigure]
    constructor
    · rintro ⟨_,⟨hreg,rfl⟩,h⟩
      exact ⟨⟨r,rfl,hreg⟩,(Except.ok.inj h).symm⟩
    · rintro ⟨⟨r',heq,hreg⟩,rfl⟩
      cases heq
      exact ⟨_,⟨hreg,rfl⟩,rfl⟩
  | _ => simp [slimResult, Slimmable]

theorem shows_trimmed (v : Json) : shows f (trimmed drop v) = (shows f v && !drop f) := by
  cases v with
  | obj r =>
    rw [trimmed, shows, shows, truthyAt_congr (thin_get?_of_ne f.key_ne_json _), truthyAt_dropFigure,
      truthyAt_dropFigure]
    cases f <;> simp
  | _ => rfl

/-- Two ways to trim a result agree just where they agree on the figures that it shows. -/
theorem trimmed_eq_iff {a b : Kept} (v : Json) :
    trimmed a v = trimmed b v ↔ ∀ f, shows f v = true → a f = b f := by
  constructor
  · intro h f hf
    have hshows := congrArg (shows f) h
    rw [shows_trimmed, shows_trimmed, hf, Bool.true_and, Bool.true_and] at hshows
    exact Bool.not_inj hshows
  · intro h
    cases v with
    | obj r =>
      have hchart : dropFigure a .chart r = dropFigure b .chart r := by
        unfold dropFigure
        cases htruthy : truthyAt r Figure.chart.key with
        | false => simp
        | true => rw [h .chart htruthy]
      have hviewer : dropFigure a .viewer (dropFigure b .chart r) =
          dropFigure b .viewer (dropFigure b .chart r) := by
        have hsame : truthyAt (dropFigure b .chart r) Figure.viewer.key = truthyAt r Figure.viewer.key := by
          simp [truthyAt_dropFigure]
        rw [dropFigure.eq_def a, dropFigure.eq_def b .viewer, hsame]
        cases htruthy : truthyAt r Figure.viewer.key with
        | false => simp
        | true => rw [h .viewer htruthy]
      rw [trimmed, trimmed, hchart, hviewer]
    | _ => rfl

theorem trimmed_trimmed (v : Json) : trimmed drop (trimmed drop v) = trimmed drop v := by
  cases v with
  | obj r =>
    have hkeep (f : Figure) (r' : Dict) (h : (truthyAt r' f.key && drop f) = false) :
        dropFigure drop f r' = r' := by
      rw [dropFigure, Bool.and_comm, h]
      rfl
    have hshown (f : Figure) : (shows f (trimmed drop (.obj r)) && drop f) = false := by
      rw [shows_trimmed]
      cases drop f <;> simp
    rw [trimmed] at hshown ⊢
    rw [trimmed, hkeep .chart _ (hshown .chart), hkeep .viewer _ (hshown .viewer), thin_thin]
  | _ => rfl

theorem slimmable_trimmed {v : Json} (h : Slimmable v) : Slimmable (trimmed drop v) := by
  obtain ⟨r,rfl,hreg⟩ := h
  exact ⟨_,rfl,regular_thin (regular_dropFigure.mpr (regular_dropFigure.mpr hreg))⟩

end Figures

section Messages
variable {kept : Kept} {f : Figure}

/-- What the loop over the results makes of them: of the results of a message, the first with a
figure keeps it. -/
def oldestResults (kept : Kept) : List Json → List Json
  | [] => []
  | r :: rs => trimmed kept r :: oldestResults (fun f => kept f || shows f r) rs

def oldestMessages : List Json → List Json
  | [] => []
  | msg :: later =>
    withResults (oldestResults (fun f => later.any (showsIn f)) (resultsOf msg)) msg :: oldestMessages later

theorem slimResults_eq_ok {rs : List Json} {p : Kept × List Json} : slimResults kept rs = .ok p ↔
    (∀ r ∈ rs, Slimmable r) ∧ p = (fun f => kept f || rs.any (shows f),oldestResults kept rs) := by
  induction rs generalizing kept p with
  | nil => simp [slimResults, oldestResults, eq_comm]
  | cons r rs ih =>
    simp only [slimResults, bind_eq_ok, slimResult_eq_ok, ih, List.forall_mem_cons]
    have hflags : (fun f => (kept f || shows f r) || rs.any (shows f)) =
        fun f => kept f || (r :: rs).any (shows f) := by
      funext f
      rw [List.any_cons, Bool.or_assoc]
    constructor
    · rintro ⟨_,⟨hr,rfl⟩,_,⟨hrs,rfl⟩,h⟩
      exact ⟨⟨hr,hrs⟩,(Except.ok.inj h).symm.trans (by rw [hflags]; rfl)⟩
    · rintro ⟨⟨hr,hrs⟩,rfl⟩
      exact ⟨_,⟨hr,rfl⟩,_,⟨hrs,rfl⟩,by rw [hflags]; rfl⟩

/-- A message over whose results the loop runs without an exception. -/
def SlimmableMessage (v : Json) : Prop :=
  ∃ msg : Dict, v = .obj msg ∧ (∀ results, (msg.get? "results").filter truthy = some results →
    ∃ rs, results = .arr rs) ∧ ∀ r ∈ resultsOf v, Slimmable r

theorem slimMessage_eq_ok {v : Json} {p : Kept × Json} : slimMessage kept v = .ok p ↔ SlimmableMessage v ∧
    p = (fun f => kept f || showsIn f v,withResults (oldestResults kept (resultsOf v)) v) := by
  cases v with
  | obj msg =>
    cases hresults : (Dict.get? msg "results").filter truthy with
    | none =>
      have hnil : resultsOf (.obj msg) = [] := by
        rw [resultsOf]
        cases harr : arrAt msg "results" with
        | none => rfl
        | some rs =>
          rw [arrAt_eq_some.mp harr, Option.filter_some] at hresults
          cases rs with
          | nil => rfl
          | cons r rs => simp [truthy] at hresults
      have hsame : withResults [] (.obj msg) = .obj msg := by
        simp only [withResults]
        split_ifs with harr
        · obtain ⟨rs,hrs⟩ := Option.isSome_iff_exists.mp harr
          rw [resultsOf, hrs, Option.getD_some] at hnil
          rw [hnil, arrAt_eq_some] at hrs
          rw [set_get?_self hrs]
        · rfl
      simp [slimMessage, SlimmableMessage, showsIn, hnil, oldestResults, hsame, hresults, eq_comm]
    | some v =>
      have hget : Dict.get? msg "results" = some v := (Option.filter_eq_some_iff.mp hresults).1
      cases v with
      | arr rs =>
        have harr : arrAt msg "results" = some rs := arrAt_eq_some.mpr hget
        have hrs : resultsOf (.obj msg) = rs := by rw [resultsOf, harr, Option.getD_some]
        have hwith (rs' : List Json) :
            withResults rs' (.obj msg) = .obj (Dict.set msg "results" (.arr rs')) := by
          rw [withResults, harr]
          rfl
        simp only [slimMessage, hresults, bind_eq_ok, slimResults_eq_ok, SlimmableMessage, showsIn, hrs,
          hwith]
        constructor
        · rintro ⟨_,⟨hslim,rfl⟩,h⟩
          refine ⟨⟨msg,rfl,fun results hres => ?_,hslim⟩,(Except.ok.inj h).symm⟩
          exact ⟨rs,(Option.some.inj (hresults.symm.trans hres)).symm⟩
        · rintro ⟨⟨_,-,-,hslim⟩,rfl⟩
          exact ⟨_,⟨hslim,rfl⟩,rfl⟩
      | _ =>
        refine iff_of_false (by simp [slimMessage, hresults]) ?_
        rintro ⟨⟨_,heq,hres,-⟩,-⟩
        cases heq
        obtain ⟨rs,hrs⟩ := hres _ hresults
        cases hrs
  | _ => simp [slimMessage, SlimmableMessage]

theorem slimMessages_eq_ok {messages : List Json} {p : Kept × List Json} : slimMessages messages = .ok p ↔
    (∀ msg ∈ messages, SlimmableMessage msg) ∧
      p = (fun f => messages.any (showsIn f),oldestMessages messages) := by
  induction messages generalizing p with
  | nil => simp [slimMessages, oldestMessages, eq_comm]
  | cons msg later ih =>
    simp only [slimMessages, bind_eq_ok, slimMessage_eq_ok, ih, List.forall_mem_cons]
    have hflags : (fun f => later.any (showsIn f) || showsIn f msg) =
        fun f => (msg :: later).any (showsIn f) := by
      funext f
      rw [List.any_cons, Bool.or_comm]
    constructor
    · rintro ⟨_,⟨hlater,rfl⟩,_,⟨hmsg,rfl⟩,h⟩
      exact ⟨⟨hmsg,hlater⟩,(Except.ok.inj h).symm.trans (by rw [hflags]; rfl)⟩
    · rintro ⟨⟨hmsg,hlater⟩,rfl⟩
      exact ⟨_,⟨hlater,rfl⟩,_,⟨hmsg,rfl⟩,by rw [hflags]; rfl⟩

end Messages

end DftForge.Web
