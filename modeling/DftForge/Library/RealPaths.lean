import Mathlib.Data.List.Infix
import Mathlib.Logic.Function.Basic

/-! # Paths through symbolic links

A tree of files, directories and symbolic links, and the place in it that a path leads to.
-/
namespace DftForge.Library.RealPaths

inductive Comp (N : Type*) where
  | name (n : N)
  | up

/-- A path as it is written, `.` and doubled separators left out. -/
structure Path (N : Type*) where
  absolute : Bool
  comps : List (Comp N)

def Path.join {N : Type*} (p q : Path N) : Path N := if q.absolute then q else ⟨p.absolute,p.comps ++ q.comps⟩

inductive Entry (N F : Type*) where
  | file (content : F)
  | dir
  | link (target : Path N)

variable {N F : Type*}

def Entry.isLink : Entry N F → Bool
  | .link _ => true
  | _ => false

def isDir : Option (Entry N F) → Bool
  | some .dir => true
  | _ => false

theorem isDir_iff {e : Option (Entry N F)} : isDir e = true ↔ e = some .dir := by
  cases e with
  | none => simp [isDir]
  | some e => cases e <;> simp [isDir]

theorem ne_dir {e : Option (Entry N F)} (h : e = none) : e ≠ some .dir := by
  rw [h]
  exact (Option.some_ne_none _).symm

instance decidableDir (e : Option (Entry N F)) : Decidable (e = some .dir) := decidable_of_iff _ isDir_iff

/-- What lies at each place; a place is told by the names from the root on. -/
structure Tree (N F : Type*) where
  entry : List N → Option (Entry N F)
  root : entry [] = some .dir
  parent : ∀ place n, entry (place ++ [n]) ≠ none → entry place = some .dir

/-- Whether the kernel goes on from an entry; `realpath` always does. -/
def admits (strict : Bool) (e : Option (Entry N F)) (last : Bool) : Bool :=
  !strict || match e with
    | none => false
    | some (.file _) => last
    | some _ => true

section Walk
variable (entry : List N → Option (Entry N F)) (strict : Bool)

/-- Where the components lead up to the first link, which `jump` follows. -/
def walk (jump : List N → List (Comp N) → Option (List N)) : List N → List (Comp N) → Option (List N)
  | here, [] => some here
  | here, .up :: rest => walk jump here.dropLast rest
  | here, .name n :: rest =>
    match entry (here ++ [n]) with
    | some (.link l) => jump (if l.absolute then [] else here) (l.comps ++ rest)
    | e => if admits strict e rest.isEmpty then walk jump (here ++ [n]) rest else none

/-- Where the components lead over at most so many links: for the kernel where it is strict, and for
`realpath` where it is not. -/
def follow : ℕ → List N → List (Comp N) → Option (List N)
  | 0 => walk entry strict fun _ _ => none
  | k + 1 => walk entry strict (follow k)

end Walk

namespace Tree
variable (t : Tree N F)

/-- No link lies on the way to the place. -/
def Clear (place : List N) : Prop := ∀ p, p <+: place → ∀ e ∈ t.entry p, e.isLink = false

def names (place : List N) : List (Comp N) := place.map .name

variable {t} {strict : Bool}

theorem clear_nil : t.Clear [] := by
  intro p hp e he
  obtain rfl := List.prefix_nil.mp hp
  rw [t.root,Option.mem_def,Option.some.injEq] at he
  rw [← he]
  rfl

theorem Clear.initial {p place : List N} (h : t.Clear place) (hp : p <+: place) : t.Clear p :=
  fun q hq => h q (hq.trans hp)

theorem Clear.concat {place : List N} {n : N} (h : t.Clear place) (hn : ∀ e ∈ t.entry (place ++ [n]), e.isLink = false) :
    t.Clear (place ++ [n]) := by
  intro p hp
  rcases List.prefix_concat_iff.mp hp with rfl | hp
  · exact hn
  · exact h p hp

theorem walk_clear {jump : List N → List (Comp N) → Option (List N)}
    (hjump : ∀ here comps r, t.Clear here → jump here comps = some r → t.Clear r) {here r : List N}
    {comps : List (Comp N)} (hhere : t.Clear here) (h : walk t.entry strict jump here comps = some r) : t.Clear r := by
  induction comps generalizing here with
  | nil =>
    obtain rfl := Option.some.inj h
    exact hhere
  | cons c rest ih =>
    cases c with
    | up => exact ih (hhere.initial (List.dropLast_prefix here)) h
    | name n =>
      unfold walk at h
      split at h
      · next l hl =>
        refine hjump _ _ _ ?_ h
        split_ifs
        · exact clear_nil
        · exact hhere
      · next hnot =>
        split_ifs at h
        refine ih (hhere.concat fun e he => ?_) h
        cases e with
        | link l => exact absurd he (hnot l)
        | _ => rfl

/-- What a path leads to is reached without a link. -/
theorem follow_clear {k : ℕ} {here r : List N} {comps : List (Comp N)} (hhere : t.Clear here)
    (h : follow t.entry strict k here comps = some r) : t.Clear r := by
  induction k generalizing here comps r with
  | zero => exact walk_clear (fun _ _ _ _ hnone => by cases hnone) hhere h
  | succ k ih => exact walk_clear (fun _ _ _ hclear hr => ih hclear hr) hhere h

/-- Above an entry there are only directories. -/
theorem dir_of_initial {p place : List N} (hplace : t.entry place ≠ none) (hp : p <+: place) (hne : p ≠ place) :
    t.entry p = some .dir := by
  induction place using List.reverseRecOn with
  | nil => exact absurd (List.prefix_nil.mp hp) hne
  | append_singleton place n ih =>
    have hdir := t.parent place n hplace
    rcases List.prefix_concat_iff.mp hp with rfl | hp
    · exact absurd rfl hne
    · by_cases heq : p = place
      · rw [heq,hdir]
      · exact ih (by rw [hdir]; exact Option.some_ne_none _) hp heq

/-- What is no link lies in a clear place. -/
theorem clear_of_entry {place : List N} {e : Entry N F} (he : t.entry place = some e) (hlink : e.isLink = false) :
    t.Clear place := by
  intro p hp e' he'
  have hplace : t.entry place ≠ none := by
    rw [he]
    exact Option.some_ne_none e
  by_cases heq : p = place
  · rw [heq,he,Option.mem_def,Option.some.injEq] at he'
    rw [← he',hlink]
  · rw [dir_of_initial hplace hp heq,Option.mem_def,Option.some.injEq] at he'
    rw [← he']
    rfl

theorem exists_of_admits {e : Option (Entry N F)} {last : Bool} (h : admits true e last = true) : e ≠ none := by
  cases e with
  | none => cases h
  | some e => exact Option.some_ne_none e

/-- A clear place is reached name by name. -/
theorem walk_names {jump : List N → List (Comp N) → Option (List N)} {here ns : List N} {rest : List (Comp N)}
    (hclear : t.Clear (here ++ ns)) (hadmits : admits strict (t.entry (here ++ ns)) rest.isEmpty = true) :
    walk t.entry strict jump here (names ns ++ rest) = walk t.entry strict jump (here ++ ns) rest := by
  induction ns generalizing here with
  | nil =>
    rw [List.append_nil]
    rfl
  | cons n ns ih =>
    have hplace : here ++ n :: ns = here ++ [n] ++ ns := by simp
    rw [hplace] at hclear hadmits ⊢
    have hfirst : admits strict (t.entry (here ++ [n])) (names ns ++ rest).isEmpty = true := by
      cases ns with
      | nil =>
        rw [List.append_nil] at hadmits
        exact hadmits
      | cons m ns =>
        cases strict with
        | false => rfl
        | true =>
          rw [dir_of_initial (exists_of_admits hadmits) (List.prefix_append _ _) (by simp)]
          rfl
    rw [← ih hclear hadmits,names,List.map_cons,List.cons_append,walk]
    split
    · next l hl =>
      have hlink := hclear _ (List.prefix_append _ _) _ hl
      cases hlink
    · exact if_pos hfirst

theorem follow_names {k : ℕ} {here ns : List N} {rest : List (Comp N)} (hclear : t.Clear (here ++ ns))
    (hadmits : admits strict (t.entry (here ++ ns)) rest.isEmpty = true) :
    follow t.entry strict k here (names ns ++ rest) = follow t.entry strict k (here ++ ns) rest := by
  cases k with
  | zero => exact walk_names hclear hadmits
  | succ k => exact walk_names hclear hadmits

theorem follow_nil (k : ℕ) (here : List N) : follow t.entry strict k here [] = some here := by
  cases k <;> rfl

/-- `realpath` of a clear place. -/
theorem realpath_clear {k : ℕ} {place : List N} (hclear : t.Clear place) :
    follow t.entry false k [] (names place) = some place := by
  have hadmits : admits false (t.entry ([] ++ place)) ([] : List (Comp N)).isEmpty = true := rfl
  have hnames : follow t.entry false k [] (names place ++ []) = follow t.entry false k ([] ++ place) [] :=
    follow_names hclear hadmits
  rwa [List.append_nil,follow_nil,List.nil_append] at hnames

/-- The kernel reaches a clear place exactly where something lies there. -/
theorem stat_clear {k : ℕ} {place : List N} (hclear : t.Clear place) (hplace : t.entry place ≠ none) :
    follow t.entry true k [] (names place) = some place := by
  have hadmits : admits true (t.entry ([] ++ place)) ([] : List (Comp N)).isEmpty = true := by
    rw [List.nil_append]
    cases he : t.entry place with
    | none => exact absurd he hplace
    | some e => cases e <;> rfl
  have hnames : follow t.entry true k [] (names place ++ []) = follow t.entry true k ([] ++ place) [] :=
    follow_names hclear hadmits
  rwa [List.append_nil,follow_nil,List.nil_append] at hnames

theorem walk_append {jump : List N → List (Comp N) → Option (List N)} {ys : List (Comp N)} {mid r : List N}
    (hjump : ∀ here comps, jump here comps = some mid → jump here (comps ++ ys) = some r) {here : List N}
    {xs : List (Comp N)} (hxs : walk t.entry false jump here xs = some mid)
    (hys : walk t.entry false jump mid ys = some r) : walk t.entry false jump here (xs ++ ys) = some r := by
  induction xs generalizing here with
  | nil =>
    obtain rfl := Option.some.inj hxs
    exact hys
  | cons c rest ih =>
    cases c with
    | up => exact ih hxs
    | name n =>
      rw [List.cons_append]
      unfold walk at hxs ⊢
      split at hxs
      · next l hl =>
        have hmore := hjump _ _ hxs
        rwa [List.append_assoc] at hmore
      · exact ih hxs

/-- Names after a path whose places hold no links lead on from its place. -/
theorem realpath_append {k : ℕ} {here mid ns : List N} {xs : List (Comp N)}
    (hxs : follow t.entry false k here xs = some mid) (hclear : t.Clear (mid ++ ns)) :
    follow t.entry false k here (xs ++ names ns) = some (mid ++ ns) := by
  have hys (jump : List N → List (Comp N) → Option (List N)) :
      walk t.entry false jump mid (names ns) = some (mid ++ ns) := by
    have hadmits : admits false (t.entry (mid ++ ns)) ([] : List (Comp N)).isEmpty = true := rfl
    have hwalk : walk t.entry false jump mid (names ns ++ []) = walk t.entry false jump (mid ++ ns) [] :=
      walk_names hclear hadmits
    rwa [List.append_nil] at hwalk
  induction k generalizing here xs with
  | zero => exact walk_append (fun _ _ hnone => by cases hnone) hxs (hys _)
  | succ k ih => exact walk_append (fun _ _ hmid => ih hmid) hxs (hys _)

theorem walk_of_strict {jump jump' : List N → List (Comp N) → Option (List N)}
    (hjump : ∀ here comps r, jump here comps = some r → jump' here comps = some r) {here r : List N}
    {comps : List (Comp N)} (h : walk t.entry true jump here comps = some r) :
    walk t.entry false jump' here comps = some r := by
  induction comps generalizing here with
  | nil => exact h
  | cons c rest ih =>
    cases c with
    | up => exact ih h
    | name n =>
      unfold walk at h ⊢
      split at h
      · exact hjump _ _ _ h
      · split_ifs at h
        exact ih h

/-- Where the kernel reaches something, `realpath` leads there. -/
theorem realpath_of_stat {k : ℕ} {here r : List N} {comps : List (Comp N)}
    (h : follow t.entry true k here comps = some r) : follow t.entry false k here comps = some r := by
  induction k generalizing here comps r with
  | zero => exact walk_of_strict (fun _ _ _ hnone => by cases hnone) h
  | succ k ih => exact walk_of_strict (fun _ _ _ hr => ih hr) h

/-- The kernel finds in a clear place what lies there. -/
theorem stat_entry {k : ℕ} {place : List N} (hclear : t.Clear place) :
    (follow t.entry true k [] (names place)).bind t.entry = t.entry place := by
  cases he : t.entry place with
  | some e =>
    rw [stat_clear hclear (by rw [he]; exact Option.some_ne_none e),Option.bind_some,he]
  | none =>
    cases hstat : follow t.entry true k [] (names place) with
    | none => rfl
    | some r =>
      have hreal := realpath_of_stat hstat
      rw [realpath_clear hclear] at hreal
      rw [← Option.some.inj hreal,Option.bind_some,he]

/-- Nothing but the root. -/
def bareEntry (place : List N) : Option (Entry N F) := if place.isEmpty then some .dir else none

theorem bare_parent (place : List N) (n : N) (h : (bareEntry (place ++ [n]) : Option (Entry N F)) ≠ none) :
    (bareEntry place : Option (Entry N F)) = some .dir := by
  refine absurd ?_ h
  unfold bareEntry
  rw [if_neg (by simp)]

def bare : Tree N F := ⟨bareEntry,rfl,bare_parent⟩

section Put
variable [DecidableEq N] {place : List N} {n : N} {e : Entry N F}

def putEntry (t : Tree N F) (place : List N) (n : N) (e : Entry N F) : List N → Option (Entry N F) :=
  Function.update t.entry (place ++ [n]) (some e)

theorem putEntry_of_ne {p : List N} (hp : p ≠ place ++ [n]) : t.putEntry place n e p = t.entry p :=
  Function.update_of_ne hp ..

theorem put_root : t.putEntry place n e [] = some .dir := by
  rw [putEntry_of_ne (by simp),t.root]

theorem put_parent (hdir : t.entry place = some .dir) (hfree : t.entry (place ++ [n]) ≠ some .dir) (p : List N) (m : N)
    (hp : t.putEntry place n e (p ++ [m]) ≠ none) : t.putEntry place n e p = some .dir := by
  have hparent : t.entry p = some .dir := by
    by_cases heq : p ++ [m] = place ++ [n]
    · rw [(List.append_inj' heq rfl).1,hdir]
    · rw [putEntry_of_ne heq] at hp
      exact t.parent p m hp
  have hne : p ≠ place ++ [n] := by
    rintro rfl
    exact hfree hparent
  rw [putEntry_of_ne hne,hparent]

/-- A new entry of a directory, where no directory is in its place. -/
def put (t : Tree N F) (place : List N) (n : N) (e : Entry N F) (hdir : t.entry place = some .dir)
    (hfree : t.entry (place ++ [n]) ≠ some .dir) : Tree N F :=
  ⟨t.putEntry place n e,put_root,put_parent hdir hfree⟩

variable {hdir : t.entry place = some .dir} {hfree : t.entry (place ++ [n]) ≠ some .dir}

theorem put_entry_self : (t.put place n e hdir hfree).entry (place ++ [n]) = some e :=
  Function.update_self ..

theorem put_entry {p : List N} (hp : p ≠ place ++ [n]) : (t.put place n e hdir hfree).entry p = t.entry p :=
  putEntry_of_ne hp

theorem Clear.put {p : List N} (hclear : t.Clear p) (hp : ¬ place ++ [n] <+: p) : (t.put place n e hdir hfree).Clear p := by
  intro q hq e' he
  have hne : q ≠ place ++ [n] := fun heq => hp (heq ▸ hq)
  rw [put_entry hne] at he
  exact hclear q hq e' he

/-- The kernel follows a new link to a clear place where something lies. -/
theorem stat_put_link {k : ℕ} {p : List N} (hplace : t.Clear place) (hp : t.Clear p) (hexists : t.entry p ≠ none)
    (hunused : ∀ e' ∈ t.entry (place ++ [n]), e'.isLink = true) (he : e = .link ⟨true,names p⟩) :
    follow (t.put place n e hdir hfree).entry true (k + 1) [] (names (place ++ [n])) = some p := by
  have hnot : ¬ place ++ [n] <+: p := by
    intro hinitial
    by_cases heq : place ++ [n] = p
    · obtain ⟨e',he'⟩ := Option.ne_none_iff_exists'.mp hexists
      rw [← heq] at he'
      have hlink := hp _ hinitial _ he'
      rw [hunused e' he'] at hlink
      cases hlink
    · exact hfree (dir_of_initial hexists hinitial heq)
  set t' := t.put place n e hdir hfree with ht'
  have hsame : t'.entry place = some .dir := by
    rw [ht',put_entry (by simp),hdir]
  have hclear : t'.Clear place := by
    refine hplace.put fun hinitial => ?_
    have hlength := hinitial.length_le
    rw [List.length_append,List.length_singleton] at hlength
    omega
  have hadmits : admits true (t'.entry ([] ++ place)) ([.name n] : List (Comp N)).isEmpty = true := by
    rw [List.nil_append,hsame]
    rfl
  have hnames : follow t'.entry true (k + 1) [] (names place ++ [.name n]) =
      follow t'.entry true (k + 1) ([] ++ place) [.name n] := follow_names hclear hadmits
  rw [List.nil_append] at hnames
  have hstat : follow t'.entry true k [] (names p) = some p := by
    refine stat_clear (hp.put hnot) ?_
    rw [ht',put_entry fun heq => hnot (heq ▸ List.prefix_rfl)]
    exact hexists
  rw [names,List.map_append,List.map_singleton,← names,hnames,follow,walk,ht',put_entry_self,← ht',he]
  simpa using hstat

end Put

end Tree

end DftForge.Library.RealPaths
