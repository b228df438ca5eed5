import Mathlib.Data.List.Basic
import Mathlib.Data.List.Infix

/-! # Backtracking regular expressions

Expressions over any alphabet, matched the way a backtracking engine does: the
matches at one place come in the order in which the engine tries them, and the
first one counts. Groups remember the text they matched.
-/
namespace DftForge.Library

inductive Regex (α : Type*) where
  | empty
  | one (p : α → Bool)
  /-- A zero-width test of the symbols before and after the place. -/
  | anchor (p : Option α → Option α → Bool)
  | seq (r s : Regex α)
  | alt (r s : Regex α)
  | many (r : Regex α)
  | manyLazy (r : Regex α)
  | group (n : ℕ) (r : Regex α)

/-- A place in a text: what was read, latest first, what is left, and the groups
closed so far, latest first. -/
structure Cursor (α : Type*) where
  before : List α
  after : List α
  groups : List (ℕ × List α) := []

namespace Cursor
variable {α : Type*}

def advance (c : Cursor α) (x : α) (rest : List α) : Cursor α :=
  { c with before := x :: c.before, after := rest }

/-- What was read between two places. -/
def since (c d : Cursor α) : List α := c.after.take (c.after.length - d.after.length)

def close (c d : Cursor α) (n : ℕ) : Cursor α := { d with groups := (n,c.since d) :: d.groups }

/-- The whole text. -/
def text (c : Cursor α) : List α := c.before.reverse ++ c.after

end Cursor

namespace Regex
variable {α : Type*}

def opt (r : Regex α) : Regex α := .alt r .empty

def plus (r : Regex α) : Regex α := .seq r (.many r)

def plusLazy (r : Regex α) : Regex α := .seq r (.manyLazy r)

/-- One expression after the other. -/
def chain (rs : List (Regex α)) : Regex α := rs.foldr .seq .empty

/-- At most `n` rounds, as many as possible first. -/
def rounds (step : Cursor α → List (Cursor α)) : ℕ → Cursor α → List (Cursor α)
  | 0, c => [c]
  | n + 1, c => (step c).flatMap (rounds step n) ++ [c]

/-- At most `n` rounds, as few as possible first. -/
def roundsLazy (step : Cursor α → List (Cursor α)) : ℕ → Cursor α → List (Cursor α)
  | 0, c => [c]
  | n + 1, c => c :: (step c).flatMap (roundsLazy step n)

/-- All places the expression can lead to, in the order in which they are tried.
A repeated expression reads something in every round, so the rest bounds the rounds. -/
def run : Regex α → Cursor α → List (Cursor α)
  | .empty, c => [c]
  | .one p, c =>
    match c.after with
    | [] => []
    | x :: rest => if p x then [c.advance x rest] else []
  | .anchor p, c => if p c.before.head? c.after.head? then [c] else []
  | .seq r s, c => (run r c).flatMap (run s)
  | .alt r s, c => run r c ++ run s c
  | .many r, c => rounds (run r) c.after.length c
  | .manyLazy r, c => roundsLazy (run r) c.after.length c
  | .group n r, c => (run r c).map fun d => c.close d n

/-- A match: where it starts, what it read, and where it ended. -/
structure Match (α : Type*) where
  start : Cursor α
  stop : Cursor α

namespace Match

/-- The text before the match. -/
def front (m : Match α) : List α := m.start.before.reverse

/-- Group 0. -/
def whole (m : Match α) : List α := m.start.since m.stop

def group? (m : Match α) (n : ℕ) : Option (List α) := m.stop.groups.lookup n

/-- Group `n`, empty where it took no part. -/
def group (m : Match α) (n : ℕ) : List α := (m.group? n).getD []

end Match

/-- The first match at or after a place. -/
def searchFrom (r : Regex α) (before : List α) : List α → Option (Match α)
  | [] => (run r ⟨before,[],[]⟩).head?.map fun d => ⟨⟨before,[],[]⟩,d⟩
  | x :: rest =>
    match (run r ⟨before,x :: rest,[]⟩).head? with
    | some d => some ⟨⟨before,x :: rest,[]⟩,d⟩
    | none => searchFrom r (x :: before) rest

def search (r : Regex α) (text : List α) : Option (Match α) := searchFrom r [] text

def findAllFrom (r : Regex α) : ℕ → Cursor α → List (Match α)
  | 0, _ => []
  | n + 1, c =>
    match searchFrom r c.before c.after with
    | none => []
    | some m => m :: findAllFrom r n { m.stop with groups := [] }

/-- The non-overlapping matches from left to right; each reads something. -/
def findAll (r : Regex α) (text : List α) : List (Match α) :=
  findAllFrom r text.length ⟨[],text,[]⟩

/-- An expression is found when some place in the text has a match. -/
def Found (r : Regex α) (text : List α) : Prop := (search r text).isSome = true

instance (r : Regex α) (text : List α) : Decidable (Found r text) :=
  inferInstanceAs (Decidable (_ = true))

end Regex
end DftForge.Library
