import Mathlib

/-! # Node and run state machines

The two state enumerations, the table of legal node transitions and the final run
status computed from the node states.
-/
namespace DftForge.Runtime

inductive NodeState where
  | pending
  | ready
  | running
  | repairing
  | succeeded
  | failed
  | blocked
  | skipped
  | cancelled
  deriving DecidableEq, Repr

inductive RunState where
  | created
  | validated
  | running
  | paused
  | succeeded
  | failed
  | cancelled
  | partiallySucceeded
  deriving DecidableEq, Repr

/-- The text an enumeration member is stored and printed as. -/
def NodeState.value : NodeState → String
  | .pending => "pending"
  | .ready => "ready"
  | .running => "running"
  | .repairing => "repairing"
  | .succeeded => "succeeded"
  | .failed => "failed"
  | .blocked => "blocked"
  | .skipped => "skipped"
  | .cancelled => "cancelled"

def terminalNodeStates : List NodeState := [.succeeded,.failed,.blocked,.skipped,.cancelled]

def terminalRunStates : List RunState := [.succeeded,.failed,.cancelled,.partiallySucceeded]

def NodeState.Terminal (s : NodeState) : Prop := s ∈ terminalNodeStates

instance : DecidablePred NodeState.Terminal := fun s =>
  inferInstanceAs (Decidable (s ∈ terminalNodeStates))

def RunState.Terminal (s : RunState) : Prop := s ∈ terminalRunStates

instance : DecidablePred RunState.Terminal := fun s =>
  inferInstanceAs (Decidable (s ∈ terminalRunStates))

def allowedNodeTransitions : NodeState → List NodeState
  | .pending => [.ready,.blocked,.skipped,.cancelled]
  | .ready => [.running,.skipped,.cancelled]
  | .running => [.succeeded,.failed,.repairing,.ready,.cancelled]
  | .repairing => [.ready,.failed,.cancelled]
  | .succeeded => []
  | .failed => [.pending]
  | .blocked => [.pending]
  | .skipped => []
  | .cancelled => [.pending]

def canTransition (source target : NodeState) : Bool :=
  (allowedNodeTransitions source).contains target

/-- Final run status, by priority: all succeeded, cancelled without a success, any
succeeded, failed. -/
def determineRunStatus (states : List NodeState) : RunState :=
  if states = [] then .failed
  else if states.all (· = .succeeded) then .succeeded
  else if states.any (· = .cancelled) && !states.any (· = .succeeded) then .cancelled
  else if states.any (· = .succeeded) then .partiallySucceeded
  else .failed

/-- A run never ends in a state from which it could be started again. -/
theorem determineRunStatus_terminal (states : List NodeState) :
    (determineRunStatus states).Terminal := by
  unfold determineRunStatus
  split_ifs <;> decide

theorem determineRunStatus_eq_succeeded {states : List NodeState} :
    determineRunStatus states = .succeeded ↔ states ≠ [] ∧ ∀ s ∈ states, s = .succeeded := by
  unfold determineRunStatus
  split_ifs with h0 h1 h2 h3
  · simp [h0]
  · simpa [h0] using h1
  all_goals simpa [h0] using h1

end DftForge.Runtime
