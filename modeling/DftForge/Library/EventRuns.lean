import Mathlib.Data.List.Basic
import Mathlib.Data.List.Induction

/-! # Runs of a system that takes one event after the other

What holds in every state of a run, from what holds of one step. A run is the fold of
the step function over the events in their order, so every interleaving is a list.
-/
namespace DftForge.Library
variable {S E : Type*} {step : S → E → S} {init : S}

/-- `P` in every state the run passes. -/
def Throughout (P : S → Prop) (step : S → E → S) (init : S) (events : List E) : Prop :=
  ∀ before after, events = before ++ after → P (before.foldl step init)

/-- `Q` of every event of the run, in the state it comes to. -/
def Each (Q : S → E → Prop) (step : S → E → S) (init : S) (events : List E) : Prop :=
  ∀ before e after, events = before ++ e :: after → Q (before.foldl step init) e

theorem foldl_invariant {Inv : S → Prop} (hinit : Inv init) (hstep : ∀ s e, Inv s → Inv (step s e))
    (events : List E) : Inv (events.foldl step init) := by
  induction events using List.reverseRecOn with
  | nil => exact hinit
  | append_singleton events e ih =>
    rw [List.foldl_append]
    exact hstep _ e ih

theorem throughout_append_singleton {P : S → Prop} (events : List E) (e : E) :
    Throughout P step init (events ++ [e]) ↔
      Throughout P step init events ∧ P (step (events.foldl step init) e) := by
  constructor
  · refine fun h => ⟨fun before after heq => h before (after ++ [e]) (by simp [heq]),?_⟩
    simpa using h (events ++ [e]) [] (by simp)
  · rintro ⟨hbefore,hlast⟩ before after heq
    rcases List.eq_nil_or_concat after with rfl | ⟨rest,last,rfl⟩
    · rw [List.append_nil] at heq
      subst heq
      simpa using hlast
    · rw [List.concat_eq_append,← List.append_assoc] at heq
      exact hbefore before rest (List.append_inj_left' heq rfl)

theorem each_append_singleton {Q : S → E → Prop} (events : List E) (e : E) :
    Each Q step init (events ++ [e]) ↔ Each Q step init events ∧ Q (events.foldl step init) e := by
  constructor
  · refine fun h => ⟨fun before e' after heq => h before e' (after ++ [e]) (by simp [heq]),?_⟩
    exact h events e [] rfl
  · rintro ⟨hbefore,hlast⟩ before e' after heq
    rcases List.eq_nil_or_concat after with rfl | ⟨rest,last,rfl⟩
    · obtain ⟨rfl,hsame⟩ := List.append_inj' heq rfl
      cases hsame
      exact hlast
    · rw [List.concat_eq_append,← List.cons_append,← List.append_assoc] at heq
      exact hbefore before e' rest (List.append_inj_left' heq rfl)

/-- What one step keeps exactly under a condition, a run keeps exactly when each of its
steps meets the condition. -/
theorem throughout_iff_each (Inv : S → Prop) {P : S → Prop} {Q : S → E → Prop} (hinit : Inv init)
    (hstep : ∀ s e, Inv s → Inv (step s e)) (hstart : P init)
    (hkeep : ∀ s e, Inv s → P s → (P (step s e) ↔ Q s e)) (events : List E) :
    Throughout P step init events ↔ Each Q step init events := by
  induction events using List.reverseRecOn with
  | nil =>
    constructor
    · intro _ before e after heq
      simp at heq
    · intro _ before after heq
      obtain ⟨rfl,rfl⟩ := List.append_eq_nil_iff.mp heq.symm
      exact hstart
  | append_singleton events e ih =>
    rw [throughout_append_singleton,each_append_singleton,ih]
    refine and_congr_right fun heach => ?_
    have hnow : P (events.foldl step init) := ih.mpr heach events [] (by simp)
    exact hkeep _ e (foldl_invariant hinit hstep events) hnow

end DftForge.Library
