import Mathlib

/-! # Loops that read one input in every iteration

A loop is a step function on states; iteration `n` reads `input n`, which carries
everything the environment decides. An iteration goes round again, returns or
raises. The rules below lift facts about one iteration to whole executions, and
prove termination from a measure together with a fairness assumption.
-/
namespace DftForge.Loop

/-- What one iteration of a loop leads to. -/
inductive Outcome (S E : Type*) where
  | loop (s : S)
  | returned (s : S)
  | raised (e : E) (s : S)

variable {I S E : Type*}

/-- The state an iteration leaves behind, however it ended. -/
def Outcome.state : Outcome S E → S
  | .loop s => s
  | .returned s => s
  | .raised _ s => s

@[simp] theorem Outcome.state_loop (s : S) : (Outcome.loop s : Outcome S E).state = s := rfl
@[simp] theorem Outcome.state_returned (s : S) : (Outcome.returned s : Outcome S E).state = s := rfl
@[simp] theorem Outcome.state_raised (e : E) (s : S) : (Outcome.raised e s).state = s := rfl

def Outcome.isRaised : Outcome S E → Bool
  | .raised _ _ => true
  | _ => false

theorem Outcome.eq_raised {o : Outcome S E} (h : o.isRaised = true) : ∃ e, o = .raised e o.state := by
  cases o with
  | raised e s => exact ⟨e,rfl⟩
  | loop s => cases h
  | returned s => cases h

/-- The loop after `n` iterations; a finished loop stays as it ended. -/
def exec (step : I → S → Outcome S E) (input : ℕ → I) (s : S) : ℕ → Outcome S E
  | 0 => .loop s
  | n + 1 =>
    match exec step input s n with
    | .loop t => step (input n) t
    | done => done

variable {step : I → S → Outcome S E} {input : ℕ → I} {s : S}

@[simp] theorem exec_zero : exec step input s 0 = .loop s := rfl

theorem exec_succ {n : ℕ} {t : S} (h : exec step input s n = .loop t) :
    exec step input s (n + 1) = step (input n) t := by
  rw [exec, h]

theorem exec_succ_loop {n : ℕ} {t : S} (h : exec step input s (n + 1) = .loop t) :
    ∃ u, exec step input s n = .loop u ∧ step (input n) u = .loop t := by
  cases hn : exec step input s n with
  | loop u => exact ⟨u,rfl,by rw [← exec_succ hn,h]⟩
  | returned u => simp [exec,hn] at h
  | raised e u => simp [exec,hn] at h

/-- Before a loop state every iteration was a loop state. -/
theorem exec_loop_of_le {n m : ℕ} {t : S} (h : exec step input s m = .loop t) (hn : n ≤ m) :
    ∃ u, exec step input s n = .loop u := by
  induction m, hn using Nat.le_induction generalizing t with
  | base => exact ⟨t,h⟩
  | succ m _ ih =>
    obtain ⟨u,hu,_⟩ := exec_succ_loop h
    exact ih hu

theorem exec_returned_mono {n m : ℕ} {t : S} (h : exec step input s n = .returned t) (hn : n ≤ m) :
    exec step input s m = .returned t := by
  induction m, hn using Nat.le_induction with
  | base => exact h
  | succ m _ ih => simp only [exec,ih]

theorem exec_raised_mono {n m : ℕ} {e : E} {t : S} (h : exec step input s n = .raised e t)
    (hn : n ≤ m) : exec step input s m = .raised e t := by
  induction m, hn using Nat.le_induction with
  | base => exact h
  | succ m _ ih => simp only [exec,ih]

/-- A returned state was returned by some iteration. -/
theorem exec_returned {n : ℕ} {t : S} (h : exec step input s n = .returned t) :
    ∃ m < n, ∃ u, exec step input s m = .loop u ∧ step (input m) u = .returned t := by
  induction n with
  | zero => simp at h
  | succ n ih =>
    cases hn : exec step input s n with
    | loop u => exact ⟨n,Nat.lt_succ_self n,u,hn,by rw [← exec_succ hn,h]⟩
    | returned u =>
      have hu : u = t := by simpa [exec,hn] using h
      obtain ⟨m,hm,hr⟩ := ih (hu ▸ hn)
      exact ⟨m,hm.trans (Nat.lt_succ_self n),hr⟩
    | raised e u => simp [exec,hn] at h

theorem exec_raised {n : ℕ} {e : E} {t : S} (h : exec step input s n = .raised e t) :
    ∃ m < n, ∃ u, exec step input s m = .loop u ∧ step (input m) u = .raised e t := by
  induction n with
  | zero => simp at h
  | succ n ih =>
    cases hn : exec step input s n with
    | loop u => exact ⟨n,Nat.lt_succ_self n,u,hn,by rw [← exec_succ hn,h]⟩
    | returned u => simp [exec,hn] at h
    | raised e' u =>
      have hu : e' = e ∧ u = t := by simpa [exec,hn] using h
      obtain ⟨rfl,rfl⟩ := hu
      obtain ⟨m,hm,hr⟩ := ih hn
      exact ⟨m,hm.trans (Nat.lt_succ_self n),hr⟩

theorem exec_returned_unique {n m : ℕ} {t u : S} (hn : exec step input s n = .returned t)
    (hm : exec step input s m = .returned u) : t = u := by
  rcases Nat.le_total n m with h | h
  · have := (exec_returned_mono hn h).symm.trans hm
    simpa using this
  · have := (exec_returned_mono hm h).symm.trans hn
    simpa using this.symm

/-- What one iteration preserves holds at every iteration. -/
theorem exec_invariant {P : S → Prop} (h0 : P s)
    (hstep : ∀ n t t', exec step input s n = .loop t → P t → step (input n) t = .loop t' → P t')
    {n : ℕ} {t : S} (h : exec step input s n = .loop t) : P t := by
  induction n generalizing t with
  | zero => cases h; exact h0
  | succ n ih =>
    obtain ⟨u,hu,hs⟩ := exec_succ_loop h
    exact hstep n u t hu (ih hu) hs

/-- The invariant also reaches the state in which the loop ended. -/
theorem exec_state_invariant {P : S → Prop} (h0 : P s)
    (hstep : ∀ n t, exec step input s n = .loop t → P t → P (step (input n) t).state)
    (n : ℕ) : P (exec step input s n).state := by
  induction n with
  | zero => exact h0
  | succ n ih =>
    cases hn : exec step input s n with
    | loop u =>
      rw [exec_succ hn]
      exact hstep n u hn (by simpa [hn] using ih)
    | returned u => simpa [exec,hn] using ih
    | raised e u => simpa [exec,hn] using ih

section Termination
variable {measure : S → ℕ} {Waiting : S → Prop} {Wakes : I → S → Prop}

/-- An iteration that neither ends the loop nor decreases the measure only waits:
it leaves the state alone, and it was not woken. -/
def Progress (step : I → S → Outcome S E) (measure : S → ℕ) (Waiting : S → Prop)
    (Wakes : I → S → Prop) (i : I) (t : S) : Prop :=
  ∀ t', step i t = .loop t' → measure t' < measure t ∨ (t' = t ∧ Waiting t ∧ ¬ Wakes i t)

/-- Waiting iterations repeat the state until one is woken. -/
theorem exec_leaves (hprog : ∀ n t, exec step input s n = .loop t →
      Progress step measure Waiting Wakes (input n) t)
    {n m : ℕ} (hnm : n ≤ m) {t : S} (ht : exec step input s n = .loop t)
    (hw : Wakes (input m) t) :
    ∃ k > n, ∀ u, exec step input s k = .loop u → measure u < measure t := by
  induction hd : m - n generalizing n with
  | zero =>
    have hmn : m = n := by omega
    subst hmn
    refine ⟨m + 1,Nat.lt_succ_self m,?_⟩
    intro u hu
    rw [exec_succ ht] at hu
    rcases hprog m t ht u hu with h | ⟨_,_,h⟩
    · exact h
    · exact absurd hw h
  | succ d ih =>
    cases hs : step (input n) t with
    | loop u =>
      rcases hprog n t ht u hs with h | ⟨rfl,_,_⟩
      · refine ⟨n + 1,Nat.lt_succ_self n,?_⟩
        intro v hv
        rw [exec_succ ht,hs] at hv
        cases hv
        exact h
      · obtain ⟨k,hk,hlt⟩ := ih (n := n + 1) (by omega) ((exec_succ ht).trans hs) (by omega)
        exact ⟨k,by omega,hlt⟩
    | returned u =>
      refine ⟨n + 1,Nat.lt_succ_self n,?_⟩
      intro v hv
      rw [exec_succ ht,hs] at hv
      cases hv
    | raised e u =>
      refine ⟨n + 1,Nat.lt_succ_self n,?_⟩
      intro v hv
      rw [exec_succ ht,hs] at hv
      cases hv

/-- A loop that always makes progress ends, if whatever waits is eventually woken. -/
theorem exec_terminates (measure : S → ℕ) (Waiting : S → Prop) (Wakes : I → S → Prop)
    (hprog : ∀ n t, exec step input s n = .loop t →
      Progress step measure Waiting Wakes (input n) t)
    (hfair : ∀ n t, exec step input s n = .loop t → Waiting t → ∃ m ≥ n, Wakes (input m) t) :
    ∃ n, ∀ t, exec step input s n ≠ .loop t := by
  suffices h : ∀ k n t, exec step input s n = .loop t → measure t ≤ k →
      ∃ m, ∀ u, exec step input s m ≠ .loop u from h _ 0 s rfl le_rfl
  intro k
  induction k with
  | zero =>
    intro n t ht hk
    by_cases hw : Waiting t
    · obtain ⟨m,hm,hwake⟩ := hfair n t ht hw
      obtain ⟨j,_,hlt⟩ := exec_leaves hprog hm ht hwake
      exact ⟨j,fun u hu => by have := hlt u hu; omega⟩
    · refine ⟨n + 1,fun u hu => ?_⟩
      rw [exec_succ ht] at hu
      rcases hprog n t ht u hu with h | ⟨_,h,_⟩
      · omega
      · exact hw h
  | succ k ih =>
    intro n t ht hk
    -- either this iteration is the last one or some later state is smaller
    obtain ⟨j,hlt⟩ : ∃ j, ∀ u, exec step input s j = .loop u → measure u < measure t := by
      by_cases hw : Waiting t
      · obtain ⟨m,hm,hwake⟩ := hfair n t ht hw
        obtain ⟨j,_,hlt⟩ := exec_leaves hprog hm ht hwake
        exact ⟨j,hlt⟩
      · refine ⟨n + 1,fun u hu => ?_⟩
        rw [exec_succ ht] at hu
        rcases hprog n t ht u hu with h | ⟨_,h,_⟩
        · exact h
        · exact absurd h hw
    cases hj : exec step input s j with
    | loop u => exact ih j u hj (by have := hlt u hj; omega)
    | returned u => exact ⟨j,fun v hv => by rw [hj] at hv; cases hv⟩
    | raised e u => exact ⟨j,fun v hv => by rw [hj] at hv; cases hv⟩

end Termination

end DftForge.Loop
