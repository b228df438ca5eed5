import DftForge.Runtime.Ticks

/-! # Invariants of whole executions

What every step of the scheduler preserves holds in every state of an execution:
at each iteration, and in the state in which it returned or raised.
-/
namespace DftForge.Runtime
open Loop Relation

variable {g : GraphScheduler} {t : GraphTemplate} {stale : Set NodeId} {s s' : Sched}

/-- The nodes that are running although no call of this scheduler is in flight. -/
def staleNodes (t : GraphTemplate) (s : Sched) : Set NodeId :=
  {id | id ∈ t.ids ∧ (s.run.nodes id).state = .running}

theorem enter_inv (hfut : s.futures = []) : Inv g t (staleNodes t s) (GraphScheduler.enter s) := by
  have hfut' : (GraphScheduler.enter s).futures = [] := hfut
  refine ⟨by simp [hfut'],by simp [hfut'],?_,by simp [hfut'],?_⟩
  · intro id hid
    simp [hfut,staleNodes,hid,GraphScheduler.enter,Sched.saveRun,Sched.setState]
  · have := g.one_le_maxConcurrency
    simp only [hfut',List.length_nil,Nat.cast_zero]
    omega

theorem tick_loop (ht : t.WellFormed) (hi : Inv g t stale s) {i : Tick} (h : g.tick t i s = .loop s') :
    i.cancelled = false ∧ ∃ s₁ s₂, Iterated g t i s s₁ s₂ s' := by
  cases hc : i.cancelled with
  | true =>
    obtain ⟨s₁,hcancel,_⟩ := tick_cancelled (g := g) hi hc
    rw [hcancel] at h
    cases h
  | false =>
    have hspec := tick_spec ht hi hc
    rw [h] at hspec
    cases hspec with
    | loop hiter _ => exact ⟨rfl,_,_,hiter⟩

theorem tick_raised (ht : t.WellFormed) (hi : Inv g t stale s) {i : Tick} {error : PyError}
    (h : g.tick t i s = .raised error s') : ∃ s₁, Launch g t i.env s s₁ s' ∧ ∃ spec ∈ t.nodes, ∃ e,
      error = .resolve e ∧ Ready s'.run spec ∧ nodeParams t s'.run spec = .error e := by
  cases hc : i.cancelled with
  | true =>
    obtain ⟨s₁,hcancel,_⟩ := tick_cancelled (g := g) hi hc
    rw [hcancel] at h
    cases h
  | false =>
    have hspec := tick_spec ht hi hc
    rw [h] at hspec
    cases hspec with
    | raised hlaunch hmem hready hparams => exact ⟨_,hlaunch,_,hmem,_,rfl,hready,hparams⟩

/-- Preserved by blocking, dispatching and finishing in environments of the class `E`. -/
structure Preserved (g : GraphScheduler) (t : GraphTemplate) (stale : Set NodeId) (E : Env → Prop)
    (P : Sched → Prop) : Prop where
  block : ∀ {s s'}, Inv g t stale s → BlockStep t s s' → P s → P s'
  dispatch : ∀ {env s s'}, E env → Inv g t stale s → DispatchStep g t env s s' → P s → P s'
  finish : ∀ {env s s'}, E env → Inv g t stale s → FinishStep t env s s' → P s → P s'

/-- Preserved also by cancelling and by saving the run with a new state. -/
structure Stable (g : GraphScheduler) (t : GraphTemplate) (stale : Set NodeId) (E : Env → Prop)
    (P : Sched → Prop) : Prop extends Preserved g t stale E P where
  cancel : ∀ {s s'}, CancelStep t s s' → P s → P s'
  save : ∀ {s} state, P s → P (s.setState state).saveRun

namespace Preserved
variable {E : Env → Prop} {P : Sched → Prop}

theorem steps {env : Env} (h : Preserved g t stale E P) (he : E env) (hsteps : Steps g t env s s')
    (hi : Inv g t stale s) (hs : P s) : P s' := by
  have hboth := chain_invariant (P := fun s => Inv g t stale s ∧ P s) ?_ hsteps ⟨hi,hs⟩
  · exact hboth.2
  · rintro a b (hb | hd | hf) ⟨hia,hpa⟩
    · exact ⟨hb.inv hia,h.block hia hb hpa⟩
    · exact ⟨hd.inv hia,h.dispatch he hia hd hpa⟩
    · exact ⟨hf.inv hia,h.finish he hia hf hpa⟩

variable {input : ℕ → Tick}

theorem loop (h : Preserved g t stale E P) (ht : t.WellFormed) (he : ∀ n, E (input n).env)
    (hi : Inv g t stale (GraphScheduler.enter s)) (hs : P (GraphScheduler.enter s)) {n : ℕ}
    (hn : g.run t input s n = .loop s') : Inv g t stale s' ∧ P s' := by
  refine exec_invariant (P := fun s => Inv g t stale s ∧ P s) ⟨hi,hs⟩ ?_ hn
  rintro n a b _ ⟨hia,hpa⟩ htick
  obtain ⟨_,_,_,hiter⟩ := tick_loop ht hia htick
  exact ⟨hiter.steps.inv hia,h.steps (he n) hiter.steps hia hpa⟩

/-- When an execution returns, either every node was terminal or a cancel was seen. -/
theorem returned (h : Preserved g t stale E P) (ht : t.WellFormed) (he : ∀ n, E (input n).env)
    (hi : Inv g t stale (GraphScheduler.enter s)) (hs : P (GraphScheduler.enter s)) {n : ℕ}
    (hn : g.run t input s n = .returned s') :
    (∃ s₃, s' = conclude t s₃ ∧ Over t s₃ ∧ Inv g t stale s₃ ∧ P s₃) ∨
    ∃ m s₀ s₁, g.run t input s m = .loop s₀ ∧ (input m).cancelled = true ∧ Inv g t stale s₀ ∧
      P s₀ ∧ Cancels t s₀ s₁ ∧ s₁.futures = s₀.futures ∧ s' = paused s₁ ∧
      ∀ id, s₁.run.nodes id = if id ∈ s₀.futures.map (·.nodeId) then
        cancelledNode (s₀.run.nodes id) else s₀.run.nodes id := by
  obtain ⟨m,_,s₀,hloop,htick⟩ := exec_returned hn
  obtain ⟨hi₀,hp₀⟩ := h.loop ht he hi hs hloop
  cases hc : (input m).cancelled with
  | true =>
    obtain ⟨s₁,hcancel,hchain,hfut,hnodes⟩ := tick_cancelled (g := g) hi₀ hc
    rw [hcancel] at htick
    cases htick
    exact Or.inr ⟨m,s₀,s₁,hloop,hc,hi₀,hp₀,hchain,hfut,rfl,hnodes⟩
  | false =>
    have hspec := tick_spec ht hi₀ hc
    rw [htick] at hspec
    cases hspec with
    | returned hiter hover =>
      exact Or.inl ⟨_,rfl,hover,hiter.steps.inv hi₀,h.steps (he m) hiter.steps hi₀ hp₀⟩

/-- Only a ready node whose parameters do not resolve lets an exception out. -/
theorem raised (h : Preserved g t stale E P) (ht : t.WellFormed) (he : ∀ n, E (input n).env)
    (hi : Inv g t stale (GraphScheduler.enter s)) (hs : P (GraphScheduler.enter s)) {n : ℕ}
    {error : PyError} (hn : g.run t input s n = .raised error s') :
    Inv g t stale s' ∧ P s' ∧ ∃ spec ∈ t.nodes, ∃ e, error = .resolve e ∧ Ready s'.run spec ∧
      nodeParams t s'.run spec = .error e := by
  obtain ⟨m,_,s₀,hloop,htick⟩ := exec_raised hn
  obtain ⟨hi₀,hp₀⟩ := h.loop ht he hi hs hloop
  obtain ⟨_,hlaunch,hunresolved⟩ := tick_raised ht hi₀ htick
  exact ⟨hlaunch.steps.inv hi₀,h.steps (he m) hlaunch.steps hi₀ hp₀,hunresolved⟩

/-- In every state of an execution that is not cancelled. -/
theorem state (h : Preserved g t stale E P) (ht : t.WellFormed) (he : ∀ n, E (input n).env)
    (hc : ∀ n, (input n).cancelled = false) (hsave : ∀ {s} state, P s → P (s.setState state).saveRun)
    (hi : Inv g t stale (GraphScheduler.enter s)) (hs : P (GraphScheduler.enter s)) (n : ℕ) :
    P (g.run t input s n).state := by
  cases hn : g.run t input s n with
  | loop s' => exact (h.loop ht he hi hs hn).2
  | raised error s' => exact (h.raised ht he hi hs hn).2.1
  | returned s' =>
    rcases h.returned ht he hi hs hn with ⟨s₃,rfl,_,_,hp⟩ | ⟨m,_,_,_,hcancel,_⟩
    · exact hsave _ hp
    · rw [hc m] at hcancel
      cases hcancel

end Preserved

theorem preserved_true : Preserved g t stale (fun _ => True) fun _ => True :=
  ⟨fun _ _ h => h,fun _ _ _ h => h,fun _ _ _ h => h⟩

/-- The invariant of the loop holds at every iteration. -/
theorem loop_inv (ht : t.WellFormed) (hi : Inv g t stale (GraphScheduler.enter s)) {input : ℕ → Tick}
    {n : ℕ} (hn : g.run t input s n = .loop s') : Inv g t stale s' := by
  exact (preserved_true.loop ht (fun _ => trivial) hi trivial hn).1

namespace Stable
variable {E : Env → Prop} {P : Sched → Prop}

theorem tick (h : Stable g t stale E P) (ht : t.WellFormed) {i : Tick} (he : E i.env)
    (hi : Inv g t stale s) (hs : P s) : P (g.tick t i s).state := by
  cases hc : i.cancelled with
  | true =>
    obtain ⟨s',hcancel,hchain,_⟩ := tick_cancelled (g := g) hi hc
    have hstep : ∀ a b, CancelStep t a b → P a → P b := fun _ _ => h.cancel
    rw [hcancel]
    exact h.save _ (chain_invariant hstep hchain hs)
  | false =>
    have hspec := tick_spec ht hi hc
    generalize g.tick t i s = outcome at hspec
    cases hspec with
    | raised hlaunch _ _ _ => exact h.steps he hlaunch.steps hi hs
    | loop hiter _ => exact h.steps he hiter.steps hi hs
    | returned hiter _ => exact h.save _ (h.steps he hiter.steps hi hs)

theorem later (h : Stable g t stale E P) (ht : t.WellFormed) (input : ℕ → Tick) (he : ∀ n, E (input n).env)
    (hi : Inv g t stale (GraphScheduler.enter s)) {n m : ℕ} (hs : P (g.run t input s n).state)
    (hnm : n ≤ m) : P (g.run t input s m).state := by
  induction m, hnm using Nat.le_induction with
  | base => exact hs
  | succ m _ ih =>
    cases hm : g.run t input s m with
    | loop u =>
      rw [hm] at ih
      rw [GraphScheduler.run,exec_succ hm]
      exact h.tick ht (he m) (loop_inv ht hi hm) ih
    | returned u =>
      rw [hm] at ih
      rw [GraphScheduler.run,exec_returned_mono hm (Nat.le_succ m)]
      exact ih
    | raised e u =>
      rw [hm] at ih
      rw [GraphScheduler.run,exec_raised_mono hm (Nat.le_succ m)]
      exact ih

/-- In every state an execution passes through or ends in. -/
theorem run (h : Stable g t stale E P) (ht : t.WellFormed) (input : ℕ → Tick) (he : ∀ n, E (input n).env)
    (hi : Inv g t stale (GraphScheduler.enter s)) (hs : P s) (n : ℕ) :
    P (g.run t input s n).state :=
  h.later ht input he hi (n := 0) (h.save _ hs) (Nat.zero_le n)

end Stable

end DftForge.Runtime
