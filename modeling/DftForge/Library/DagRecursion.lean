import Mathlib

/-! # Depth-first cycle detection and recursion over finite acyclic graphs

A graph is a list of nodes and a successor list for each node. Three-colour
depth-first search either closes a cycle or finishes every node, and the second
outcome makes the successor relation well founded. A recursion that only reads
the values at the successors then has a solution, reached with as much fuel as
there are nodes.
-/
namespace DftForge.Dag
variable {α : Type*}

/-- `w` is a successor of `v`. -/
def Edge (adj : α → List α) (w v : α) : Prop := w ∈ adj v

section Search
variable [DecidableEq α]

inductive Color where
  | white
  | gray
  | black
  deriving DecidableEq, Repr

/-- The colouring and the path of gray nodes, oldest first. -/
structure Search (α : Type*) where
  color : α → Color
  path : List α

def Search.start : Search α := ⟨fun _ => .white,[]⟩

def Search.enter (s : Search α) (v : α) : Search α :=
  ⟨Function.update s.color v .gray,s.path ++ [v]⟩

def Search.leave (s : Search α) (v : α) : Search α :=
  ⟨Function.update s.color v .black,s.path.dropLast⟩

/-- Visit the listed nodes in order, stopping at the first cycle. -/
def scan (visit : α → Search α → Option (List α) × Search α) :
    List α → Search α → Option (List α) × Search α
  | [], s => (none,s)
  | w :: ws, s =>
    match visit w s with
    | (some cycle, s) => (some cycle,s)
    | (none, s) => scan visit ws s

/-- Depth-first search from one node. The fuel bounds the depth of the recursion;
one more than the number of white nodes always suffices. -/
def dfs (adj : α → List α) : ℕ → α → Search α → Option (List α) × Search α
  | 0, _, s => (none,s)
  | fuel + 1, v, s =>
    match s.color v with
    | .gray => (some (s.path.drop (s.path.idxOf v) ++ [v]),s)
    | .black => (none,s)
    | .white =>
      match scan (dfs adj fuel) (adj v) (s.enter v) with
      | (some cycle, s) => (some cycle,s)
      | (none, s) => (none,s.leave v)

/-- Search from every node that is still white. -/
def findCycle (adj : α → List α) (nodes : List α) : Option (List α) :=
  (scan (fun v s => if s.color v = .white then dfs adj (nodes.length + 1) v s else (none,s))
    nodes .start).1

/-- How many of the nodes are still white. -/
def whites (nodes : List α) (s : Search α) : ℕ := nodes.countP (fun v => s.color v = .white)

/-- Finished nodes are accessible: no infinite descent starts there. -/
def Finished (adj : α → List α) (s : Search α) : Prop :=
  ∀ v, s.color v = .black → Acc (Edge adj) v

/-- What a visit that closes no cycle does to the colouring. -/
structure Advances (s t : Search α) : Prop where
  black : ∀ v, s.color v = .black → t.color v = .black
  white : ∀ v, t.color v = .white → s.color v = .white
  gray : ∀ v, t.color v = .gray → s.color v = .gray

omit [DecidableEq α] in
theorem Advances.refl (s : Search α) : Advances s s := ⟨fun _ h => h,fun _ h => h,fun _ h => h⟩

omit [DecidableEq α] in
theorem Advances.trans {s t u : Search α} (h : Advances s t) (g : Advances t u) : Advances s u :=
  ⟨fun v hv => g.black v (h.black v hv),fun v hv => h.white v (g.white v hv),
    fun v hv => h.gray v (g.gray v hv)⟩

omit [DecidableEq α] in
theorem Advances.whites_le {s t : Search α} (h : Advances s t) (nodes : List α) :
    whites nodes t ≤ whites nodes s := by
  apply List.countP_mono_left
  intro v _ hv
  simpa using h.white v (by simpa using hv)

theorem enter_color_ne {s : Search α} {v u : α} (h : u ≠ v) : (s.enter v).color u = s.color u := by
  simp [Search.enter,h]

theorem leave_color_ne {s : Search α} {v u : α} (h : u ≠ v) : (s.leave v).color u = s.color u := by
  simp [Search.leave,h]

/-- Entering a white node leaves one white node less. -/
theorem whites_enter_lt {nodes : List α} {s : Search α} {v : α} (hv : v ∈ nodes)
    (hw : s.color v = .white) : whites nodes (s.enter v) < whites nodes s := by
  obtain ⟨as,bs,rfl⟩ := List.append_of_mem hv
  have hle : ∀ us : List α, whites us (s.enter v) ≤ whites us s := by
    intro us
    apply List.countP_mono_left
    intro u _ hu
    by_cases huv : u = v
    · simpa [huv] using hw
    · simpa [enter_color_ne huv] using hu
  have ha := hle as
  have hb := hle bs
  have hself : (s.enter v).color v = .gray := by simp [Search.enter]
  simp only [whites,List.countP_append,List.countP_cons,hself,hw] at ha hb ⊢
  simp only [reduceCtorEq,decide_false,decide_true,if_true]
  simp only [if_false]
  omega

/-- The specification of one visit without a cycle: the node ends finished. -/
def Visits (adj : α → List α) (nodes : List α) (bound : ℕ)
    (visit : α → Search α → Option (List α) × Search α) : Prop :=
  ∀ v ∈ nodes, ∀ s t, whites nodes s < bound → Finished adj s → visit v s = (none,t) →
    Advances s t ∧ Finished adj t ∧ t.color v = .black

omit [DecidableEq α] in
theorem scan_visits {adj : α → List α} {nodes : List α} {bound : ℕ}
    {visit : α → Search α → Option (List α) × Search α} (hvisit : Visits adj nodes bound visit)
    {ws : List α} (hws : ∀ w ∈ ws, w ∈ nodes) {s t : Search α} (hb : whites nodes s < bound)
    (hs : Finished adj s) (h : scan visit ws s = (none,t)) :
    Advances s t ∧ Finished adj t ∧ ∀ w ∈ ws, t.color w = .black := by
  induction ws generalizing s with
  | nil =>
    cases h
    exact ⟨.refl _,hs,by simp⟩
  | cons w ws ih =>
    rw [scan] at h
    rcases hv : visit w s with ⟨_ | cycle,u⟩
    · simp only [hv] at h
      obtain ⟨hadv,hfin,hblack⟩ := hvisit w (hws w List.mem_cons_self) s u hb hs hv
      obtain ⟨hadv',hfin',hblack'⟩ := ih (fun x hx => hws x (List.mem_cons_of_mem w hx))
        ((hadv.whites_le nodes).trans_lt hb) hfin h
      refine ⟨hadv.trans hadv',hfin',?_⟩
      intro x hx
      rcases List.mem_cons.mp hx with rfl | hx
      · exact hadv'.black x hblack
      · exact hblack' x hx
    · simp [hv] at h

/-- A node finishes once all its successors have. -/
theorem dfs_visits {adj : α → List α} {nodes : List α}
    (hadj : ∀ v ∈ nodes, ∀ w ∈ adj v, w ∈ nodes) (fuel : ℕ) :
    Visits adj nodes fuel (dfs adj fuel) := by
  induction fuel with
  | zero => intro v _ s t hb; omega
  | succ fuel ih =>
    intro v hv s t hb hs h
    rw [dfs] at h
    cases hc : s.color v with
    | gray => simp [hc] at h
    | black =>
      simp only [hc,Prod.mk.injEq,true_and] at h
      subst h
      exact ⟨.refl s,hs,hc⟩
    | white =>
      simp only [hc] at h
      rcases hscan : scan (dfs adj fuel) (adj v) (s.enter v) with ⟨_ | cycle,u⟩
      · simp only [hscan,Prod.mk.injEq,true_and] at h
        subst h
        have henter : Finished adj (s.enter v) := by
          intro x hx
          by_cases hxv : x = v
          · subst hxv; simp [Search.enter] at hx
          · exact hs x (by rwa [enter_color_ne hxv] at hx)
        have hlt := whites_enter_lt hv hc
        obtain ⟨hadv,hfin,hblack⟩ := scan_visits ih (hadj v hv) (by omega) henter hscan
        have hacc : Acc (Edge adj) v := Acc.intro v fun w hw => hfin w (hblack w hw)
        have hself : (u.leave v).color v = .black := by simp [Search.leave]
        refine ⟨⟨fun x hx => ?_,fun x hx => ?_,fun x hx => ?_⟩,fun x hx => ?_,hself⟩
        all_goals by_cases hxv : x = v
        · exact hxv ▸ hself
        · rw [leave_color_ne hxv]
          exact hadv.black x (by rwa [enter_color_ne hxv])
        · exact hxv ▸ hc
        · rw [leave_color_ne hxv] at hx
          simpa [enter_color_ne hxv] using hadv.white x hx
        · rw [hxv,hself] at hx; cases hx
        · rw [leave_color_ne hxv] at hx
          simpa [enter_color_ne hxv] using hadv.gray x hx
        · exact hxv ▸ hacc
        · exact hfin x (by rwa [leave_color_ne hxv] at hx)
      · simp [hscan] at h

/-- Between two roots no node is gray, so every root ends finished. -/
theorem scan_roots {adj : α → List α} {nodes : List α}
    (hadj : ∀ v ∈ nodes, ∀ w ∈ adj v, w ∈ nodes) {ws : List α} (hws : ∀ w ∈ ws, w ∈ nodes)
    {s t : Search α} (hs : Finished adj s) (hgray : ∀ v, s.color v ≠ .gray)
    (h : scan (fun v s => if s.color v = .white then dfs adj (nodes.length + 1) v s else (none,s))
      ws s = (none,t)) : Finished adj t ∧ ∀ w ∈ ws, t.color w = .black := by
  have hb : ∀ s : Search α, whites nodes s < nodes.length + 1 := fun s =>
    Nat.lt_succ_of_le List.countP_le_length
  suffices hall : Finished adj t ∧ Advances s t ∧ ∀ w ∈ ws, t.color w = .black from
    ⟨hall.1,hall.2.2⟩
  induction ws generalizing s with
  | nil =>
    cases h
    exact ⟨hs,.refl _,by simp⟩
  | cons w ws ih =>
    rw [scan] at h
    have hws' : ∀ x ∈ ws, x ∈ nodes := fun x hx => hws x (List.mem_cons_of_mem w hx)
    by_cases hw : s.color w = .white
    · simp only [if_pos hw] at h
      rcases hv : dfs adj (nodes.length + 1) w s with ⟨_ | cycle,u⟩
      · simp only [hv] at h
        obtain ⟨hadv,hfin,hblack⟩ := dfs_visits hadj _ w (hws w List.mem_cons_self) s u (hb s) hs hv
        obtain ⟨hfin',hadv',hblack'⟩ := ih hws' hfin (fun v hv => hgray v (hadv.gray v hv)) h
        refine ⟨hfin',hadv.trans hadv',?_⟩
        intro x hx
        rcases List.mem_cons.mp hx with rfl | hx
        · exact hadv'.black x hblack
        · exact hblack' x hx
      · simp [hv] at h
    · simp only [if_neg hw] at h
      have hblack : s.color w = .black := by
        cases hc : s.color w with
        | white => exact absurd hc hw
        | gray => exact absurd hc (hgray w)
        | black => rfl
      obtain ⟨hfin',hadv',hblack'⟩ := ih hws' hs hgray h
      refine ⟨hfin',hadv',?_⟩
      intro x hx
      rcases List.mem_cons.mp hx with rfl | hx
      · exact hadv'.black x hblack
      · exact hblack' x hx

/-- A search that closes no cycle leaves no infinite descent. -/
theorem findCycle_none {adj : α → List α} {nodes : List α}
    (hadj : ∀ v ∈ nodes, ∀ w ∈ adj v, w ∈ nodes) (h : findCycle adj nodes = none) :
    ∀ v ∈ nodes, Acc (Edge adj) v := by
  unfold findCycle at h
  obtain ⟨hfin,hblack⟩ := scan_roots hadj (fun _ hw => hw) (s := .start)
    (by intro v hv; simp [Search.start] at hv) (by intro v; simp [Search.start])
    (Prod.ext h rfl)
  exact fun v hv => hfin v (hblack v hv)

/-- A walk along edges that ends where it began. -/
structure ClosedWalk (adj : α → List α) (path : List α) : Prop where
  long : 2 ≤ path.length
  closed : path.head? = path.getLast?
  edges : path.IsChain fun v w => w ∈ adj v

omit [DecidableEq α] in
theorem isChain_transGen {adj : α → List α} {v u : α} {ws : List α}
    (h : (v :: (ws ++ [u])).IsChain fun v w => w ∈ adj v) : Relation.TransGen (Edge adj) u v := by
  induction ws generalizing v with
  | nil => exact .single (List.isChain_cons_cons.mp h).1
  | cons w ws ih =>
    obtain ⟨hvw,hrest⟩ := List.isChain_cons_cons.mp h
    exact (ih hrest).tail hvw

omit [DecidableEq α] in
theorem ClosedWalk.cycle {adj : α → List α} {path : List α} (h : ClosedWalk adj path) :
    ∃ x, Relation.TransGen (Edge adj) x x := by
  obtain ⟨hlong,hclosed,hedges⟩ := h
  cases path with
  | nil => simp at hlong
  | cons v rest =>
    have hne : rest ≠ [] := by
      rintro rfl
      simp at hlong
    obtain ⟨ws,u,rfl⟩ := (List.eq_nil_or_concat rest).resolve_left hne
    rw [List.concat_eq_append] at hclosed hedges
    rw [← List.cons_append,List.getLast?_concat] at hclosed
    obtain rfl : v = u := Option.some.inj hclosed
    exact ⟨v,isChain_transGen hedges⟩

/-- The gray nodes are the path, a walk through listed nodes. -/
structure Walking (adj : α → List α) (nodes : List α) (s : Search α) : Prop where
  edges : s.path.IsChain fun v w => w ∈ adj v
  known : ∀ v ∈ s.path, v ∈ nodes
  gray : ∀ v, s.color v = .gray ↔ v ∈ s.path

/-- The next node continues the path. -/
def Continues (adj : α → List α) (s : Search α) (v : α) : Prop :=
  (s.path ++ [v]).IsChain fun v w => w ∈ adj v

/-- A visit that continues the path closes it to a cycle, or puts everything back. -/
structure Closes (adj : α → List α) (nodes : List α)
    (visit : α → Search α → Option (List α) × Search α) : Prop where
  found : ∀ v ∈ nodes, ∀ s t cycle, Walking adj nodes s → Continues adj s v →
    visit v s = (some cycle,t) → ClosedWalk adj cycle ∧ ∀ u ∈ cycle, u ∈ nodes
  back : ∀ v ∈ nodes, ∀ s t, Walking adj nodes s → Continues adj s v →
    visit v s = (none,t) → t.path = s.path ∧ Walking adj nodes t

omit [DecidableEq α] in
theorem scan_closes {adj : α → List α} {nodes : List α}
    {visit : α → Search α → Option (List α) × Search α} (hvisit : Closes adj nodes visit)
    {ws : List α} (hws : ∀ w ∈ ws, w ∈ nodes) {s t : Search α} (hs : Walking adj nodes s)
    (hnext : ∀ w ∈ ws, Continues adj s w) :
    (∀ cycle, scan visit ws s = (some cycle,t) → ClosedWalk adj cycle ∧ ∀ u ∈ cycle, u ∈ nodes) ∧
      (scan visit ws s = (none,t) → t.path = s.path ∧ Walking adj nodes t) := by
  induction ws generalizing s with
  | nil =>
    refine ⟨fun cycle h => by simp [scan] at h,fun h => ?_⟩
    cases h
    exact ⟨rfl,hs⟩
  | cons w ws ih =>
    have hw := hws w List.mem_cons_self
    have hwnext := hnext w List.mem_cons_self
    rw [scan]
    rcases hv : visit w s with ⟨_ | cycle,u⟩
    · obtain ⟨hpath,hu⟩ := hvisit.back w hw s u hs hwnext hv
      have hrest := ih (fun x hx => hws x (List.mem_cons_of_mem w hx)) hu fun x hx => by
        unfold Continues
        rw [hpath]
        exact hnext x (List.mem_cons_of_mem w hx)
      refine ⟨hrest.1,fun h => ?_⟩
      obtain ⟨hpath',ht⟩ := hrest.2 h
      exact ⟨hpath'.trans hpath,ht⟩
    · refine ⟨fun cycle' h => ?_,fun h => by simp at h⟩
      obtain ⟨rfl,rfl⟩ : cycle = cycle' ∧ u = t := by simpa using h
      exact hvisit.found w hw s u cycle hs hwnext hv

theorem Walking.enter {adj : α → List α} {nodes : List α} {s : Search α} {v : α}
    (hs : Walking adj nodes s) (hv : v ∈ nodes) (hnext : Continues adj s v) :
    Walking adj nodes (s.enter v) := by
  refine ⟨hnext,?_,?_⟩
  · intro u hu
    rcases List.mem_append.mp hu with hu | hu
    · exact hs.known u hu
    · rw [List.mem_singleton.mp hu]
      exact hv
  · intro u
    by_cases huv : u = v
    · simp [Search.enter,huv]
    · rw [enter_color_ne huv,hs.gray u]
      simp [Search.enter,huv]

theorem Walking.leave {adj : α → List α} {nodes : List α} {s t : Search α} {v : α}
    (hs : Walking adj nodes s) (hv : v ∉ s.path) (ht : Walking adj nodes t)
    (hpath : t.path = s.path ++ [v]) :
    (t.leave v).path = s.path ∧ Walking adj nodes (t.leave v) := by
  have hback : (t.leave v).path = s.path := by
    simp [Search.leave,hpath]
  refine ⟨hback,?_,?_,?_⟩
  · rw [hback]
    exact hs.edges
  · rw [hback]
    exact hs.known
  · intro u
    rw [hback]
    by_cases huv : u = v
    · subst huv
      simp [Search.leave,hv]
    · rw [leave_color_ne huv,ht.gray u,hpath]
      simp [huv]

/-- From the first occurrence of a gray node on, the path closes at that node. -/
theorem Walking.closed {adj : α → List α} {nodes : List α} {s : Search α} {v : α}
    (hs : Walking adj nodes s) (hv : v ∈ s.path) (hnext : Continues adj s v) :
    ClosedWalk adj (s.path.drop (s.path.idxOf v) ++ [v]) ∧
      ∀ u ∈ s.path.drop (s.path.idxOf v) ++ [v], u ∈ nodes := by
  have hlt : s.path.idxOf v < s.path.length := List.idxOf_lt_length_of_mem hv
  have hdrop : s.path.drop (s.path.idxOf v) = v :: s.path.drop (s.path.idxOf v + 1) := by
    rw [List.drop_eq_getElem_cons hlt,List.getElem_idxOf hlt]
  refine ⟨⟨?_,?_,?_⟩,?_⟩
  · rw [hdrop]
    simp
  · rw [List.getLast?_concat,hdrop]
    rfl
  · have hsuffix : s.path.drop (s.path.idxOf v) ++ [v] = (s.path ++ [v]).drop (s.path.idxOf v) := by
      rw [List.drop_append_of_le_length hlt.le]
    rw [hsuffix]
    exact List.IsChain.drop hnext _
  · intro u hu
    rcases List.mem_append.mp hu with hu | hu
    · exact hs.known u (List.mem_of_mem_drop hu)
    · rw [List.mem_singleton.mp hu]
      exact hs.known v hv

theorem dfs_closes {adj : α → List α} {nodes : List α}
    (hadj : ∀ v ∈ nodes, ∀ w ∈ adj v, w ∈ nodes) (fuel : ℕ) : Closes adj nodes (dfs adj fuel) := by
  induction fuel with
  | zero =>
    refine ⟨fun v _ s t cycle _ _ h => by simp [dfs] at h,fun v _ s t hs _ h => ?_⟩
    cases h
    exact ⟨rfl,hs⟩
  | succ fuel ih =>
    -- the successors of a white node continue the path that it has entered
    have hscan : ∀ v ∈ nodes, ∀ s t, Walking adj nodes s → Continues adj s v →
        (∀ cycle, scan (dfs adj fuel) (adj v) (s.enter v) = (some cycle,t) →
          ClosedWalk adj cycle ∧ ∀ u ∈ cycle, u ∈ nodes) ∧
        (scan (dfs adj fuel) (adj v) (s.enter v) = (none,t) →
          t.path = (s.enter v).path ∧ Walking adj nodes t) := by
      intro v hv s t hs hnext
      apply scan_closes ih (hadj v hv) (hs.enter hv hnext)
      intro w hw
      have hchain : ((s.path ++ [v]) ++ [w]).IsChain fun v w => w ∈ adj v := by
        refine List.IsChain.append hnext (List.isChain_singleton w) ?_
        intro x hx y hy
        rw [List.getLast?_concat] at hx
        obtain rfl := Option.some.inj hx
        obtain rfl := Option.some.inj hy
        exact hw
      exact hchain
    constructor
    · intro v hv s t cycle hs hnext h
      rw [dfs] at h
      cases hc : s.color v with
      | gray =>
        simp only [hc,Prod.mk.injEq,Option.some.injEq] at h
        obtain ⟨rfl,rfl⟩ := h
        exact hs.closed ((hs.gray v).mp hc) hnext
      | black => simp [hc] at h
      | white =>
        simp only [hc] at h
        rcases hout : scan (dfs adj fuel) (adj v) (s.enter v) with ⟨_ | found,u⟩
        · simp [hout] at h
        · simp only [hout,Prod.mk.injEq,Option.some.injEq] at h
          obtain ⟨rfl,rfl⟩ := h
          exact (hscan v hv s u hs hnext).1 found hout
    · intro v hv s t hs hnext h
      rw [dfs] at h
      cases hc : s.color v with
      | gray => simp [hc] at h
      | black =>
        simp only [hc,Prod.mk.injEq,true_and] at h
        subst h
        exact ⟨rfl,hs⟩
      | white =>
        simp only [hc] at h
        have hnot : v ∉ s.path := fun hmem => by
          have hgray := (hs.gray v).mpr hmem
          rw [hc] at hgray
          cases hgray
        rcases hout : scan (dfs adj fuel) (adj v) (s.enter v) with ⟨_ | found,u⟩
        · simp only [hout,Prod.mk.injEq,true_and] at h
          subst h
          obtain ⟨hpath,hu⟩ := (hscan v hv s u hs hnext).2 hout
          exact hs.leave hnot hu hpath
        · simp [hout] at h

/-- A search that stops returns a closed walk through listed nodes. -/
theorem findCycle_closed {adj : α → List α} {nodes path : List α}
    (hadj : ∀ v ∈ nodes, ∀ w ∈ adj v, w ∈ nodes) (h : findCycle adj nodes = some path) :
    ClosedWalk adj path ∧ ∀ v ∈ path, v ∈ nodes := by
  let root := fun v (s : Search α) =>
    if s.color v = .white then dfs adj (nodes.length + 1) v s else (none,s)
  have hdfs := dfs_closes hadj (nodes.length + 1)
  -- a root starts from the empty path, which every node continues
  have hroots : ∀ ws : List α, (∀ w ∈ ws, w ∈ nodes) → ∀ s, Walking adj nodes s → s.path = [] →
      (scan root ws s).1 = some path → ClosedWalk adj path ∧ ∀ v ∈ path, v ∈ nodes := by
    intro ws
    induction ws with
    | nil =>
      intro _ s _ _ hscan
      simp [scan] at hscan
    | cons w ws ih =>
      intro hws s hs hnil hscan
      have hw := hws w List.mem_cons_self
      have hnext : Continues adj s w := by
        unfold Continues
        rw [hnil]
        exact List.isChain_singleton w
      have hrest := ih fun x hx => hws x (List.mem_cons_of_mem w hx)
      rw [scan] at hscan
      by_cases hwhite : s.color w = .white
      · have hroot : root w s = dfs adj (nodes.length + 1) w s := if_pos hwhite
        rw [hroot] at hscan
        rcases hv : dfs adj (nodes.length + 1) w s with ⟨_ | cycle,u⟩
        · simp only [hv] at hscan
          obtain ⟨hpath,hu⟩ := hdfs.back w hw s u hs hnext hv
          exact hrest u hu (hpath.trans hnil) hscan
        · simp only [hv,Option.some.injEq] at hscan
          subst hscan
          exact hdfs.found w hw s u cycle hs hnext hv
      · have hroot : root w s = (none,s) := if_neg hwhite
        rw [hroot] at hscan
        exact hrest s hs hnil hscan
  refine hroots nodes (fun _ hv => hv) .start ⟨List.isChain_nil,by simp [Search.start],?_⟩ rfl h
  intro v
  simp [Search.start]

end Search

section Recursion
variable {β : Type*}

/-- Evaluate a node from the values of its successors, `fuel` levels deep. -/
def eval (rule : α → (α → β) → β) (default : β) : ℕ → α → β
  | 0, _ => default
  | fuel + 1, v => rule v (eval rule default fuel)

/-- The rule at `v` only reads the values at the successors of `v`. -/
def Reads (adj : α → List α) (rule : α → (α → β) → β) : Prop :=
  ∀ v f g, (∀ w ∈ adj v, f w = g w) → rule v f = rule v g

/-- `f` solves the recursion on the listed nodes. -/
def Solves (nodes : List α) (rule : α → (α → β) → β) (f : α → β) : Prop :=
  ∀ v ∈ nodes, f v = rule v f

theorem acc_irrefl {r : α → α → Prop} {a : α} (h : Acc r a) : ¬ r a a := by
  induction h with
  | intro a _ ih => exact fun hr => ih a hr hr

/-- The nodes strictly below `v`. -/
noncomputable def below (adj : α → List α) (nodes : List α) (v : α) : Finset α :=
  open Classical in nodes.toFinset.filter fun w => Relation.TransGen (Edge adj) w v

/-- Going down an edge loses at least one node below. -/
theorem below_card_lt {adj : α → List α} {nodes : List α} {v w : α}
    (hacc : Acc (Edge adj) v) (hw : w ∈ nodes) (hvw : w ∈ adj v) :
    (below adj nodes w).card < (below adj nodes v).card := by
  classical
  apply Finset.card_lt_card
  refine Finset.ssubset_iff_of_subset ?_ |>.mpr ⟨w,?_,?_⟩
  · intro u hu
    simp only [below,Finset.mem_filter] at hu ⊢
    exact ⟨hu.1,hu.2.tail hvw⟩
  · simp only [below,Finset.mem_filter,List.mem_toFinset]
    exact ⟨hw,.single hvw⟩
  · simp only [below,Finset.mem_filter,not_and]
    intro _ hcycle
    have hw' : Acc (Relation.TransGen (Edge adj)) w := (hacc.inv hvw).transGen
    exact acc_irrefl hw' hcycle

theorem below_card_lt_length {adj : α → List α} {nodes : List α} {v : α}
    (hacc : Acc (Edge adj) v) (hv : v ∈ nodes) : (below adj nodes v).card < nodes.length := by
  classical
  have hlt : (below adj nodes v).card < nodes.toFinset.card := by
    apply Finset.card_lt_card
    refine Finset.ssubset_iff_of_subset (Finset.filter_subset _ _) |>.mpr ⟨v,by simpa using hv,?_⟩
    simp only [Finset.mem_filter,not_and]
    exact fun _ hcycle => acc_irrefl hacc.transGen hcycle
  exact hlt.trans_le nodes.toFinset_card_le

theorem eval_stable {adj : α → List α} {nodes : List α} {rule : α → (α → β) → β} {default : β}
    (hreads : Reads adj rule) (hadj : ∀ v ∈ nodes, ∀ w ∈ adj v, w ∈ nodes)
    (hacc : ∀ v ∈ nodes, Acc (Edge adj) v) {m n : ℕ} {v : α} (hv : v ∈ nodes)
    (hm : (below adj nodes v).card < m) (hn : (below adj nodes v).card < n) :
    eval rule default m v = eval rule default n v := by
  induction m generalizing n v with
  | zero => omega
  | succ m ih =>
    cases n with
    | zero => omega
    | succ n =>
      simp only [eval]
      apply hreads
      intro w hw
      have hwn := hadj v hv w hw
      have hlt := below_card_lt (hacc v hv) hwn hw
      exact ih hwn (by omega) (by omega)

/-- As much fuel as there are nodes solves the recursion. -/
theorem eval_solves {adj : α → List α} {nodes : List α} {rule : α → (α → β) → β} (default : β)
    (hreads : Reads adj rule) (hadj : ∀ v ∈ nodes, ∀ w ∈ adj v, w ∈ nodes)
    (hacc : ∀ v ∈ nodes, Acc (Edge adj) v) :
    Solves nodes rule (eval rule default nodes.length) := by
  intro v hv
  have hlt := below_card_lt_length (hacc v hv) hv
  rw [eval_stable hreads hadj hacc hv hlt (hlt.trans (Nat.lt_succ_self _))]
  rfl

end Recursion

end DftForge.Dag
