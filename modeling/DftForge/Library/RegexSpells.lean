import DftForge.Library.RegexReads

/-! # The texts of an expression

What an expression may read, with the groups closed on the way, as a relation that knows no
order of tries. Whatever the backtracking run reaches has read such a text.
-/
namespace DftForge.Library.Regex
variable {α : Type*}

inductive Spells : Regex α → List α → List (ℕ × List α) → Prop
  | empty : Spells .empty [] []
  | one {p : α → Bool} {x : α} : p x = true → Spells (.one p) [x] []
  | anchor {p : Option α → Option α → Bool} : Spells (.anchor p) [] []
  | seq {r s : Regex α} {w w' : List α} {gs gs' : List (ℕ × List α)} : Spells r w gs → Spells s w' gs' →
    Spells (.seq r s) (w ++ w') (gs' ++ gs)
  | left {r s : Regex α} {w : List α} {gs : List (ℕ × List α)} : Spells r w gs → Spells (.alt r s) w gs
  | right {r s : Regex α} {w : List α} {gs : List (ℕ × List α)} : Spells s w gs → Spells (.alt r s) w gs
  | stop {r : Regex α} : Spells (.many r) [] []
  | round {r : Regex α} {w w' : List α} {gs gs' : List (ℕ × List α)} : Spells r w gs →
    Spells (.many r) w' gs' → Spells (.many r) (w ++ w') (gs' ++ gs)
  | stopLazy {r : Regex α} : Spells (.manyLazy r) [] []
  | roundLazy {r : Regex α} {w w' : List α} {gs gs' : List (ℕ × List α)} : Spells r w gs →
    Spells (.manyLazy r) w' gs' → Spells (.manyLazy r) (w ++ w') (gs' ++ gs)
  | group {n : ℕ} {r : Regex α} {w : List α} {gs : List (ℕ × List α)} : Spells r w gs →
    Spells (.group n r) w ((n,w) :: gs)

section Soundness
variable {r : Regex α} {c d : Cursor α}

/-- The second cursor has read a text of the expression after the first. -/
def Passed (r : Regex α) (c d : Cursor α) : Prop :=
  ∃ w gs, Spells r w gs ∧ c.after = w ++ d.after ∧ d.groups = gs ++ c.groups

theorem passed_rounds {step : Cursor α → List (Cursor α)} (hstep : ∀ c d, d ∈ step c → Passed r c d)
    {n : ℕ} (h : d ∈ rounds step n c) : Passed (.many r) c d := by
  induction n generalizing c with
  | zero =>
    rw [rounds,List.mem_singleton] at h
    exact ⟨[],[],.stop,by rw [h]; rfl,by rw [h]; rfl⟩
  | succ n ih =>
    rw [rounds_succ,List.mem_append,List.mem_flatMap,List.mem_singleton] at h
    obtain ⟨e,he,hd⟩ | rfl := h
    · obtain ⟨w,gs,hw,hafter,hgroups⟩ := hstep c e he
      obtain ⟨w',gs',hw',hafter',hgroups'⟩ := ih hd
      refine ⟨w ++ w',gs' ++ gs,.round hw hw',?_,?_⟩
      · rw [hafter,hafter',List.append_assoc]
      · rw [hgroups',hgroups,List.append_assoc]
    · exact ⟨[],[],.stop,rfl,rfl⟩

theorem passed_roundsLazy {step : Cursor α → List (Cursor α)} (hstep : ∀ c d, d ∈ step c → Passed r c d)
    {n : ℕ} (h : d ∈ roundsLazy step n c) : Passed (.manyLazy r) c d := by
  induction n generalizing c with
  | zero =>
    rw [roundsLazy,List.mem_singleton] at h
    exact ⟨[],[],.stopLazy,by rw [h]; rfl,by rw [h]; rfl⟩
  | succ n ih =>
    rw [roundsLazy,List.mem_cons,List.mem_flatMap] at h
    obtain rfl | ⟨e,he,hd⟩ := h
    · exact ⟨[],[],.stopLazy,rfl,rfl⟩
    · obtain ⟨w,gs,hw,hafter,hgroups⟩ := hstep c e he
      obtain ⟨w',gs',hw',hafter',hgroups'⟩ := ih hd
      refine ⟨w ++ w',gs' ++ gs,.roundLazy hw hw',?_,?_⟩
      · rw [hafter,hafter',List.append_assoc]
      · rw [hgroups',hgroups,List.append_assoc]

/-- What the run reaches has read a text of the expression. -/
theorem passed_of_mem_run (h : d ∈ run r c) : Passed r c d := by
  induction r generalizing c d with
  | empty =>
    rw [run_empty,List.mem_singleton] at h
    exact ⟨[],[],.empty,by rw [h]; rfl,by rw [h]; rfl⟩
  | one p =>
    obtain ⟨before,after,groups⟩ := c
    cases after with
    | nil => cases h
    | cons x t =>
      rw [run_one_cons] at h
      split_ifs at h with hx
      · rw [List.mem_singleton] at h
        exact ⟨[x],[],.one hx,by rw [h]; rfl,by rw [h]; rfl⟩
      · cases h
  | anchor p =>
    rw [run] at h
    split_ifs at h
    · rw [List.mem_singleton] at h
      exact ⟨[],[],.anchor,by rw [h]; rfl,by rw [h]; rfl⟩
    · cases h
  | seq r s ihr ihs =>
    rw [run_seq,List.mem_flatMap] at h
    obtain ⟨e,he,hd⟩ := h
    obtain ⟨w,gs,hw,hafter,hgroups⟩ := ihr he
    obtain ⟨w',gs',hw',hafter',hgroups'⟩ := ihs hd
    refine ⟨w ++ w',gs' ++ gs,.seq hw hw',?_,?_⟩
    · rw [hafter,hafter',List.append_assoc]
    · rw [hgroups',hgroups,List.append_assoc]
  | alt r s ihr ihs =>
    rw [run_alt,List.mem_append] at h
    obtain h | h := h
    · obtain ⟨w,gs,hw,hrest⟩ := ihr h
      exact ⟨w,gs,.left hw,hrest⟩
    · obtain ⟨w,gs,hw,hrest⟩ := ihs h
      exact ⟨w,gs,.right hw,hrest⟩
  | many r ih =>
    rw [run_many] at h
    exact passed_rounds (fun _ _ hd => ih hd) h
  | manyLazy r ih =>
    rw [run] at h
    exact passed_roundsLazy (fun _ _ hd => ih hd) h
  | group n r ih =>
    rw [run_group,List.mem_map] at h
    obtain ⟨e,he,rfl⟩ := h
    obtain ⟨w,gs,hw,hafter,hgroups⟩ := ih he
    have hsince : c.since e = w := by simp [Cursor.since,hafter]
    refine ⟨w,(n,w) :: gs,.group hw,hafter,?_⟩
    rw [Cursor.close,hsince,hgroups,List.cons_append]

end Soundness

section Inversion
variable {r s : Regex α} {w : List α} {gs : List (ℕ × List α)} {p : α → Bool}

theorem spells_one (h : Spells (.one p) w gs) : ∃ x, p x = true ∧ w = [x] ∧ gs = [] := by
  cases h with
  | one hx => exact ⟨_,hx,rfl,rfl⟩

theorem spells_seq (h : Spells (.seq r s) w gs) :
    ∃ u v hs ks, Spells r u hs ∧ Spells s v ks ∧ w = u ++ v ∧ gs = ks ++ hs := by
  cases h with
  | seq hu hv => exact ⟨_,_,_,_,hu,hv,rfl,rfl⟩

theorem spells_opt (h : Spells (.opt r) w gs) : Spells r w gs ∨ (w = [] ∧ gs = []) := by
  cases h with
  | left h => exact .inl h
  | right h =>
    cases h
    exact .inr ⟨rfl,rfl⟩

theorem spells_group {n : ℕ} (h : Spells (.group n r) w gs) : ∃ hs, Spells r w hs ∧ gs = (n,w) :: hs := by
  cases h with
  | group h => exact ⟨_,h,rfl⟩

theorem spells_many_one (h : Spells (.many (.one p)) w gs) : (∀ x ∈ w, p x = true) ∧ gs = [] := by
  generalize hr : Regex.many (.one p) = r at h
  induction h with
  | stop => exact ⟨nofun,rfl⟩
  | round hx _ _ ih =>
    obtain rfl : Regex.one p = _ := Regex.many.inj hr
    obtain ⟨x,hp,rfl,rfl⟩ := spells_one hx
    obtain ⟨hall,rfl⟩ := ih rfl
    exact ⟨List.forall_mem_cons.mpr ⟨hp,hall⟩,rfl⟩
  | _ => cases hr

theorem spells_plus_one (h : Spells (.plus (.one p)) w gs) : w ≠ [] ∧ (∀ x ∈ w, p x = true) ∧ gs = [] := by
  obtain ⟨u,v,hs,ks,hu,hv,rfl,rfl⟩ := spells_seq h
  obtain ⟨x,hx,rfl,rfl⟩ := spells_one hu
  obtain ⟨hall,rfl⟩ := spells_many_one hv
  exact ⟨List.cons_ne_nil _ _,List.forall_mem_cons.mpr ⟨hx,hall⟩,rfl⟩

theorem spells_chain_cons {rs : List (Regex α)} (h : Spells (chain (r :: rs)) w gs) :
    ∃ u v hs ks, Spells r u hs ∧ Spells (chain rs) v ks ∧ w = u ++ v ∧ gs = ks ++ hs := spells_seq h

theorem spells_chain_nil (h : Spells (chain []) w gs) : w = [] ∧ gs = [] := by
  cases h
  exact ⟨rfl,rfl⟩

theorem spells_chain_ones [DecidableEq α] (u : List α)
    (h : Spells (chain (u.map fun x => .one (· = x))) w gs) : w = u ∧ gs = [] := by
  induction u generalizing w gs with
  | nil => exact spells_chain_nil h
  | cons x u ih =>
    obtain ⟨_,v,_,_,hx,hv,rfl,rfl⟩ := spells_chain_cons h
    obtain ⟨y,hy,rfl,rfl⟩ := spells_one hx
    obtain ⟨rfl,rfl⟩ := ih hv
    rw [of_decide_eq_true hy]
    exact ⟨rfl,rfl⟩

end Inversion

section Optional
variable {r s : Regex α} {w t : List α} {gs : List (ℕ × List α)}

theorem run_opt_seq (c : Cursor α) : run (.seq (.opt r) s) c = run (.seq r s) c ++ run s c := by
  rw [run_seq,run_opt,List.flatMap_append,List.flatMap_singleton,run_seq]

/-- Where nothing can follow an optional part it is left out. -/
theorem Reads.opt_seq_of_fails (h : Fails (.seq r s) (w ++ t)) (h' : Reads s w t gs) :
    Reads (.seq (.opt r) s) w t gs := by
  intro before groups
  rw [run_opt_seq,h,List.nil_append,h']

theorem Reads.anchor {p : Option α → Option α → Bool} (h : ∀ b, p b t.head? = true) :
    Reads (.anchor p) [] t [] := by
  intro before groups
  rw [run]
  simp [h]

end Optional

end DftForge.Library.Regex
