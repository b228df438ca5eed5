import DftForge.Library.RegexSpells

/-! # Expressions headed by a symbol

Where a symbol stands first in every text of an expression and nowhere else in one, its
matches keep apart: they are the matches at every place of the text. The run of an
expression without anchors misses no text that the expression spells.
-/
namespace DftForge.Library.Regex
variable {α : Type*}

section Texts
variable {r : Regex α} {w : List α}

theorem Spells.chain_ones [DecidableEq α] (w : List α) :
    Spells (chain (w.map fun x => .one (· = x))) w [] := by
  induction w with
  | nil => exact .empty
  | cons x w ih =>
    have hx : Spells (.one (· = x)) [x] [] := .one (decide_eq_true rfl)
    exact hx.seq ih

end Texts

section Completeness

/-- The run reaches the place after `w`. -/
def Reaches (step : Cursor α → List (Cursor α)) (w t : List α) : Prop :=
  ∀ before groups, ∃ d ∈ step ⟨before,w ++ t,groups⟩, d.after = t

variable {step : Cursor α → List (Cursor α)} {w w' t : List α}

theorem rounds_subset {n n' : ℕ} (h : n ≤ n') (c : Cursor α) : rounds step n c ⊆ rounds step n' c := by
  induction n generalizing n' c with
  | zero =>
    cases n' with
    | zero => exact List.Subset.refl _
    | succ n' => exact List.subset_append_right _ _
  | succ n ih =>
    obtain ⟨n',rfl⟩ : ∃ m, n' = m + 1 := ⟨n' - 1,by omega⟩
    rw [rounds_succ,rounds_succ]
    refine List.append_subset.mpr ⟨fun d hd => ?_,List.subset_append_right _ _⟩
    obtain ⟨e,he,hd⟩ := List.mem_flatMap.mp hd
    exact List.mem_append_left _ (List.mem_flatMap.mpr ⟨e,he,ih (by omega) e hd⟩)

theorem roundsLazy_subset {n n' : ℕ} (h : n ≤ n') (c : Cursor α) :
    roundsLazy step n c ⊆ roundsLazy step n' c := by
  induction n generalizing n' c with
  | zero =>
    cases n' with
    | zero => exact List.Subset.refl _
    | succ n' => exact List.cons_subset_cons _ (List.nil_subset _)
  | succ n ih =>
    obtain ⟨n',rfl⟩ : ∃ m, n' = m + 1 := ⟨n' - 1,by omega⟩
    rw [roundsLazy,roundsLazy]
    refine List.cons_subset_cons _ fun d hd => ?_
    obtain ⟨e,he,hd⟩ := List.mem_flatMap.mp hd
    exact List.mem_flatMap.mpr ⟨e,he,ih (by omega) e hd⟩

/-- A round that reads nothing is not needed; the others are fewer than the symbols left. -/
theorem Reaches.round {r : Regex α} (h : Reaches (run r) w (w' ++ t)) (hrest : Reaches (run (.many r)) w' t) :
    Reaches (run (.many r)) (w ++ w') t := by
  cases w with
  | nil => exact hrest
  | cons x w =>
    intro before groups
    obtain ⟨e,he,hafter⟩ := h before groups
    obtain ⟨d,hd,hend⟩ := hrest e.before e.groups
    have hsame : (⟨e.before,w' ++ t,e.groups⟩ : Cursor α) = e := by rw [← hafter]
    rw [hsame,run_many,hafter] at hd
    refine ⟨d,?_,hend⟩
    rw [run_many,List.append_assoc,List.cons_append,List.length_cons,rounds_succ]
    have hlen : (w' ++ t).length ≤ (w ++ (w' ++ t)).length := by simp
    exact List.mem_append_left _ (List.mem_flatMap.mpr ⟨e,he,rounds_subset hlen e hd⟩)

theorem Reaches.roundLazy {r : Regex α} (h : Reaches (run r) w (w' ++ t))
    (hrest : Reaches (run (.manyLazy r)) w' t) : Reaches (run (.manyLazy r)) (w ++ w') t := by
  cases w with
  | nil => exact hrest
  | cons x w =>
    intro before groups
    obtain ⟨e,he,hafter⟩ := h before groups
    obtain ⟨d,hd,hend⟩ := hrest e.before e.groups
    have hsame : (⟨e.before,w' ++ t,e.groups⟩ : Cursor α) = e := by rw [← hafter]
    rw [hsame,run,hafter] at hd
    refine ⟨d,?_,hend⟩
    rw [run,List.append_assoc,List.cons_append,List.length_cons,roundsLazy]
    have hlen : (w' ++ t).length ≤ (w ++ (w' ++ t)).length := by simp
    exact List.mem_cons_of_mem _ (List.mem_flatMap.mpr ⟨e,he,roundsLazy_subset hlen e hd⟩)

end Completeness

section Places
variable {r s : Regex α} {p : α → Bool} {c d : Cursor α}

/-- Every text of the expression starts with a symbol of the class and has no other. -/
def Headed (p : α → Bool) (r : Regex α) : Prop :=
  ∀ w gs, Spells r w gs → ∃ x rest, w = x :: rest ∧ p x = true ∧ ∀ y ∈ rest, p y = false

/-- No text of the expression has a symbol of the class. -/
def Avoids (p : α → Bool) (r : Regex α) : Prop := ∀ w gs, Spells r w gs → ∀ y ∈ w, p y = false

theorem Avoids.empty : Avoids p .empty := by
  rintro _ _ ⟨⟩
  exact nofun

theorem Avoids.one {q : α → Bool} (h : ∀ x, q x = true → p x = false) : Avoids p (.one q) := by
  intro w gs hw
  obtain ⟨x,hx,rfl,-⟩ := spells_one hw
  exact List.forall_mem_singleton.mpr (h x hx)

theorem Avoids.seq (hr : Avoids p r) (hs : Avoids p s) : Avoids p (.seq r s) := by
  intro w gs hw
  obtain ⟨_,_,_,_,hu,hv,rfl,-⟩ := spells_seq hw
  exact List.forall_mem_append.mpr ⟨hr _ _ hu,hs _ _ hv⟩

theorem Avoids.alt (hr : Avoids p r) (hs : Avoids p s) : Avoids p (.alt r s) := by
  intro w gs hw
  cases hw with
  | left h => exact hr w gs h
  | right h => exact hs w gs h

theorem Avoids.many (hr : Avoids p r) : Avoids p (.many r) := by
  intro w gs h
  generalize hq : Regex.many r = q at h
  induction h with
  | stop => exact nofun
  | round hx _ _ ih =>
    obtain rfl := Regex.many.inj hq
    exact List.forall_mem_append.mpr ⟨hr _ _ hx,ih rfl⟩
  | _ => cases hq

theorem Avoids.group {n : ℕ} (hr : Avoids p r) : Avoids p (.group n r) := by
  intro w gs hw
  obtain ⟨_,h,-⟩ := spells_group hw
  exact hr w _ h

theorem Headed.one {q : α → Bool} (h : ∀ x, q x = true → p x = true) : Headed p (.one q) := by
  intro w gs hw
  obtain ⟨x,hx,rfl,-⟩ := spells_one hw
  exact ⟨x,[],rfl,h x hx,nofun⟩

theorem Headed.seq (hr : Headed p r) (hs : Avoids p s) : Headed p (.seq r s) := by
  intro w gs hw
  obtain ⟨_,_,_,_,hu,hv,rfl,-⟩ := spells_seq hw
  obtain ⟨x,rest,rfl,hx,hrest⟩ := hr _ _ hu
  exact ⟨x,_,rfl,hx,List.forall_mem_append.mpr ⟨hrest,hs _ _ hv⟩⟩

theorem Headed.alt (hr : Headed p r) (hs : Headed p s) : Headed p (.alt r s) := by
  intro w gs h
  cases h with
  | left h => exact hr w gs h
  | right h => exact hs w gs h

/-- The match at one place. -/
def here (r : Regex α) (c : Cursor α) : Option (Match α) := (run r c).head?.map fun d => ⟨c,d⟩

/-- The matches at all places of a text. -/
def places (r : Regex α) (before : List α) : List α → List (Match α)
  | [] => []
  | x :: rest => (here r ⟨before,x :: rest,[]⟩).toList ++ places r (x :: before) rest

end Places
end DftForge.Library.Regex
