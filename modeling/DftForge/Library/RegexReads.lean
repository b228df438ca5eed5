import DftForge.Library.Regex

/-! # What a backtracking expression reads first

An expression reads a part of a text when its first match there does, whatever stands
before. The reads of the parts of an expression compose, and a text divided into reads and
places without a match determines all matches from left to right.
-/
namespace DftForge.Library.Regex
variable {α : Type*}

/-- The first match at the text reads `w` and leaves `t`, with the groups `gs`. -/
def Reads (r : Regex α) (w t : List α) (gs : List (ℕ × List α)) : Prop :=
  ∀ before groups, (run r ⟨before,w ++ t,groups⟩).head? = some ⟨w.reverse ++ before,t,gs ++ groups⟩

/-- No match starts at the text. -/
def Fails (r : Regex α) (t : List α) : Prop := ∀ before groups, run r ⟨before,t,groups⟩ = []

section Steps
variable (r s : Regex α) (p : α → Bool) (before t : List α) (groups : List (ℕ × List α))

theorem run_empty (c : Cursor α) : run .empty c = [c] := rfl

theorem run_one_cons (x : α) : run (.one p) ⟨before,x :: t,groups⟩ =
    if p x then [⟨x :: before,t,groups⟩] else [] := rfl

theorem run_seq (c : Cursor α) : run (.seq r s) c = (run r c).flatMap (run s) := rfl

theorem run_alt (c : Cursor α) : run (.alt r s) c = run r c ++ run s c := rfl

theorem run_opt (c : Cursor α) : run (.opt r) c = run r c ++ [c] := rfl

theorem run_many (c : Cursor α) : run (.many r) c = rounds (run r) c.after.length c := rfl

theorem run_group (n : ℕ) (c : Cursor α) : run (.group n r) c = (run r c).map fun d => c.close d n := rfl

theorem rounds_succ (step : Cursor α → List (Cursor α)) (n : ℕ) (c : Cursor α) :
    rounds step (n + 1) c = (step c).flatMap (rounds step n) ++ [c] := rfl

end Steps

section Parts
variable {r s : Regex α} {w w' t : List α} {gs gs' : List (ℕ × List α)} {p : α → Bool}

theorem head?_flatMap {β γ : Type*} {xs : List β} {f : β → List γ} {x : β} {y : γ}
    (hx : xs.head? = some x) (hy : (f x).head? = some y) : (xs.flatMap f).head? = some y := by
  cases xs with
  | nil => cases hx
  | cons z zs =>
    obtain rfl : z = x := Option.some.inj hx
    rw [List.flatMap_cons, List.head?_append, hy, Option.some_or]

theorem Reads.empty : Reads .empty [] t [] := fun _ _ => rfl

theorem Reads.seq (h : Reads r w (w' ++ t) gs) (h' : Reads s w' t gs') :
    Reads (.seq r s) (w ++ w') t (gs' ++ gs) := by
  intro before groups
  have hr := h before groups
  rw [← List.append_assoc] at hr
  have hs := h' (w.reverse ++ before) (gs ++ groups)
  rw [← List.append_assoc, ← List.append_assoc, ← List.reverse_append] at hs
  exact head?_flatMap hr hs

theorem Reads.one {x : α} (hx : p x = true) : Reads (.one p) [x] t [] := by
  intro before groups
  simp [run_one_cons, hx]

theorem Reads.alt_left (h : Reads r w t gs) : Reads (.alt r s) w t gs := by
  intro before groups
  rw [run_alt, List.head?_append, h, Option.some_or]

theorem Reads.alt_right (h : Fails r (w ++ t)) (h' : Reads s w t gs) : Reads (.alt r s) w t gs := by
  intro before groups
  rw [run_alt, h, List.nil_append, h']

theorem Reads.opt (h : Reads r w t gs) : Reads (.opt r) w t gs := h.alt_left

theorem Reads.opt_nil (h : Fails r t) : Reads (.opt r) [] t [] := .alt_right h .empty

theorem Reads.group (n : ℕ) (h : Reads r w t gs) : Reads (.group n r) w t ((n,w) :: gs) := by
  intro before groups
  rw [run_group, List.head?_map, h, Option.map_some]
  simp [Cursor.close, Cursor.since]

theorem Fails.one (h : ∀ x ∈ t.head?, p x = false) : Fails (.one p) t := by
  intro before groups
  cases t with
  | nil => rfl
  | cons x t => simp [run_one_cons, h x rfl]

theorem Fails.seq (h : Fails r t) : Fails (.seq r s) t := by
  intro before groups
  rw [run_seq, h, List.flatMap_nil]

/-- An optional symbol before an expression that fails with and without it. -/
theorem Fails.opt_seq (h : Fails s t) (hskip : ∀ x t', t = x :: t' → p x = true → Fails s t') :
    Fails (.seq (Regex.opt (.one p)) s) t := by
  intro before groups
  rw [run_seq, run_opt, List.flatMap_append, List.flatMap_singleton, h, List.append_nil]
  cases t with
  | nil => rfl
  | cons x t =>
    cases hx : p x with
    | false => simp [run_one_cons, hx]
    | true => simp [run_one_cons, hx, hskip x t rfl hx _ _]

/-- The second part fails wherever the first can end. -/
theorem Fails.seq_of_one {x : α} (h : Fails s t) : Fails (.seq (.one p) s) (x :: t) := by
  intro before groups
  cases hx : p x with
  | true => simp [run_seq, run_one_cons, hx, h _ _]
  | false => simp [run_seq, run_one_cons, hx]

/-- A text cut into the rounds of a repeated expression, after which it fails. -/
inductive Rounds (r : Regex α) (t : List α) : List (List α) → Prop
  | nil : Fails r t → Rounds r t []
  | cons {w : List α} {ws : List (List α)} : w ≠ [] → Reads r w (ws.flatten ++ t) [] → Rounds r t ws →
    Rounds r t (w :: ws)

theorem Rounds.head? {ws : List (List α)} (h : Rounds r t ws) (before : List α)
    (groups : List (ℕ × List α)) {n : ℕ} (hn : (ws.flatten ++ t).length ≤ n) :
    (rounds (run r) n ⟨before,ws.flatten ++ t,groups⟩).head? =
      some ⟨ws.flatten.reverse ++ before,t,groups⟩ := by
  induction h generalizing before n with
  | nil hfails =>
    cases n with
    | zero => rfl
    | succ n =>
      rw [rounds_succ]
      simp only [List.flatten_nil, List.nil_append, List.reverse_nil]
      rw [hfails before groups]
      rfl
  | @cons w ws hw hread _ ih =>
    have hpos : 0 < w.length := List.length_pos_iff.mpr hw
    simp only [List.flatten_cons, List.append_assoc, List.length_append] at hn ⊢
    obtain ⟨n,rfl⟩ : ∃ m, n = m + 1 := ⟨n - 1,by omega⟩
    have hrest := ih (w.reverse ++ before) (n := n) (by rw [List.length_append]; omega)
    rw [rounds_succ, List.head?_append, head?_flatMap (hread before groups) hrest]
    simp [List.append_assoc]

theorem Reads.many {ws : List (List α)} (h : Rounds r t ws) : Reads (.many r) ws.flatten t [] :=
  fun before groups => h.head? before groups le_rfl

theorem rounds_one (hw : ∀ x ∈ w, p x = true) (ht : ∀ x ∈ t.head?, p x = false) :
    Rounds (.one p) t (w.map fun x => [x]) := by
  induction w with
  | nil => exact .nil (.one ht)
  | cons x w ih =>
    rw [List.forall_mem_cons] at hw
    exact .cons (List.cons_ne_nil x []) (.one hw.1) (ih hw.2)

/-- A repeated class reads as far as it can. -/
theorem Reads.many_one (hw : ∀ x ∈ w, p x = true) (ht : ∀ x ∈ t.head?, p x = false) :
    Reads (.many (.one p)) w t [] := by
  have h := Reads.many (rounds_one hw ht)
  rwa [← List.flatMap_def, List.flatMap_singleton'] at h

theorem Reads.plus_one (hne : w ≠ []) (hw : ∀ x ∈ w, p x = true) (ht : ∀ x ∈ t.head?, p x = false) :
    Reads (.plus (.one p)) w t [] := by
  cases w with
  | nil => exact absurd rfl hne
  | cons x w =>
    rw [List.forall_mem_cons] at hw
    exact (Reads.one hw.1).seq (.many_one hw.2 ht)

theorem Reads.plus_cons {ws : List (List α)} (h : Reads r w (ws.flatten ++ t) []) (hws : Rounds r t ws) :
    Reads (.plus r) (w ++ ws.flatten) t [] := h.seq (.many hws)

theorem Reads.chain_nil : Reads (chain []) [] t [] := .empty

theorem Reads.chain_cons {rs : List (Regex α)} (h : Reads r w (w' ++ t) gs) (h' : Reads (chain rs) w' t gs') :
    Reads (chain (r :: rs)) (w ++ w') t (gs' ++ gs) := h.seq h'

theorem Reads.chain_skip {rs : List (Regex α)} (h : Reads r [] (w ++ t) []) (h' : Reads (chain rs) w t gs) :
    Reads (chain (r :: rs)) w t gs := by
  simpa using h.chain_cons h'

theorem Reads.chain_last (h : Reads r w t gs) : Reads (chain [r]) w t gs := by
  have hr : Reads r w ([] ++ t) gs := h
  simpa using hr.chain_cons .chain_nil

/-- A literal reads itself. -/
theorem Reads.chain_ones [DecidableEq α] (w : List α) :
    Reads (chain (w.map fun x => .one (· = x))) w t [] := by
  induction w with
  | nil => exact .chain_nil
  | cons x w ih => exact (Reads.one (by simp)).seq ih

theorem Fails.chain_ones [DecidableEq α] (h : ¬ w <+: t) : Fails (chain (w.map fun x => .one (· = x))) t := by
  induction w generalizing t with
  | nil => exact absurd List.nil_prefix h
  | cons x w ih =>
    cases t with
    | nil => exact .seq (.one nofun)
    | cons y t =>
      by_cases hx : y = x
      · subst hx
        exact .seq_of_one (ih fun hw => h (List.cons_prefix_cons.mpr ⟨rfl,hw⟩))
      · exact .seq (.one fun z hz => by rw [← Option.some.inj hz]; simp [hx])

end Parts

section Backtracking
variable {s : Regex α} {w z w' t t' : List α} {gs : List (ℕ × List α)} {p : α → Bool}

theorem rounds_one_cons {x : α} (hx : p x = true) (n : ℕ) (before rest : List α)
    (groups : List (ℕ × List α)) : rounds (run (.one p)) (n + 1) ⟨before,x :: rest,groups⟩ =
      rounds (run (.one p)) n ⟨x :: before,rest,groups⟩ ++ [⟨before,x :: rest,groups⟩] := by
  simp [rounds_succ, run_one_cons, hx]

theorem rounds_one_stop (ht : ∀ x ∈ t.head?, p x = false) (n : ℕ) (before : List α)
    (groups : List (ℕ × List α)) :
    rounds (run (.one p)) n ⟨before,t,groups⟩ = [⟨before,t,groups⟩] := by
  cases n with
  | zero => rfl
  | succ n =>
    rw [rounds_succ, Fails.one ht before groups]
    rfl

/-- Nothing follows a repeated class where nothing follows any part of what it reads. -/
theorem flatMap_rounds_nil (hz : ∀ x ∈ z, p x = true) (ht : ∀ x ∈ t.head?, p x = false)
    (hfail : ∀ a b, z = a ++ b → Fails s (b ++ t)) {n : ℕ} (hn : z.length ≤ n) (before : List α)
    (groups : List (ℕ × List α)) :
    (rounds (run (.one p)) n ⟨before,z ++ t,groups⟩).flatMap (run s) = [] := by
  induction z generalizing n before with
  | nil =>
    rw [List.nil_append, rounds_one_stop ht, List.flatMap_singleton]
    exact hfail [] [] rfl before groups
  | cons x z ih =>
    rw [List.forall_mem_cons] at hz
    obtain ⟨n,rfl⟩ : ∃ m, n = m + 1 := ⟨n - 1,by simp only [List.length_cons] at hn; omega⟩
    have hrest := ih hz.2 (fun a b h => hfail (x :: a) b (by rw [h, List.cons_append]))
      (n := n) (by simpa using hn) (x :: before)
    rw [List.cons_append, rounds_one_cons hz.1, List.flatMap_append, hrest, List.nil_append,
      List.flatMap_singleton]
    exact hfail [] (x :: z) rfl before groups

/-- A repeated class and what follows it fail where that fails at every place. -/
theorem Fails.many_one_seq (hz : ∀ x ∈ z, p x = true) (ht : ∀ x ∈ t.head?, p x = false)
    (hfail : ∀ a b, z = a ++ b → Fails s (b ++ t)) : Fails (.seq (.many (.one p)) s) (z ++ t) :=
  fun before groups => flatMap_rounds_nil hz ht hfail (by simp) before groups

theorem head?_rounds_flatMap (hrun : ∀ x ∈ w ++ z, p x = true) (ht : ∀ x ∈ t.head?, p x = false)
    (hfail : ∀ a b, z = a ++ b → a ≠ [] → Fails s (b ++ t)) (heq : z ++ t = w' ++ t')
    (hread : Reads s w' t' gs) {n : ℕ} (hn : (w ++ z).length ≤ n) (before : List α)
    (groups : List (ℕ × List α)) :
    ((rounds (run (.one p)) n ⟨before,w ++ (z ++ t),groups⟩).flatMap (run s)).head? =
      some ⟨w'.reverse ++ (w.reverse ++ before),t',gs ++ groups⟩ := by
  induction w generalizing n before with
  | nil =>
    have hhere := hread before groups
    rw [← heq] at hhere
    cases z with
    | nil =>
      rw [List.nil_append, rounds_one_stop (by simpa using ht), List.flatMap_singleton]
      exact hhere
    | cons x z =>
      rw [List.nil_append, List.forall_mem_cons] at hrun
      obtain ⟨n,rfl⟩ : ∃ m, n = m + 1 := ⟨n - 1,by simp only [List.nil_append, List.length_cons] at hn; omega⟩
      have hnil := flatMap_rounds_nil hrun.2 ht
        (fun a b h => hfail (x :: a) b (by rw [h, List.cons_append]) (List.cons_ne_nil x a))
        (n := n) (by simpa using hn) (x :: before) groups
      rw [List.nil_append, List.cons_append, rounds_one_cons hrun.1, List.flatMap_append, hnil,
        List.nil_append, List.flatMap_singleton]
      exact hhere
  | cons x w ih =>
    rw [List.cons_append, List.forall_mem_cons] at hrun
    obtain ⟨n,rfl⟩ : ∃ m, n = m + 1 := ⟨n - 1,by simp only [List.cons_append, List.length_cons] at hn; omega⟩
    have hrest := ih hrun.2 (n := n) (by simpa using hn) (x :: before)
    rw [List.cons_append, rounds_one_cons hrun.1, List.flatMap_append, List.head?_append, hrest,
      Option.some_or]
    simp

/-- A repeated class gives back the part `z` of what it could read, after which the next
expression fails, until that expression reads. -/
theorem Reads.many_one_seq (hrun : ∀ x ∈ w ++ z, p x = true) (ht : ∀ x ∈ t.head?, p x = false)
    (hfail : ∀ a b, z = a ++ b → a ≠ [] → Fails s (b ++ t)) (heq : z ++ t = w' ++ t')
    (hread : Reads s w' t' gs) : Reads (.seq (.many (.one p)) s) (w ++ w') t' gs := by
  intro before groups
  have hlen : (w ++ z).length ≤ (w ++ (z ++ t)).length := by simp
  have h := head?_rounds_flatMap hrun ht hfail heq hread hlen before groups
  rw [List.append_assoc, ← heq, List.reverse_append, List.append_assoc]
  exact h

end Backtracking

section Scan
variable {r : Regex α} {w y t : List α} {gs : List (ℕ × List α)} {ms : List (List (ℕ × List α))}

/-- No match starts inside `y`, before the text `t`. -/
def Silent (r : Regex α) (y t : List α) : Prop := ∀ a b, y = a ++ b → b ≠ [] → Fails r (b ++ t)

theorem Silent.drop {a b : List α} (h : Silent r (a ++ b) t) : Silent r b t :=
  fun c d hcd hd => h (a ++ c) d (by rw [hcd, List.append_assoc]) hd

theorem silent_append {a b : List α} : Silent r (a ++ b) t ↔ Silent r a (b ++ t) ∧ Silent r b t := by
  constructor
  · intro h
    refine ⟨fun c d hcd hd => ?_,h.drop⟩
    have hfails := h c (d ++ b) (by rw [hcd, List.append_assoc]) (List.append_ne_nil_of_left_ne_nil hd b)
    rwa [List.append_assoc] at hfails
  · rintro ⟨ha,hb⟩ c d hcd hd
    rcases List.append_eq_append_iff.mp hcd with ⟨e,rfl,rfl⟩ | ⟨e,rfl,rfl⟩
    · exact hb e d rfl hd
    · cases e with
      | nil => exact hb [] b rfl (by simpa using hd)
      | cons x e =>
        rw [List.append_assoc]
        exact ha c (x :: e) rfl (List.cons_ne_nil x e)

theorem silent_nil : Silent r [] t := by
  intro a b hab hb
  exact absurd (List.append_eq_nil_iff.mp hab.symm).2 hb

/-- Symbols at which no match starts. -/
theorem silent_of_forall {p : α → Prop} (hfails : ∀ x t, p x → Fails r (x :: t)) (hy : ∀ x ∈ y, p x) :
    Silent r y t := by
  intro a b hab hb
  obtain ⟨x,b,rfl⟩ := List.exists_cons_of_ne_nil hb
  exact hfails x (b ++ t) (hy x (by rw [hab]; simp))

/-- A text from left to right: places without a match, and reads with their groups. -/
inductive Scan (r : Regex α) : List α → List (List (ℕ × List α)) → Prop
  | nil : Fails r [] → Scan r [] []
  | skip {x : α} {t : List α} {ms : List (List (ℕ × List α))} : Fails r (x :: t) → Scan r t ms →
    Scan r (x :: t) ms
  | read {w t : List α} {gs : List (ℕ × List α)} {ms : List (List (ℕ × List α))} : w ≠ [] →
    Reads r w t gs → Scan r t ms → Scan r (w ++ t) (gs :: ms)

theorem Scan.silent (hy : Silent r y t) (h : Scan r t ms) : Scan r (y ++ t) ms := by
  induction y with
  | nil => exact h
  | cons x y ih =>
    exact .skip (hy [] (x :: y) rfl (List.cons_ne_nil x y)) (ih (Silent.drop (a := [x]) hy))

theorem searchFrom_reads (hw : w ≠ []) (h : Reads r w t gs) (before : List α) :
    searchFrom r before (w ++ t) = some ⟨⟨before,w ++ t,[]⟩,⟨w.reverse ++ before,t,gs ++ []⟩⟩ := by
  have hread := h before []
  cases w with
  | nil => exact absurd rfl hw
  | cons x w =>
    rw [List.cons_append] at hread ⊢
    rw [searchFrom, hread]

/-- A text from left to right: places without a match, and what is read with its groups. -/
inductive Cuts (r : Regex α) : List α → List (List α × List (ℕ × List α)) → Prop
  | nil : Fails r [] → Cuts r [] []
  | skip {x : α} {t : List α} {cs : List (List α × List (ℕ × List α))} : Fails r (x :: t) → Cuts r t cs →
    Cuts r (x :: t) cs
  | read {w t : List α} {gs : List (ℕ × List α)} {cs : List (List α × List (ℕ × List α))} : w ≠ [] →
    Reads r w t gs → Cuts r t cs → Cuts r (w ++ t) ((w,gs) :: cs)

theorem findAllFrom_cuts {cs : List (List α × List (ℕ × List α))} (h : Cuts r t cs) {n : ℕ}
    (hn : t.length ≤ n) (before : List α) :
    (findAllFrom r n ⟨before,t,[]⟩).map (fun m => (m.whole,m.stop.groups)) = cs := by
  induction h generalizing n before with
  | nil hfails =>
    cases n with
    | zero => rfl
    | succ n => simp [findAllFrom, searchFrom, hfails before []]
  | @skip x t cs hfails _ ih =>
    cases n with
    | zero => simp at hn
    | succ n =>
      rw [← ih (n := n + 1) (Nat.le_of_lt hn) (x :: before)]
      simp [findAllFrom, searchFrom, hfails before []]
  | @read w t gs cs hw hreads _ ih =>
    have hpos : 0 < w.length := List.length_pos_iff.mpr hw
    rw [List.length_append] at hn
    obtain ⟨n,rfl⟩ : ∃ m, n = m + 1 := ⟨n - 1,by omega⟩
    simp only [findAllFrom, searchFrom_reads hw hreads before, List.map_cons, List.append_nil]
    rw [ih (by omega)]
    simp [Match.whole, Cursor.since]

/-- The matches of a text, by what they read. -/
theorem findAll_cuts {cs : List (List α × List (ℕ × List α))} (h : Cuts r t cs) :
    (findAll r t).map Match.whole = cs.map Prod.fst := by
  have hall : (findAll r t).map (fun m => (m.whole,m.stop.groups)) = cs := findAllFrom_cuts h le_rfl []
  rw [← hall, List.map_map]
  rfl

theorem Scan.cuts (h : Scan r t ms) : ∃ cs, Cuts r t cs ∧ cs.map Prod.snd = ms := by
  induction h with
  | nil hfails => exact ⟨[],.nil hfails,rfl⟩
  | skip hfails _ ih =>
    obtain ⟨cs,hcs,hms⟩ := ih
    exact ⟨cs,.skip hfails hcs,hms⟩
  | read hw hreads _ ih =>
    obtain ⟨cs,hcs,hms⟩ := ih
    exact ⟨_,.read hw hreads hcs,by rw [List.map_cons, hms]⟩

/-- The matches of a scanned text, by their groups. -/
theorem findAll_scan (h : Scan r t ms) : (findAll r t).map (·.stop.groups) = ms := by
  obtain ⟨cs,hcs,hms⟩ := h.cuts
  have hall : (findAll r t).map (fun m => (m.whole,m.stop.groups)) = cs := findAllFrom_cuts hcs le_rfl []
  rw [← hms, ← hall, List.map_map]
  rfl

theorem Cuts.silent {p : α → Prop} {cs : List (List α × List (ℕ × List α))}
    (hfails : ∀ x t, p x → Fails r (x :: t)) (hy : ∀ x ∈ y, p x) (h : Cuts r t cs) : Cuts r (y ++ t) cs := by
  induction y with
  | nil => exact h
  | cons x y ih =>
    rw [List.forall_mem_cons] at hy
    exact .skip (hfails x (y ++ t) hy.1) (ih hy.2)

end Scan
end DftForge.Library.Regex
