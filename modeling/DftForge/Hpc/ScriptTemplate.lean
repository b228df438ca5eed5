import DftForge.Hpc.JobScript

/-! # Filling a template

A template has places for values. The replacements of a dictionary, one after the other, fill
the places of each key, unless the placeholder of a key arises from the values put in before.
-/
namespace DftForge.Hpc
open DftForge.Python

section Replace
variable {old new : Text}

theorem replaceFrom_skip (n : ℕ) (t : Text) :
    replaceFrom old new n t = replaceFrom old new 0 (t.drop n) := by
  induction t generalizing n with
  | nil => cases n <;> rfl
  | cons c t ih =>
    cases n with
    | zero => rfl
    | succ n => rw [replaceFrom,ih,List.drop_succ_cons]

theorem replace_hit (hne : old ≠ []) (t : Text) : replace old new (old ++ t) = new ++ replace old new t := by
  obtain ⟨c,rest,rfl⟩ := List.exists_cons_of_ne_nil hne
  have hprefix : (c :: rest).isPrefixOf (c :: rest ++ t) = true := List.isPrefixOf_iff_prefix.mpr ⟨t,rfl⟩
  rw [List.cons_append] at hprefix
  rw [replace,List.cons_append,replaceFrom,if_pos hprefix,replaceFrom_skip]
  simp [replace]

/-- A part of the text in which no occurrence begins is kept. -/
theorem replace_append {w t : Text} (h : ∀ p s, w = p ++ s → s ≠ [] → ¬old <+: s ++ t) :
    replace old new (w ++ t) = w ++ replace old new t := by
  induction w with
  | nil => rfl
  | cons c w ih =>
    have hfirst : ¬old.isPrefixOf (c :: (w ++ t)) = true := by
      rw [List.isPrefixOf_iff_prefix]
      exact h [] (c :: w) rfl (List.cons_ne_nil _ _)
    have hrest := ih fun p s hw hs => h (c :: p) s (by rw [hw]; rfl) hs
    rw [replace,List.cons_append,replaceFrom,if_neg hfirst]
    exact congrArg (c :: ·) hrest

end Replace

/-- A part of a template: text, or the place of a value. -/
inductive Piece where
  | text (t : Text)
  | hole (key : Text)
  deriving DecidableEq

/-- The key whose value has its place here. -/
def Piece.key? : Piece → Option Text
  | .text _ => none
  | .hole key => some key

/-- The text of a piece, where some keys have values. -/
def Piece.fill (v : Text → Option Text) : Piece → Text
  | .text t => t
  | .hole key => (v key).getD (placeholder key)

def fill (v : Text → Option Text) (pieces : List Piece) : Text := pieces.flatMap (Piece.fill v)

/-- One value more. -/
def withValue (v : Text → Option Text) (key x : Text) : Text → Option Text :=
  fun k => if k = key then some x else v k

/-- The placeholder of a key stands only where the template has it. -/
def HolesOnly (v : Text → Option Text) (key : Text) (pieces : List Piece) : Prop :=
  ∀ a b, fill v pieces = a ++ (placeholder key ++ b) →
    ∃ front back, pieces = front ++ .hole key :: back ∧ a = fill v front

section Filling
variable {v : Text → Option Text} {key x : Text} {piece : Piece} {pieces : List Piece}

theorem placeholder_eq (key : Text) :
    placeholder key = '\x7b' :: '\x7b' :: (key ++ ['\x7d','\x7d']) := rfl

theorem placeholder_ne_nil (key : Text) : placeholder key ≠ [] := by
  rw [placeholder]
  exact List.cons_ne_nil _ _

theorem fill_cons (piece : Piece) (pieces : List Piece) :
    fill v (piece :: pieces) = piece.fill v ++ fill v pieces := List.flatMap_cons

theorem fill_hole (hv : v key = none) : (Piece.hole key).fill v = placeholder key := by
  rw [Piece.fill,hv,Option.getD_none]

theorem HolesOnly.tail (hv : v key = none) (h : HolesOnly v key (piece :: pieces)) :
    HolesOnly v key pieces := by
  intro a b hab
  have hwhole : fill v (piece :: pieces) = (piece.fill v ++ a) ++ (placeholder key ++ b) := by
    rw [fill_cons,hab,List.append_assoc]
  obtain ⟨front,back,hpieces,hfront⟩ := h _ _ hwhole
  cases front with
  | nil =>
    obtain ⟨rfl,-⟩ := List.cons.inj hpieces
    rw [fill_hole hv] at hfront
    exact absurd (List.append_eq_nil_iff.mp hfront).1 (placeholder_ne_nil key)
  | cons piece' front =>
    obtain ⟨rfl,hrest⟩ := List.cons.inj hpieces
    rw [fill_cons] at hfront
    exact ⟨front,back,hrest,List.append_cancel_left hfront⟩

theorem fill_withValue_of_ne (h : piece ≠ .hole key) : piece.fill (withValue v key x) = piece.fill v := by
  cases piece with
  | text t => rfl
  | hole k =>
    have hk : k ≠ key := fun heq => h (congrArg Piece.hole heq)
    rw [Piece.fill,withValue,if_neg hk,Piece.fill]

/-- Replacing the placeholder fills the places of the key. -/
theorem replace_fill (hv : v key = none) (h : HolesOnly v key pieces) :
    replace (placeholder key) x (fill v pieces) = fill (withValue v key x) pieces := by
  induction pieces with
  | nil => rfl
  | cons piece pieces ih =>
    have hrest := ih (h.tail hv)
    rw [fill_cons,fill_cons]
    by_cases hpiece : piece = .hole key
    · subst hpiece
      rw [fill_hole hv,replace_hit (placeholder_ne_nil key),hrest,Piece.fill,withValue,if_pos rfl,
        Option.getD_some]
    · rw [fill_withValue_of_ne hpiece,← hrest]
      refine replace_append fun p s hw hs hstarts => ?_
      obtain ⟨b,hb⟩ := hstarts
      have hwhole : fill v (piece :: pieces) = p ++ (placeholder key ++ b) := by
        rw [fill_cons,hw,List.append_assoc,hb]
      obtain ⟨front,back,hpieces,hfront⟩ := h _ _ hwhole
      cases front with
      | nil => exact hpiece (List.cons.inj hpieces).1
      | cons piece' front =>
        obtain ⟨rfl,-⟩ := List.cons.inj hpieces
        have hlength := congrArg List.length hfront
        rw [fill_cons,hw,List.length_append,List.length_append] at hlength
        exact hs (List.eq_nil_of_length_eq_zero (by omega))

/-- Where no text and no value has a brace, the placeholder of a key stands only where the template
has it. -/
theorem holesOnly_of_no_brace (hkey : '\x7b' ∉ key ∧ '\x7d' ∉ key)
    (hpieces : ∀ piece ∈ pieces, (∃ k, piece = .hole k ∧ v k = none ∧ '\x7b' ∉ k ∧ '\x7d' ∉ k) ∨
      '\x7b' ∉ piece.fill v) : HolesOnly v key pieces := by
  induction pieces with
  | nil =>
    intro a b hab
    have hnil : placeholder key = [] := (List.append_eq_nil_iff.mp (List.append_eq_nil_iff.mp hab.symm).2).1
    exact absurd hnil (placeholder_ne_nil key)
  | cons piece pieces ih =>
    rw [List.forall_mem_cons] at hpieces
    intro a b hab
    rw [fill_cons] at hab
    have hmarked : placeholder key ++ b = '\x7b' :: '\x7b' :: (key ++ '\x7d' :: '\x7d' :: b) := by
      simp [placeholder]
    obtain ⟨a',rfl,hrest⟩ | ⟨c,hc,hrest⟩ := List.append_eq_append_iff.mp hab
    · obtain ⟨front,back,hback,hfront⟩ := ih hpieces.2 a' b hrest
      exact ⟨piece :: front,back,by rw [hback]; rfl,by rw [fill_cons,hfront]⟩
    · cases c with
      | nil =>
        obtain ⟨front,back,hback,hfront⟩ := ih hpieces.2 [] b hrest.symm
        exact ⟨piece :: front,back,by rw [hback]; rfl,by rw [fill_cons,← hfront,hc]; simp⟩
      | cons d c =>
        rw [hmarked] at hrest
        obtain ⟨rfl,hsecond⟩ := List.cons.inj hrest
        obtain ⟨k,rfl,hk,hbraces⟩ | hplain := hpieces.1
        · rw [fill_hole hk,placeholder_eq] at hc
          have hbrace : '\x7b' ∉ k ++ ['\x7d','\x7d'] := by simp [hbraces.1]
          obtain _ | ⟨x,_ | ⟨y,a⟩⟩ := a
          · -- at the place itself: the keys agree
            obtain rfl := (List.cons.inj hc).2
            have hkeys : k ++ '\x7d' :: ('\x7d' :: fill v pieces) = key ++ '\x7d' :: ('\x7d' :: b) := by
              simpa using hsecond.symm
            obtain ⟨rfl,-⟩ := append_cons_cancel hbraces.2 hkey.2 hkeys
            exact ⟨[],pieces,rfl,rfl⟩
          · obtain rfl := (List.cons.inj (List.cons.inj hc).2).2
            have hnext : '\x7b' :: (key ++ '\x7d' :: '\x7d' :: b) = (k ++ ['\x7d','\x7d']) ++ fill v pieces :=
              hsecond
            have hhead : '\x7b' ∈ ((k ++ ['\x7d','\x7d']) ++ fill v pieces).head? := by
              rw [← hnext]
              rfl
            rw [List.head?_append_of_ne_nil _ (by simp)] at hhead
            exact absurd (List.mem_of_head? hhead) hbrace
          · have htail := (List.cons.inj (List.cons.inj hc).2).2
            exact absurd (by rw [htail]; simp) hbrace
        · exact absurd (by rw [hc]; simp) hplain

end Filling

section Dictionaries
variable {values : List (Text × Text)} {pieces : List Piece}

/-- What a part of a dictionary gives. -/
def given? (values : List (Text × Text)) : Text → Option Text := fun key => values.lookup key

/-- In the template with the values of the earlier keys put in, the placeholder of each key stands
only where the template has it. -/
def Undisturbed (values : List (Text × Text)) (pieces : List Piece) : Prop :=
  ∀ before e after, values = before ++ e :: after → HolesOnly (given? before) e.1 pieces

/-- The replacements one after the other fill the template once. -/
theorem replaceAll_fill (hnodup : (values.map Prod.fst).Nodup) (h : Undisturbed values pieces) :
    replaceAll values (fill (fun _ => none) pieces) = fill (given? values) pieces := by
  induction values using List.reverseRecOn with
  | nil => rfl
  | append_singleton values e ih =>
    rw [List.map_append,List.nodup_append] at hnodup
    have hbefore : Undisturbed values pieces := by
      intro before d after hvalues
      exact h before d (after ++ [e]) (by rw [hvalues,List.append_assoc]; rfl)
    have hnew : given? values e.1 = none := by
      rw [given?,List.lookup_eq_none_iff]
      intro d hd
      have hne := hnodup.2.2 d.1 (List.mem_map_of_mem hd) e.1 (by simp)
      simpa using Ne.symm hne
    have hlast : given? (values ++ [e]) = withValue (given? values) e.1 e.2 := by
      funext k
      rw [given?,List.lookup_append,withValue]
      by_cases hk : k = e.1
      · subst hk
        rw [if_pos rfl]
        have hnone : values.lookup e.1 = none := hnew
        rw [hnone,Option.none_or]
        exact List.lookup_cons_self
      · rw [if_neg hk]
        have hskip : [e].lookup k = none := by
          rw [List.lookup_cons,beq_false_of_ne hk]
          rfl
        rw [hskip,Option.or_none,given?]
    have hstep (t : Text) : replaceAll (values ++ [e]) t =
        replace (placeholder e.1) e.2 (replaceAll values t) := by
      rw [replaceAll,List.foldl_append]
      rfl
    rw [hstep,ih hnodup.1 hbefore,hlast]
    exact replace_fill hnew (h values e [] rfl)

/-- Values without braces do not disturb each other, in a template whose texts and keys have none. -/
theorem undisturbed_of_no_brace (hvalues : ∀ e ∈ values, '\x7b' ∉ e.2)
    (hkeys : ∀ e ∈ values, '\x7b' ∉ e.1 ∧ '\x7d' ∉ e.1)
    (hpieces : ∀ piece ∈ pieces, '\x7b' ∉ piece.fill some ∧ '\x7d' ∉ piece.fill some) :
    Undisturbed values pieces := by
  rintro before e after rfl
  refine holesOnly_of_no_brace (hkeys e (by simp)) fun piece hpiece => ?_
  cases piece with
  | text t => exact .inr (hpieces (.text t) hpiece).1
  | hole k =>
    cases hk : given? before k with
    | none => exact .inl ⟨k,rfl,hk,hpieces (.hole k) hpiece⟩
    | some x =>
      obtain ⟨front,back,rfl,-⟩ := List.lookup_eq_some_iff.mp hk
      refine .inr ?_
      rw [Piece.fill,hk,Option.getD_some]
      exact hvalues (k,x) (by simp)

end Dictionaries

end DftForge.Hpc
