import Mathlib

/-! # Entries taken by position

Sources report lists of entries, and a reader takes entries of the concatenation by their
position. Every entry is tagged with its source, and one entry of a source is its main one.
When do the positions meet the main entries of the sources that serve what is wanted?
-/
namespace DftForge.Library

section Serial
variable {α β γ : Type*} (out : α → List β) (main : α → Option β) (Serves : γ → α → β → Prop)

/-- The wants are served in turn: sources that report nothing are passed over, the next one
reports its main entry first and, where more is wanted, nothing else. -/
def Serial : List γ → List α → Prop
  | [], _ => True
  | _ :: _, [] => False
  | g :: gs, a :: as => (out a = [] ∧ Serial (g :: gs) as) ∨
      ∃ e more, out a = e :: more ∧ main a = some e ∧ Serves g a e ∧ (gs = [] ∨ (more = [] ∧ Serial gs as))

/-- The entry at each wanted position is the main entry of a source that serves the want. -/
def Placed (gs : List γ) (as : List α) (entries : List β) : Prop :=
  ∀ (i : ℕ) g, gs[i]? = some g → ∃ a ∈ as, ∃ e, entries[i]? = some e ∧ main a = some e ∧ Serves g a e

variable {out main Serves}

theorem placed_cons_iff {g : γ} {gs : List γ} {as : List α} {e : β} {entries : List β} :
    Placed main Serves (g :: gs) as (e :: entries) ↔
      (∃ a ∈ as, main a = some e ∧ Serves g a e) ∧ Placed main Serves gs as entries := by
  constructor
  · intro h
    refine ⟨?_,fun i g' hi => ?_⟩
    · obtain ⟨a,ha,e',he,hmain,hserves⟩ := h 0 g rfl
      obtain rfl := Option.some.inj he
      exact ⟨a,ha,hmain,hserves⟩
    · simpa only [List.getElem?_cons_succ] using h (i + 1) g' (by simpa using hi)
  · rintro ⟨⟨a,ha,hmain,hserves⟩,h⟩ i g' hi
    cases i with
    | zero =>
      obtain rfl := Option.some.inj hi
      exact ⟨a,ha,e,rfl,hmain,hserves⟩
    | succ i => simpa only [List.getElem?_cons_succ] using h i g' (by simpa using hi)

theorem placed_nil_iff {g : γ} {gs : List γ} {as : List α} : ¬ Placed main Serves (g :: gs) as [] := by
  intro h
  obtain ⟨a,_,e,he,_⟩ := h 0 g rfl
  simp at he

section Tagged
variable {index : α → ℕ} {tag : β → ℕ}

/-- What is reported belongs to its source. -/
structure Sourced (index : α → ℕ) (tag : β → ℕ) (out : α → List β) (main : α → Option β) (as : List α) :
    Prop where
  distinct : (as.map index).Nodup
  tags : ∀ a ∈ as, ∀ e ∈ out a, tag e = index a
  nodup : ∀ a ∈ as, (out a).Nodup
  main_mem : ∀ a ∈ as, ∀ e, main a = some e → e ∈ out a

theorem Sourced.tail {a : α} {as : List α} (h : Sourced index tag out main (a :: as)) :
    Sourced index tag out main as :=
  ⟨(List.nodup_cons.mp h.distinct).2,fun b hb => h.tags b (List.mem_cons_of_mem a hb),
    fun b hb => h.nodup b (List.mem_cons_of_mem a hb),fun b hb => h.main_mem b (List.mem_cons_of_mem a hb)⟩

theorem Sourced.index_ne {a b : α} {as : List α} (h : Sourced index tag out main (a :: as)) (hb : b ∈ as) :
    index b ≠ index a :=
  fun heq => (List.nodup_cons.mp h.distinct).1 (heq ▸ List.mem_map_of_mem hb)

/-- The source of a main entry is found by its tag. -/
theorem Sourced.tag_of_main {a : α} {as : List α} {e : β} (h : Sourced index tag out main as) (ha : a ∈ as)
    (hmain : main a = some e) : tag e = index a := h.tags a ha e (h.main_mem a ha e hmain)

theorem Sourced.mem_flatMap {as : List α} {e : β} (h : Sourced index tag out main as)
    (he : e ∈ as.flatMap out) :
    ∃ a ∈ as, tag e = index a := by
  obtain ⟨a,ha,hea⟩ := List.mem_flatMap.mp he
  exact ⟨a,ha,h.tags a ha e hea⟩

/-- Entries of the later sources are placed by the later sources. -/
theorem Sourced.placed_tail {a : α} {as : List α} {gs : List γ} (h : Sourced index tag out main (a :: as)) :
    Placed main Serves gs (a :: as) (as.flatMap out) ↔ Placed main Serves gs as (as.flatMap out) := by
  constructor
  · intro hplaced i g hi
    obtain ⟨b,hb,e,he,hmain,hserves⟩ := hplaced i g hi
    rcases List.mem_cons.mp hb with rfl | hb
    · obtain ⟨b',hb',htag⟩ := h.tail.mem_flatMap (List.mem_of_getElem? he)
      rw [h.tag_of_main (List.mem_cons_self ..) hmain] at htag
      exact absurd htag.symm (h.index_ne hb')
    · exact ⟨b,hb,e,he,hmain,hserves⟩
  · intro hplaced i g hi
    obtain ⟨b,hb,rest⟩ := hplaced i g hi
    exact ⟨b,List.mem_cons_of_mem a hb,rest⟩

/-- An entry that the first source reports is a main entry of the first source only. -/
theorem Sourced.main_head {a : α} {as : List α} {g : γ} {e : β} (h : Sourced index tag out main (a :: as))
    (he : e ∈ out a) : (∃ b ∈ a :: as, main b = some e ∧ Serves g b e) ↔ main a = some e ∧ Serves g a e := by
  constructor
  · rintro ⟨b,hb,hmain,hserves⟩
    rcases List.mem_cons.mp hb with rfl | hb
    · exact ⟨hmain,hserves⟩
    · have htag := h.tail.tag_of_main hb hmain
      rw [h.tags a (List.mem_cons_self ..) e he] at htag
      exact absurd htag.symm (h.index_ne hb)
  · exact fun hmain => ⟨a,List.mem_cons_self ..,hmain⟩

/-- The first entry is the first that the first source reports. -/
theorem Sourced.head_iff {a : α} {as : List α} {e : β} {entries : List β}
    (h : Sourced index tag out main (a :: as)) (hmain : main a = some e) :
    (a :: as).flatMap out = e :: entries ↔ ∃ more, out a = e :: more ∧ entries = more ++ as.flatMap out := by
  have hmem := h.main_mem a (List.mem_cons_self ..) e hmain
  rw [List.flatMap_cons]
  cases hout : out a with
  | nil =>
    rw [hout] at hmem
    exact absurd hmem List.not_mem_nil
  | cons e' more =>
    rw [List.cons_append, List.cons.injEq]
    constructor
    · rintro ⟨rfl,rfl⟩
      exact ⟨more,rfl,rfl⟩
    · rintro ⟨more',heq,rfl⟩
      obtain ⟨rfl,rfl⟩ := List.cons.inj heq
      exact ⟨rfl,rfl⟩

/-- Where the second entry is that of a later source, the first source reports only one. -/
theorem Sourced.head_next_iff {a b : α} {as : List α} {e e' : β} {entries : List β}
    (h : Sourced index tag out main (a :: as)) (hmain : main a = some e) (hb : b ∈ as)
    (hmain' : main b = some e') :
    (a :: as).flatMap out = e :: e' :: entries ↔ out a = [e] ∧ as.flatMap out = e' :: entries := by
  rw [h.head_iff hmain]
  constructor
  · rintro ⟨more,hout,heq⟩
    cases more with
    | nil => exact ⟨hout,heq.symm⟩
    | cons x more =>
      obtain ⟨rfl,_⟩ := List.cons.inj heq
      have htag := h.tags a (List.mem_cons_self ..) e' (by simp [hout])
      rw [h.tail.tag_of_main hb hmain'] at htag
      exact absurd htag (h.index_ne hb)
  · rintro ⟨hout,heq⟩
    exact ⟨[],hout,heq.symm⟩

/-- The positions are right exactly when the sources serve in turn. -/
theorem serial_iff {gs : List γ} {as : List α} (h : Sourced index tag out main as) :
    Serial out main Serves gs as ↔ Placed main Serves gs as (as.flatMap out) := by
  induction as generalizing gs with
  | nil =>
    cases gs with
    | nil => exact ⟨fun _ i g hi => by simp at hi,fun _ => trivial⟩
    | cons g gs => exact ⟨False.elim,fun hplaced => placed_nil_iff hplaced⟩
  | cons a as ih =>
    cases gs with
    | nil => exact ⟨fun _ i g hi => by simp at hi,fun _ => by simp [Serial]⟩
    | cons g gs =>
      rw [Serial, List.flatMap_cons]
      cases hout : out a with
      | nil =>
        rw [List.nil_append, h.placed_tail, ← ih h.tail]
        simp
      | cons e more =>
        rw [List.cons_append, placed_cons_iff, h.main_head (hout ▸ List.mem_cons_self ..)]
        have hnodup := h.nodup a (List.mem_cons_self ..)
        rw [hout] at hnodup
        have hrest : (main a = some e) → ((gs = [] ∨ (more = [] ∧ Serial out main Serves gs as)) ↔
            Placed main Serves gs (a :: as) (more ++ as.flatMap out)) := by
          intro hmain
          cases gs with
          | nil => exact ⟨fun _ i g hi => by simp at hi,fun _ => Or.inl rfl⟩
          | cons g' gs =>
            cases more with
            | nil =>
              rw [List.nil_append, h.placed_tail, ← ih h.tail]
              simp
            | cons e' more =>
              have he' : e' ∈ out a := by
                rw [hout]
                exact List.mem_cons_of_mem e (List.mem_cons_self ..)
              refine ⟨by simp,fun hplaced => ?_⟩
              rw [List.cons_append, placed_cons_iff, h.main_head he', hmain] at hplaced
              obtain rfl := Option.some.inj hplaced.1.1
              exact absurd (List.mem_cons_self ..) (List.nodup_cons.mp hnodup).1
        constructor
        · rintro (⟨hnil,_⟩ | ⟨e',more',heq,hmain,hserves,hmore⟩)
          · cases hnil
          · obtain ⟨rfl,rfl⟩ := List.cons.inj heq
            exact ⟨⟨hmain,hserves⟩,(hrest hmain).mp hmore⟩
        · rintro ⟨⟨hmain,hserves⟩,hmore⟩
          exact Or.inr ⟨e,more,rfl,hmain,hserves,(hrest hmain).mpr hmore⟩

end Tagged
end Serial
end DftForge.Library
