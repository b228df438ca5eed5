import DftForge.Agent.Intent
import DftForge.Library.RegexReads
import DftForge.Python.Numbers

/-! # Reading formulas

`extract_formula` cuts a run of letters and digits into parts of one or two letters with up to
three digits, each as long as it can be. A formula is read back where these parts are its symbols
with their counts, which is so unless a symbol of one letter stands without a count before another
symbol.
-/
namespace DftForge.Agent
open DftForge.Library DftForge.Library.Regex DftForge.Runtime DftForge.Python

section Parts
variable {u : Unicode} {t : Text}

/-- A run of letters, each with the digits behind it. -/
abbrev Run := List (Char × Text)

def runText (l : Run) : Text := l.flatMap fun x => x.1 :: x.2

/-- The parts into which a run is cut. -/
def parts : Run → List Text
  | [] => []
  | [(c, ds)] => [c :: ds]
  | (c, []) :: (d, ds) :: rest => (c :: d :: ds) :: parts rest
  | (c, b :: ds) :: x :: rest => (c :: b :: ds) :: parts (x :: rest)

/-- Letters with up to three digits each. -/
def Sound (u : Unicode) (l : Run) : Prop :=
  ∀ x ∈ l, x.1.isAlpha = true ∧ (∀ d ∈ x.2, (digitValue u d).isSome = true) ∧ x.2.length ≤ 3

/-- No more digits are read at the end of a run. -/
def Closed (u : Unicode) (l : Run) (t : Text) : Prop :=
  ∀ x ∈ l.getLast?, x.2.length = 3 ∨ ∀ c ∈ t.head?, (digitValue u c).isSome = false

theorem reads_upTo {ds : Text} {n : ℕ} (hds : ∀ d ∈ ds, (digitValue u d).isSome = true) (hn : ds.length ≤ n)
    (hstop : ds.length = n ∨ ∀ c ∈ t.head?, (digitValue u c).isSome = false) :
    Reads (upTo (Re.digit u) n) ds t [] := by
  induction n generalizing ds with
  | zero =>
    obtain rfl := List.length_eq_zero_iff.mp (Nat.le_zero.mp hn)
    exact .empty
  | succ n ih =>
    cases ds with
    | nil => exact .opt_nil (.seq (.one (hstop.resolve_left (by simp))))
    | cons d ds =>
      rw [List.forall_mem_cons] at hds
      rw [List.length_cons] at hn hstop
      have hfirst : Reads (Re.digit u) [d] (ds ++ t) [] := .one hds.1
      have hrest : Reads (upTo (Re.digit u) n) ds t [] := ih hds.2 (by omega) (hstop.imp_left (by omega))
      exact .opt (hfirst.seq hrest)

theorem isAlpha_range {c : Char} (h : c.isAlpha = true) :
    (65 ≤ c.toNat ∧ c.toNat ≤ 90) ∨ (97 ≤ c.toNat ∧ c.toNat ≤ 122) := by
  simpa [Char.isAlpha, Char.isUpper, Char.isLower, UInt32.le_iff_toNat_le] using h

theorem not_isAlpha_of_digit {c : Char} (h : (digitValue u c).isSome = true) : c.isAlpha = false := by
  by_contra hne
  rw [Bool.not_eq_false] at hne
  have hrange := isAlpha_range hne
  have hdigit : c.isDigit = false := by
    simp only [Char.isDigit, Bool.and_eq_false_iff, decide_eq_false_iff_not, UInt32.le_iff_toNat_le]
    simp
    omega
  rw [digitValue, hdigit] at h
  have hascii : c.toNat < 128 := by omega
  simp [hascii] at h

theorem not_digit_of_isAlpha {c : Char} (h : c.isAlpha = true) : (digitValue u c).isSome = false := by
  by_contra hne
  rw [Bool.not_eq_false] at hne
  rw [not_isAlpha_of_digit hne] at h
  cases h

theorem reads_single {c : Char} {ds : Text} (hc : c.isAlpha = true)
    (hds : ∀ d ∈ ds, (digitValue u d).isSome = true) (hlen : ds.length ≤ 3)
    (hstop : ds.length = 3 ∨ ∀ c ∈ t.head?, (digitValue u c).isSome = false)
    (hnext : ds = [] → ∀ c ∈ t.head?, c.isAlpha = false) : Reads (formulaPart u) (c :: ds) t [] := by
  have hfail : ∀ x ∈ (ds ++ t).head?, x.isAlpha = false := by
    cases ds with
    | nil => exact hnext rfl
    | cons d ds => exact fun x hx => not_isAlpha_of_digit (hds x (by rw [← Option.some.inj hx]; simp))
  have hletter : Reads (.one Char.isAlpha) [c] (ds ++ t) [] := .one hc
  exact hletter.chain_cons (.chain_skip (.opt_nil (.one hfail)) (.chain_last (reads_upTo hds hlen hstop)))

theorem reads_double {c d : Char} {ds : Text} (hc : c.isAlpha = true) (hd : d.isAlpha = true)
    (hds : ∀ d ∈ ds, (digitValue u d).isSome = true) (hlen : ds.length ≤ 3)
    (hstop : ds.length = 3 ∨ ∀ c ∈ t.head?, (digitValue u c).isSome = false) :
    Reads (formulaPart u) (c :: d :: ds) t [] := by
  have hfirst : Reads (.one Char.isAlpha) [c] (d :: ds ++ t) [] := .one hc
  have hsecond : Reads (.opt (.one Char.isAlpha)) [d] (ds ++ t) [] := .opt (.one hd)
  exact hfirst.chain_cons (hsecond.chain_cons (.chain_last (reads_upTo hds hlen hstop)))

/-- The first part of a run is read, and the rest is a run. -/
theorem exists_part {l : Run} (hl : l ≠ []) (hsound : Sound u l) (hclosed : Closed u l t)
    (ht : ∀ c ∈ t.head?, c.isAlpha = false) : ∃ p l', parts l = p :: parts l' ∧ runText l = p ++ runText l' ∧
      p ≠ [] ∧ Reads (formulaPart u) p (runText l' ++ t) [] ∧ Sound u l' ∧ Closed u l' t ∧
        l'.length < l.length := by
  have hnil : Sound u [] ∧ Closed u [] t := ⟨nofun,nofun⟩
  have hletter (x : Char × Text) (rest : Run) (hx : x.1.isAlpha = true) :
      ∀ c ∈ (runText (x :: rest) ++ t).head?, c.isAlpha = true := by
    intro c hc
    rw [← Option.some.inj hc]
    exact hx
  cases l with
  | nil => exact absurd rfl hl
  | cons x rest =>
    obtain ⟨c,ds⟩ := x
    obtain ⟨⟨hc,hds,hlen⟩,hrest⟩ := List.forall_mem_cons.mp hsound
    cases rest with
    | nil =>
      refine ⟨c :: ds,[],rfl,by simp [runText],List.cons_ne_nil c ds,?_,hnil.1,hnil.2,by simp⟩
      exact reads_single hc hds hlen (hclosed _ rfl) fun _ => ht
    | cons x rest =>
      cases ds with
      | cons b ds =>
        refine ⟨c :: b :: ds,x :: rest,rfl,by simp [runText],List.cons_ne_nil _ _,?_,hrest,hclosed,by simp⟩
        refine reads_single hc hds hlen (.inr fun d hd => ?_) nofun
        exact not_digit_of_isAlpha (hletter x rest (hrest x List.mem_cons_self).1 d hd)
      | nil =>
        obtain ⟨d,ds⟩ := x
        obtain ⟨⟨hd,hds,hlen⟩,hrest⟩ := List.forall_mem_cons.mp hrest
        cases rest with
        | nil =>
          refine ⟨c :: d :: ds,[],rfl,by simp [runText],List.cons_ne_nil _ _,?_,hnil.1,hnil.2,by simp⟩
          exact reads_double hc hd hds hlen (hclosed _ rfl)
        | cons x rest =>
          refine ⟨c :: d :: ds,x :: rest,rfl,by simp [runText],List.cons_ne_nil _ _,?_,hrest,hclosed,by simp⟩
          refine reads_double hc hd hds hlen (.inr fun e he => ?_)
          exact not_digit_of_isAlpha (hletter x rest (hrest x List.mem_cons_self).1 e he)

theorem fails_part (ht : ∀ c ∈ t.head?, c.isAlpha = false) : Fails (formulaPart u) t := .seq (.one ht)

/-- The parts of a run that is a text. -/
theorem cuts_parts {l : Run} (hsound : Sound u l) :
    Cuts (formulaPart u) (runText l) ((parts l).map fun p => (p,[])) := by
  induction hn : l.length using Nat.strong_induction_on generalizing l with
  | _ n ih =>
    by_cases hl : l = []
    · subst hl
      exact .nil (fails_part nofun)
    · obtain ⟨p,l',hparts,htext,hp,hreads,hsound',-,hlt⟩ :=
        exists_part (t := []) hl hsound (fun x _ => .inr nofun) nofun
      rw [List.append_nil] at hreads
      rw [hparts, htext]
      exact .read hp hreads (ih _ (hn ▸ hlt) hsound' rfl)

theorem not_isSpace_of_isAlpha {c : Char} (h : c.isAlpha = true) : isSpace c = false := by
  have hrange := isAlpha_range h
  simp only [isSpace, Bool.or_eq_false_iff, Bool.and_eq_false_iff, decide_eq_false_iff_not]
  omega

theorem fails_next (ht : ∀ c ∈ t, c.isAlpha = false) : Fails (.seq (opt Re.space) (formulaPart u)) t := by
  refine .opt_seq (fails_part fun c hc => ht c (List.mem_of_mem_head? hc)) fun x t' hx _ => ?_
  refine fails_part fun c hc => ?_
  exact ht c (by rw [hx]; exact List.mem_cons_of_mem x (List.mem_of_mem_head? hc))

/-- The parts that follow the first are the rounds of the repetition in a token. -/
theorem rounds_parts {l : Run} (hsound : Sound u l) (hclosed : Closed u l t)
    (ht : ∀ c ∈ t, c.isAlpha = false) :
    Rounds (.seq (opt Re.space) (formulaPart u)) t (parts l) ∧ (parts l).flatten = runText l := by
  have hhead : ∀ c ∈ t.head?, c.isAlpha = false := fun c hc => ht c (List.mem_of_mem_head? hc)
  induction hn : l.length using Nat.strong_induction_on generalizing l with
  | _ n ih =>
    cases l with
    | nil => exact ⟨.nil (fails_next ht),rfl⟩
    | cons x rest =>
      obtain ⟨p,l',hparts,htext,hp,hreads,hsound',hclosed',hlt⟩ :=
        exists_part (List.cons_ne_nil x rest) hsound hclosed hhead
      obtain ⟨hrounds,hflatten⟩ := ih _ (hn ▸ hlt) hsound' hclosed' rfl
      have hspace : Fails Re.space (p ++ (runText l' ++ t)) := by
        rw [← List.append_assoc, ← htext]
        refine .one fun c hc => ?_
        rw [← Option.some.inj hc]
        exact not_isSpace_of_isAlpha (hsound x List.mem_cons_self).1
      rw [hparts]
      refine ⟨.cons hp ?_ hrounds,by rw [List.flatten_cons, hflatten, htext]⟩
      rw [hflatten]
      exact (Reads.opt_nil hspace).seq hreads

/-- A token reads the whole run. -/
theorem reads_token {l : Run} (hl : l ≠ []) (hsound : Sound u l) (hclosed : Closed u l t)
    (ht : ∀ c ∈ t, c.isAlpha = false) : Reads (formulaToken u) (runText l) t [] := by
  obtain ⟨p,l',hparts,htext,hp,hreads,hsound',hclosed',-⟩ :=
    exists_part hl hsound hclosed fun c hc => ht c (List.mem_of_mem_head? hc)
  obtain ⟨hrounds,hflatten⟩ := rounds_parts hsound' hclosed' ht
  rw [htext, ← hflatten]
  rw [← hflatten] at hreads
  exact hreads.seq (.many hrounds)

/-- In a text whose other characters are not letters, the run is the one token. -/
theorem cuts_token {l : Run} {pre : Text} (hl : l ≠ []) (hsound : Sound u l) (hclosed : Closed u l t)
    (hpre : ∀ c ∈ pre, c.isAlpha = false) (ht : ∀ c ∈ t, c.isAlpha = false) :
    Cuts (formulaToken u) (pre ++ (runText l ++ t)) [(runText l,[])] := by
  have hfails (x : Char) (t : Text) (hx : x.isAlpha = false) : Fails (formulaToken u) (x :: t) :=
    .seq (fails_part fun c hc => by rw [← Option.some.inj hc]; exact hx)
  have hrest : Cuts (formulaToken u) t [] := by
    have h := Cuts.silent (t := []) hfails ht (.nil (.seq (fails_part nofun)))
    rwa [List.append_nil] at h
  have hne : runText l ≠ [] := by
    cases l with
    | nil => exact absurd rfl hl
    | cons x rest => exact List.cons_ne_nil _ _
  exact .silent hfails hpre (.read hne (reads_token hl hsound hclosed ht) hrest)

end Parts

section Components

/-- An element with its count. -/
structure Component where
  symbol : String
  count : List Digit
  isElement : symbol ∈ elementSymbols
  short : count.length ≤ 3

/-- A formula as it is written. -/
def formulaText (cs : List Component) : Text := cs.flatMap fun c => c.symbol.toList ++ digitText c.count

/-- The letters of an element, with the digits behind the last. -/
def letters (digits : Text) : Text → Run
  | [] => []
  | [a] => [(a,digits)]
  | a :: rest => (a,[]) :: letters digits rest

/-- The run of a formula before some digits. -/
def runOf (e : Text) : List Component → Run
  | [] => []
  | [c] => letters (digitText c.count ++ e) c.symbol.toList
  | c :: d :: cs => letters (digitText c.count) c.symbol.toList ++ runOf e (d :: cs)

/-- One capital, or a capital and a small letter. -/
def symbolShape : Text → Bool
  | [a] => a.isUpper
  | [a, b] => a.isUpper && b.isLower
  | _ => false

theorem symbolShape_iff {t : Text} : symbolShape t = true ↔
    (∃ a, t = [a] ∧ a.isUpper = true) ∨ ∃ a b, t = [a,b] ∧ a.isUpper = true ∧ b.isLower = true := by
  unfold symbolShape
  split <;> simp_all

theorem elementSymbols_shape : ∀ s ∈ elementSymbols, symbolShape s.toList = true := by
  decide

theorem capitalize_element : ∀ s ∈ elementSymbols, capitalize s.toList = s.toList := by
  decide

theorem isAlpha_of_symbolShape {t : Text} (h : symbolShape t = true) : ∀ c ∈ t, c.isAlpha = true := by
  obtain ⟨a,rfl,ha⟩ | ⟨a,b,rfl,ha,hb⟩ := symbolShape_iff.mp h
  · simp [Char.isAlpha, ha]
  · simp [Char.isAlpha, ha, hb]

section Reading
variable {ls ds : Text}

theorem partOf_append (hls : ∀ c ∈ ls, c.isAlpha = true) (hds : ∀ c ∈ ds, c.isAlpha = false) :
    partOf (ls ++ ds) = ([capitalize ls,ls.map Char.toUpper].find? fun probe =>
      String.ofList probe ∈ elementSymbols).map (· ++ ds) := by
  have htake : (ls ++ ds).takeWhile Char.isAlpha = ls := by
    rw [List.takeWhile_append_of_pos hls]
    cases ds with
    | nil => simp
    | cons d ds => simp [hds d List.mem_cons_self]
  have hdrop : (ls ++ ds).dropWhile Char.isAlpha = ds := by
    rw [List.dropWhile_append_of_pos hls]
    cases ds with
    | nil => rfl
    | cons d ds => simp [hds d List.mem_cons_self]
  simp only [partOf, htake, hdrop]

/-- A part is read as an element of as many letters. -/
theorem partOf_eq_some {q : Text} (hls : ∀ c ∈ ls, c.isAlpha = true) (hds : ∀ c ∈ ds, c.isAlpha = false)
    (h : partOf (ls ++ ds) = some q) : ∃ ls', q = ls' ++ ds ∧ symbolShape ls' = true := by
  rw [partOf_append hls hds, Option.map_eq_some_iff] at h
  obtain ⟨ls',hfind,rfl⟩ := h
  have helement := List.find?_some hfind
  rw [decide_eq_true_eq] at helement
  have hshape := elementSymbols_shape _ helement
  rw [String.toList_ofList] at hshape
  exact ⟨ls',rfl,hshape⟩

theorem partOf_length {p q : Text} (h : partOf p = some q) : q.length = p.length := by
  obtain ⟨ls',hfind,rfl⟩ := Option.map_eq_some_iff.mp h
  have hlen : ls'.length = (p.takeWhile Char.isAlpha).length := by
    obtain rfl | hmem := List.mem_cons.mp (List.mem_of_find?_eq_some hfind)
    · cases p.takeWhile Char.isAlpha with
      | nil => rfl
      | cons c ls => simp [capitalize]
    · rw [List.mem_singleton.mp hmem, List.length_map]
  rw [List.length_append, hlen, ← List.length_append, List.takeWhile_append_dropWhile]

theorem partOf_element {s : String} (hs : s ∈ elementSymbols) (hds : ∀ c ∈ ds, c.isAlpha = false) :
    partOf (s.toList ++ ds) = some (s.toList ++ ds) := by
  rw [partOf_append (isAlpha_of_symbolShape (elementSymbols_shape s hs)) hds, capitalize_element s hs,
    List.find?_cons_of_pos (by simpa using hs), Option.map_some]

/-- Two capitals are no element. -/
theorem partOf_capitals {a b : Char} (ha : a.isUpper = true) (hb : b.isUpper = true)
    (hds : ∀ c ∈ ds, c.isAlpha = false) : partOf (a :: b :: ds) ≠ some (a :: b :: ds) := by
  intro h
  have hls : ∀ c ∈ [a,b], c.isAlpha = true := by simp [Char.isAlpha, ha, hb]
  obtain ⟨ls',heq,hshape⟩ := partOf_eq_some hls hds (show partOf ([a,b] ++ ds) = _ from h)
  obtain rfl : [a,b] = ls' := List.append_cancel_right (show [a,b] ++ ds = _ from heq)
  rw [symbolShape, Bool.and_eq_true] at hshape
  have hupper : 65 ≤ b.toNat ∧ b.toNat ≤ 90 := by
    simpa [Char.isUpper, UInt32.le_iff_toNat_le] using hb
  have hlower : 97 ≤ b.toNat ∧ b.toNat ≤ 122 := by
    simpa [Char.isLower, UInt32.le_iff_toNat_le] using hshape.2
  omega

/-- The parts give back the text just where each is read as itself. -/
theorem mapM_partOf_flatten {ps qs : List Text} (h : ps.mapM partOf = some qs)
    (heq : qs.flatten = ps.flatten) : ∀ p ∈ ps, partOf p = some p := by
  induction ps generalizing qs with
  | nil => exact nofun
  | cons p ps ih =>
    rw [List.mapM_cons] at h
    obtain ⟨q,hq,h⟩ := Option.bind_eq_some_iff.mp h
    obtain ⟨qs',hqs,h⟩ := Option.bind_eq_some_iff.mp h
    cases h
    rw [List.flatten_cons, List.flatten_cons] at heq
    obtain ⟨hhead,htail⟩ := List.append_inj heq (partOf_length hq)
    rw [hhead] at hq
    exact List.forall_mem_cons.mpr ⟨hq,ih hqs htail⟩

theorem mapM_partOf_self {ps : List Text} (h : ∀ p ∈ ps, partOf p = some p) : ps.mapM partOf = some ps := by
  induction ps with
  | nil => rfl
  | cons p ps ih =>
    rw [List.forall_mem_cons] at h
    rw [List.mapM_cons, h.1, ih h.2]
    rfl

theorem length_mapM_partOf {ps qs : List Text} (h : ps.mapM partOf = some qs) :
    qs.flatten.length = ps.flatten.length := by
  induction ps generalizing qs with
  | nil =>
    cases h
    rfl
  | cons p ps ih =>
    rw [List.mapM_cons] at h
    obtain ⟨q,hq,h⟩ := Option.bind_eq_some_iff.mp h
    obtain ⟨qs',hqs,h⟩ := Option.bind_eq_some_iff.mp h
    cases h
    rw [List.flatten_cons, List.flatten_cons, List.length_append, List.length_append, partOf_length hq,
      ih hqs]

end Reading

section Runs
variable {u : Unicode} {e : Text}

/-- Every symbol but the last has two letters or a count. -/
def Aligned (cs : List Component) : Prop := ∀ c ∈ cs.dropLast, c.symbol.length = 2 ∨ c.count ≠ []

theorem Component.shape (c : Component) : (∃ a, c.symbol.toList = [a] ∧ a.isUpper = true) ∨
    ∃ a b, c.symbol.toList = [a,b] ∧ a.isUpper = true ∧ b.isLower = true :=
  symbolShape_iff.mp (elementSymbols_shape c.symbol c.isElement)

theorem not_isAlpha_digitText (ds : List Digit) : ∀ c ∈ digitText ds, c.isAlpha = false := by
  intro c hc
  obtain ⟨d,-,rfl⟩ := List.mem_map.mp hc
  exact not_isAlpha_of_digit (u := {}) (by rw [d.digitValue_char]; rfl)

/-- The run starts with a capital. -/
theorem runOf_cons (e : Text) (c : Component) (cs : List Component) : ∃ b ds rest,
    runOf e (c :: cs) = (b,ds) :: rest ∧ b.isUpper = true ∧
      ((∀ x ∈ e, x.isAlpha = false) → ∀ x ∈ ds, x.isAlpha = false) := by
  have hcount := not_isAlpha_digitText c.count
  cases cs with
  | nil =>
    obtain ⟨a,hsymbol,ha⟩ | ⟨a,b,hsymbol,ha,-⟩ := c.shape
    · exact ⟨a,_,[],by rw [runOf, hsymbol]; rfl,ha,fun he => List.forall_mem_append.mpr ⟨hcount,he⟩⟩
    · exact ⟨a,[],_,by rw [runOf, hsymbol]; rfl,ha,fun _ => nofun⟩
  | cons d cs =>
    obtain ⟨a,hsymbol,ha⟩ | ⟨a,b,hsymbol,ha,-⟩ := c.shape
    · exact ⟨a,_,_,by rw [runOf, hsymbol]; rfl,ha,fun _ => hcount⟩
    · exact ⟨a,[],_,by rw [runOf, hsymbol]; rfl,ha,fun _ => nofun⟩

theorem runText_runOf {cs : List Component} (hne : cs ≠ []) : runText (runOf e cs) = formulaText cs ++ e := by
  have hletters (c : Component) (ds : Text) :
      runText (letters ds c.symbol.toList) = c.symbol.toList ++ ds := by
    obtain ⟨a,hsymbol,-⟩ | ⟨a,b,hsymbol,-⟩ := c.shape <;> simp [hsymbol, letters, runText]
  induction cs with
  | nil => exact absurd rfl hne
  | cons c cs ih =>
    cases cs with
    | nil => simp [runOf, hletters, formulaText]
    | cons d cs =>
      have hrest := ih (List.cons_ne_nil d cs)
      rw [runOf, runText, List.flatMap_append, ← runText, ← runText, hletters, hrest]
      simp [formulaText]

theorem sound_runOf {cs : List Component} (he : ∀ d ∈ e, (digitValue u d).isSome = true)
    (hlen : ∀ c ∈ cs.getLast?, c.count.length + e.length ≤ 3) : Sound u (runOf e cs) := by
  have hdigits (ds : List Digit) : ∀ d ∈ digitText ds, (digitValue u d).isSome = true := by
    intro d hd
    obtain ⟨x,-,rfl⟩ := List.mem_map.mp hd
    rw [x.digitValue_char]
    rfl
  have hletters (c : Component) (ds : Text) (hds : ∀ d ∈ ds, (digitValue u d).isSome = true)
      (hshort : ds.length ≤ 3) : Sound u (letters ds c.symbol.toList) := by
    obtain ⟨a,hsymbol,ha⟩ | ⟨a,b,hsymbol,ha,hb⟩ := c.shape
    · simp [hsymbol, letters, Sound, Char.isAlpha, ha, hshort]
      exact hds
    · simp [hsymbol, letters, Sound, Char.isAlpha, ha, hb, hshort]
      exact hds
  have hcount (c : Component) : (digitText c.count).length ≤ 3 := by
    rw [digitText, List.length_map]
    exact c.short
  induction cs with
  | nil => exact List.forall_mem_nil _
  | cons c cs ih =>
    cases cs with
    | nil =>
      refine hletters c _ (List.forall_mem_append.mpr ⟨hdigits c.count,he⟩) ?_
      have hlast := hlen c rfl
      rw [List.length_append, digitText, List.length_map]
      exact hlast
    | cons d cs =>
      rw [runOf, Sound, List.forall_mem_append]
      refine ⟨hletters c _ (hdigits c.count) (hcount c),ih fun x hx => hlen x ?_⟩
      rw [List.getLast?_cons_cons]
      exact hx

theorem closed_runOf {cs : List Component} {t : Text}
    (h : ∀ c ∈ cs.getLast?, c.count.length + e.length = 3 ∨ ∀ d ∈ t.head?, (digitValue u d).isSome = false) :
    Closed u (runOf e cs) t := by
  induction cs with
  | nil => exact nofun
  | cons c cs ih =>
    cases cs with
    | nil =>
      have hlast : ∃ a, (runOf e [c]).getLast? = some (a,digitText c.count ++ e) := by
        obtain ⟨a,hsymbol,-⟩ | ⟨a,b,hsymbol,-⟩ := c.shape
        · exact ⟨a,by rw [runOf, hsymbol]; rfl⟩
        · exact ⟨b,by rw [runOf, hsymbol]; rfl⟩
      obtain ⟨a,ha⟩ := hlast
      intro x hx
      rw [ha] at hx
      rw [← Option.some.inj hx, List.length_append, digitText, List.length_map]
      exact h c rfl
    | cons d cs =>
      obtain ⟨b,ds,rest,hrun,-,-⟩ := runOf_cons e d cs
      have hrest := ih fun x hx => h x (by rw [List.getLast?_cons_cons]; exact hx)
      intro x hx
      rw [runOf, List.getLast?_append_of_ne_nil _ (by rw [hrun]; exact List.cons_ne_nil _ _)] at hx
      exact hrest x hx

theorem aligned_cons {c d : Component} {cs : List Component} :
    Aligned (c :: d :: cs) ↔ (c.symbol.length = 2 ∨ c.count ≠ []) ∧ Aligned (d :: cs) := by
  rw [Aligned, List.dropLast_cons_cons, List.forall_mem_cons, ← Aligned]

/-- The parts of an aligned formula are its elements with their counts. -/
theorem parts_of_aligned {cs : List Component} (h : Aligned cs) :
    parts (runOf [] cs) = cs.map fun c => c.symbol.toList ++ digitText c.count := by
  induction cs with
  | nil => rfl
  | cons c cs ih =>
    cases cs with
    | nil => obtain ⟨a,hsymbol,-⟩ | ⟨a,b,hsymbol,-⟩ := c.shape <;> simp [runOf, hsymbol, letters, parts]
    | cons d cs =>
      obtain ⟨hc,hrest⟩ := aligned_cons.mp h
      have hparts := ih hrest
      obtain ⟨b,ds,rest,hrun,-,-⟩ := runOf_cons [] d cs
      rw [runOf, List.map_cons, ← hparts, hrun]
      obtain ⟨a,hsymbol,-⟩ | ⟨a,b,hsymbol,-⟩ := c.shape
      · have hcount : c.count ≠ [] := by
          refine hc.resolve_left fun hlen => ?_
          rw [← String.length_toList, hsymbol] at hlen
          cases hlen
        obtain ⟨x,xs,hxs⟩ := List.exists_cons_of_ne_nil fun hnil => hcount (digitText_eq_nil.mp hnil)
        rw [hsymbol, hxs]
        rfl
      · rw [hsymbol]
        rfl

/-- Where a formula is not aligned, a part has two capitals. -/
theorem exists_misread {cs : List Component} (h : ¬ Aligned cs) :
    ∃ p ∈ parts (runOf [] cs), partOf p ≠ some p := by
  induction cs with
  | nil => exact absurd nofun h
  | cons c cs ih =>
    cases cs with
    | nil => exact absurd nofun h
    | cons d cs =>
      obtain ⟨b,ds,rest,hrun,hb,hds⟩ := runOf_cons [] d cs
      have hlater (hc : c.symbol.length = 2 ∨ c.count ≠ []) :
          ∃ p ∈ parts (runOf [] (d :: cs)), partOf p ≠ some p :=
        ih fun hrest => h (aligned_cons.mpr ⟨hc,hrest⟩)
      rw [hrun] at hlater
      rw [runOf, hrun]
      obtain ⟨a,hsymbol,ha⟩ | ⟨a,a',hsymbol,-⟩ := c.shape
      · rw [hsymbol]
        cases hcount : c.count with
        | nil => exact ⟨_,List.mem_cons_self,partOf_capitals ha hb (hds nofun)⟩
        | cons x xs =>
          obtain ⟨p,hp,hne⟩ := hlater (.inr (by rw [hcount]; exact List.cons_ne_nil x xs))
          exact ⟨p,List.mem_cons_of_mem _ hp,hne⟩
      · have hlen : c.symbol.length = 2 := by
          rw [← String.length_toList, hsymbol]
          rfl
        obtain ⟨p,hp,hne⟩ := hlater (.inl hlen)
        rw [hsymbol]
        exact ⟨p,List.mem_cons_of_mem _ hp,hne⟩

end Runs

section Messages
variable {u : Unicode} {cs : List Component} {pre post : Text}

theorem formulaOf_runText {l : Run} (hsound : Sound u l) : formulaOf u (runText l) =
    ((parts l).mapM partOf).bind fun syms =>
      if syms = [] || 4 < syms.length then none else some syms.flatten := by
  have hfst : ((parts l).map fun p => (p,([] : List (ℕ × Text)))).map Prod.fst = parts l := by
    rw [List.map_map]
    exact List.map_id _
  rw [formulaOf, findAll_cuts (cuts_parts hsound), hfst]

/-- The digits after a formula that are read with its last count. -/
def digitsAfter (u : Unicode) (cs : List Component) (post : Text) : Text :=
  (post.takeWhile fun c => (digitValue u c).isSome).take
    (3 - ((cs.getLast?.map fun c => c.count.length).getD 0))

/-- Nothing after the formula is read as a part of its last count. -/
def EndsThere (u : Unicode) (cs : List Component) (post : Text) : Prop :=
  ∀ c ∈ cs.getLast?, c.count.length = 3 ∨ ∀ d ∈ post.head?, (digitValue u d).isSome = false

theorem digitsAfter_eq_nil (hne : cs ≠ []) : digitsAfter u cs post = [] ↔ EndsThere u cs post := by
  have hlast : cs.getLast? = some (cs.getLast hne) := List.getLast?_eq_some_getLast hne
  have hshort := (cs.getLast hne).short
  rw [EndsThere, digitsAfter, hlast, Option.map_some, Option.getD_some, List.take_eq_nil_iff]
  have hzero : 3 - (cs.getLast hne).count.length = 0 ↔ (cs.getLast hne).count.length = 3 := by omega
  have hhead : (post.takeWhile fun c => (digitValue u c).isSome) = [] ↔
      ∀ d ∈ post.head?, (digitValue u d).isSome = false := by
    cases post with
    | nil => simp
    | cons d post => cases hd : digitValue u d <;> simp [hd]
  rw [hzero, hhead]
  simp

/-- After the digits that are read, no more are, or there are three. -/
theorem digitsAfter_closed {t : Text} (ht : digitsAfter u cs post ++ t = post) : ∀ c ∈ cs.getLast?,
    c.count.length + (digitsAfter u cs post).length = 3 ∨ ∀ d ∈ t.head?, (digitValue u d).isSome = false := by
  intro c hc
  have hshort := c.short
  have htake : digitsAfter u cs post =
      (post.takeWhile fun c => (digitValue u c).isSome).take (3 - c.count.length) := by
    rw [digitsAfter, Option.mem_def.mp hc]
    rfl
  by_cases hlen : 3 - c.count.length ≤ (post.takeWhile fun c => (digitValue u c).isSome).length
  · left
    rw [htake, List.length_take, Nat.min_eq_left hlen]
    omega
  · right
    rw [List.take_of_length_le (by omega)] at htake
    have hdrop : t = post.dropWhile fun c => (digitValue u c).isSome := by
      apply List.append_cancel_left
      rw [ht, htake, List.takeWhile_append_dropWhile]
    intro d hd
    have hnot := List.head?_dropWhile_not (fun c => (digitValue u c).isSome) post
    rw [← hdrop, Option.mem_def.mp hd] at hnot
    exact hnot

theorem not_isAlpha_of_le {c : Char} (h : 128 ≤ c.toNat) : c.isAlpha = false := by
  by_contra hne
  rw [Bool.not_eq_false] at hne
  have hrange := isAlpha_range hne
  omega

theorem sound_digitsAfter : Sound u (runOf (digitsAfter u cs post) cs) := by
  have hdigits : ∀ d ∈ digitsAfter u cs post, (digitValue u d).isSome = true := by
    intro d hd
    have hmem := List.mem_of_mem_take hd
    exact List.mem_takeWhile_imp (p := fun c => (digitValue u c).isSome) hmem
  refine sound_runOf hdigits fun c hc => ?_
  have hshort := c.short
  have hlen : (digitsAfter u cs post).length ≤ 3 - c.count.length := by
    rw [digitsAfter, Option.mem_def.mp hc]
    exact List.length_take_le _ _
  omega

/-- In a message with no other letters, the one token is the formula with the digits that follow. -/
theorem extractFormula_eq (hne : cs ≠ []) (hpre : ∀ c ∈ pre, 128 ≤ c.toNat)
    (hpost : ∀ c ∈ post, 128 ≤ c.toNat)
    (hzh : ∀ row ∈ zhMaterial, contains (pre ++ (formulaText cs ++ post)) row.1 = false) :
    extractFormula u (pre ++ (formulaText cs ++ post)) =
      (formulaOf u (runText (runOf (digitsAfter u cs post) cs))).map String.ofList := by
  obtain ⟨t,ht⟩ : digitsAfter u cs post <+: post :=
    (List.take_prefix _ _).trans (List.takeWhile_prefix _)
  have hletters : ∀ c ∈ t, c.isAlpha = false := fun c hc =>
    not_isAlpha_of_le (hpost c (by rw [← ht]; exact List.mem_append_right _ hc))
  have hrun : runOf (digitsAfter u cs post) cs ≠ [] := by
    cases cs with
    | nil => exact absurd rfl hne
    | cons c cs =>
      obtain ⟨b,ds,rest,hrun,-⟩ := runOf_cons (digitsAfter u (c :: cs) post) c cs
      rw [hrun]
      exact List.cons_ne_nil _ _
  have htext : pre ++ (formulaText cs ++ post) =
      pre ++ (runText (runOf (digitsAfter u cs post) cs) ++ t) := by
    rw [runText_runOf hne, List.append_assoc, ht]
  have hnone : firstIn zhMaterial (pre ++ (formulaText cs ++ post)) = none := by
    rw [firstIn, List.find?_eq_none.mpr fun row hrow => by rw [hzh row hrow]; exact Bool.false_ne_true]
    rfl
  have hcuts := cuts_token hrun sound_digitsAfter (closed_runOf (digitsAfter_closed ht))
    (fun c hc => not_isAlpha_of_le (hpre c hc)) hletters
  rw [extractFormula, hnone, htext, findAll_cuts hcuts]
  cases hread : formulaOf u (runText (runOf (digitsAfter u cs post) cs)) with
  | none => simp [longest, hread]
  | some f => simp [longest, hread]

/-- A formula of at most four elements that stands alone or between other characters is read back
exactly if every symbol but the last has two letters or a count, and no digit goes on with the last
count. -/
theorem extractFormula_iff (hne : cs ≠ []) (hfour : cs.length ≤ 4) (hpre : ∀ c ∈ pre, 128 ≤ c.toNat)
    (hpost : ∀ c ∈ post, 128 ≤ c.toNat)
    (hzh : ∀ row ∈ zhMaterial, contains (pre ++ (formulaText cs ++ post)) row.1 = false) :
    extractFormula u (pre ++ (formulaText cs ++ post)) = some (String.ofList (formulaText cs)) ↔
      Aligned cs ∧ EndsThere u cs post := by
  have hsound : Sound u (runOf (digitsAfter u cs post) cs) := sound_digitsAfter
  have hflatten : (parts (runOf (digitsAfter u cs post) cs)).flatten =
      formulaText cs ++ digitsAfter u cs post := by
    rw [(rounds_parts (t := []) hsound (fun _ _ => .inr nofun) nofun).2, runText_runOf hne]
  rw [extractFormula_eq hne hpre hpost hzh, formulaOf_runText hsound]
  constructor
  · intro h
    obtain ⟨f,hf,heq⟩ := Option.map_eq_some_iff.mp h
    obtain ⟨syms,hsyms,hf⟩ := Option.bind_eq_some_iff.mp hf
    obtain rfl : f = formulaText cs := String.ofList_injective heq
    have hf : syms.flatten = formulaText cs := by
      split_ifs at hf
      exact Option.some.inj hf
    have hlen := length_mapM_partOf hsyms
    rw [hflatten, hf, List.length_append] at hlen
    have hnil : digitsAfter u cs post = [] := List.length_eq_zero_iff.mp (by omega)
    refine ⟨?_,(digitsAfter_eq_nil hne).mp hnil⟩
    rw [hnil] at hsyms hflatten
    rw [List.append_nil] at hflatten
    by_contra hmis
    obtain ⟨p,hp,hread⟩ := exists_misread hmis
    exact hread (mapM_partOf_flatten hsyms (hf.trans hflatten.symm) p hp)
  · rintro ⟨haligned,hends⟩
    have hnil := (digitsAfter_eq_nil hne).mpr hends
    have hparts := parts_of_aligned haligned
    rw [hnil] at hflatten ⊢
    have hself : ∀ p ∈ parts (runOf [] cs), partOf p = some p := by
      rw [hparts]
      intro p hp
      obtain ⟨c,-,rfl⟩ := List.mem_map.mp hp
      exact partOf_element c.isElement (not_isAlpha_digitText c.count)
    have hcond : (parts (runOf [] cs) = [] || 4 < (parts (runOf [] cs)).length) = false := by
      rw [hparts]
      simp [hne, hfour]
    rw [mapM_partOf_self hself, Option.bind_some, hcond, hflatten, List.append_nil]
    rfl

end Messages
end Components

section Samples

local instance tenDigits : NeZero 10 := ⟨Nat.succ_ne_zero 9⟩

/-- Two oxygen atoms and one of carbon. -/
def carbonDioxide : List Component := [⟨"C",[],by decide,by decide⟩,⟨"O",[2],by decide,by decide⟩]

def perovskite : List Component :=
  [⟨"Ca",[],by decide,by decide⟩,⟨"Ti",[],by decide,by decide⟩,⟨"O",[3],by decide,by decide⟩]

theorem perovskite_read : extractFormula {} (['算'] ++ (formulaText perovskite ++ ['带'])) = some "CaTiO3" :=
  (@extractFormula_iff {} perovskite ['算'] ['带'] (by decide) (by decide)
    (List.forall_mem_singleton.mpr (Nat.le_of_ble_eq_true rfl))
    (List.forall_mem_singleton.mpr (Nat.le_of_ble_eq_true rfl)) (by decide +kernel)).mpr
      ⟨by unfold Aligned; decide,fun c hc => .inr fun d hd => by cases hd; rfl⟩

/-- The letters of carbon and oxygen are read as cobalt. -/
theorem carbonDioxide_read : String.ofList (formulaText carbonDioxide) = "CO2" ∧
    (∀ row ∈ zhMaterial, contains (formulaText carbonDioxide) row.1 = false) ∧
      extractFormula {} (formulaText carbonDioxide) = some "Co2" := by
  decide

end Samples
end DftForge.Agent
