import DftForge.Python.Words

/-! # Lines of words

What `text.strip().splitlines()` and `line.split()` make of lines of words with blanks
around them, and of the white space after the last line.
-/
namespace DftForge.Python
open DftForge.Runtime

def blanks (n : ℕ) : Text := List.replicate n ' '

theorem isSpace_of_mem_blanks {n : ℕ} : ∀ c ∈ blanks n, isSpace c = true := by
  intro c hc
  rw [List.eq_of_mem_replicate hc]
  rfl

theorem isSpace_of_isLineBreak {c : Char} (h : isLineBreak c = true) : isSpace c = true := by
  simp only [isLineBreak, isSpace, Bool.or_eq_true, Bool.and_eq_true, decide_eq_true_eq] at h ⊢
  omega

theorem IsWordText.no_break {w : Text} (h : IsWordText w) : ∀ c ∈ w, isLineBreak c = false := by
  intro c hc
  rw [← Bool.not_eq_true]
  intro hbreak
  have hspace := isSpace_of_isLineBreak hbreak
  rw [h.2 c hc] at hspace
  cases hspace

theorem blanks_no_break {n : ℕ} : ∀ c ∈ blanks n, isLineBreak c = false := by
  intro c hc
  rw [List.eq_of_mem_replicate hc]
  rfl

section Titles

/-- `text.startswith(title)`. -/
def startsWith (text : Text) (title : String) : Bool := title.toList.isPrefixOf text

/-- `str.upper` of one character; these are the characters outside ASCII that it maps
into ASCII, in whole or in part. -/
def upperChar (c : Char) : Text :=
  let mark (n : ℕ) := Char.ofNat n
  match c.toNat with
  | 0xDF => ['S','S']
  | 0x131 => ['I']
  | 0x149 => [mark 0x2BC,'N']
  | 0x17F => ['S']
  | 0x1F0 => ['J',mark 0x30C]
  | 0x1E96 => ['H',mark 0x331]
  | 0x1E97 => ['T',mark 0x308]
  | 0x1E98 => ['W',mark 0x30A]
  | 0x1E99 => ['Y',mark 0x30A]
  | 0x1E9A => ['A',mark 0x2BE]
  | 0xFB00 => ['F','F']
  | 0xFB01 => ['F','I']
  | 0xFB02 => ['F','L']
  | 0xFB03 => ['F','F','I']
  | 0xFB04 => ['F','F','L']
  | 0xFB05 => ['S','T']
  | 0xFB06 => ['S','T']
  | _ => [c.toUpper]

def upper (text : Text) : Text := text.flatMap upperChar

theorem startsWith_iff {t : Text} {title : String} : startsWith t title = true ↔ title.toList <+: t :=
  List.isPrefixOf_iff_prefix

theorem upper_append (s t : Text) : upper (s ++ t) = upper s ++ upper t := List.flatMap_append

theorem upper_mono {s t : Text} (h : s <+: t) : upper s <+: upper t := by
  obtain ⟨rest,rfl⟩ := h
  rw [upper_append]
  exact List.prefix_append _ _

/-- A title of one word is no prefix of a shorter word with a blank after it. -/
theorem not_prefix_of_short {title w t : Text} (hblank : ' ' ∉ title) (hshort : w.length < title.length) :
    ¬ title <+: w ++ ' ' :: t := by
  rintro ⟨rest,h⟩
  have hat := congrArg (fun x : Text => x[w.length]?) h
  simp only [List.getElem?_append_left hshort, List.getElem?_append_right le_rfl, Nat.sub_self,
    List.getElem?_cons_zero] at hat
  exact hblank (List.mem_of_getElem? hat)

end Titles

section Lines
variable {l rest : Text}

theorem splitLinesFrom_line (hl : ∀ c ∈ l, isLineBreak c = false) (line : Text) :
    splitLinesFrom line (l ++ '\n' :: rest) = (line.reverse ++ l) :: splitLinesFrom [] rest := by
  induction l generalizing line with
  | nil =>
    have hbreak : isLineBreak '\n' = true := by decide
    simp [splitLinesFrom, hbreak]
  | cons c l ih =>
    rw [List.forall_mem_cons] at hl
    have hr : c ≠ '\r' := by
      rintro rfl
      exact absurd hl.1 (by decide)
    rw [List.cons_append, splitLinesFrom, hl.1]
    · simp [ih hl.2]
    · intro _ h
      exact absurd h hr

theorem splitLines_line (hl : ∀ c ∈ l, isLineBreak c = false) :
    splitLines (l ++ '\n' :: rest) = l :: splitLines rest := splitLinesFrom_line hl []

theorem splitLinesFrom_last (hl : ∀ c ∈ l, isLineBreak c = false) (line : Text)
    (hne : line.reverse ++ l ≠ []) : splitLinesFrom line l = [line.reverse ++ l] := by
  induction l generalizing line with
  | nil => simpa [splitLinesFrom] using hne
  | cons c l ih =>
    rw [List.forall_mem_cons] at hl
    have hr : c ≠ '\r' := by
      rintro rfl
      exact absurd hl.1 (by decide)
    rw [splitLinesFrom, hl.1]
    · simp [ih hl.2 (c :: line)]
    · intro _ h
      exact absurd h hr

theorem splitLines_last (hl : ∀ c ∈ l, isLineBreak c = false) (hne : l ≠ []) : splitLines l = [l] :=
  splitLinesFrom_last hl [] hne

end Lines

section Strip
variable {s t w : Text}

/-- `text.rstrip()`. -/
def rstrip (t : Text) : Text := rstripOf isSpace t

theorem strip_eq (t : Text) : strip t = rstrip (t.dropWhile isSpace) := rfl

theorem rstrip_spaces (hs : ∀ c ∈ s, isSpace c = true) (t : Text) : rstrip (t ++ s) = rstrip t := by
  have hrev : ∀ c ∈ s.reverse, isSpace c = true := fun c hc => hs c (List.mem_reverse.mp hc)
  rw [rstrip, rstripOf, List.reverse_append, List.dropWhile_append_of_pos hrev]
  rfl

theorem rstrip_word (hw : IsWordText w) (t : Text) : rstrip (t ++ w) = t ++ w := by
  obtain ⟨c,cs,hc⟩ := List.exists_cons_of_ne_nil (List.reverse_ne_nil_iff.mpr hw.1)
  have hspace : ¬ isSpace c = true := by
    have hmem : c ∈ w := List.mem_reverse.mp (by rw [hc]; exact List.mem_cons_self)
    rw [hw.2 c hmem]
    exact Bool.false_ne_true
  rw [rstrip, rstripOf, List.reverse_append, hc, List.cons_append, List.dropWhile_cons_of_neg hspace,
    ← List.cons_append, ← hc, ← List.reverse_append, List.reverse_reverse]

theorem rstrip_append (h : rstrip t ≠ []) (s : Text) : rstrip (s ++ t) = s ++ rstrip t := by
  unfold rstrip rstripOf at h ⊢
  rw [List.reverse_append, List.dropWhile_append, if_neg]
  · rw [List.reverse_append, List.reverse_reverse]
  · simpa using h

theorem words_blanks (n : ℕ) (t : Text) : words (blanks n ++ t) = words t := by
  induction n with
  | zero => rfl
  | succ n ih => rw [blanks, List.replicate_succ, List.cons_append, words_space rfl]; exact ih

theorem words_append_space {c : Char} (hc : isSpace c = true) (s t : Text) :
    words (s ++ c :: t) = words s ++ words t := by
  simp [words, List.splitOnP_append_cons s t hc]

theorem words_spaces (hs : ∀ c ∈ s, isSpace c = true) : words s = [] := by
  induction s with
  | nil => rfl
  | cons c s ih =>
    rw [List.forall_mem_cons] at hs
    rw [words_space hs.1, ih hs.2]

theorem words_append_spaces (hs : ∀ c ∈ s, isSpace c = true) (t : Text) : words (t ++ s) = words t := by
  cases s with
  | nil => rw [List.append_nil]
  | cons c s =>
    rw [List.forall_mem_cons] at hs
    rw [words_append_space hs.1, words_spaces hs.2, List.append_nil]

theorem words_dropWhile (t : Text) : words (t.dropWhile isSpace) = words t := by
  induction t with
  | nil => rfl
  | cons c t ih =>
    by_cases hc : isSpace c = true
    · rw [List.dropWhile_cons_of_pos hc, words_space hc, ih]
    · rw [List.dropWhile_cons_of_neg hc]

/-- `text.strip().split()`. -/
theorem words_strip (t : Text) : words (strip t) = words t := by
  have hsplit : rstrip (t.dropWhile isSpace) ++ ((t.dropWhile isSpace).reverse.takeWhile isSpace).reverse =
      t.dropWhile isSpace := by
    rw [rstrip, rstripOf, ← List.reverse_append, List.takeWhile_append_dropWhile, List.reverse_reverse]
  have hspaces : ∀ c ∈ ((t.dropWhile isSpace).reverse.takeWhile isSpace).reverse, isSpace c = true :=
    fun c hc => List.mem_takeWhile_imp (List.mem_reverse.mp hc)
  rw [strip_eq, ← words_append_spaces hspaces, hsplit, words_dropWhile]

/-- A word at the start of a text is kept. -/
theorem prefix_strip (hw : IsWordText w) (t : Text) : w <+: strip (w ++ t) := by
  have hfirst : (w ++ t).dropWhile isSpace = w ++ t := by
    cases w with
    | nil => exact absurd rfl hw.1
    | cons c w =>
      exact List.dropWhile_cons_of_neg (by rw [hw.2 c List.mem_cons_self]; exact Bool.false_ne_true)
  rw [strip_eq, hfirst]
  by_cases h : rstrip t = []
  · have ht : ∀ c ∈ t, isSpace c = true := by
      intro c hc
      rw [rstrip, rstripOf, List.reverse_eq_nil_iff, List.dropWhile_eq_nil_iff] at h
      exact h c (List.mem_reverse.mpr hc)
    have hend := rstrip_word hw []
    rw [List.nil_append] at hend
    rw [rstrip_spaces ht, hend]
  · rw [rstrip_append h]
    exact List.prefix_append _ _

theorem spaceNext_blanks (n : ℕ) (t : Text) (ht : SpaceNext t) : SpaceNext (blanks n ++ t) := by
  cases n with
  | zero => exact ht
  | succ n =>
    intro c hc
    rw [← Option.some.inj hc]
    rfl

theorem rstrip_prefix (t : Text) : ∃ s, (∀ c ∈ s, isSpace c = true) ∧ t = rstrip t ++ s := by
  refine ⟨(t.reverse.takeWhile isSpace).reverse,fun c hc => ?_,?_⟩
  · exact List.mem_takeWhile_imp (List.mem_reverse.mp hc)
  · rw [rstrip,rstripOf,← List.reverse_append,List.takeWhile_append_dropWhile,List.reverse_reverse]

theorem strip_append_spaces (hs : ∀ c ∈ s, isSpace c = true) (t : Text) : strip (t ++ s) = strip t := by
  rw [strip_eq,strip_eq,List.dropWhile_append]
  split_ifs with h
  · have hempty : s.dropWhile isSpace = [] := List.dropWhile_eq_nil_iff.mpr hs
    rw [hempty,List.isEmpty_iff.mp h]
  · exact rstrip_spaces hs _

theorem strip_rstrip (t : Text) : strip (rstrip t) = strip t := by
  obtain ⟨s,hs,ht⟩ := rstrip_prefix t
  conv_rhs => rw [ht]
  exact (strip_append_spaces hs _).symm

/-- What is left ends with no white space. -/
theorem getLast?_rstrip (t : Text) : ∀ c ∈ (rstrip t).getLast?, isSpace c = false := by
  intro c hc
  rw [rstrip,rstripOf,List.getLast?_reverse] at hc
  have hhead := List.head?_dropWhile_not isSpace t.reverse
  rw [Option.mem_def.mp hc] at hhead
  exact hhead

theorem rstrip_eq_self (h : ∀ c ∈ t.getLast?, isSpace c = false) : rstrip t = t := by
  rw [rstrip,rstripOf,← List.head?_reverse] at *
  cases hrev : t.reverse with
  | nil => rw [List.dropWhile_nil,← hrev,List.reverse_reverse]
  | cons c rest =>
    have hc : isSpace c = false := h c (by rw [hrev]; rfl)
    rw [List.dropWhile_cons_of_neg (by rw [hc]; exact Bool.false_ne_true),← hrev,List.reverse_reverse]

theorem rstrip_eq_nil_iff : rstrip t = [] ↔ ∀ c ∈ t, isSpace c = true := by
  rw [rstrip,rstripOf,List.reverse_eq_nil_iff,List.dropWhile_eq_nil_iff]
  exact ⟨fun h c hc => h c (List.mem_reverse.mpr hc),fun h c hc => h c (List.mem_reverse.mp hc)⟩

theorem length_rstrip_le (t : Text) : (rstrip t).length ≤ t.length := by
  obtain ⟨s,-,hs⟩ := rstrip_prefix t
  conv_rhs => rw [hs,List.length_append]
  exact Nat.le_add_right _ _

theorem strip_dropWhile (t : Text) : strip (t.dropWhile isSpace) = strip t := by
  rw [strip_eq,strip_eq,List.dropWhile_idempotent]

theorem mem_of_mem_strip {c : Char} (h : c ∈ strip t) : c ∈ t := by
  rw [strip_eq,rstrip,rstripOf,List.mem_reverse] at h
  have hrev := (List.dropWhile_suffix isSpace).subset h
  exact (List.dropWhile_suffix isSpace).subset (List.mem_reverse.mp hrev)

end Strip

section Broken
variable {t : Text} {lines : List Text}

theorem splitLinesFrom_no_break {line : Text} (hline : ∀ c ∈ line, isLineBreak c = false) :
    ∀ l ∈ splitLinesFrom line t, ∀ c ∈ l, isLineBreak c = false := by
  have hreverse : ∀ c ∈ line.reverse, isLineBreak c = false := fun c hc => hline c (List.mem_reverse.mp hc)
  fun_induction splitLinesFrom line t with
  | case1 => exact List.forall_mem_nil _
  | case2 => exact List.forall_mem_singleton.mpr hreverse
  | case3 line rest ih =>
    exact List.forall_mem_cons.mpr ⟨hreverse,ih (List.forall_mem_nil _) (List.forall_mem_nil _)⟩
  | case4 line c rest hcr hbreak ih =>
    exact List.forall_mem_cons.mpr ⟨hreverse,ih (List.forall_mem_nil _) (List.forall_mem_nil _)⟩
  | case5 line c rest hcr hbreak ih =>
    have hc : isLineBreak c = false := Bool.eq_false_of_not_eq_true hbreak
    have hnext : ∀ d ∈ c :: line, isLineBreak d = false := List.forall_mem_cons.mpr ⟨hc,hline⟩
    exact ih hnext fun d hd => hnext d (List.mem_reverse.mp hd)

theorem splitLines_no_break (t : Text) : ∀ l ∈ splitLines t, ∀ c ∈ l, isLineBreak c = false :=
  splitLinesFrom_no_break (List.forall_mem_nil _)

/-- Lines joined with breaks, and a break at the end. -/
theorem intercalate_newline (hne : lines ≠ []) :
    ['\n'].intercalate lines ++ ['\n'] = lines.flatMap fun l => l ++ ['\n'] := by
  induction lines with
  | nil => exact absurd rfl hne
  | cons line lines ih =>
    cases lines with
    | nil => rw [List.intercalate_singleton,List.flatMap_singleton]
    | cons next lines =>
      have hrest := ih (List.cons_ne_nil _ _)
      rw [List.intercalate_cons_cons,List.append_assoc,List.append_assoc,hrest,
        List.flatMap_cons (x := line),List.append_assoc]

theorem splitLines_lines (h : ∀ l ∈ lines, ∀ c ∈ l, isLineBreak c = false) (t : Text) :
    splitLines ((lines.flatMap fun l => l ++ ['\n']) ++ t) = lines ++ splitLines t := by
  induction lines with
  | nil => rfl
  | cons l lines ih =>
    rw [List.forall_mem_cons] at h
    rw [List.flatMap_cons,List.append_assoc,List.append_assoc,List.singleton_append,splitLines_line h.1,
      ih h.2]
    rfl

theorem splitLinesFrom_append (line s t : Text) :
    splitLinesFrom line (s ++ '\n' :: t) = splitLinesFrom line (s ++ ['\n']) ++ splitLinesFrom [] t := by
  have hbreak : isLineBreak '\n' = true := by decide
  fun_induction splitLinesFrom line s with
  | case1 => simp [splitLinesFrom,hbreak]
  | case2 => simp [splitLinesFrom,hbreak]
  | case3 line rest ih => simp [splitLinesFrom,ih]
  | case4 line c rest hcr hc ih =>
    by_cases hlast : c = '\r' ∧ rest = []
    · obtain ⟨rfl,rfl⟩ := hlast
      simp [splitLinesFrom]
    · have hnext (u : Text) : ∀ r, c = '\r' → rest ++ '\n' :: u = '\n' :: r → False := by
        intro r hr heq
        cases rest with
        | nil => exact hlast ⟨hr,rfl⟩
        | cons d rest => exact hcr rest hr (by rw [(List.cons.inj heq).1])
      rw [List.cons_append,List.cons_append,splitLinesFrom,splitLinesFrom,if_pos hc,if_pos hc,ih]
      · rfl
      · exact hnext []
      · exact hnext t
  | case5 line c rest hcr hc ih =>
    have hnext (u : Text) : ∀ r, c = '\r' → u = '\n' :: r → False := by
      rintro r rfl -
      exact hc (by decide)
    rw [List.cons_append,List.cons_append,splitLinesFrom,splitLinesFrom,if_neg hc,if_neg hc,ih]
    · exact hnext _
    · exact hnext _

/-- A text with a break at its end, and what comes after it. -/
theorem splitLines_append (s t : Text) :
    splitLines (s ++ '\n' :: t) = splitLines (s ++ ['\n']) ++ splitLines t := splitLinesFrom_append [] s t

theorem splitLinesFrom_joined {line : Text} (h : ∀ c ∈ t, isLineBreak c = true → c = '\n') :
    ((splitLinesFrom line (t ++ ['\n'])).flatMap fun l => l ++ ['\n']) = line.reverse ++ (t ++ ['\n']) := by
  induction t generalizing line with
  | nil =>
    have hbreak : isLineBreak '\n' = true := by decide
    simp [splitLinesFrom,hbreak]
  | cons c t ih =>
    rw [List.forall_mem_cons] at h
    have hr : c ≠ '\r' := by
      rintro rfl
      exact absurd (h.1 (by decide)) (by decide)
    rw [List.cons_append,splitLinesFrom]
    · by_cases hc : isLineBreak c = true
      · rw [if_pos hc,List.flatMap_cons,ih h.2,h.1 hc]
        simp
      · rw [if_neg hc,ih h.2,List.reverse_cons,List.append_assoc,List.singleton_append]
    · exact fun _ heq => absurd heq hr

/-- A text with the breaks of a script is its lines. -/
theorem splitLines_joined (h : ∀ c ∈ t, isLineBreak c = true → c = '\n') :
    ((splitLines (t ++ ['\n'])).flatMap fun l => l ++ ['\n']) = t ++ ['\n'] := splitLinesFrom_joined h

end Broken
/-- Words with blanks before each, and blanks at the end; at least one blank between words. -/
structure Line where
  lead : ℕ
  head : Text
  more : List (ℕ × Text)
  trail : ℕ

namespace Line
variable (l : Line)

def spaced (word : ℕ × Text) : Text := blanks (word.1 + 1) ++ word.2

def body : Text := l.head ++ l.more.flatMap spaced

def text : Text := blanks l.lead ++ (l.body ++ blanks l.trail)

def words : List Text := l.head :: l.more.map (·.2)

def WellFormed : Prop := IsWordText l.head ∧ ∀ word ∈ l.more, IsWordText word.2

variable {l}

theorem spaceNext_spaced (more : List (ℕ × Text)) {t : Text} (ht : SpaceNext t) :
    SpaceNext (more.flatMap spaced ++ t) := by
  cases more with
  | nil => exact ht
  | cons word more =>
    intro c hc
    rw [← Option.some.inj hc]
    rfl

theorem words_spaced {more : List (ℕ × Text)} (h : ∀ word ∈ more, IsWordText word.2) {t : Text}
    (ht : SpaceNext t) : Python.words (more.flatMap spaced ++ t) = more.map (·.2) ++ Python.words t := by
  induction more with
  | nil => rfl
  | cons word more ih =>
    rw [List.forall_mem_cons] at h
    rw [List.flatMap_cons, spaced, List.append_assoc, List.append_assoc, words_blanks,
      words_word h.1 (spaceNext_spaced more ht), ih h.2]
    rfl

theorem WellFormed.words_text (h : l.WellFormed) : Python.words l.text = l.words := by
  have htrail : SpaceNext (blanks l.trail) := by
    have h := spaceNext_blanks l.trail [] nofun
    rwa [List.append_nil] at h
  have hblank : Python.words (blanks l.trail) = [] := by
    have h := words_blanks l.trail []
    rwa [List.append_nil] at h
  rw [text, words_blanks, body, List.append_assoc, words_word h.1 (spaceNext_spaced l.more htrail),
    words_spaced h.2 htrail, hblank, List.append_nil]
  rfl

theorem WellFormed.no_break (h : l.WellFormed) : ∀ c ∈ l.text, isLineBreak c = false := by
  simp only [text, body, List.forall_mem_append, List.forall_mem_flatMap, spaced]
  exact ⟨blanks_no_break,⟨h.1.no_break,fun word hword => ⟨blanks_no_break,(h.2 word hword).no_break⟩⟩,
    blanks_no_break⟩

/-- The body ends with a word. -/
theorem WellFormed.rstrip_body (h : l.WellFormed) (t : Text) : rstrip (t ++ l.body) = t ++ l.body := by
  obtain ⟨hhead,hmore⟩ := h
  rw [body]
  rcases List.eq_nil_or_concat' l.more with hnil | ⟨more,word,hsplit⟩
  · rw [hnil, List.flatMap_nil, List.append_nil]
    exact rstrip_word hhead t
  · have hword : IsWordText word.2 := hmore word (by rw [hsplit]; simp)
    rw [hsplit, List.flatMap_append, List.flatMap_singleton, spaced, ← List.append_assoc,
      ← List.append_assoc, ← List.append_assoc]
    exact rstrip_word hword _

theorem dropWhile_text (h : l.WellFormed) (t : Text) :
    (l.text ++ t).dropWhile isSpace = { l with lead := 0 }.text ++ t := by
  obtain ⟨c,cs,hc⟩ := List.exists_cons_of_ne_nil h.1.1
  have hspace : ¬ isSpace c = true := by
    rw [h.1.2 c (by rw [hc]; exact List.mem_cons_self)]
    exact Bool.false_ne_true
  rw [text, List.append_assoc, List.dropWhile_append_of_pos isSpace_of_mem_blanks]
  simp only [text, body, hc, List.cons_append, blanks, List.replicate_zero, List.nil_append]
  rw [List.dropWhile_cons_of_neg hspace]

theorem WellFormed.strip_text (h : l.WellFormed) : strip l.text = l.body := by
  have hdrop : l.text.dropWhile isSpace = l.body ++ blanks l.trail := by
    have htext := dropWhile_text h []
    rw [List.append_nil, List.append_nil] at htext
    exact htext
  have hbody := h.rstrip_body []
  rw [List.nil_append] at hbody
  rw [strip_eq, hdrop, rstrip_spaces isSpace_of_mem_blanks, hbody]

end Line

/-- The lines with the breaks after them. -/
def linesText (lines : List Line) : Text := lines.flatMap fun l => l.text ++ ['\n']

section Rows
variable {lines : List Line} {v : Text}

theorem words_splitLines_rstrip {l : Line} (hl : l.WellFormed) (hlines : ∀ l ∈ lines, l.WellFormed)
    (hv : ∀ c ∈ v, isSpace c = true) :
    (splitLines (rstrip (l.text ++ '\n' :: (linesText lines ++ v)))).map words =
      l.words :: lines.map (·.words) := by
  induction lines generalizing l with
  | nil =>
    have hspaces : ∀ c ∈ blanks l.trail ++ '\n' :: v, isSpace c = true :=
      List.forall_mem_append.mpr ⟨isSpace_of_mem_blanks,List.forall_mem_cons.mpr ⟨by decide,hv⟩⟩
    have hlast : Line.WellFormed { l with trail := 0 } := hl
    have htext : blanks l.lead ++ l.body = Line.text { l with trail := 0 } := by
      simp [Line.text, Line.body, blanks]
    have hstrip : rstrip (l.text ++ '\n' :: (linesText [] ++ v)) = Line.text { l with trail := 0 } := by
      have hsplit : l.text ++ '\n' :: (linesText [] ++ v) =
          blanks l.lead ++ l.body ++ (blanks l.trail ++ '\n' :: v) := by
        simp [Line.text, linesText]
      rw [hsplit, rstrip_spaces hspaces, hl.rstrip_body, htext]
    have hne : Line.text { l with trail := 0 } ≠ [] := by
      simp [← htext, Line.body, hl.1.1]
    rw [hstrip, splitLines_last hlast.no_break hne, List.map_singleton, hlast.words_text]
    rfl
  | cons l' lines ih =>
    rw [List.forall_mem_cons] at hlines
    have hrest := ih hlines.1 hlines.2
    have htext : linesText (l' :: lines) ++ v = l'.text ++ '\n' :: (linesText lines ++ v) := by
      simp [linesText]
    have hne : rstrip (l'.text ++ '\n' :: (linesText lines ++ v)) ≠ [] := by
      intro h
      rw [h] at hrest
      cases hrest
    have hstrip := rstrip_append hne (l.text ++ ['\n'])
    rw [List.append_assoc, List.append_assoc, List.singleton_append, List.singleton_append] at hstrip
    rw [htext, hstrip, splitLines_line hl.no_break, List.map_cons, hrest, hl.words_text]
    rfl

/-- `[line.split() for line in text.strip().splitlines()]` for lines of words. -/
theorem words_splitLines_strip (lines : List Line) {l : Line} (hl : l.WellFormed)
    (hlines : ∀ l ∈ lines, l.WellFormed)
    (hv : ∀ c ∈ v, isSpace c = true) :
    (splitLines (strip (linesText (l :: lines) ++ v))).map words = (l :: lines).map (·.words) := by
  have htext : linesText (l :: lines) ++ v = l.text ++ '\n' :: (linesText lines ++ v) := by
    simp [linesText]
  have hfirst : Line.WellFormed { l with lead := 0 } := hl
  rw [strip_eq, htext, Line.dropWhile_text hl, words_splitLines_rstrip hfirst hlines hv]
  rfl

end Rows
end DftForge.Python
