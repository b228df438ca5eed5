import DftForge.Structure.QeDecks

/-! # Reading decks

What the loop of `_parse_qe_input` keeps of each card, in any order of the cards, and when
the structure that it returns is the one that the deck denotes.
-/
namespace DftForge.Structure
open DftForge.Library DftForge.Runtime DftForge.Python
open DftForge.Qe (CellRow AtomRow Species PositionUnit)

section Lines

theorem splitLines_breakText {lines : List Text} (h : ∀ l ∈ lines, Unbroken l) :
    splitLines (breakText lines) = lines := by
  have hlines := splitLines_lines h []
  rw [List.append_nil] at hlines
  exact hlines.trans (List.append_nil lines)

theorem unbroken_of_all {l : Text} (h : (l.all fun c => !isLineBreak c) = true) : Unbroken l :=
  fun c hc => by simpa using List.all_eq_true.mp h c hc

theorem isWordText_of_all {w : Text} (hne : w ≠ []) (h : (w.all fun c => !isSpace c) = true) : IsWordText w :=
  ⟨hne,fun c hc => by simpa using List.all_eq_true.mp h c hc⟩

theorem upperChar_ascii {c : Char} (h : c.toNat < 128) : upperChar c = [c.toUpper] := by
  unfold upperChar
  split
  all_goals first | omega | rfl

theorem toNat_alpha {c : Char} (h : c.isAlpha = true) : c.toNat < 128 := by
  have hrange : 65 ≤ c.toNat ∧ c.toNat ≤ 90 ∨ 97 ≤ c.toNat ∧ c.toNat ≤ 122 := by
    simpa [Char.isAlpha, Char.isUpper, Char.isLower, UInt32.le_iff_toNat_le] using h
  omega

/-- The line stands under a title and is no title itself. -/
structure IsRow (line : Text) : Prop where
  cell : ¬ "CELL_PARAMETERS".toList <+: strip line
  positions : ¬ "ATOMIC_POSITIONS".toList <+: upper (strip line)
  species : ¬ "ATOMIC_SPECIES".toList <+: upper (strip line)
  namelist : ¬ "&".toList <+: strip line
  slash : strip line ≠ ['/']
  ne : strip line ≠ []

theorem IsRow.readLine (a : Ambient) {line : Text} (h : IsRow line) (s : Fragment) :
    a.readLine s line = a.keepLine s (strip line) := by
  have hcell := mt startsWith_iff.mp h.cell
  have hpositions := mt startsWith_iff.mp h.positions
  have hspecies := mt startsWith_iff.mp h.species
  have hnamelist := mt startsWith_iff.mp h.namelist
  simp [Ambient.readLine, hcell, hpositions, hspecies, hnamelist, h.slash, h.ne]

theorem isRow_of_first {line t : Text} {c : Char} (hline : strip line = c :: t) (hascii : c.toNat < 128)
    (hc : c ∉ ['C','&','/']) (hupper : c.toUpper ≠ 'A') : IsRow line := by
  simp only [List.mem_cons, List.not_mem_nil, or_false, not_or] at hc
  have hfirst : upper (strip line) = c.toUpper :: upper t := by
    rw [hline, upper, List.flatMap_cons, upperChar_ascii hascii]
    rfl
  constructor
  · rw [hline]
    exact fun h => hc.1 (List.cons_prefix_cons.mp h).1.symm
  · rw [hfirst]
    exact fun h => hupper (List.cons_prefix_cons.mp h).1.symm
  · rw [hfirst]
    exact fun h => hupper (List.cons_prefix_cons.mp h).1.symm
  · rw [hline]
    exact fun h => hc.2.1 (List.cons_prefix_cons.mp h).1.symm
  · rw [hline]
    exact fun h => hc.2.2 (List.cons.inj h).1
  · rw [hline]
    exact List.cons_ne_nil _ _

theorem numberChar_first {c : Char} (h : isNumberChar c = true) :
    c.toNat < 128 ∧ c ∉ ['C','&','/'] ∧ c.toUpper ≠ 'A' := by
  simp only [isNumberChar, isExponentMark, Bool.or_eq_true, decide_eq_true_eq] at h
  obtain (((h | rfl) | rfl) | rfl) | rfl | rfl := h
  · have hrange : 48 ≤ c.toNat ∧ c.toNat ≤ 57 := by
      simpa [Char.isDigit, UInt32.le_iff_toNat_le] using h
    have hne {d : Char} (hd : d.toNat < 48 ∨ 57 < d.toNat) : c ≠ d := by
      rintro rfl
      omega
    have hupper : c.toUpper = c := by
      have hlow : ¬ ('a'.val ≤ c.val ∧ c.val ≤ 'z'.val) := by
        rintro ⟨hlow,-⟩
        have hlow : 97 ≤ c.toNat := UInt32.le_iff_toNat_le.mp hlow
        omega
      rw [Char.toUpper, dif_neg hlow]
    rw [hupper]
    exact ⟨by omega,by simp [hne],hne (by decide)⟩
  all_goals decide

/-- A line of words that starts with a number. -/
theorem isRow_number {l : Line} (hl : l.WellFormed) {n : Numeral} (hhead : l.head = n.text) :
    IsRow l.text := by
  obtain ⟨c,t,hc⟩ := List.exists_cons_of_ne_nil hl.1.1
  have hnumber : isNumberChar c = true := n.chars c (by rw [← hhead, hc]; exact List.mem_cons_self)
  obtain ⟨hascii,hne,hupper⟩ := numberChar_first hnumber
  have hbody : strip l.text = c :: (t ++ l.more.flatMap Line.spaced) := by
    rw [hl.strip_text, Line.body, hc]
    rfl
  exact isRow_of_first hbody hascii hne hupper

/-- A line of words that starts with a species. -/
theorem isRow_species {l : Line} (hl : l.WellFormed) {s : Species} (hhead : l.head = s.text)
    (hmore : l.more ≠ []) : IsRow l.text := by
  obtain ⟨word,more,hword⟩ := List.exists_cons_of_ne_nil hmore
  have halpha : ∀ c ∈ s.text, c.isAlpha = true :=
    List.forall_mem_cons.mpr ⟨s.first_alpha,fun c hc => s.second_alpha c (Option.mem_toList.mp hc)⟩
  have hshort := Qe.species_short s
  have hbody : strip l.text = s.text ++ ' ' :: (blanks word.1 ++ word.2 ++ more.flatMap Line.spaced) := by
    rw [hl.strip_text, Line.body, hhead, hword, List.flatMap_cons, Line.spaced, blanks,
      List.replicate_succ]
    rfl
  have hupper : upper s.text = s.text.map Char.toUpper := by
    rw [upper, List.flatMap_congr fun c hc => upperChar_ascii (toNat_alpha (halpha c hc)),
      List.map_eq_flatMap]
  have hlength : (upper s.text).length = s.text.length := by rw [hupper, List.length_map]
  have hbody' (t : Text) : upper (s.text ++ ' ' :: t) = upper s.text ++ ' ' :: upper t := upper_append _ _
  constructor
  · rw [hbody]
    exact not_prefix_of_short (by decide) (hshort.trans_lt (by decide))
  · rw [hbody, hbody']
    exact not_prefix_of_short (by decide) (hlength.trans_le hshort |>.trans_lt (by decide))
  · rw [hbody, hbody']
    exact not_prefix_of_short (by decide) (hlength.trans_le hshort |>.trans_lt (by decide))
  · rw [hbody]
    intro h
    have hfirst := (List.cons_prefix_cons.mp h).1
    have halpha := s.first_alpha
    rw [← hfirst] at halpha
    cases halpha
  · rw [hbody]
    intro h
    have hfirst := (List.cons.inj h).1
    have halpha := s.first_alpha
    rw [hfirst] at halpha
    cases halpha
  · rw [hbody]
    exact List.cons_ne_nil _ _

theorem isRow_celldm (n : Numeral) : IsRow (celldmLine n) := by
  have hstrip : "celldm(1)".toList <+: strip (celldmLine n) := by
    have hfirst : strip (celldmLine n) = strip ("celldm(1)".toList ++ (" = ".toList ++ n.text)) := rfl
    rw [hfirst]
    exact prefix_strip (isWordText_of_all (List.cons_ne_nil _ _) rfl) _
  obtain ⟨rest,hrest⟩ := hstrip
  exact isRow_of_first hrest.symm (by decide) (by decide) (by decide)

theorem isRow_meshTitle (mode : Text) : IsRow ("K_POINTS".toList ++ mode) := by
  obtain ⟨rest,hrest⟩ := prefix_strip (w := "K_POINTS".toList)
    (isWordText_of_all (List.cons_ne_nil _ _) rfl) mode
  exact isRow_of_first hrest.symm (by decide) (by decide) (by decide)

end Lines

section Titles
variable (a : Ambient) (s : Fragment) (tail : Text)

theorem readLine_cellTitle : a.readLine s ("CELL_PARAMETERS".toList ++ tail) =
    .ok { s with currentSection := some .cell } := by
  have hcell := startsWith_iff.mpr (prefix_strip (w := "CELL_PARAMETERS".toList)
    (isWordText_of_all (List.cons_ne_nil _ _) rfl) tail)
  unfold Ambient.readLine
  rw [if_pos hcell]
  rfl

theorem readLine_positionsTitle : a.readLine s ("ATOMIC_POSITIONS".toList ++ tail) =
    .ok { s with currentSection := some .positions } := by
  have htitle := prefix_strip (w := "ATOMIC_POSITIONS".toList)
    (isWordText_of_all (List.cons_ne_nil _ _) rfl) tail
  have hcell : ¬ startsWith (strip ("ATOMIC_POSITIONS".toList ++ tail)) "CELL_PARAMETERS" = true := by
    obtain ⟨rest,hrest⟩ := htitle
    rw [startsWith_iff, ← hrest]
    exact fun h => absurd (List.cons_prefix_cons.mp h).1 (by decide)
  have hpositions : startsWith (upper (strip ("ATOMIC_POSITIONS".toList ++ tail))) "ATOMIC_POSITIONS" =
      true :=
    startsWith_iff.mpr (upper_mono htitle)
  unfold Ambient.readLine
  rw [if_neg hcell, if_pos hpositions]
  rfl

theorem readLine_speciesTitle : a.readLine s "ATOMIC_SPECIES".toList =
    .ok { s with currentSection := some .species } := rfl

theorem readLine_blanks (n : ℕ) : a.readLine s (blanks n) = .ok s := by
  have hstrip : strip (blanks n) = [] := by
    have hdrop : (blanks n).dropWhile isSpace = [] :=
      List.dropWhile_eq_nil_iff.mpr isSpace_of_mem_blanks
    rw [strip_eq, hdrop]
    rfl
  unfold Ambient.readLine
  rw [hstrip]
  rfl

/-- Before the first title the lines are passed over. -/
theorem readLine_untitled {line : Text}
    (h : ∀ title ∈ ["CELL_PARAMETERS","ATOMIC_POSITIONS","ATOMIC_SPECIES"],
    ¬ title.toList <+: upper (strip line)) (hs : s.currentSection = none) : a.readLine s line = .ok s := by
  simp only [List.forall_mem_cons] at h
  have hcell : ¬ startsWith (strip line) "CELL_PARAMETERS" = true :=
    fun hc => h.1 (upper_mono (startsWith_iff.mp hc))
  have hpositions := mt startsWith_iff.mp h.2.1
  have hspecies := mt startsWith_iff.mp h.2.2.1
  have hnone : { s with currentSection := none } = s := by rw [← hs]
  unfold Ambient.readLine
  rw [if_neg hcell, if_neg hpositions, if_neg hspecies]
  split_ifs
  · rw [hnone]
    rfl
  · rfl
  · simp [Ambient.keepLine, hs, pure, Except.pure]

end Titles

section Sections
variable (a : Ambient) {lines : List Text}

theorem foldlM_fixed {s : Fragment} (h : ∀ l ∈ lines, a.readLine s l = .ok s) :
    lines.foldlM a.readLine s = .ok s := by
  induction lines with
  | nil => rfl
  | cons l lines ih =>
    rw [List.forall_mem_cons] at h
    rw [List.foldlM_cons, h.1]
    exact ih h.2

theorem foldlM_blanks (s : Fragment) (gap : List ℕ) : (gap.map blanks).foldlM a.readLine s = .ok s :=
  foldlM_fixed a (List.forall_mem_map.mpr fun n _ => readLine_blanks a s n)

theorem foldlM_cell (hrows : ∀ l ∈ lines, IsRow l) {s : Fragment} (hs : s.currentSection = some .cell) :
    lines.foldlM a.readLine s = .ok { s with cellParamsLines := s.cellParamsLines ++ lines.map strip } := by
  induction lines generalizing s with
  | nil => simp [pure, Except.pure]
  | cons l lines ih =>
    rw [List.forall_mem_cons] at hrows
    have hline : a.readLine s l = .ok { s with cellParamsLines := s.cellParamsLines ++ [strip l] } := by
      rw [hrows.1.readLine, Ambient.keepLine, hs]
      rfl
    rw [List.foldlM_cons, hline]
    refine (ih hrows.2 (s := { s with cellParamsLines := s.cellParamsLines ++ [strip l] }) hs).trans ?_
    simp

theorem foldlM_positions (hrows : ∀ l ∈ lines, IsRow l) {s : Fragment}
    (hs : s.currentSection = some .positions) : lines.foldlM a.readLine s =
      .ok { s with atomicPositionsLines := s.atomicPositionsLines ++ lines.map strip } := by
  induction lines generalizing s with
  | nil => simp [pure, Except.pure]
  | cons l lines ih =>
    rw [List.forall_mem_cons] at hrows
    have hline : a.readLine s l =
        .ok { s with atomicPositionsLines := s.atomicPositionsLines ++ [strip l] } := by
      rw [hrows.1.readLine, Ambient.keepLine, hs]
      rfl
    rw [List.foldlM_cons, hline]
    refine (ih hrows.2
      (s := { s with atomicPositionsLines := s.atomicPositionsLines ++ [strip l] }) hs).trans ?_
    simp

/-- No line among the species has a word without a number in place of the mass. -/
def MassesRead (u : Unicode) (ws : List Text) : Prop :=
  ∀ elem mass file rest, ws = elem :: mass :: file :: rest → (readFloat u mass).isSome = true

theorem keepLine_species {s : Fragment} (hs : s.currentSection = some .species) {l : Text}
    (h : MassesRead a.unicode (words l)) :
    ∃ kept, a.keepLine s (strip l) = .ok { s with atomicSpecies := kept } := by
  unfold Ambient.keepLine
  rw [hs, words_strip]
  simp only
  split
  case h_1 elem mass file rest hws =>
    obtain ⟨m,hm⟩ := Option.isSome_iff_exists.mp (h elem mass file rest hws)
    rw [Ambient.float, hm]
    exact ⟨_,rfl⟩
  case h_2 => exact ⟨s.atomicSpecies,by rw [← hs]; rfl⟩

theorem keepLine_fails {s : Fragment} (hs : s.currentSection = some .species) {l : Text}
    (h : ¬ MassesRead a.unicode (words l)) : ∃ e, a.keepLine s (strip l) = .error e := by
  simp only [MassesRead, not_forall] at h
  obtain ⟨elem,mass,file,rest,hws,hnone⟩ := h
  have hnone := Option.not_isSome_iff_eq_none.mp hnone
  refine ⟨a.noFloat mass,?_⟩
  unfold Ambient.keepLine
  rw [hs, words_strip, hws]
  simp only [Ambient.float, hnone]
  rfl

theorem foldlM_species (hrows : ∀ l ∈ lines, IsRow l) (hmasses : ∀ l ∈ lines, MassesRead a.unicode (words l))
    {s : Fragment} (hs : s.currentSection = some .species) :
    ∃ kept, lines.foldlM a.readLine s = .ok { s with atomicSpecies := kept } := by
  induction lines generalizing s with
  | nil => exact ⟨s.atomicSpecies,rfl⟩
  | cons l lines ih =>
    rw [List.forall_mem_cons] at hrows hmasses
    obtain ⟨kept,hline⟩ := keepLine_species a hs hmasses.1
    rw [List.foldlM_cons, hrows.1.readLine, hline]
    exact ih hrows.2 hmasses.2 (s := { s with atomicSpecies := kept }) hs

/-- Where no section is open the rows are passed over. -/
theorem foldlM_none (hrows : ∀ l ∈ lines, IsRow l) {s : Fragment} (hs : s.currentSection = none) :
    lines.foldlM a.readLine s = .ok s := by
  refine foldlM_fixed a fun l hl => ?_
  rw [(hrows l hl).readLine, Ambient.keepLine, hs]
  rfl

end Sections

section Rows

theorem SpeciesRow.wellFormed (r : SpeciesRow) : r.line.WellFormed :=
  ⟨Qe.species_word r.species,List.forall_mem_cons.mpr ⟨r.mass.word,List.forall_mem_singleton.mpr r.file_word⟩⟩

theorem MeshRow.wellFormed (r : MeshRow) : r.line.WellFormed :=
  ⟨r.first.word,List.forall_mem_map.mpr fun n _ => n.2.word⟩

variable {isSymbol : Text → Bool} (d : Deck isSymbol)

theorem Deck.rows_isRow (k : CardName) : ∀ l ∈ (d.rows k).map Line.text, IsRow l := by
  simp only [List.forall_mem_map]
  intro l hl
  cases k with
  | species =>
    obtain ⟨r,-,rfl⟩ := List.mem_map.mp hl
    exact isRow_species r.wellFormed rfl (List.cons_ne_nil _ _)
  | positions =>
    obtain ⟨r,-,rfl⟩ := List.mem_map.mp hl
    exact isRow_species (Qe.atomRow_wellFormed r) rfl (List.cons_ne_nil _ _)
  | cell =>
    obtain ⟨r,-,rfl⟩ := List.mem_map.mp hl
    exact isRow_number (Qe.cellRow_wellFormed r) rfl
  | kPoints =>
    obtain ⟨r,-,rfl⟩ := List.mem_map.mp hl
    exact isRow_number r.wellFormed rfl

theorem SpeciesRow.masses (u : Unicode) (r : SpeciesRow) : MassesRead u (words r.line.text) := by
  intro elem mass file rest h
  rw [r.wellFormed.words_text] at h
  have hmass : r.mass.text = mass := (List.cons.inj (List.cons.inj h).2).1
  rw [← hmass, readFloat_numeral]
  rfl

theorem MeshRow.masses (u : Unicode) (r : MeshRow) : MassesRead u (words r.line.text) := by
  intro elem mass file rest h
  rw [r.wellFormed.words_text] at h
  have hmass : mass ∈ r.line.more.map (·.2) := by
    rw [(List.cons.inj h).2]
    exact List.mem_cons_self
  simp only [MeshRow.line, List.map_map, List.mem_map, Function.comp] at hmass
  obtain ⟨n,-,rfl⟩ := hmass
  rw [readFloat_numeral]
  rfl

end Rows

/-- The section that a title opens. -/
def heading : CardName → Option Heading
  | .species => some .species
  | .positions => some .positions
  | .cell => some .cell
  | .kPoints => none

theorem heading_of_ne {k : CardName} (hk : k ≠ .kPoints) : ∃ h, heading k = some h := by
  cases k with
  | kPoints => exact absurd rfl hk
  | _ => exact ⟨_,rfl⟩

section Cards
variable (a : Ambient) {isSymbol : Text → Bool} (d : Deck isSymbol) (s : Fragment)

/-- What a card adds to the lines of a section. -/
def Deck.kept (h : Heading) (k : CardName) : List Text :=
  if heading k = some h then (d.rows k).map fun l => strip l.text else []

/-- The lines of `K_POINTS`. -/
def Deck.meshLines : List Text := d.title .kPoints :: (d.rows .kPoints).map Line.text

/-- What `K_POINTS` adds to a section, open or not. -/
def Deck.meshKept (h : Heading) (current : Option Heading) : List Text :=
  if current = some h then d.meshLines.map strip else []

theorem foldlM_append_ok {lines more : List Text} {s s₁ : Fragment} (h : lines.foldlM a.readLine s = .ok s₁) :
    (lines ++ more).foldlM a.readLine s = more.foldlM a.readLine s₁ := by
  rw [List.foldlM_append, h]
  rfl

theorem foldlM_append_error {lines more : List Text} {s : Fragment} {e : String}
    (h : lines.foldlM a.readLine s = .error e) : (lines ++ more).foldlM a.readLine s = .error e := by
  rw [List.foldlM_append, h]
  rfl

theorem Block.reads (b : Block) {s s₁ s₂ : Fragment} (htitle : a.readLine s b.title = .ok s₁)
    (hrows : (b.rows.map Line.text).foldlM a.readLine s₁ = .ok s₂) :
    b.lines.foldlM a.readLine s = .ok s₂ := by
  rw [Block.lines, List.cons_append, List.foldlM_cons, htitle]
  exact (foldlM_append_ok a hrows).trans (foldlM_blanks a s₂ b.gap)

theorem Deck.card_reads {k : CardName} (hk : k ≠ .kPoints) :
    ∃ kept, (d.block k).lines.foldlM a.readLine s = .ok ⟨heading k,s.cellParamsLines ++ d.kept .cell k,
      s.atomicPositionsLines ++ d.kept .positions k,kept⟩ := by
  have hrows := d.rows_isRow k
  cases k with
  | species =>
    have hmasses : ∀ l ∈ (d.rows .species).map Line.text, MassesRead a.unicode (words l) := by
      simp only [Deck.rows, List.map_map, List.forall_mem_map]
      exact fun r _ => r.masses a.unicode
    obtain ⟨kept,hfold⟩ := foldlM_species a hrows hmasses
      (s := { s with currentSection := some .species }) rfl
    refine ⟨kept,((d.block .species).reads a (readLine_speciesTitle a s) hfold).trans ?_⟩
    simp [Deck.kept, heading]
  | positions =>
    have hfold := foldlM_positions a hrows (s := { s with currentSection := some .positions }) rfl
    refine ⟨s.atomicSpecies,((d.block .positions).reads a (readLine_positionsTitle a s _) hfold).trans ?_⟩
    simp [Deck.kept, heading]
  | cell =>
    have hfold := foldlM_cell a hrows (s := { s with currentSection := some .cell }) rfl
    refine ⟨s.atomicSpecies,((d.block .cell).reads a (readLine_cellTitle a s _) hfold).trans ?_⟩
    simp [Deck.kept, heading]
  | kPoints => exact absurd rfl hk

theorem Deck.meshLines_isRow : ∀ l ∈ d.meshLines, IsRow l :=
  List.forall_mem_cons.mpr ⟨isRow_meshTitle d.meshMode,d.rows_isRow .kPoints⟩

theorem Deck.block_mesh : (d.block .kPoints).lines = d.meshLines ++ (d.gap .kPoints).map blanks := rfl

/-- The lines of `K_POINTS` are taken for lines of the section that is open. -/
theorem Deck.mesh_reads
    (h : s.currentSection = some .species → MassesRead a.unicode (words (d.title .kPoints))) :
    ∃ kept, (d.block .kPoints).lines.foldlM a.readLine s = .ok ⟨s.currentSection,
      s.cellParamsLines ++ d.meshKept .cell s.currentSection,
      s.atomicPositionsLines ++ d.meshKept .positions s.currentSection,kept⟩ := by
  have hrows := d.meshLines_isRow
  suffices hlines : ∃ kept, d.meshLines.foldlM a.readLine s = .ok ⟨s.currentSection,
      s.cellParamsLines ++ d.meshKept .cell s.currentSection,
      s.atomicPositionsLines ++ d.meshKept .positions s.currentSection,kept⟩ by
    obtain ⟨kept,hkept⟩ := hlines
    refine ⟨kept,?_⟩
    rw [Deck.block_mesh, foldlM_append_ok a hkept, foldlM_blanks]
  cases hcurrent : s.currentSection with
  | none =>
    refine ⟨s.atomicSpecies,(foldlM_none a hrows hcurrent).trans ?_⟩
    simp only [Deck.meshKept, reduceCtorEq, if_false, List.append_nil]
    rw [← hcurrent]
  | some heading =>
    cases heading with
    | cell =>
      refine ⟨s.atomicSpecies,(foldlM_cell a hrows hcurrent).trans ?_⟩
      simp [Deck.meshKept, hcurrent]
    | positions =>
      refine ⟨s.atomicSpecies,(foldlM_positions a hrows hcurrent).trans ?_⟩
      simp [Deck.meshKept, hcurrent]
    | species =>
      have hmasses : ∀ l ∈ d.meshLines, MassesRead a.unicode (words l) := by
        refine List.forall_mem_cons.mpr ⟨h hcurrent,?_⟩
        simp only [Deck.rows, List.map_map, List.forall_mem_map]
        exact fun r _ => r.masses a.unicode
      obtain ⟨kept,hkept⟩ := foldlM_species a hrows hmasses hcurrent
      refine ⟨kept,hkept.trans ?_⟩
      simp [Deck.meshKept, hcurrent]

theorem Deck.mesh_fails (hs : s.currentSection = some .species)
    (h : ¬ MassesRead a.unicode (words (d.title .kPoints))) :
    ∃ e, (d.block .kPoints).lines.foldlM a.readLine s = .error e := by
  obtain ⟨e,he⟩ := keepLine_fails a hs h
  refine ⟨e,?_⟩
  have htitle : a.readLine s (d.title .kPoints) = .error e :=
    ((isRow_meshTitle d.meshMode).readLine a s).trans he
  rw [Deck.block_mesh, Deck.meshLines, List.cons_append, List.foldlM_cons, htitle]
  rfl

/-- The cards other than `K_POINTS`, one after the other. -/
theorem Deck.cards_read (cards : List CardName) (h : .kPoints ∉ cards) :
    ∃ kept, (cards.flatMap fun k => (d.block k).lines).foldlM a.readLine s =
      .ok ⟨(cards.getLast?.bind heading).or s.currentSection,
        s.cellParamsLines ++ cards.flatMap (d.kept .cell),
        s.atomicPositionsLines ++ cards.flatMap (d.kept .positions),kept⟩ := by
  induction cards generalizing s with
  | nil => exact ⟨s.atomicSpecies,by simp [pure, Except.pure]⟩
  | cons k cards ih =>
    rw [List.mem_cons, not_or] at h
    obtain ⟨kept,hcard⟩ := d.card_reads a s (Ne.symm h.1)
    obtain ⟨kept',hcards⟩ := ih ⟨heading k,s.cellParamsLines ++ d.kept .cell k,
      s.atomicPositionsLines ++ d.kept .positions k,kept⟩ h.2
    refine ⟨kept',?_⟩
    have hsection : ((k :: cards).getLast?.bind heading).or s.currentSection =
        (cards.getLast?.bind heading).or (heading k) := by
      obtain ⟨opened,hopened⟩ := heading_of_ne (Ne.symm h.1)
      rcases List.eq_nil_or_concat' cards with rfl | ⟨front,last,rfl⟩
      · simp [hopened]
      · have hlast : last ≠ .kPoints := fun hlast => h.2 (by simp [hlast])
        obtain ⟨final,hfinal⟩ := heading_of_ne hlast
        rw [← List.cons_append, List.getLast?_concat, List.getLast?_concat]
        simp [hfinal]
    rw [List.flatMap_cons, foldlM_append_ok a hcard, hcards, hsection]
    simp

end Cards

section Order
variable {κ α : Type} {ks : List κ} {f : κ → List α} {k : κ}

theorem flatMap_none (hf : ∀ k' ≠ k, f k' = []) (hk : k ∉ ks) : ks.flatMap f = [] := by
  rw [List.flatMap_eq_nil_iff]
  intro k' hk'
  refine hf k' ?_
  rintro rfl
  exact hk hk'

/-- Only one of the items has something to list. -/
theorem flatMap_single (hf : ∀ k' ≠ k, f k' = []) (hnodup : ks.Nodup) (hk : k ∈ ks) : ks.flatMap f = f k := by
  obtain ⟨front,back,rfl⟩ := List.append_of_mem hk
  have hsplit := List.nodup_middle.mp hnodup
  have hout := (List.nodup_cons.mp hsplit).1
  rw [List.mem_append, not_or] at hout
  rw [List.flatMap_append, List.flatMap_cons, flatMap_none hf hout.1, flatMap_none hf hout.2]
  simp

/-- What stands right after the item stands right after what it lists. -/
theorem flatMap_around (hf : ∀ k' ≠ k, f k' = []) {front back : List κ} (hnodup : (front ++ back).Nodup)
    (hk : k ∈ front ++ back) {more : List α} (hmore : more ≠ [] → front.getLast? = some k) :
    front.flatMap f ++ more ++ back.flatMap f = f k ++ more := by
  have hall := flatMap_single hf hnodup hk
  rw [List.flatMap_append] at hall
  rcases eq_or_ne more [] with rfl | hne
  · simpa using hall
  · have hfront : k ∈ front := List.mem_of_getLast? (hmore hne)
    have hback : k ∉ back := fun hback => List.disjoint_of_nodup_append hnodup hfront hback
    rw [flatMap_none hf hback, List.append_nil] at hall
    rw [hall, flatMap_none hf hback, List.append_nil]

end Order

section Decks
variable (a : Ambient) {isSymbol : Text → Bool} (d : Deck isSymbol)

/-- The cards before and after `K_POINTS`. -/
theorem Deck.order_split : ∃ front back, d.order = front ++ .kPoints :: back ∧ .kPoints ∉ front ∧
    .kPoints ∉ back ∧ (front ++ back).Perm [.species,.positions,.cell] ∧ d.beforeMesh = front.getLast? := by
  have hmem : CardName.kPoints ∈ d.order := d.order_perm.mem_iff.mpr (by simp)
  have hnodup : d.order.Nodup := d.order_perm.nodup_iff.mpr (by decide)
  obtain ⟨front,back,horder⟩ := List.append_of_mem hmem
  rw [horder] at hnodup
  have hout := (List.nodup_cons.mp (List.nodup_middle.mp hnodup)).1
  rw [List.mem_append, not_or] at hout
  have hperm : (front ++ back).Perm [.species,.positions,.cell] := by
    have hfirst : (CardName.kPoints :: (front ++ back)).Perm [.species,.positions,.cell,.kPoints] :=
      List.perm_middle.symm.trans (horder ▸ d.order_perm)
    have hlast : [CardName.species,.positions,.cell,.kPoints].Perm [.kPoints,.species,.positions,.cell] := by
      decide
    exact (List.perm_cons _).mp (hfirst.trans hlast)
  refine ⟨front,back,horder,hout.1,hout.2,hperm,?_⟩
  have hfront : ∀ k ∈ front, decide (k ≠ .kPoints) = true := by
    intro k hk
    refine decide_eq_true ?_
    rintro rfl
    exact hout.1 hk
  rw [Deck.beforeMesh, horder, List.takeWhile_append_of_pos hfront]
  simp

theorem NamelistLine.reads (l : NamelistLine) : a.readLine {} l.text = .ok {} :=
  readLine_untitled a {} l.untitled rfl

theorem Namelists.reads (n : Namelists) : n.lines.foldlM a.readLine {} = .ok {} := by
  have hlines : ∀ l ∈ n.lines, a.readLine {} l = .ok {} := by
    simp only [Namelists.lines, List.forall_mem_append, List.forall_mem_map]
    refine ⟨⟨fun l _ => l.reads a,fun l hl => ?_⟩,fun l _ => l.reads a⟩
    obtain ⟨v,-,rfl⟩ := Option.map_eq_some_iff.mp (Option.mem_toList.mp hl)
    exact ((isRow_celldm v).readLine a {}).trans rfl
  exact foldlM_fixed a hlines

theorem heading_inj {h : Heading} {k k' : CardName} (hk : heading k = some h) (hk' : heading k' = some h) :
    k' = k := by
  cases k <;> cases k' <;> cases hk <;> first | rfl | cases hk'

theorem Deck.kept_ne {h : Heading} {k : CardName} (hk : heading k = some h) :
    ∀ k' ≠ k, d.kept h k' = [] := fun _ hne => if_neg fun hk' => hne (heading_inj hk hk')

/-- The lines of a section when `K_POINTS` may stand after its card. -/
theorem Deck.kept_around {front back : List CardName}
    (hperm : (front ++ back).Perm [.species,.positions,.cell])
    {h : Heading} {k : CardName} (hk : heading k = some h) (hmem : k ∈ front ++ back) :
    front.flatMap (d.kept h) ++ d.meshKept h (front.getLast?.bind heading) ++ back.flatMap (d.kept h) =
      d.kept h k ++ d.meshKept h (front.getLast?.bind heading) := by
  refine flatMap_around (d.kept_ne hk) (hperm.nodup_iff.mpr (by decide)) hmem fun hmesh => ?_
  have hopen : front.getLast?.bind heading = some h := by
    by_contra hclosed
    exact hmesh (if_neg hclosed)
  obtain ⟨last,hlast,hheading⟩ := Option.bind_eq_some_iff.mp hopen
  rw [hlast, heading_inj hk hheading]

theorem Deck.title_unbroken (k : CardName) : Unbroken (d.title k) := by
  have hunit (b : Brackets) {unit : Text} (h : Unbroken unit) : Unbroken (b.around unit) := by
    refine List.forall_mem_append.mpr ⟨fun c hc => ?_,
      List.forall_mem_append.mpr ⟨h,fun c hc => (b.closing_form c hc).2⟩⟩
    obtain rfl | rfl | rfl := b.opening_form c hc <;> rfl
  cases k with
  | species => exact unbroken_of_all rfl
  | positions =>
    refine List.forall_mem_append.mpr ⟨unbroken_of_all rfl,hunit _ ?_⟩
    cases d.positionUnit <;> exact unbroken_of_all rfl
  | cell =>
    refine List.forall_mem_append.mpr ⟨unbroken_of_all rfl,hunit _ ?_⟩
    cases d.cellUnit <;> exact unbroken_of_all rfl
  | kPoints => exact List.forall_mem_append.mpr ⟨unbroken_of_all rfl,d.mode_unbroken⟩

theorem Deck.rows_wellFormed (k : CardName) : ∀ l ∈ d.rows k, l.WellFormed := by
  cases k with
  | species => exact List.forall_mem_map.mpr fun r _ => r.wellFormed
  | positions => exact List.forall_mem_map.mpr fun r _ => Qe.atomRow_wellFormed r
  | cell => exact List.forall_mem_map.mpr fun r _ => Qe.cellRow_wellFormed r
  | kPoints => exact List.forall_mem_map.mpr fun r _ => r.wellFormed

theorem Deck.lines_unbroken : ∀ l ∈ d.lines, Unbroken l := by
  have hcelldm (n : Numeral) : Unbroken (celldmLine n) :=
    List.forall_mem_append.mpr ⟨unbroken_of_all rfl,n.word.no_break⟩
  have hblock (k : CardName) : ∀ l ∈ (d.block k).lines, Unbroken l := by
    simp only [Block.lines, List.forall_mem_append, List.forall_mem_cons, List.forall_mem_map]
    exact ⟨⟨d.title_unbroken k,fun l hl => (d.rows_wellFormed k l hl).no_break⟩,fun n _ => blanks_no_break⟩
  simp only [Deck.lines, Namelists.lines, List.forall_mem_append, List.forall_mem_map]
  refine ⟨⟨⟨fun l _ => l.unbroken,fun l hl => ?_⟩,fun l _ => l.unbroken⟩,fun l hl => ?_⟩
  · obtain ⟨n,-,rfl⟩ := Option.map_eq_some_iff.mp (Option.mem_toList.mp hl)
    exact hcelldm n
  · obtain ⟨k,-,hl⟩ := List.mem_flatMap.mp hl
    exact hblock k l hl

theorem Deck.splitLines_text : splitLines d.text = d.lines := splitLines_breakText d.lines_unbroken

/-- The lines that the loop keeps: those of the card, and those of `K_POINTS` after it. -/
theorem Deck.fold_reads (h : d.beforeMesh = some .species → MassesRead a.unicode (words (d.title .kPoints))) :
    ∃ current kept, d.lines.foldlM a.readLine {} = .ok ⟨current,
      d.kept .cell .cell ++ d.meshKept .cell (d.beforeMesh.bind heading),
      d.kept .positions .positions ++ d.meshKept .positions (d.beforeMesh.bind heading),kept⟩ := by
  obtain ⟨front,back,horder,hfront,hback,hperm,hbefore⟩ := d.order_split
  obtain ⟨kept₁,h₁⟩ := d.cards_read a {} front hfront
  simp only [List.nil_append, Option.or_none] at h₁
  have hmasses : front.getLast?.bind heading = some .species →
      MassesRead a.unicode (words (d.title .kPoints)) := by
    intro hopen
    obtain ⟨last,hlast,hheading⟩ := Option.bind_eq_some_iff.mp hopen
    exact h (by rw [hbefore, hlast, heading_inj (k := .species) rfl hheading])
  obtain ⟨kept₂,h₂⟩ := d.mesh_reads a ⟨front.getLast?.bind heading,front.flatMap (d.kept .cell),
    front.flatMap (d.kept .positions),kept₁⟩ hmasses
  obtain ⟨kept₃,h₃⟩ := d.cards_read a ⟨front.getLast?.bind heading,
    front.flatMap (d.kept .cell) ++ d.meshKept .cell (front.getLast?.bind heading),
    front.flatMap (d.kept .positions) ++ d.meshKept .positions (front.getLast?.bind heading),kept₂⟩ back hback
  have hcell := d.kept_around hperm (h := .cell) (k := .cell) rfl (hperm.mem_iff.mpr (by simp))
  have hpositions := d.kept_around hperm (h := .positions) (k := .positions) rfl (hperm.mem_iff.mpr (by simp))
  refine ⟨(back.getLast?.bind heading).or (front.getLast?.bind heading),kept₃,?_⟩
  rw [Deck.lines, foldlM_append_ok a (d.namelists.reads a), horder, List.flatMap_append,
    foldlM_append_ok a h₁,
    List.flatMap_cons, foldlM_append_ok a h₂, h₃, hbefore, ← hcell, ← hpositions]

theorem Deck.fold_fails (hbefore : d.beforeMesh = some .species)
    (h : ¬ MassesRead a.unicode (words (d.title .kPoints))) :
    ∃ e, d.lines.foldlM a.readLine {} = .error e := by
  obtain ⟨front,back,horder,hfront,-,-,hlast⟩ := d.order_split
  obtain ⟨kept,hread⟩ := d.cards_read a {} front hfront
  rw [← hlast, hbefore] at hread
  obtain ⟨e,he⟩ := d.mesh_fails a ⟨some .species,front.flatMap (d.kept .cell),
    front.flatMap (d.kept .positions),kept⟩ rfl h
  refine ⟨e,?_⟩
  rw [Deck.lines, foldlM_append_ok a (d.namelists.reads a), horder, List.flatMap_append,
    foldlM_append_ok a hread,
    List.flatMap_cons]
  exact foldlM_append_error a he

end Decks
end DftForge.Structure
