import DftForge.Qe.Trajectory

/-! # The exported structure is the last one

Neither expression matches inside the blocks of the other, so that a trajectory whose
other texts do not match either is divided into its blocks, and the last of each kind
are those of the last step.
-/
namespace DftForge.Qe
open DftForge.Library DftForge.Runtime DftForge.Python

section Silence
open Re Regex
variable (u : Unicode) {t : Text}

theorem cellBlocks_fails {c : Char} (h : c ≠ 'C') (t : Text) : Fails (cellBlocks u) (c :: t) :=
  .seq (.seq (one_fails (decide_eq_false h) t))

theorem positionBlocks_fails {c : Char} (h : c ≠ 'A') (t : Text) : Fails (positionBlocks u) (c :: t) :=
  .seq (.seq (one_fails (decide_eq_false h) t))

theorem cellBlocks_fails_nil : Fails (cellBlocks u) [] := .seq (.seq (.one nofun))

theorem positionBlocks_fails_nil : Fails (positionBlocks u) [] := .seq (.seq (.one nofun))

/-- A word none of whose ends can begin the literal. -/
theorem silent_word {s : String} {w : Text} {rs : List Pattern}
    (h : ∀ b ∈ w.tails, b ≠ [] → ¬ b <+: s.toList ∧ ¬ s.toList <+: b) (t : Text) :
    Silent (chain (lit s :: rs)) w t := by
  intro a b hab hb
  have hmem : b ∈ w.tails := (List.mem_tails b w).mpr ⟨a,hab.symm⟩
  refine .seq (lit_fails fun hp => ?_)
  obtain hbs | hsb := List.prefix_or_prefix_of_prefix (List.prefix_append b t) hp
  · exact (h b hmem hb).1 hbs
  · exact (h b hmem hb).2 hsb

/-- A short word before a blank. -/
theorem silent_short {s : String} {w : Text} {rs : List Pattern} (hs : ' ' ∉ s.toList)
    (hw : w.length < s.toList.length) (t : Text) : Silent (chain (lit s :: rs)) w (' ' :: t) := by
  intro a b hab _
  have hlen : b.length < s.toList.length := by
    rw [hab, List.length_append] at hw
    omega
  refine .seq (lit_fails fun hp => hs ?_)
  have hget := hp.getElem hlen
  rw [List.getElem_append_right le_rfl] at hget
  simp only [Nat.sub_self, List.getElem_cons_zero] at hget
  rw [← hget]
  exact List.getElem_mem hlen

/-- Characters that begin neither of the two titles. -/
def Plain (c : Char) : Prop := c ≠ 'A' ∧ c ≠ 'C'

instance (c : Char) : Decidable (Plain c) := inferInstanceAs (Decidable (_ ∧ _))

theorem plain_silent {y : Text} (hy : ∀ c ∈ y, Plain c) (t : Text) :
    Silent (cellBlocks u) y t ∧ Silent (positionBlocks u) y t :=
  ⟨silent_of_forall (fun _ t hc => cellBlocks_fails u hc.2 t) hy,
    silent_of_forall (fun _ t hc => positionBlocks_fails u hc.1 t) hy⟩

theorem plain_blanks (n : ℕ) : ∀ c ∈ blanks n, Plain c := by
  intro c hc
  rw [List.eq_of_mem_replicate hc]
  decide

theorem plain_number {c : Char} (h : isNumberChar c = true) : Plain c := by
  constructor
  · rintro rfl
    exact absurd h (by decide)
  · rintro rfl
    exact absurd h (by decide)

theorem plain_fixed (n : Fixed) : ∀ c ∈ n.text, Plain c := fun c hc => plain_number (n.chars c hc)

theorem plain_numeral (n : Numeral) : ∀ c ∈ n.text, Plain c := fun c hc => plain_number (n.chars c hc)

theorem plain_lower {c : Char} (h : c.isLower = true) : Plain c := by
  constructor
  · rintro rfl
    exact absurd h (by decide)
  · rintro rfl
    exact absurd h (by decide)

theorem plain_unit (unit : PositionUnit) : ∀ c ∈ unit.text, Plain c :=
  fun c hc => plain_lower ((unit_lower unit).2 c hc)

theorem plain_more {more : List (ℕ × Text)} (h : ∀ word ∈ more, ∀ c ∈ word.2, Plain c) (trail : ℕ) :
    ∀ c ∈ more.flatMap Line.spaced ++ (blanks trail ++ ['\n']), Plain c := by
  simp only [List.forall_mem_append, List.forall_mem_flatMap, Line.spaced]
  exact ⟨fun word hword => ⟨plain_blanks _,h word hword⟩,plain_blanks _,
    List.forall_mem_singleton.mpr (by decide)⟩

theorem plain_cellRow (r : CellRow) : ∀ c ∈ r.line.text ++ ['\n'], Plain c := by
  have hmore : ∀ word ∈ r.line.more, ∀ c ∈ word.2, Plain c :=
    List.forall_mem_cons.mpr ⟨plain_numeral r.y,List.forall_mem_singleton.mpr (plain_numeral r.z)⟩
  have hrest := plain_more hmore r.line.trail
  have hsplit : r.line.text ++ ['\n'] = blanks r.lead ++ (r.x.text ++
      (r.line.more.flatMap Line.spaced ++ (blanks r.line.trail ++ ['\n']))) := by
    simp [CellRow.line, Line.text, Line.body]
  rw [hsplit, List.forall_mem_append, List.forall_mem_append]
  exact ⟨plain_blanks _,plain_numeral r.x,hrest⟩

theorem plain_char {c : Char} (h : Plain c) : ∀ d ∈ [c], Plain d := List.forall_mem_singleton.mpr h

theorem plain_append {v w : Text} (hv : ∀ c ∈ v, Plain c) (hw : ∀ c ∈ w, Plain c) : ∀ c ∈ v ++ w, Plain c :=
  List.forall_mem_append.mpr ⟨hv,hw⟩

theorem plain_cellRows (cell : CellBlock) : ∀ c ∈ linesText cell.lines, Plain c := by
  simp only [linesText, CellBlock.lines, List.forall_mem_flatMap, List.forall_mem_cons]
  exact ⟨plain_cellRow cell.a,plain_cellRow cell.b,plain_cellRow cell.c,List.forall_mem_nil _⟩

/-- The positions do not start inside a cell block. -/
theorem cellText_silent (cell : CellBlock) (t : Text) : Silent (positionBlocks u) cell.text t := by
  have hbelow : ∀ c ∈ '\n' :: linesText cell.lines, Plain c :=
    List.forall_mem_cons.mpr ⟨by decide,plain_cellRows cell⟩
  refine silent_append.mpr ⟨silent_word ?_ _,(plain_silent u ?_ t).2⟩
  · decide
  · have halat := plain_append (plain_blanks cell.pad) (plain_append (plain_fixed cell.alat)
      (plain_append (plain_char (c := ')') (by decide)) (plain_append (plain_blanks cell.trail) hbelow)))
    exact plain_append (plain_blanks _) (plain_append (plain_char (by decide))
      (plain_append (plain_unit .alat) (plain_append (plain_char (by decide)) halat)))

theorem species_short (s : Species) : s.text.length ≤ 2 := by
  obtain ⟨first,second,-,-⟩ := s
  cases second <;> simp [Species.text]

theorem atomRow_silent (r : AtomRow) (t : Text) : Silent (cellBlocks u) (r.line.text ++ ['\n']) t := by
  have hmore : ∀ word ∈ r.line.more, ∀ c ∈ word.2, Plain c := by
    simp only [AtomRow.line, List.forall_mem_cons, List.forall_mem_map]
    refine ⟨plain_numeral r.x,plain_numeral r.y,plain_numeral r.z,fun flag _ => plain_char ?_⟩
    cases flag.2 <;> decide
  have hrest := (plain_silent u (plain_more hmore r.line.trail) t).1
  have hsplit : r.line.text ++ ['\n'] = blanks r.lead ++ (r.species.text ++
      (r.line.more.flatMap Line.spaced ++ (blanks r.line.trail ++ ['\n']))) := by
    simp [AtomRow.line, Line.text, Line.body]
  rw [hsplit]
  refine silent_append.mpr ⟨(plain_silent u (plain_blanks _) _).1,silent_append.mpr ⟨?_,hrest⟩⟩
  refine silent_short (by decide) (Nat.lt_of_le_of_lt (species_short r.species) ?_) _
  decide

/-- The cell does not start inside a block of positions. -/
theorem positionsText_silent (positions : PositionsBlock) (t : Text) :
    Silent (cellBlocks u) positions.text t := by
  have hrows (rows : List AtomRow) : Silent (cellBlocks u) (linesText (rows.map AtomRow.line)) t := by
    induction rows with
    | nil => exact silent_nil
    | cons r rows ih => exact silent_append.mpr ⟨atomRow_silent u r _,ih⟩
  have hline : ∀ c ∈ blanks positions.trail ++ ['\n'], Plain c :=
    plain_append (plain_blanks _) (plain_char (by decide))
  have hheader := plain_append (plain_blanks positions.gap) (plain_append (plain_char (c := '(') (by decide))
    (plain_append (plain_unit positions.unit) (plain_append (plain_char (c := ')') (by decide)) hline)))
  have hsplit : positions.text = "ATOMIC_POSITIONS".toList ++ (blanks positions.gap ++ (['('] ++
      (positions.unit.text ++ ([')'] ++ (blanks positions.trail ++ ['\n'])))) ++
        linesText (positions.atoms.map AtomRow.line)) := by
    unfold PositionsBlock.text PositionsBlock.header
    repeat rw [List.append_assoc]
    rfl
  rw [hsplit]
  refine silent_append.mpr ⟨silent_word ?_ _,silent_append.mpr ⟨(plain_silent u hheader _).1,hrows _⟩⟩
  decide

/-- A longer word is not the name of a species. -/
theorem atomRow_fails_word (ws : Text) (hws : ∀ c ∈ ws, isSpace c = true) {c d e : Char}
    (hc : isSpace c = false) (hd : isSpace d = false) (he : isSpace e = false) (t : Text) :
    Fails (atomRow u) (ws ++ c :: d :: e :: t) := by
  refine .many_one_seq hws (solid_cons hc _) fun a b hab => ?_
  cases b with
  | nil =>
    intro before groups
    by_cases hfirst : c.isAlpha = true <;> by_cases hsecond : d.isAlpha = true <;>
      simp [run, letter, opt, spaces, plus, space, Cursor.advance, hfirst, hsecond, hd, he]
  | cons x b =>
    have hx : isSpace x = true := hws x (by rw [hab]; simp)
    refine .seq (one_fails ?_ _)
    rw [← Bool.not_eq_true]
    intro halpha
    rw [isSpace_alpha halpha] at hx
    cases hx

/-- Texts in which neither block starts. -/
structure Unmatched (gap t : Text) : Prop where
  cell : Silent (cellBlocks u) gap t
  positions : Silent (positionBlocks u) gap t

/-- Between and behind the blocks nothing matches, nor goes on with one more atom. -/
def StepsQuiet : List IonicStep → Prop
  | [] => True
  | s :: rest =>
    Unmatched u s.between (s.positions.text ++ (s.after ++ stepsText rest)) ∧
      Unmatched u s.after (stepsText rest) ∧ Fails (atomRow u) (s.after ++ stepsText rest) ∧
        StepsQuiet rest

/-- The texts of a trajectory outside its blocks match neither expression. -/
def Trajectory.Quiet (tr : Trajectory) : Prop :=
  Unmatched u tr.before (stepsText tr.steps) ∧ StepsQuiet u tr.steps

theorem stepsText_cons (s : IonicStep) (rest : List IonicStep) : stepsText (s :: rest) =
    s.cell.text ++ (s.between ++ (s.positions.text ++ (s.after ++ stepsText rest))) := by
  simp [stepsText]

/-- The groups of the match of a cell block; its rows are followed by white space. -/
def CellGroups (s : IonicStep) (groups : List (ℕ × Text)) : Prop :=
  ∃ v, (∀ c ∈ v, isSpace c = true) ∧ groups = [(2,linesText s.cell.lines ++ v),(1,s.cell.alat.text)]

theorem exists_spaces (gap t : Text) (ht : SolidNext t) : ∃ ws rest, gap = ws ++ rest ∧
    (∀ c ∈ ws, isSpace c = true) ∧ SolidNext (rest ++ t) := by
  refine ⟨gap.takeWhile isSpace,gap.dropWhile isSpace,List.takeWhile_append_dropWhile.symm,
    fun c hc => List.mem_takeWhile_imp hc,?_⟩
  intro c hc
  cases h : gap.dropWhile isSpace with
  | nil =>
    rw [h] at hc
    exact ht c hc
  | cons d ds =>
    rw [h] at hc
    have hd := List.dropWhile_get_zero_not isSpace gap (by rw [h]; simp)
    simp only [h, List.get_eq_getElem, List.getElem_cons_zero] at hd
    rw [← Option.some.inj hc]
    simpa using hd

theorem positions_solid (positions : PositionsBlock) (t : Text) : SolidNext (positions.text ++ t) :=
  solid_cons (c := 'A') rfl _

theorem cells_scan {steps : List IonicStep} (h : StepsQuiet u steps) :
    ∃ ms, Scan (cellBlocks u) (stepsText steps) ms ∧ List.Forall₂ CellGroups steps ms := by
  induction steps with
  | nil => exact ⟨[],.nil (cellBlocks_fails_nil u),.nil⟩
  | cons s rest ih =>
    obtain ⟨hbetween,hafter,-,hrest⟩ := h
    obtain ⟨ms,hscan,hgroups⟩ := ih hrest
    obtain ⟨ws,b,hsplit,hws,hsolid⟩ := exists_spaces s.between
      (s.positions.text ++ (s.after ++ stepsText rest)) (positions_solid _ _)
    obtain ⟨v,z,rfl,hread⟩ := cellBlocks_reads u s.cell hws hsolid
    have hquiet : Silent (cellBlocks u) (z ++ b) (s.positions.text ++ (s.after ++ stepsText rest)) := by
      have hcell := hbetween.cell
      rw [hsplit, List.append_assoc] at hcell
      exact hcell.drop
    have htail := (hscan.silent hafter.cell).silent (positionsText_silent u s.positions _) |>.silent hquiet
    rw [List.append_assoc] at htail
    refine ⟨_ :: ms,?_,.cons ⟨v,fun c hc => hws c (List.mem_append_left z hc),rfl⟩ hgroups⟩
    have hne : s.cell.text ++ v ≠ [] := List.append_ne_nil_of_left_ne_nil (List.cons_ne_nil 'C' _) v
    have hall := Scan.read hne hread htail
    rw [stepsText_cons, hsplit]
    simpa [List.append_assoc] using hall

theorem positions_scan {steps : List IonicStep} (h : StepsQuiet u steps) :
    Scan (positionBlocks u) (stepsText steps) (steps.map fun s =>
      [(2,linesText (s.positions.atoms.map AtomRow.line)),(1,s.positions.unit.text)]) := by
  induction steps with
  | nil => exact .nil (positionBlocks_fails_nil u)
  | cons s rest ih =>
    obtain ⟨hbetween,hafter,hrow,hrest⟩ := h
    have hne : s.positions.text ≠ [] := List.cons_ne_nil 'A' _
    have htail := Scan.read hne (positionBlocks_reads u s.positions hrow) ((ih hrest).silent hafter.positions)
    rw [stepsText_cons]
    exact (htail.silent hbetween.positions).silent (cellText_silent u s.cell _)

end Silence

section Exported
open Re Regex
variable (u : Unicode) (isSymbol : Text → Bool)

/-- Arithmetic without rounding. -/
def exact : Floats ℚ := { decimals with read := readFloat u }

theorem mapM_of_forall {α β : Type} {f : α → Option β} {g : α → β} {xs : List α}
    (h : ∀ x ∈ xs, f x = some (g x)) : xs.mapM f = some (xs.map g) := by
  induction xs with
  | nil => rfl
  | cons x xs ih =>
    rw [List.forall_mem_cons] at h
    rw [List.mapM_cons, h.1, ih h.2]
    rfl

theorem forall₂_getLast? {α β : Type} {R : α → β → Prop} {xs : List α} {ys : List β}
    (h : List.Forall₂ R xs ys) {x : α} (hx : xs.getLast? = some x) : ∃ y, ys.getLast? = some y ∧ R x y := by
  induction h with
  | nil => cases hx
  | @cons a b xs ys hab hrest ih =>
    cases hrest with
    | nil =>
      obtain rfl : a = x := Option.some.inj hx
      exact ⟨b,rfl,hab⟩
    | cons h hrest => exact ih hx

theorem read_numeral (n : Numeral) : (exact u).read n.text = some n.value := readFloat_numeral u n

theorem read_fixed (n : Fixed) : (exact u).read n.text = some n.value := by
  have h := read_numeral u ⟨false,n,none⟩
  simpa [Numeral.text, Numeral.value] using h

theorem species_word (s : Species) : IsWordText s.text := by
  refine ⟨List.cons_ne_nil _ _,List.forall_mem_cons.mpr ⟨isSpace_alpha s.first_alpha,fun c hc => ?_⟩⟩
  exact isSpace_alpha (s.second_alpha c (Option.mem_toList.mp hc))

theorem cellRow_wellFormed (r : CellRow) : r.line.WellFormed :=
  ⟨r.x.word,List.forall_mem_cons.mpr ⟨r.y.word,List.forall_mem_singleton.mpr r.z.word⟩⟩

theorem atomRow_wellFormed (r : AtomRow) : r.line.WellFormed := by
  refine ⟨species_word r.species,?_⟩
  simp only [AtomRow.line, List.forall_mem_cons, List.forall_mem_map]
  exact ⟨r.x.word,r.y.word,r.z.word,fun flag _ => flag_word flag⟩

/-- The rows of the matched cell, as numbers. -/
theorem readRows (cell : CellBlock) {v : Text} (hv : ∀ c ∈ v, isSpace c = true) :
    ((splitLines (strip (linesText cell.lines ++ v))).mapM fun line => (words line).mapM (exact u).read) =
      some (cell.rows.map fun r => [r.x.value,r.y.value,r.z.value]) := by
  have hlines := words_splitLines_strip [cell.b.line,cell.c.line] (cellRow_wellFormed cell.a)
    (List.forall_mem_cons.mpr ⟨cellRow_wellFormed cell.b,
      List.forall_mem_singleton.mpr (cellRow_wellFormed cell.c)⟩) hv
  have hread (r : CellRow) : r.line.words.mapM (exact u).read = some [r.x.value,r.y.value,r.z.value] := by
    simp [Line.words, CellRow.line, read_numeral]
  have hmap := List.mapM_map (m := Option) (f := words) (g := fun parts => parts.mapM (exact u).read)
    (l := splitLines (strip (linesText cell.lines ++ v)))
  refine hmap.symm.trans ?_
  rw [CellBlock.lines, hlines]
  simp [hread, CellBlock.rows]

theorem isdigit_alpha {c : Char} (h : c.isAlpha = true) : isdigit u c = false := by
  have hrange : 65 ≤ c.toNat ∧ c.toNat ≤ 90 ∨ 97 ≤ c.toNat ∧ c.toNat ≤ 122 := by
    simpa [Char.isAlpha, Char.isUpper, Char.isLower, UInt32.le_iff_toNat_le] using h
  have hdigit : c.isDigit = false := by
    rw [← Bool.not_eq_true]
    intro hd
    have hd : 48 ≤ c.toNat ∧ c.toNat ≤ 57 := by
      simpa [Char.isDigit, UInt32.le_iff_toNat_le] using hd
    omega
  have hascii : ¬128 ≤ c.toNat := by omega
  simp [isdigit, digitValue, hdigit, hascii, show c.toNat < 128 by omega]

/-- The lines of the matched positions are those of the atoms, and none is passed over. -/
theorem atomLines_positions (positions : PositionsBlock) :
    atomLines u ((splitLines (strip (linesText (positions.atoms.map AtomRow.line)))).map words) =
      positions.atoms.map fun r => r.line.words := by
  have hlines := words_splitLines_strip (positions.more.map AtomRow.line)
    (atomRow_wellFormed positions.first) (List.forall_mem_map.mpr fun r _ => atomRow_wellFormed r)
    (v := []) nofun
  rw [List.append_nil, ← List.map_cons (f := AtomRow.line), List.map_map] at hlines
  rw [PositionsBlock.atoms, hlines, atomLines]
  refine List.filter_eq_self.mpr fun parts hparts => ?_
  obtain ⟨r,-,rfl⟩ := List.mem_map.mp hparts
  simp [Line.words, AtomRow.line, Species.text, isdigit_alpha u r.species.first_alpha]

/-- The last match of a scanned text. -/
theorem exists_last_match {r : Pattern} {text : Text} {ms : List (List (ℕ × Text))}
    (h : Scan r text ms) {gs : List (ℕ × Text)} (hlast : ms.getLast? = some gs) :
    ∃ m, (findAll r text).getLast? = some m ∧ m.stop.groups = gs := by
  rw [← findAll_scan h, List.getLast?_map] at hlast
  exact Option.map_eq_some_iff.mp hlast

/-- Where the code puts an atom is where the block says it is. -/
theorem cartesian_place (cell : CellBlock) (unit : PositionUnit) (r : AtomRow) :
    cartesian (exact u) (lower unit.text) cell.alat.value cell.vectors [r.x.value,r.y.value,r.z.value] =
      r.place cell unit := by
  cases unit with
  | alat =>
    have hmode : lower PositionUnit.alat.text = "alat".toList := by decide
    rw [hmode, cartesian, if_neg (by decide), if_pos rfl]
    simp [AtomRow.place, CellBlock.scale, exact, decimals, bohr, bohrAngstrom, mul_assoc]
  | bohr =>
    have hmode : lower PositionUnit.bohr.text = "bohr".toList := by decide
    rw [hmode, cartesian, if_neg (by decide), if_neg (by decide), if_pos (.inl rfl)]
    simp [AtomRow.place, exact, decimals, bohr, bohrAngstrom]
  | angstrom =>
    have hmode : lower PositionUnit.angstrom.text = "angstrom".toList := by decide
    rw [hmode, cartesian, if_neg (by decide), if_neg (by decide), if_neg (by decide)]
    rfl
  | crystal =>
    have hmode : lower PositionUnit.crystal.text = "crystal".toList := by decide
    rw [hmode, cartesian, if_pos rfl]
    simp only [AtomRow.place, CellBlock.vectors, CellBlock.rows, exact, decimals, List.range_succ,
      List.range_zero, List.nil_append, List.cons_append, List.map_cons, List.map_nil, List.getD_cons_zero,
      List.getD_cons_succ, List.zipWith_cons_cons, List.zipWith_nil_left, List.sum_cons, List.sum_nil]
    refine List.cons_eq_cons.mpr ⟨by ring,List.cons_eq_cons.mpr ⟨by ring,List.cons_eq_cons.mpr ⟨by ring,rfl⟩⟩⟩

theorem extractFinalStructure_step (tr : Trajectory) {last : IonicStep}
    (hlast : tr.steps.getLast? = some last) (hquiet : tr.Quiet u)
    (hsymbols : ∀ r ∈ last.positions.atoms, isSymbol r.species.text = true) :
    extractFinalStructure (exact u) u isSymbol tr.text = some (some last.structure) := by
  obtain ⟨hbefore,hsteps⟩ := hquiet
  obtain ⟨ms,hscan,hgroups⟩ := cells_scan u hsteps
  obtain ⟨gs,hms,v,hv,rfl⟩ := forall₂_getLast? hgroups hlast
  obtain ⟨cell,hcell,hcellGroups⟩ := exists_last_match (hscan.silent hbefore.cell) hms
  obtain ⟨positions,hpositions,hpositionGroups⟩ :=
    exists_last_match ((positions_scan u hsteps).silent hbefore.positions)
      (by rw [List.getLast?_map, hlast, Option.map_some])
  have halat : cell.group 1 = last.cell.alat.text := by
    rw [Match.group, Match.group?, hcellGroups]
    rfl
  have hrows : cell.group 2 = linesText last.cell.lines ++ v := by
    rw [Match.group, Match.group?, hcellGroups]
    rfl
  have hunit : positions.group 1 = last.positions.unit.text := by
    rw [Match.group, Match.group?, hpositionGroups]
    rfl
  have hatoms : positions.group 2 = linesText (last.positions.atoms.map AtomRow.line) := by
    rw [Match.group, Match.group?, hpositionGroups]
    rfl
  have hxyz : (last.positions.atoms.map fun r => r.line.words).mapM
      (fun parts => ((parts.drop 1).take 3).mapM (exact u).read) =
        some (last.positions.atoms.map fun r => [r.x.value,r.y.value,r.z.value]) := by
    rw [List.mapM_map]
    refine mapM_of_forall fun r _ => ?_
    simp [Line.words, AtomRow.line, read_numeral]
  rw [extractFinalStructure, Trajectory.text, hcell, hpositions]
  dsimp only
  have hcellAng : (last.cell.rows.map fun r => [r.x.value,r.y.value,r.z.value]).map (fun row =>
      row.map fun x => (exact u).mul ((exact u).mul x last.cell.alat.value) (bohr (exact u))) =
        last.cell.vectors := by
    simp [CellBlock.vectors, CellBlock.rows, CellBlock.scale, exact, decimals, bohr, bohrAngstrom, mul_assoc]
  have hsymbolList : (last.positions.atoms.map fun r => r.line.words).map (·.headD []) =
      last.positions.atoms.map fun r => r.species.text := by
    rw [List.map_map]
    rfl
  have hknown : ((last.positions.atoms.map fun r => r.species.text).all isSymbol) = true := by
    rw [List.all_map, List.all_eq_true]
    exact hsymbols
  have hmatrix : isMatrix last.cell.vectors = true := rfl
  have hne : last.positions.atoms.map (fun r => r.species.text) ≠ [] := List.cons_ne_nil _ _
  unfold structureOf
  rw [halat, hrows, hunit, hatoms, read_fixed, readRows u last.cell hv, atomLines_positions]
  have hrectangular : rectangular (last.cell.rows.map fun r => [r.x.value,r.y.value,r.z.value]) = true := rfl
  simp only [Option.bind_eq_bind, Option.bind_some, hrectangular, Bool.not_true, Bool.false_eq_true,
    if_false, hxyz, hcellAng, hsymbolList, if_neg hne, hmatrix, hknown, Bool.and_self, if_true]
  have hplaces : (last.positions.atoms.map fun r => [r.x.value,r.y.value,r.z.value]).map
      (cartesian (exact u) (lower last.positions.unit.text) last.cell.alat.value last.cell.vectors) =
        last.positions.atoms.map fun r => r.place last.cell last.positions.unit := by
    rw [List.map_map]
    exact List.map_congr_left fun r _ => cartesian_place u last.cell last.positions.unit r
  rw [hplaces]
  rfl

/-- The exported structure is that of the last step; without steps there is none. -/
theorem extractFinalStructure_last (tr : Trajectory) (hquiet : tr.Quiet u)
    (hsymbols : ∀ s ∈ tr.steps.getLast?, ∀ r ∈ s.positions.atoms, isSymbol r.species.text = true) :
    extractFinalStructure (exact u) u isSymbol tr.text =
      some (tr.steps.getLast?.map IonicStep.structure) := by
  cases hlast : tr.steps.getLast? with
  | some last => exact extractFinalStructure_step u isSymbol tr hlast hquiet (hsymbols last hlast)
  | none =>
    have hsteps : tr.steps = [] := List.getLast?_eq_none_iff.mp hlast
    have hscan : Scan (cellBlocks u) tr.text [] := by
      have hbefore := hquiet.1.cell
      rw [Trajectory.text, hsteps] at *
      exact (Scan.nil (cellBlocks_fails_nil u)).silent hbefore
    have hnil : findAll (cellBlocks u) tr.text = [] := List.map_eq_nil_iff.mp (findAll_scan hscan)
    rw [extractFinalStructure, hnil]
    rfl

end Exported

section Silicon
open Regex

/-- A number with one digit on each side of the point. -/
def short (negative : Bool) (whole fraction : Digit) : Numeral :=
  ⟨negative,⟨[whole],some [fraction],List.cons_ne_nil _ _⟩,none⟩

/-- `2.5E-1`. -/
def quarter : Numeral :=
  ⟨false,⟨[2],some [5],List.cons_ne_nil _ _⟩,
    some ⟨'E',some '-',[1],.inr rfl,fun _ hc => .inr (Option.some.inj hc).symm,List.cons_ne_nil _ _⟩⟩

def siliconCell (alat : Fixed) : CellBlock where
  gap := 0
  pad := 1
  alat := alat
  trail := 0
  a := ⟨1,short true 0 5,0,short false 0 0,0,short false 0 5,0⟩
  b := ⟨1,short false 0 0,0,short false 0 5,0,short false 0 5,0⟩
  c := ⟨1,short true 0 5,0,short false 0 5,0,short false 0 0,0⟩

def siliconAtom (x : Numeral) (flags : List (ℕ × Bool)) : AtomRow where
  lead := 1
  species := ⟨'S',some 'i',rfl,fun _ hc => by rw [← Option.some.inj hc]; rfl⟩
  gapX := 0
  x := x
  gapY := 0
  y := x
  gapZ := 0
  z := x
  flags := flags
  trail := 0

def siliconStep (alat : Fixed) (unit : PositionUnit) (after : Text) : IonicStep where
  cell := siliconCell alat
  between := ['\n']
  positions := ⟨1,unit,0,siliconAtom (short false 0 0) [(1,false),(0,false)],[siliconAtom quarter []]⟩
  after := after

/-- Two steps, the first with an integer for `alat`. -/
def siliconRelaxation : Trajectory where
  before := ['\n']
  steps := [siliconStep ⟨[1,0],none,List.cons_ne_nil _ _⟩ .alat ['\n'],
    siliconStep ⟨[1,0],some [2],List.cons_ne_nil _ _⟩ .crystal ['E','n','d','\n']]

theorem siliconRelaxation_quiet : siliconRelaxation.Quiet {} := by
  have hbreak (t : Text) : Unmatched {} ['\n'] t := by
    have h := plain_silent {} (plain_char (c := '\n') (by decide)) t
    exact ⟨h.1,h.2⟩
  have hend (t : Text) : Unmatched {} ['E','n','d','\n'] t := by
    have hplain : ∀ c ∈ ['E','n','d','\n'], Plain c := by
      intro c hc
      fin_cases hc <;> decide
    have h := plain_silent {} hplain t
    exact ⟨h.1,h.2⟩
  refine ⟨hbreak _,hbreak _,hbreak _,?_,hbreak _,hend _,?_,trivial⟩
  · exact atomRow_fails_word {} ['\n'] (List.forall_mem_singleton.mpr rfl) (c := 'C') rfl
      (d := 'E') rfl (e := 'L') rfl _
  · exact atomRow_fails_word {} [] nofun (c := 'E') rfl (d := 'n') rfl (e := 'd') rfl _

theorem siliconRelaxation_final : ∃ atoms,
    extractFinalStructure (exact {}) {} (fun s => s = ['S','i']) siliconRelaxation.text = some (some atoms) ∧
      atoms.symbols = [['S','i'],['S','i']] ∧ atoms.positions.head? = some [0,0,0] := by
  refine ⟨_,extractFinalStructure_last {} _ siliconRelaxation siliconRelaxation_quiet ?_,rfl,?_⟩
  · intro s hs r hr
    obtain rfl := Option.some.inj hs
    fin_cases hr <;> rfl
  · decide +kernel

end Silicon
end DftForge.Qe
