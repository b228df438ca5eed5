import DftForge.Library.RegexReads
import DftForge.Python.Lines
import DftForge.Python.Numbers
import DftForge.Qe.Evidence
import DftForge.Qe.FinalStructure

/-! # Trajectories of a relaxation

The text of a relaxation step by step: a cell, positions, and what is printed between
them. The last cell and the last positions are what the two expressions find last.
-/
namespace DftForge.Qe
open DftForge.Library DftForge.Runtime DftForge.Python

section Printed

/-- Three numbers on a line, with blanks before and after each. -/
structure CellRow where
  lead : ℕ
  x : Numeral
  gapY : ℕ
  y : Numeral
  gapZ : ℕ
  z : Numeral
  trail : ℕ

def CellRow.line (r : CellRow) : Line := ⟨r.lead,r.x.text,[(r.gapY,r.y.text),(r.gapZ,r.z.text)],r.trail⟩

/-- `CELL_PARAMETERS (alat= x)` and three vectors in units of `x` Bohr. -/
structure CellBlock where
  gap : ℕ
  pad : ℕ
  alat : Fixed
  trail : ℕ
  a : CellRow
  b : CellRow
  c : CellRow

namespace CellBlock
variable (cell : CellBlock)

def lines : List Line := [cell.a.line,cell.b.line,cell.c.line]

/-- The header line, with the rest of the text below. -/
def header (rest : Text) : Text := "CELL_PARAMETERS".toList ++ (blanks (cell.gap + 1) ++ ("(".toList ++
  ("alat".toList ++ ("=".toList ++ (blanks cell.pad ++ (cell.alat.text ++ (")".toList ++
    (blanks cell.trail ++ '\n' :: rest))))))))

theorem header_append (w t : Text) : cell.header w ++ t = cell.header (w ++ t) := by
  unfold header
  repeat rw [List.append_assoc]
  rfl

def text : Text := cell.header (linesText cell.lines)

end CellBlock

/-- The name of a species: one letter or two. -/
structure Species where
  first : Char
  second : Option Char
  first_alpha : first.isAlpha = true
  second_alpha : ∀ c ∈ second, c.isAlpha = true

def Species.text (s : Species) : Text := s.first :: s.second.toList

/-- A species, three numbers, and the flags of what may move. -/
structure AtomRow where
  lead : ℕ
  species : Species
  gapX : ℕ
  x : Numeral
  gapY : ℕ
  y : Numeral
  gapZ : ℕ
  z : Numeral
  flags : List (ℕ × Bool)
  trail : ℕ

def flagText (flag : ℕ × Bool) : ℕ × Text := (flag.1,[if flag.2 then '1' else '0'])

def AtomRow.line (r : AtomRow) : Line :=
  ⟨r.lead,r.species.text,
    (r.gapX,r.x.text) :: (r.gapY,r.y.text) :: (r.gapZ,r.z.text) :: r.flags.map flagText,r.trail⟩

/-- The units in which positions are printed. -/
inductive PositionUnit where
  | alat
  | bohr
  | angstrom
  | crystal
  deriving DecidableEq

def PositionUnit.text : PositionUnit → Text
  | .alat => "alat".toList
  | .bohr => "bohr".toList
  | .angstrom => "angstrom".toList
  | .crystal => "crystal".toList

/-- `ATOMIC_POSITIONS (unit)` and a line for each atom. -/
structure PositionsBlock where
  gap : ℕ
  unit : PositionUnit
  trail : ℕ
  first : AtomRow
  more : List AtomRow

namespace PositionsBlock
variable (positions : PositionsBlock)

def atoms : List AtomRow := positions.first :: positions.more

def header (rest : Text) : Text := "ATOMIC_POSITIONS".toList ++ (blanks positions.gap ++ ("(".toList ++
  (positions.unit.text ++ (")".toList ++ (blanks positions.trail ++ '\n' :: rest)))))

def text : Text := positions.header (linesText (positions.atoms.map AtomRow.line))

end PositionsBlock

/-- What one step prints, and the texts around its positions. -/
structure IonicStep where
  cell : CellBlock
  between : Text
  positions : PositionsBlock
  after : Text

def stepsText (steps : List IonicStep) : Text :=
  steps.flatMap fun s => s.cell.text ++ (s.between ++ (s.positions.text ++ s.after))

structure Trajectory where
  before : Text
  steps : List IonicStep

def Trajectory.text (t : Trajectory) : Text := t.before ++ stepsText t.steps

end Printed

section Denoted

/-- What the code takes for a Bohr radius, in Å. -/
def bohrAngstrom : ℚ := 529177210903 / 10 ^ 12

namespace CellBlock
variable (cell : CellBlock)

/-- The unit of the vectors, in Å. -/
def scale : ℚ := cell.alat.value * bohrAngstrom

def rows : List CellRow := [cell.a,cell.b,cell.c]

/-- The vectors of the cell, in Å. -/
def vectors : List (List ℚ) :=
  cell.rows.map fun r => [r.x.value * cell.scale,r.y.value * cell.scale,r.z.value * cell.scale]

end CellBlock

/-- Where the atom is, in Å. -/
def AtomRow.place (cell : CellBlock) (r : AtomRow) : PositionUnit → List ℚ
  | .angstrom => [r.x.value,r.y.value,r.z.value]
  | .bohr => [r.x.value * bohrAngstrom,r.y.value * bohrAngstrom,r.z.value * bohrAngstrom]
  | .alat => [r.x.value * cell.scale,r.y.value * cell.scale,r.z.value * cell.scale]
  | .crystal =>
    let along (p : CellRow → Numeral) := (r.x.value * (p cell.a).value + r.y.value * (p cell.b).value +
      r.z.value * (p cell.c).value) * cell.scale
    [along CellRow.x,along CellRow.y,along CellRow.z]

/-- The atoms of a step. -/
def IonicStep.structure (s : IonicStep) : FinalAtoms ℚ where
  symbols := s.positions.atoms.map (·.species.text)
  positions := s.positions.atoms.map fun r => r.place s.cell s.positions.unit
  cell := s.cell.vectors

end Denoted

section Reading
open Re Regex
variable (u : Unicode) {t : Text}

/-- The text is empty or goes on with something other than white space. -/
def SolidNext (t : Text) : Prop := ∀ c ∈ t.head?, isSpace c = false

theorem lit_reads (s : String) : Reads (lit s) s.toList t [] := .chain_ones s.toList

theorem lit_fails {s : String} (h : ¬ s.toList <+: t) : Fails (lit s) t := .chain_ones h

theorem spaces?_reads (n : ℕ) (ht : SolidNext t) : Reads spaces? (blanks n) t [] :=
  .many_one isSpace_of_mem_blanks ht

theorem spaces_reads (n : ℕ) (ht : SolidNext t) : Reads spaces (blanks (n + 1)) t [] :=
  .plus_one (List.cons_ne_nil _ _) isSpace_of_mem_blanks ht

theorem digits_reads {ds : List Digit} (h : ds ≠ []) (ht : ∀ c ∈ t.head?, digitValue u c = none) :
    Reads (digits u) (digitText ds) t [] := by
  refine .plus_one (fun hds => h (digitText_eq_nil.mp hds)) ?_ fun c hc => by rw [ht c hc]; rfl
  intro c hc
  obtain ⟨d,-,rfl⟩ := List.mem_map.mp hc
  rw [d.digitValue_char]
  rfl

/-- The text is empty or goes on with a blank or a line break. -/
def BlankNext (t : Text) : Prop := ∀ c ∈ t.head?, c = ' ' ∨ c = '\n'

theorem one_fails {p : Char → Bool} {c : Char} (h : p c = false) (t : Text) : Fails (.one p) (c :: t) :=
  .one fun x hx => by rw [← Option.some.inj hx]; exact h

theorem exponent_reads (e : Option Exponent) (ht : BlankNext t) :
    Reads (opt (chain [oneOf "eE",opt (oneOf "+-"),digits u])) ((e.map Exponent.text).getD []) t [] := by
  have hdigit : ∀ c ∈ t.head?, digitValue u c = none := by
    intro c hc
    obtain rfl | rfl := ht c hc <;> rfl
  cases e with
  | none =>
    refine .opt_nil (.seq (.one fun c hc => ?_))
    obtain rfl | rfl := ht c hc <;> rfl
  | some e =>
    have hmark : decide (e.mark ∈ "eE".toList) = true := by
      obtain h | h := e.mark_eq <;> rw [h] <;> rfl
    have hdigits := digits_reads u e.digits_ne hdigit
    have hsign : Reads (opt (oneOf "+-")) e.sign.toList (digitText e.digits ++ t) [] := by
      cases hs : e.sign with
      | none =>
        obtain ⟨d,ds,hds⟩ := List.exists_cons_of_ne_nil e.digits_ne
        rw [hds]
        refine .opt_nil (one_fails ?_ _)
        fin_cases d <;> rfl
      | some c =>
        refine .opt (.one ?_)
        obtain rfl | rfl := e.sign_eq c hs <;> rfl
    have hread : Reads (oneOf "eE") [e.mark] (e.sign.toList ++ digitText e.digits ++ t) [] := .one hmark
    exact (hread.chain_cons (hsign.chain_cons hdigits.chain_last)).opt

theorem num_reads (n : Numeral) (ht : BlankNext t) : Reads (num u) n.text t [] := by
  obtain ⟨negative,⟨whole,fraction,hwhole⟩,e⟩ := n
  have hexp := exponent_reads u e ht
  have hnext : ∀ c ∈ ((e.map Exponent.text).getD [] ++ t).head?, c = 'e' ∨ c = 'E' ∨ c = ' ' ∨ c = '\n' := by
    intro c hc
    cases e with
    | none => exact .inr (.inr (ht c hc))
    | some e =>
      rw [← Option.some.inj hc]
      obtain h | h := e.mark_eq <;> rw [h] <;> simp
  have hdigit : ∀ c ∈ ((e.map Exponent.text).getD [] ++ t).head?, digitValue u c = none := by
    intro c hc
    obtain rfl | rfl | rfl | rfl := hnext c hc <;> rfl
  have hpoint : Reads (chain [opt (lit "."),.many (digit u),
      opt (chain [oneOf "eE",opt (oneOf "+-"),digits u])])
      (Fixed.pointText fraction ++ (e.map Exponent.text).getD []) t [] := by
    cases fraction with
    | none =>
      have hfails : Fails (lit ".") ((e.map Exponent.text).getD [] ++ t) := by
        refine .seq (.one fun c hc => ?_)
        obtain rfl | rfl | rfl | rfl := hnext c hc <;> rfl
      have hnone : Reads (.many (digit u)) [] ((e.map Exponent.text).getD [] ++ t) [] :=
        .many_one nofun fun c hc => by rw [hdigit c hc]; rfl
      exact (Reads.opt_nil hfails).chain_cons (hnone.chain_cons hexp.chain_last)
    | some ds =>
      have hds : Reads (.many (digit u)) (digitText ds) ((e.map Exponent.text).getD [] ++ t) [] := by
        refine .many_one ?_ fun c hc => by rw [hdigit c hc]; rfl
        intro c hc
        obtain ⟨d,-,rfl⟩ := List.mem_map.mp hc
        rw [d.digitValue_char]
        rfl
      exact (lit_reads ".").opt.chain_cons (hds.chain_cons hexp.chain_last)
  have hwholeNext : ∀ c ∈ (Fixed.pointText fraction ++ (e.map Exponent.text).getD [] ++ t).head?,
      digitValue u c = none := by
    intro c hc
    cases fraction with
    | none => exact hdigit c hc
    | some ds =>
      rw [← Option.some.inj hc]
      rfl
  have hdigits := (digits_reads u hwhole hwholeNext).chain_cons hpoint
  have hsplit : Numeral.text ⟨negative,⟨whole,fraction,hwhole⟩,e⟩ = (if negative then ['-'] else []) ++
      (digitText whole ++ (Fixed.pointText fraction ++ (e.map Exponent.text).getD [])) := by
    simp [Numeral.text, Fixed.text]
  rw [hsplit]
  cases negative with
  | true => exact (lit_reads "-").opt.chain_cons hdigits
  | false =>
    refine Reads.chain_cons (.opt_nil ?_) hdigits
    obtain ⟨d,ds,rfl⟩ := List.exists_cons_of_ne_nil hwhole
    refine .seq (one_fails ?_ _)
    fin_cases d <;> rfl

theorem numeral_solid (n : Numeral) (t : Text) : SolidNext (n.text ++ t) := by
  obtain ⟨negative,⟨whole,fraction,hwhole⟩,e⟩ := n
  obtain ⟨d,ds,rfl⟩ := List.exists_cons_of_ne_nil hwhole
  intro c hc
  cases negative with
  | true =>
    rw [← Option.some.inj hc]
    rfl
  | false =>
    rw [← Option.some.inj hc]
    exact isSpace_digit d.isDigit_char

theorem fixed_solid (n : Fixed) (t : Text) : SolidNext (n.text ++ t) := by
  have h := numeral_solid ⟨false,n,none⟩ t
  simpa [Numeral.text] using h

theorem solid_cons {c : Char} (h : isSpace c = false) (t : Text) : SolidNext (c :: t) := by
  intro d hd
  rw [← Option.some.inj hd]
  exact h

theorem blankNext_blanks {n : ℕ} (ht : BlankNext t) : BlankNext (blanks n ++ t) := by
  cases n with
  | zero => exact ht
  | succ n =>
    intro c hc
    rw [← Option.some.inj hc]
    exact .inl rfl

theorem blankNext_blanks' (n : ℕ) (w t : Text) : BlankNext (blanks (n + 1) ++ w ++ t) := by
  rw [List.append_assoc]
  intro c hc
  rw [← Option.some.inj hc]
  exact .inl rfl

/-- White space up to its last line break, where the expression goes on. -/
theorem break_reads {k : ℕ} {q z w t' : Text} {gs : List (ℕ × Text)} {rs : List Pattern}
    (hq : ∀ c ∈ q, isSpace c = true) (hz : ∀ c ∈ z, isSpace c = true) (hbreak : '\n' ∉ z)
    (ht : SolidNext t) (heq : z ++ t = w ++ t') (hread : Reads (chain rs) w t' gs) :
    Reads (chain (spaces? :: lit "\n" :: rs)) (blanks k ++ q ++ '\n' :: w) t' gs := by
  have hnext : Reads (chain (lit "\n" :: rs)) ('\n' :: w) t' gs := by
    simpa using (lit_reads "\n").chain_cons hread
  refine .many_one_seq (z := '\n' :: z) ?_ ht ?_ (congrArg (List.cons '\n') heq) hnext
  · rw [List.forall_mem_append, List.forall_mem_append, List.forall_mem_cons]
    exact ⟨⟨isSpace_of_mem_blanks,hq⟩,by decide,hz⟩
  · intro a b hab ha
    obtain ⟨c,a,rfl⟩ := List.exists_cons_of_ne_nil ha
    have hzab : z = a ++ b := (List.cons.inj hab).2
    refine .seq (.seq (.one fun x hx => decide_eq_false ?_))
    rintro rfl
    cases b with
    | nil => exact absurd (ht _ hx) (by decide)
    | cons y b =>
      obtain rfl : y = '\n' := Option.some.inj hx
      exact hbreak (by rw [hzab]; simp)

theorem break_reads_here {k : ℕ} {z w t' : Text} {gs : List (ℕ × Text)} {rs : List Pattern}
    (hz : ∀ c ∈ z, isSpace c = true) (hbreak : '\n' ∉ z) (ht : SolidNext t) (heq : z ++ t = w ++ t')
    (hread : Reads (chain rs) w t' gs) :
    Reads (chain (spaces? :: lit "\n" :: rs)) (blanks k ++ '\n' :: w) t' gs := by
  have h := break_reads (k := k) (q := []) nofun hz hbreak ht heq hread
  rwa [List.append_nil] at h

/-- A row of the cell, with the white space up to the last line break behind it. -/
theorem cellRow_reads (r : CellRow) {q z : Text} (hq : ∀ c ∈ q, isSpace c = true)
    (hhead : ∀ c ∈ q.head?, c = '\n') (hz : ∀ c ∈ z, isSpace c = true) (hbreak : '\n' ∉ z)
    (ht : SolidNext t) : Reads (cellRow u) (r.line.text ++ q ++ ['\n']) (z ++ t) [] := by
  have hend : Reads (chain [spaces?,lit "\n"]) (blanks r.trail ++ q ++ ['\n']) (z ++ t) [] :=
    break_reads hq hz hbreak ht rfl .chain_nil
  have hblank : BlankNext (blanks r.trail ++ q ++ ['\n'] ++ (z ++ t)) := by
    rw [List.append_assoc, List.append_assoc]
    refine blankNext_blanks ?_
    cases q with
    | nil => exact fun c hc => .inr (Option.some.inj hc).symm
    | cons c q => exact fun d hd => .inr (hhead d hd)
  have hz' := (num_reads u r.z hblank).chain_cons hend
  have hgapZ := (spaces_reads r.gapZ (by rw [List.append_assoc]; exact numeral_solid r.z _)).chain_cons hz'
  have hy := (num_reads u r.y (blankNext_blanks' r.gapZ _ _)).chain_cons hgapZ
  have hgapY := (spaces_reads r.gapY (by rw [List.append_assoc]; exact numeral_solid r.y _)).chain_cons hy
  have hx := (num_reads u r.x (blankNext_blanks' r.gapY _ _)).chain_cons hgapY
  have hlead := (spaces?_reads r.lead (by rw [List.append_assoc]; exact numeral_solid r.x _)).chain_cons hx
  unfold cellRow
  simpa [CellRow.line, Line.text, Line.body, Line.spaced, List.append_assoc] using hlead

/-- A row of the cell with another one below. -/
theorem cellRow_reads_next (r r' : CellRow) (t : Text) :
    Reads (cellRow u) (r.line.text ++ ['\n']) (r'.line.text ++ t) [] := by
  have hsplit : r'.line.text ++ t = blanks r'.lead ++ (r'.x.text ++
      (r'.line.more.flatMap Line.spaced ++ (blanks r'.trail ++ t))) := by
    simp [CellRow.line, Line.text, Line.body, List.append_assoc]
  have h := cellRow_reads u r (q := []) (List.forall_mem_nil _) (by simp) (z := blanks r'.lead) isSpace_of_mem_blanks
    (fun h => absurd (List.eq_of_mem_replicate h) (by decide))
    (numeral_solid r'.x (r'.line.more.flatMap Line.spaced ++ (blanks r'.trail ++ t)))
  rwa [List.append_nil, ← hsplit] at h

theorem cellRows_reads (cell : CellBlock) {q z : Text} (hq : ∀ c ∈ q, isSpace c = true)
    (hhead : ∀ c ∈ q.head?, c = '\n') (hz : ∀ c ∈ z, isSpace c = true) (hbreak : '\n' ∉ z)
    (ht : SolidNext t) : Reads (chain [cellRow u,cellRow u,cellRow u])
      (cell.a.line.text ++ ['\n'] ++ (cell.b.line.text ++ ['\n'] ++ (cell.c.line.text ++ q ++ ['\n'])))
      (z ++ t) [] := by
  have hc := (cellRow_reads u cell.c hq hhead hz hbreak ht).chain_last
  have hb : Reads (cellRow u) (cell.b.line.text ++ ['\n'])
      (cell.c.line.text ++ q ++ ['\n'] ++ (z ++ t)) [] := by
    have h := cellRow_reads_next u cell.b cell.c (q ++ ['\n'] ++ (z ++ t))
    simpa [List.append_assoc] using h
  have ha : Reads (cellRow u) (cell.a.line.text ++ ['\n'])
      (cell.b.line.text ++ ['\n'] ++ (cell.c.line.text ++ q ++ ['\n']) ++ (z ++ t)) [] := by
    have h := cellRow_reads_next u cell.a cell.b (['\n'] ++ (cell.c.line.text ++ q ++ ['\n'] ++ (z ++ t)))
    simpa [List.append_assoc] using h
  exact ha.chain_cons (hb.chain_cons hc)

/-- White space splits at its last line break. -/
theorem exists_last_break (ws : Text) : ∃ q z, '\n' :: ws = q ++ '\n' :: z ∧ '\n' ∉ z := by
  induction ws with
  | nil => exact ⟨[],[],rfl,List.not_mem_nil⟩
  | cons c ws ih =>
    obtain ⟨q,z,heq,hz⟩ := ih
    by_cases hc : c = '\n'
    · exact ⟨'\n' :: q,z,by rw [hc, heq]; rfl,hz⟩
    · cases q with
      | nil =>
        obtain rfl : ws = z := (List.cons.inj heq).2
        exact ⟨[],c :: ws,rfl,fun h => (List.mem_cons.mp h).elim (fun h => hc h.symm) hz⟩
      | cons d q =>
        obtain ⟨rfl,hws⟩ := List.cons.inj heq
        exact ⟨'\n' :: c :: q,z,by rw [hws]; rfl,hz⟩

theorem alat_reads (n : Fixed) (t : Text) : Reads (plus (digitOrPoint u)) n.text (')' :: t) [] := by
  refine .plus_one ?_ ?_ fun c hc => by rw [← Option.some.inj hc]; rfl
  · rw [Fixed.text]
    exact List.append_ne_nil_of_left_ne_nil (fun h => n.whole_ne (digitText_eq_nil.mp h)) _
  · have hdigits (ds : List Digit) : ∀ c ∈ digitText ds, ((digitValue u c).isSome || c = '.') = true := by
      intro c hc
      obtain ⟨d,-,rfl⟩ := List.mem_map.mp hc
      rw [d.digitValue_char]
      rfl
    rw [Fixed.text, List.forall_mem_append]
    refine ⟨hdigits _,?_⟩
    cases n.fraction with
    | none => exact List.forall_mem_nil _
    | some ds => exact List.forall_mem_cons.mpr ⟨rfl,hdigits ds⟩

theorem word_reads {w : Text} (hne : w ≠ []) (hw : ∀ c ∈ w, isWordChar u c = true) {c : Char}
    (hc : isWordChar u c = false) (t : Text) : Reads (plus (wordChar u)) w (c :: t) [] :=
  .plus_one hne hw fun d hd => by rw [← Option.some.inj hd]; exact hc

theorem isSpace_alpha {c : Char} (h : c.isAlpha = true) : isSpace c = false := by
  have hrange : 65 ≤ c.toNat ∧ c.toNat ≤ 90 ∨ 97 ≤ c.toNat ∧ c.toNat ≤ 122 := by
    simpa [Char.isAlpha, Char.isUpper, Char.isLower, UInt32.le_iff_toNat_le] using h
  simp only [isSpace, Bool.or_eq_false_iff, Bool.and_eq_false_iff, decide_eq_false_iff_not]
  omega

theorem unit_lower (unit : PositionUnit) : unit.text ≠ [] ∧ ∀ c ∈ unit.text, c.isLower = true := by
  cases unit with
  | alat =>
    have h : ∀ c ∈ ['a','l','a','t'], c.isLower = true := by
      intro c hc
      fin_cases hc <;> rfl
    exact ⟨List.cons_ne_nil 'a' _,h⟩
  | bohr =>
    have h : ∀ c ∈ ['b','o','h','r'], c.isLower = true := by
      intro c hc
      fin_cases hc <;> rfl
    exact ⟨List.cons_ne_nil 'b' _,h⟩
  | angstrom =>
    have h : ∀ c ∈ ['a','n','g','s','t','r','o','m'], c.isLower = true := by
      intro c hc
      fin_cases hc <;> rfl
    exact ⟨List.cons_ne_nil 'a' _,h⟩
  | crystal =>
    have h : ∀ c ∈ ['c','r','y','s','t','a','l'], c.isLower = true := by
      intro c hc
      fin_cases hc <;> rfl
    exact ⟨List.cons_ne_nil 'c' _,h⟩

theorem isWordChar_of_lower {c : Char} (h : c.isLower = true) : isWordChar u c = true := by
  simp [isWordChar, isWord, Char.isAlphanum, Char.isAlpha, h]

theorem isSpace_of_lower {c : Char} (h : c.isLower = true) : isSpace c = false :=
  isSpace_alpha (by simp [Char.isAlpha, h])

/-- The header of a cell block before rows that are read. -/
theorem cellHeader_reads (cell : CellBlock) {w z t t' : Text} {gs : List (ℕ × Text)} {r : Pattern}
    (hz : ∀ c ∈ z, isSpace c = true) (hbreak : '\n' ∉ z) (ht : SolidNext t) (heq : z ++ t = w ++ t')
    (hread : Reads r w t' gs) :
    Reads (chain [lit "CELL_PARAMETERS",spaces,lit "(",plus (wordChar u),spaces?,lit "=",spaces?,
      .group 1 (plus (digitOrPoint u)),lit ")",spaces?,lit "\n",r]) (cell.header w) t'
      (gs ++ [(1,cell.alat.text)]) := by
  have hdown := break_reads_here (k := cell.trail) hz hbreak ht heq hread.chain_last
  have hclose := (lit_reads ")").chain_cons hdown
  have halat := ((alat_reads u cell.alat _).group 1).chain_cons hclose
  have hpad := (spaces?_reads cell.pad (by rw [List.append_assoc]; exact fixed_solid cell.alat _)).chain_cons
    halat
  have hequals := (lit_reads "=").chain_cons hpad
  have hnone := Reads.chain_skip (spaces?_reads 0 (solid_cons (by decide) _)) hequals
  have hword := unit_lower .alat
  have hname := (word_reads u hword.1 (fun c hc => isWordChar_of_lower u (hword.2 c hc)) (c := '=') rfl
    _).chain_cons hnone
  have hparen := (lit_reads "(").chain_cons hname
  have hgap := (spaces_reads cell.gap (solid_cons (by decide) _)).chain_cons hparen
  have hall := (lit_reads "CELL_PARAMETERS").chain_cons hgap
  simp only [List.append_nil] at hall
  exact hall

/-- A cell block, with the white space up to the last line break behind it. -/
theorem cellBlocks_reads (cell : CellBlock) {ws t : Text} (hws : ∀ c ∈ ws, isSpace c = true)
    (ht : SolidNext t) : ∃ v z, ws = v ++ z ∧ Reads (cellBlocks u) (cell.text ++ v) (z ++ t)
      [(2,linesText cell.lines ++ v),(1,cell.alat.text)] := by
  obtain ⟨q,z,hsplit,hbreak⟩ := exists_last_break ws
  obtain ⟨v,hv,hhead⟩ : ∃ v, q ++ ['\n'] = '\n' :: v ∧ ∀ c ∈ q.head?, c = '\n' := by
    cases q with
    | nil => exact ⟨[],rfl,nofun⟩
    | cons c q =>
      obtain rfl : '\n' = c := (List.cons.inj hsplit).1
      exact ⟨q ++ ['\n'],rfl,fun d hd => (Option.some.inj hd).symm⟩
  have hvz : ws = v ++ z := by
    have h : '\n' :: ws = '\n' :: v ++ z := by rw [← hv, hsplit, List.append_assoc]; rfl
    exact (List.cons.inj h).2
  have hspaces : ∀ c ∈ q ++ '\n' :: z, isSpace c = true := by
    rw [← hsplit]
    exact List.forall_mem_cons.mpr ⟨by decide,hws⟩
  rw [List.forall_mem_append, List.forall_mem_cons] at hspaces
  have hrows := (cellRows_reads u cell hspaces.1 hhead hspaces.2.2 hbreak ht).group 2
  have hlines : cell.a.line.text ++ ['\n'] ++ (cell.b.line.text ++ ['\n'] ++
      (cell.c.line.text ++ q ++ ['\n'])) = linesText cell.lines ++ v := by
    simp [linesText, CellBlock.lines, List.append_assoc, hv]
  rw [hlines] at hrows
  have hnext := numeral_solid cell.a.x (cell.a.line.more.flatMap Line.spaced ++
    (blanks cell.a.trail ++ ('\n' :: linesText [cell.b.line,cell.c.line] ++ (v ++ (z ++ t)))))
  have hread := cellHeader_reads u cell (isSpace_of_mem_blanks (n := cell.a.lead))
    (fun h => absurd (List.eq_of_mem_replicate h) (by decide)) hnext
    (by simp [linesText, CellBlock.lines, CellRow.line, Line.text, Line.body]) hrows
  refine ⟨v,z,hvz,?_⟩
  rw [CellBlock.text, CellBlock.header_append]
  exact hread

theorem species_reads (s : Species) (n : ℕ) {w t : Text} {gs : List (ℕ × Text)} {rs : List Pattern}
    (hread : Reads (chain (spaces :: rs)) (blanks (n + 1) ++ w) t gs) :
    Reads (chain (letter :: opt letter :: spaces :: rs)) (s.text ++ (blanks (n + 1) ++ w)) t gs := by
  obtain ⟨first,second,hfirst,hsecond⟩ := s
  have hopt : Reads (chain (opt letter :: spaces :: rs)) (second.toList ++ (blanks (n + 1) ++ w)) t gs := by
    cases second with
    | none => exact Reads.chain_skip (.opt_nil (one_fails rfl _)) hread
    | some c =>
      have h : Reads (opt letter) [c] (blanks (n + 1) ++ w ++ t) [] := (Reads.one (hsecond c rfl)).opt
      simpa using h.chain_cons hread
  have h : Reads letter [first] (second.toList ++ (blanks (n + 1) ++ w) ++ t) [] := .one hfirst
  simpa [Species.text] using h.chain_cons hopt

theorem not_break_of_word {w : Text} (h : IsWordText w) : ∀ c ∈ w, c ≠ '\n' := by
  rintro c hc rfl
  exact absurd (h.2 _ hc) (by decide)

theorem flag_word (flag : ℕ × Bool) : IsWordText (flagText flag).2 := by
  refine ⟨List.cons_ne_nil _ _,fun c hc => ?_⟩
  rw [List.mem_singleton.mp hc]
  cases flag.2 <;> rfl

/-- What stands behind the numbers of an atom is read up to the end of the line. -/
theorem lineRest_reads {w : Text} (hw : ∀ c ∈ w, c ≠ '\n') {t t' : Text} {gs : List (ℕ × Text)}
    {rs : List Pattern} (hread : Reads (chain rs) t t' gs) :
    Reads (chain (.many dot :: lit "\n" :: rs)) (w ++ '\n' :: t) t' gs := by
  have hdot : Reads (.many dot) w ('\n' :: t ++ t') [] :=
    .many_one (fun c hc => decide_eq_true (hw c hc)) fun c hc => by rw [← Option.some.inj hc]; rfl
  have hend : Reads (chain (lit "\n" :: rs)) ('\n' :: t) t' gs := by
    simpa using (lit_reads "\n").chain_cons hread
  simpa using hdot.chain_cons hend

/-- The line of an atom. -/
theorem atomRow_reads (r : AtomRow) (t : Text) : Reads (atomRow u) (r.line.text ++ ['\n']) t [] := by
  have hflags : ∀ c ∈ (r.flags.map flagText).flatMap Line.spaced ++ blanks r.trail, c ≠ '\n' := by
    rw [List.forall_mem_append]
    constructor
    · rw [List.forall_mem_flatMap]
      intro word hword
      obtain ⟨flag,-,rfl⟩ := List.mem_map.mp hword
      rw [Line.spaced, List.forall_mem_append]
      exact ⟨fun c hc => by rw [List.eq_of_mem_replicate hc]; decide,not_break_of_word (flag_word flag)⟩
    · exact fun c hc => by rw [List.eq_of_mem_replicate hc]; decide
  have hrest := lineRest_reads hflags (Reads.chain_nil (t := t))
  have hblank : BlankNext ((r.flags.map flagText).flatMap Line.spaced ++ blanks r.trail ++ ['\n'] ++ t) := by
    rw [List.append_assoc, List.append_assoc]
    cases r.flags with
    | nil => exact blankNext_blanks fun c hc => .inr (Option.some.inj hc).symm
    | cons flag flags => exact fun c hc => .inl (Option.some.inj hc).symm
  have hz := (num_reads u r.z hblank).chain_cons hrest
  have hgapZ := (spaces_reads r.gapZ (by rw [List.append_assoc]; exact numeral_solid r.z _)).chain_cons hz
  have hy := (num_reads u r.y (blankNext_blanks' r.gapZ _ _)).chain_cons hgapZ
  have hgapY := (spaces_reads r.gapY (by rw [List.append_assoc]; exact numeral_solid r.y _)).chain_cons hy
  have hx := (num_reads u r.x (blankNext_blanks' r.gapY _ _)).chain_cons hgapY
  have hgapX := (spaces_reads r.gapX (by rw [List.append_assoc]; exact numeral_solid r.x _)).chain_cons hx
  have hspecies := species_reads r.species r.gapX hgapX
  have hlead := (spaces?_reads r.lead (by
    rw [Species.text, List.cons_append, List.cons_append]
    exact solid_cons (isSpace_alpha r.species.first_alpha) _)).chain_cons hspecies
  unfold atomRow
  simpa [AtomRow.line, Line.text, Line.body, Line.spaced, List.append_assoc] using hlead

theorem atomRows_rounds (rows : List AtomRow) (ht : Fails (atomRow u) t) :
    Rounds (atomRow u) t (rows.map fun r => r.line.text ++ ['\n']) := by
  induction rows with
  | nil => exact .nil ht
  | cons r rows ih =>
    exact .cons (List.append_ne_nil_of_right_ne_nil _ (List.cons_ne_nil _ _)) (atomRow_reads u r _) ih

theorem linesText_map (rows : List AtomRow) : linesText (rows.map AtomRow.line) =
    (rows.map fun r => r.line.text ++ ['\n']).flatten := by
  rw [linesText, List.flatMap_map, List.flatMap_def]

/-- A block of positions, before a text that is not one more line of an atom. -/
theorem positionBlocks_reads (positions : PositionsBlock) (ht : Fails (atomRow u) t) :
    Reads (positionBlocks u) positions.text t
      [(2,linesText (positions.atoms.map AtomRow.line)),(1,positions.unit.text)] := by
  have hrows : Reads (plus (atomRow u)) (linesText (positions.atoms.map AtomRow.line)) t [] := by
    rw [linesText_map]
    exact .plus_cons (atomRow_reads u positions.first _) (atomRows_rounds u positions.more ht)
  have hunit := unit_lower positions.unit
  have hclose := lineRest_reads (w := blanks positions.trail)
    (fun c hc => by rw [List.eq_of_mem_replicate hc]; decide) (hrows.group 2).chain_last
  have hparen : Reads (oneOf "=)\x7d") ")".toList (blanks positions.trail ++ '\n' ::
      linesText (positions.atoms.map AtomRow.line) ++ t) [] := .one (by decide)
  have hnone := Reads.chain_skip (spaces?_reads 0 (solid_cons (by decide) _)) (hparen.chain_cons hclose)
  have hgroup := ((word_reads u hunit.1 (fun c hc => isWordChar_of_lower u (hunit.2 c hc)) (c := ')') rfl
    _).group 1).chain_cons hnone
  obtain ⟨d,unit,hd⟩ := List.exists_cons_of_ne_nil hunit.1
  have hskip := Reads.chain_skip (spaces?_reads 0 (by
    rw [List.append_assoc, hd]
    exact solid_cons (isSpace_of_lower (hunit.2 d (by rw [hd]; exact List.mem_cons_self))) _)) hgroup
  have hopen (t : Text) : Reads (oneOf "(\x7b") "(".toList t [] := .one (by decide)
  have hgap := (spaces?_reads positions.gap (solid_cons (by decide) _)).chain_cons
    ((hopen _).chain_cons hskip)
  have hall := (lit_reads "ATOMIC_POSITIONS").chain_cons hgap
  simp only [List.append_nil] at hall
  exact hall

end Reading
end DftForge.Qe
