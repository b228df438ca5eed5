import DftForge.Qe.RelaxedStructure
import DftForge.Structure.QeInput

/-! # Decks

The inputs of pw.x that describe a structure: the namelists with the lattice parameter, and
the four cards in any order, each with its unit. What a deck denotes is compared with what
`_parse_qe_input` makes of its text.
-/
namespace DftForge.Structure
open DftForge.Library DftForge.Runtime DftForge.Python
open DftForge.Qe (CellRow AtomRow Species PositionUnit)

section Printed

/-- A card: its title, its rows, and the blank lines after it. -/
structure Block where
  title : Text
  rows : List Line
  gap : List ℕ

def Block.lines (b : Block) : List Text := b.title :: b.rows.map Line.text ++ b.gap.map blanks

/-- The lines with a break after each. -/
def breakText (lines : List Text) : Text := lines.flatMap fun l => l ++ ['\n']

/-- A line that ends nowhere else than at its break. -/
def Unbroken (l : Text) : Prop := ∀ c ∈ l, isLineBreak c = false

/-- A line of a namelist: no title of a card, and without the lattice parameter. -/
structure NamelistLine where
  text : Text
  unbroken : Unbroken text
  untitled : ∀ title ∈ ["CELL_PARAMETERS","ATOMIC_POSITIONS","ATOMIC_SPECIES"],
    ¬ title.toList <+: upper (strip text)
  other : ¬ "celldm(1)".toList <+: strip text

/-- The namelists, where `celldm(1)` is in Bohr. -/
structure Namelists where
  before : List NamelistLine
  celldm : Option Numeral
  after : List NamelistLine
  celldm_pos : ∀ n ∈ celldm, 0 < n.value

def celldmLine (n : Numeral) : Text := "  celldm(1) = ".toList ++ n.text

def Namelists.lines (n : Namelists) : List Text :=
  n.before.map (·.text) ++ (n.celldm.map celldmLine).toList ++ n.after.map (·.text)

/-- What stands around the unit of a title. -/
structure Brackets where
  opening : Text
  closing : Text
  opening_ne : opening ≠ []
  opening_form : ∀ c ∈ opening, c = ' ' ∨ c = '(' ∨ c = '{'
  closing_form : ∀ c ∈ closing, c.isAlpha = false ∧ isLineBreak c = false

def Brackets.around (b : Brackets) (unit : Text) : Text := b.opening ++ (unit ++ b.closing)

inductive CellUnit where
  | alat
  | bohr
  | angstrom
  deriving DecidableEq

def CellUnit.text : CellUnit → Text
  | .alat => "alat".toList
  | .bohr => "bohr".toList
  | .angstrom => "angstrom".toList

/-- A symbol as the table of the elements has them. -/
def IsElement (isSymbol : Text → Bool) (s : Species) : Prop :=
  s.first.isUpper = true ∧ (∀ c ∈ s.second, c.isLower = true) ∧ isSymbol s.text = true

/-- A species, its mass and the file of its pseudopotential. -/
structure SpeciesRow where
  lead : ℕ
  species : Species
  gapMass : ℕ
  mass : Numeral
  gapFile : ℕ
  file : Text
  trail : ℕ
  file_word : IsWordText file

def SpeciesRow.line (r : SpeciesRow) : Line :=
  ⟨r.lead,r.species.text,[(r.gapMass,r.mass.text),(r.gapFile,r.file)],r.trail⟩

/-- Numbers on a line. -/
structure MeshRow where
  lead : ℕ
  first : Numeral
  more : List (ℕ × Numeral)
  trail : ℕ

def MeshRow.line (r : MeshRow) : Line :=
  ⟨r.lead,r.first.text,r.more.map fun n => (n.1,n.2.text),r.trail⟩

inductive CardName where
  | species
  | positions
  | cell
  | kPoints
  deriving DecidableEq

/-- An input; `order` is the order of its cards. -/
structure Deck (isSymbol : Text → Bool) where
  namelists : Namelists
  order : List CardName
  species : List SpeciesRow
  positionsBrackets : Brackets
  positionUnit : PositionUnit
  atoms : List AtomRow
  cellBrackets : Brackets
  cellUnit : CellUnit
  a₁ : CellRow
  a₂ : CellRow
  a₃ : CellRow
  meshMode : Text
  mesh : List MeshRow
  gap : CardName → List ℕ
  order_perm : order.Perm [.species,.positions,.cell,.kPoints]
  atoms_ne : atoms ≠ []
  elements : ∀ r ∈ atoms, IsElement isSymbol r.species
  mode_unbroken : Unbroken meshMode
  alat_cell : cellUnit = .alat → namelists.celldm.isSome
  alat_positions : positionUnit = .alat → namelists.celldm.isSome

namespace Deck
variable {isSymbol : Text → Bool} (d : Deck isSymbol)

def vectors : List CellRow := [d.a₁,d.a₂,d.a₃]

def title : CardName → Text
  | .species => "ATOMIC_SPECIES".toList
  | .positions => "ATOMIC_POSITIONS".toList ++ d.positionsBrackets.around d.positionUnit.text
  | .cell => "CELL_PARAMETERS".toList ++ d.cellBrackets.around d.cellUnit.text
  | .kPoints => "K_POINTS".toList ++ d.meshMode

def rows : CardName → List Line
  | .species => d.species.map SpeciesRow.line
  | .positions => d.atoms.map AtomRow.line
  | .cell => d.vectors.map CellRow.line
  | .kPoints => d.mesh.map MeshRow.line

def block (k : CardName) : Block := ⟨d.title k,d.rows k,d.gap k⟩

def lines : List Text := d.namelists.lines ++ d.order.flatMap fun k => (d.block k).lines

def text : Text := breakText d.lines

end Deck
end Printed

section Denoted

/-- The length of a Bohr in Å, `_ANGSTROM`. -/
def bohrLength : ℚ := 10 ^ 10 / 18897261246

def coordinates (r : AtomRow) : Vector3 := ![r.x.value,r.y.value,r.z.value]

namespace Deck
variable {isSymbol : Text → Bool} (d : Deck isSymbol)

/-- The lattice parameter in Å. -/
def lattice : ℚ := (d.namelists.celldm.map Numeral.value).getD 0 * bohrLength

/-- What the vectors of the cell are multiples of, in Å. -/
def cellScale : ℚ :=
  match d.cellUnit with
  | .alat => d.lattice
  | .bohr => bohrLength
  | .angstrom => 1

/-- The vectors as they are printed. -/
def printedCell : CellMatrix := Matrix.of fun i => 
  let r := ![d.a₁,d.a₂,d.a₃] i
  ![r.x.value,r.y.value,r.z.value]

/-- The vectors in Å. -/
def cell : CellMatrix := d.cellScale • d.printedCell

/-- Where the atom is, in Å. -/
def place (r : AtomRow) : Vector3 :=
  match d.positionUnit with
  | .crystal => Matrix.vecMul (coordinates r) d.cell
  | .alat => d.lattice • coordinates r
  | .bohr => bohrLength • coordinates r
  | .angstrom => coordinates r

/-- The structure that the deck denotes. -/
def denoted : Atoms := ⟨d.atoms.map fun r => ⟨r.species.text,d.place r⟩,d.cell,fun _ => true⟩

/-- The card before `K_POINTS`. -/
def beforeMesh : Option CardName := (d.order.takeWhile (· ≠ .kPoints)).getLast?

/-- The words on the lines of `K_POINTS`. -/
def meshWords : List (List Text) := words (d.title .kPoints) :: d.mesh.map fun r => r.line.words

end Deck
end Denoted

end DftForge.Structure
