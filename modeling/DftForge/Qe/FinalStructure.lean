import DftForge.Qe.Parser

/-! # The final relaxed structure

`extract_final_structure`: the last cell block and the last block of positions of a text,
each found by one expression, and the atoms they describe in Å. Nothing where a reader,
numpy or ASE raises; no structure where one of the blocks is missing.
-/
namespace DftForge.Qe
open DftForge.Library DftForge.Runtime DftForge.Python

section Patterns
open Re Regex
variable (u : Unicode)

/-- `\w`. -/
def wordChar : Pattern := .one (isWordChar u)

/-- `[\d.]`. -/
def digitOrPoint : Pattern := .one fun c => (digitValue u c).isSome || c = '.'

/-- `[A-Za-z]`. -/
def letter : Pattern := .one Char.isAlpha

/-- `-?\d+\.?\d*(?:[eE][+-]?\d+)?`. -/
def num : Pattern := chain [opt (lit "-"),digits u,opt (lit "."),.many (digit u),
  opt (chain [oneOf "eE",opt (oneOf "+-"),digits u])]

/-- `\s*` three numbers `\s*\n`. -/
def cellRow : Pattern := chain [spaces?,num u,spaces,num u,spaces,num u,spaces?,lit "\n"]

/-- `CELL_PARAMETERS\s+\(\w+\s*=\s*([\d.]+)\)\s*\n` and three rows, as a group. -/
def cellBlocks : Pattern := chain [lit "CELL_PARAMETERS",spaces,lit "(",plus (wordChar u),spaces?,lit "=",
  spaces?,.group 1 (plus (digitOrPoint u)),lit ")",spaces?,lit "\n",
  .group 2 (chain [cellRow u,cellRow u,cellRow u])]

/-- `\s*[A-Za-z]{1,2}`, three numbers and the rest of the line. -/
def atomRow : Pattern := chain [spaces?,letter,opt letter,spaces,num u,spaces,num u,spaces,num u,
  .many dot,lit "\n"]

/-- `ATOMIC_POSITIONS\s*[({]\s*(\w+)\s*[=)}][^\n]*\n` and the rows, as a group. -/
def positionBlocks : Pattern := chain [lit "ATOMIC_POSITIONS",spaces?,oneOf "(\x7b",spaces?,
  .group 1 (plus (wordChar u)),spaces?,oneOf "=)\x7d",.many dot,lit "\n",.group 2 (plus (atomRow u))]

end Patterns

/-- `Atoms(symbols, positions=…, cell=…, pbc=True)`, in Å. -/
structure FinalAtoms (F : Type) where
  symbols : List Text
  positions : List (List F)
  cell : List (List F)

section Extraction
open Regex
variable {F : Type} (f : Floats F) (u : Unicode) (isSymbol : Text → Bool)

def bohr : F := f.lit (529177210903 / 10 ^ 12)

/-- The position of an atom in the unit of the block. -/
def cartesian (mode : Text) (alatBohr : F) (cell : List (List F)) (xyz : List F) : List F :=
  if mode = "crystal".toList then
    (List.range 3).map fun j => f.dot xyz (cell.map fun row => row.getD j f.zero)
  else if mode = "alat".toList then xyz.map fun x => f.mul (f.mul x alatBohr) (bohr f)
  else if mode = "bohr".toList ∨ mode = "au".toList then xyz.map fun x => f.mul x (bohr f)
  else xyz

/-- The lines of atoms; shorter ones and those that start with a digit are passed over. -/
def atomLines (lines : List (List Text)) : List (List Text) :=
  lines.filter fun parts =>
    4 ≤ parts.length && !(parts.head?.bind List.head?).any (isdigit u)

/-- Three rows of three numbers, what ASE takes as a cell. -/
def isMatrix (rows : List (List F)) : Bool := rows.length == 3 && rows.all (·.length == 3)

/-- The rows have one length, which numpy asks of them. -/
def rectangular (rows : List (List F)) : Bool := rows.all fun row => row.length == (rows.headD []).length

/-- The structure of one cell block and one block of positions. -/
def structureOf (cell positions : Match Char) : Option (Option (FinalAtoms F)) := do
  let alatBohr ← f.read (cell.group 1)
  let rows ← (splitLines (strip (cell.group 2))).mapM fun line => (words line).mapM f.read
  if !rectangular rows then none else
  let cellAng := rows.map fun row => row.map fun x => f.mul (f.mul x alatBohr) (bohr f)
  let mode := lower (positions.group 1)
  let lines := atomLines u ((splitLines (strip (positions.group 2))).map words)
  let xyz ← lines.mapM fun parts => ((parts.drop 1).take 3).mapM f.read
  let symbols := lines.map (·.headD [])
  if symbols = [] then return none
  else if isMatrix cellAng && symbols.all isSymbol then
    return some ⟨symbols,xyz.map (cartesian f mode alatBohr cellAng),cellAng⟩
  else none

/-- `extract_final_structure`. -/
def extractFinalStructure (stdout : Text) : Option (Option (FinalAtoms F)) :=
  match (findAll (cellBlocks u) stdout).getLast?, (findAll (positionBlocks u) stdout).getLast? with
  | some cell, some positions => structureOf f u isSymbol cell positions
  | _, _ => some none

end Extraction
end DftForge.Qe
