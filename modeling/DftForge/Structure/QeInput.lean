import DftForge.Library.Fallible
import DftForge.Python.Lines
import DftForge.Python.Numbers
import Mathlib.LinearAlgebra.Matrix.Notation

/-! # Input fragments

`_parse_qe_input`: the lines of a text are sorted into the sections under whose titles they
stand, and the sections are read as a cell and as atoms. The numbers are exact; what ASE,
numpy and the interpreter say where they raise is a parameter.
-/
namespace DftForge.Structure
open DftForge.Library DftForge.Runtime DftForge.Python

/-- A vector in Å. -/
abbrev Vector3 := Fin 3 → ℚ

/-- The rows are the vectors of the cell, in Å. -/
abbrev CellMatrix := Matrix (Fin 3) (Fin 3) ℚ

structure Site where
  symbol : Text
  position : Vector3
  deriving DecidableEq

/-- ASE's `Atoms`. -/
structure Atoms where
  sites : List Site
  cell : CellMatrix
  pbc : Fin 3 → Bool
  deriving DecidableEq

/-- What is outside the program: the table of the elements, and the texts of exceptions. -/
structure Ambient where
  unicode : Unicode
  /-- A key of ASE's `atomic_numbers`. -/
  isSymbol : Text → Bool
  /-- `repr` of a text. -/
  repr : Text → String
  /-- What `float` raises for a text. -/
  noFloat : Text → String
  /-- What numpy raises for rows of several lengths, or for matrices that do not multiply. -/
  noArray : String
  /-- What `Atoms` raises for a symbol or a shape. -/
  noAtoms : String

/-- The parts of an input that are kept. -/
inductive Heading where
  | cell
  | positions
  | species
  deriving DecidableEq

/-- The lists that the loop fills. -/
structure Fragment where
  currentSection : Option Heading := none
  cellParamsLines : List Text := []
  atomicPositionsLines : List Text := []
  atomicSpecies : List (Text × ℚ × Text) := []

/-- The words of the lines that are long enough for an atom. -/
def positionWords (lines : List Text) : List (List Text) := (lines.map words).filter (4 ≤ ·.length)

/-- `if condition: raise …`. -/
def raiseIf (condition : Prop) [Decidable condition] (message : String) : Except String Unit :=
  if condition then throw message else return ()

/-- The rows have one length, which numpy asks of them. -/
def rectangular (rows : List (List ℚ)) : Bool := rows.all fun row => row.length == (rows.headD []).length

def toVector (row : List ℚ) : Vector3 := fun j => row.getD j 0

def toMatrix (rows : List (List ℚ)) : CellMatrix := fun i j => (rows.getD i []).getD j 0

namespace Ambient
variable (a : Ambient)

/-- `float(text)`. -/
def float (text : Text) : Except String ℚ :=
  match readFloat a.unicode text with
  | some x => .ok x
  | none => .error (a.noFloat text)

open Regex Re in
/-- `_VALID_ELEMENT_RE`; a stripped text does not end with a line break. -/
def validElement : Pattern :=
  Regex.chain [.one Char.isUpper,opt (.one Char.isLower),opt (plus (digit a.unicode)),
    .anchor fun _ after => after = none]

/-- `_normalize_element`. -/
def normalizeElement (symbol : Text) : Except String Text :=
  let symbol := strip symbol
  if Regex.run a.validElement ⟨[],symbol,[]⟩ = [] then throw ("Invalid element symbol: " ++ a.repr symbol)
  else return symbol.take 1 ++ lower (symbol.drop 1)

/-- A line under the title of a section. -/
def keepLine (s : Fragment) (stripped : Text) : Except String Fragment :=
  match s.currentSection with
  | some .cell => return { s with cellParamsLines := s.cellParamsLines ++ [stripped] }
  | some .positions => return { s with atomicPositionsLines := s.atomicPositionsLines ++ [stripped] }
  | some .species =>
    match words stripped with
    | elem :: mass :: file :: _ => do
      let mass ← a.float mass
      return { s with atomicSpecies := s.atomicSpecies ++ [(elem,mass,file)] }
    | _ => return s
  | none => return s

/-- One line of the loop. A title of `K_POINTS` is none of the three, and the unit after
`ATOMIC_POSITIONS` is not used. -/
def readLine (s : Fragment) (line : Text) : Except String Fragment :=
  let stripped := strip line
  if startsWith stripped "CELL_PARAMETERS" then return { s with currentSection := some .cell }
  else if startsWith (upper stripped) "ATOMIC_POSITIONS" then
    return { s with currentSection := some .positions }
  else if startsWith (upper stripped) "ATOMIC_SPECIES" then return { s with currentSection := some .species }
  else if startsWith stripped "&" || stripped = ['/'] || stripped = [] then
    return if stripped = ['/'] then { s with currentSection := none } else s
  else a.keepLine s stripped

/-- The second half of `_parse_qe_input`: the atoms of the lines that the loop has kept. -/
def fragmentAtoms (s : Fragment) : Except String Atoms := do
  let rows ← (s.cellParamsLines.take 3).mapM fun line => ((words line).take 3).mapM a.float
  raiseIf (rectangular rows = false) a.noArray
  let parts := positionWords s.atomicPositionsLines
  let symbols := parts.map (·.headD [])
  let coords ← parts.mapM fun ws => ((ws.drop 1).take 3).mapM a.float
  raiseIf (symbols = []) "QE input fragment has no ATOMIC_POSITIONS"
  raiseIf (rows ≠ [] ∧ rows.length ≠ 3) a.noArray
  raiseIf (rows = []) "QE input fragment missing CELL_PARAMETERS"
  let normalized ← symbols.mapM a.normalizeElement
  raiseIf (normalized.all a.isSymbol = false ∨ rows.any (·.length ≠ 3) = true) a.noAtoms
  let cell := toMatrix rows
  return {
    sites := List.zipWith Site.mk normalized (coords.map fun row => Matrix.vecMul (toVector row) cell)
    cell
    pbc := fun _ => true }

/-- `_parse_qe_input`. -/
def parseQeInput (text : Text) : Except String Atoms := do
  let s ← (splitLines text).foldlM a.readLine {}
  a.fragmentAtoms s

end Ambient
section Errors

theorem raiseIf_eq_ok {condition : Prop} [Decidable condition] {message : String} {v : Unit} :
    raiseIf condition message = .ok v ↔ ¬ condition := by
  by_cases h : condition <;> simp [raiseIf, h, throw, throwThe, MonadExceptOf.throw, pure, Except.pure]

theorem raiseIf_neg {condition : Prop} [Decidable condition] (h : ¬ condition) (message : String) :
    raiseIf condition message = .ok () := raiseIf_eq_ok.mpr h

end Errors

end DftForge.Structure
