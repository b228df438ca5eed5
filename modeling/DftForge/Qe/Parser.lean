import Mathlib.Data.Rat.Defs
import DftForge.Python.Text

/-! # Reading the output of pw.x

The regular expressions of the parser, character by character, and the two readers
whose results the verifier judges. Floating point arithmetic and the array functions
are left open. A reader returns nothing where the source raises.
-/
namespace DftForge.Qe
open DftForge.Library DftForge.Runtime DftForge.Python

/-- Floating point numbers with the array functions that the parser calls. -/
structure Floats (F : Type) where
  /-- `float(text)`; a text that is no number raises. -/
  read : Text → Option F
  /-- An integer in floating point arithmetic; a huge one raises. -/
  ofNat : ℕ → Option F
  lit : ℚ → F
  lt : F → F → Bool
  le : F → F → Bool
  eq : F → F → Bool
  add : F → F → F
  sub : F → F → F
  mul : F → F → F
  div : F → F → F
  abs : F → F
  pow : F → F → F
  sqrt : F → F
  norm : List F → F
  dot : List F → List F → F
  cross : List F → List F → List F
  clip : F → F → F → F
  arccos : F → F
  degrees : F → F
  format : String → F → String

namespace Floats
variable {F : Type} (f : Floats F)

def zero : F := f.lit 0

/-- `sum(v * v for v in components) ** 0.5`. -/
def magnitude (components : List F) : F :=
  f.pow ((components.map fun v => f.mul v v).foldl f.add f.zero) (f.lit (1 / 2))

def maxOf (x : F) (xs : List F) : F := xs.foldl (fun m y => if f.lt m y then y else m) x

def minOf (x : F) (xs : List F) : F := xs.foldl (fun m y => if f.lt y m then y else m) x

/-- `max(values)`, the default where there are none. -/
def maximum : List F → F
  | [] => f.zero
  | x :: xs => f.maxOf x xs

/-- `1.0 < a < 100.0`. -/
def reasonable (a : F) : Bool := f.lt (f.lit 1) a && f.lt a (f.lit 100)

end Floats

/-- `int(text)` of a text of digits; the interpreter refuses more than 4300 of them. -/
def readNat (u : Unicode) (text : Text) : Option ℕ :=
  if text.length ≤ 4300 then some (natOf u text) else none

/-- `text.split(sep)`. -/
def splitFrom (sep : Text) : ℕ → Text → Text → List Text
  | _, piece, [] => [piece.reverse]
  | skip + 1, piece, _ :: rest => splitFrom sep skip piece rest
  | 0, piece, c :: rest =>
    if sep.isPrefixOf (c :: rest) then piece.reverse :: splitFrom sep (sep.length - 1) [] rest
    else splitFrom sep 0 (c :: piece) rest

def splitOn (sep : String) (text : Text) : List Text := splitFrom sep.toList 0 [] text

section Patterns
open Re Regex
variable (u : Unicode)

def digits : Pattern := plus (digit u)

def spaces : Pattern := plus space

def spaces? : Pattern := .many space

/-- `-?\d+\.\d+`. -/
def decimal : Pattern := chain [opt (lit "-"),digits u,lit ".",digits u]

/-- `convergence has been achieved in\s+(\d+)\s+iterations`. -/
def converged : Pattern := chain [lit "convergence has been achieved in",spaces,
  .group 1 (digits u),spaces,lit "iterations"]

/-- `!\s+total energy\s+=\s+(-?\d+\.\d+)\s+Ry`. -/
def totalEnergy : Pattern := chain [lit "!",spaces,lit "total energy",spaces,lit "=",spaces,
  .group 1 (decimal u),spaces,lit "Ry"]

/-- `convergence threshold\s+=\s+(\d+\.\d+E[+-]?\d+)`. -/
def threshold : Pattern := chain [lit "convergence threshold",spaces,lit "=",spaces,
  .group 1 (chain [digits u,lit ".",digits u,lit "E",opt (oneOf "+-"),digits u])]

/-- `the Fermi energy is\s+(-?\d+\.\d+)\s+ev`, in any case. -/
def fermi : Pattern := chain [litFold "the Fermi energy is",spaces,.group 1 (decimal u),spaces,
  litFold "ev"]

/-- `number of k points\s*=\s*(\d+)`. -/
def kPoints : Pattern := chain [lit "number of k points",spaces?,lit "=",spaces?,.group 1 (digits u)]

/-- `number of Kohn-Sham states\s*=\s*(\d+)`. -/
def kohnSham : Pattern := chain [lit "number of Kohn-Sham states",spaces?,lit "=",spaces?,
  .group 1 (digits u)]

/-- `bravais-lattice index\s+=\s+(\d+)`. -/
def bravais : Pattern := chain [lit "bravais-lattice index",spaces,lit "=",spaces,.group 1 (digits u)]

/-- `End of BFGS Geometry Optimization`, in any case. -/
def endOfBfgs : Pattern := litFold "End of BFGS Geometry Optimization"

/-- `bfgs converged in|End of BFGS Geometry Optimization`, in any case. -/
def geometryDone : Pattern := .alt (litFold "bfgs converged in") endOfBfgs

/-- `maximum number of steps has been reached|geometry optimization did not converge`,
in any case. -/
def geometryFailed : Pattern := .alt (litFold "maximum number of steps has been reached")
  (litFold "geometry optimization did not converge")

/-- `P=\s+([-+\d.eE]+)`. -/
def pressure : Pattern := chain [lit "P=",spaces,.group 1 (plus (.alt (oneOf "-+.eE") (digit u)))]

def blank : Pattern := oneOf " \t"

/-- `[-\d.eE+]+`. -/
def component : Pattern := plus (.alt (oneOf "-.eE+") (digit u))

/-- `force[ \t]*=[ \t]*([-\d.eE+]+)[ \t]+([-\d.eE+]+)[ \t]+([-\d.eE+]+)`. -/
def forceLine : Pattern := chain [lit "force",.many blank,lit "=",.many blank,
  .group 1 (component u),plus blank,.group 2 (component u),plus blank,.group 3 (component u)]

/-- `(?:^[ \t]*atom[ \t]+\d+.*?` force line `[ \t]*$\n?)+`, line by line. -/
def forceBlock : Pattern := plus (chain [lineStart,.many blank,lit "atom",plus blank,digits u,
  .manyLazy dot,forceLine u,.many blank,lineEnd,opt (lit "\n")])

/-- `([\d.-]+)`. -/
def entry (n : ℕ) : Pattern := .group n (plus (.alt (digit u) (oneOf ".-")))

/-- `\s*([\d.-]+)\s+([\d.-]+)\s+([\d.-]+)`. -/
def vector (n : ℕ) : Pattern := chain [spaces?,entry u n,spaces,entry u (n + 1),spaces,entry u (n + 2)]

/-- `CELL_PARAMETERS\s+\(alat=\s*([\d.]+)\)\s*\n` and three vectors, on lines of their own. -/
def cellBlock : Pattern := chain [lit "CELL_PARAMETERS",spaces,lit "(alat=",spaces?,
  .group 1 (plus (.alt (digit u) (lit "."))),lit ")",spaces?,lit "\n",
  vector u 2,spaces?,lit "\n",vector u 5,spaces?,lit "\n",vector u 8]

/-- `number of atoms/cell\s+=\s+(\d+)`. -/
def atomsPerCell : Pattern := chain [lit "number of atoms/cell",spaces,lit "=",spaces,.group 1 (digits u)]

end Patterns

structure ParsedSCF (F : Type) where
  totalEnergyRy : F
  totalEnergyEv : F
  nIterations : ℕ := 0
  converged : Bool := false
  convergenceThr : F
  finalDelta : F
  fermiEnergyEv : F
  kPoints : ℕ := 0
  nBands : ℕ := 0

structure ParsedCell (F : Type) where
  aBohr : F
  bBohr : F
  cBohr : F
  ibrav : ℕ
  volumeBohr3 : F

structure ParsedVCResult (F : Type) where
  finalEnergyRy : F
  finalEnergyEvPerAtom : F
  maxForceRyBohr : F
  pressureKbar : F
  nIterations : ℕ
  converged : Bool
  cell : Option (ParsedCell F)
  natoms : ℕ

/-- What the reader of the XML file found before it finished or gave up. -/
structure XmlData (F : Type) where
  totalEnergyRy : Option F := none
  cell : Option (ParsedCell F) := none

section Readers
open Regex
variable {F : Type} (f : Floats F) (u : Unicode)

def ryToEv : F := f.lit (13605693122994 / 1000000000000)

/-- A number that the expression captures at its first match, or the default. -/
def firstNat (r : Re.Pattern) (text : Text) : Option ℕ :=
  ((search r text).map fun m => readNat u (m.group 1)).getD (some 0)

/-- The texts that the expression captures, in order. -/
def captures (r : Re.Pattern) (text : Text) : List Text := (findAll r text).map fun m => m.group 1

/-- The last captured number, or the default. -/
def lastFloat (texts : List Text) : Option F := (texts.getLast?.map f.read).getD (some f.zero)

def firstFloat (r : Re.Pattern) (text : Text) : Option F :=
  ((search r text).map fun m => f.read (m.group 1)).getD (some f.zero)

def energies (text : Text) : List Text := captures (totalEnergy u) text

def parseScf (text : Text) : Option (ParsedSCF F) := do
  let nIterations ← firstNat u (converged u) text
  let energy ← lastFloat f (energies u text)
  let thr ← firstFloat f (threshold u) text
  let fermiEnergy ← firstFloat f (fermi u) text
  let k ← firstNat u (kPoints u) text
  let bands ← firstNat u (kohnSham u) text
  return {
    totalEnergyRy := energy
    totalEnergyEv := if energies u text = [] then f.zero else f.mul energy (ryToEv f)
    nIterations := nIterations
    converged := (search (converged u) text).isSome
    convergenceThr := thr
    finalDelta := f.zero
    fermiEnergyEv := fermiEnergy
    kPoints := k
    nBands := bands }

/-- The text up to the end of the geometry optimization. -/
def trajectory (text : Text) : Text := ((search endOfBfgs text).map Match.front).getD text

def pressures (text : Text) : List Text := captures (pressure u) (trajectory text)

/-- The text after the last "Begin final coordinates". -/
def finalPart (text : Text) : Text := (splitOn "Begin final coordinates" text).getLast?.getD text

/-- The last force block of the final part. -/
def lastForceBlock (text : Text) : Option Text :=
  (findAll (forceBlock u) (finalPart text)).getLast?.map Match.whole

/-- The three components on each line of the last force block. -/
def forceComponents (text : Text) : List (List Text) :=
  (splitLines ((lastForceBlock u text).getD [])).filterMap fun line =>
    (search (forceLine u) line).map fun m => [m.group 1,m.group 2,m.group 3]

/-- The size of the force on each atom. -/
def forces (text : Text) : Option (List F) :=
  (forceComponents u text).mapM fun components => (components.mapM f.read).map f.magnitude

def cellAnglesDeg (a₁ a₂ a₃ : List F) : Option (List F) :=
  if f.lt (f.minOf (f.norm a₁) [f.norm a₂,f.norm a₃]) (f.lit (1 / 100000000)) then none
  else
    let angle (v w : List F) := f.degrees (f.arccos (f.clip
      (f.div (f.dot v w) (f.mul (f.norm v) (f.norm w))) (f.lit (-1)) (f.lit 1)))
    some [angle a₂ a₃,angle a₁ a₃,angle a₁ a₂]

def computeCellConstants (a₁ a₂ a₃ : List F) (ibrav : ℕ) : F × F × F :=
  let a := f.norm a₁
  let b := f.norm a₂
  let c := f.norm a₃
  let faceCentred := f.mul a (f.sqrt (f.lit 2))
  let bodyCentred := f.div (f.mul a (f.lit 2)) (f.sqrt (f.lit 3))
  match ibrav with
  | 1 => (a,a,a)
  | 2 => (faceCentred,faceCentred,faceCentred)
  | 3 => (bodyCentred,bodyCentred,bodyCentred)
  | 4 => (a,a,c)
  | 0 =>
    match cellAnglesDeg f a₁ a₂ a₃ with
    | none => (a,b,c)
    | some angles =>
      let near (degrees : ℚ) (angle : F) := f.lt (f.abs (f.sub angle (f.lit degrees))) (f.lit 2)
      let close (x : F) := f.lt (f.div (f.abs (f.sub a x)) a) (f.lit (1 / 50))
      if close b && close c then
        if angles.all (near 60) then (faceCentred,faceCentred,faceCentred)
        else if angles.all (near (10947 / 100)) then (bodyCentred,bodyCentred,bodyCentred)
        else (a,b,c)
      else (a,b,c)
  | _ => (a,b,c)

/-- The cell of one block, whose ten numbers are the groups of the match. -/
def cellOfBlock (ibrav : ℕ) (m : Match Char) : Option (ParsedCell F) := do
  let alat ← f.read (m.group 1)
  let row (n : ℕ) := ([n,n + 1,n + 2].mapM fun i => f.read (m.group i)).map fun xs =>
    xs.map fun x => f.mul x alat
  let a₁ ← row 2
  let a₂ ← row 5
  let a₃ ← row 8
  let (a,b,c) := computeCellConstants f a₁ a₂ a₃ ibrav
  return ⟨a,b,c,ibrav,f.abs (f.dot a₁ (f.cross a₂ a₃))⟩

def lastCell (text : Text) (ibrav : ℕ) : Option (Option (ParsedCell F)) :=
  match (findAll (cellBlock u) text).getLast? with
  | none => some none
  | some m => (cellOfBlock f ibrav m).map some

/-- Energy per atom in eV, zero where there are no atoms. -/
def perAtom (energy : F) (natoms : ℕ) : Option F :=
  if 0 < natoms then (f.ofNat natoms).map fun n => f.div (f.mul energy (ryToEv f)) n
  else some f.zero

/-- The energy that the XML file supplies: `get` of a number is false for zero. -/
def xmlEnergy (xml : Option (XmlData F)) : Option F :=
  (xml.bind (·.totalEnergyRy)).filter fun e => !f.eq e f.zero

def parseVcRelax (text : Text) (xml : Option (XmlData F)) : Option (ParsedVCResult F) := do
  let ibrav ← firstNat u (bravais u) text
  let energy ← lastFloat f (energies u text)
  let nIterations ← ((captures (converged u) text).getLast?.map (readNat u)).getD (some 0)
  let pressure ← lastFloat f (pressures u text)
  let sizes ← forces f u text
  let cell ← lastCell f u text ibrav
  let natoms ← firstNat u (atomsPerCell u) text
  let evPerAtom ← (if f.eq energy f.zero then some f.zero else perAtom f energy natoms)
  let result : ParsedVCResult F := {
    finalEnergyRy := energy
    finalEnergyEvPerAtom := evPerAtom
    maxForceRyBohr := f.maximum sizes
    pressureKbar := pressure
    nIterations := nIterations
    converged := decide (Found geometryDone text) && !decide (Found geometryFailed text)
    cell := cell.or (xml.bind (·.cell))
    natoms := natoms }
  match if f.eq energy f.zero then xmlEnergy f xml else none with
  | none => return result
  | some e =>
    let ev ← perAtom f e natoms
    return { result with finalEnergyRy := e, finalEnergyEvPerAtom := ev }

end Readers
end DftForge.Qe
