import DftForge.Library.RegexPlaces
import DftForge.Qe.Verifier

/-! # What a passed vc-relax rests on

The verifier looks for the words "force" and "P=" anywhere in the text, while the
parser takes forces from the final part, pressures from the trajectory and only after a
blank, and zero where it finds none. A pass rests on evidence when every text that the
checks let through also has the values in the windows of the parser, and no pressure
after the last one that the parser can read.
-/
namespace DftForge.Qe
open DftForge.Library DftForge.Runtime DftForge.Python
open Regex (Found)

section Printed
open Re Regex
variable (u : Unicode)

/-- `P\s*=\s*([-+\d.][-+\d.eE]*)`. -/
def anyPressure : Pattern := chain [lit "P",spaces?,lit "=",spaces?,
  .group 1 (.seq (.alt (oneOf "-+.") (digit u)) (.many (.alt (oneOf "-+.eE") (digit u))))]

/-- A pressure of the text: what the parser takes for one, or a number after `P` and `=` with any blanks
around the sign. -/
def printedPressure : Pattern := .alt (pressure u) (anyPressure u)

def isPressureChar (c : Char) : Bool := decide (c ∈ "-+.eE".toList) || (digitValue u c).isSome

/-- `P=`, at least one blank, and a number. -/
def Spaced (w : Text) : Prop := ∃ blanks number, w = "P=".toList ++ (blanks ++ number) ∧
  blanks ≠ [] ∧ (∀ c ∈ blanks, isSpace c = true) ∧ number ≠ [] ∧ ∀ c ∈ number, isPressureChar u c = true

end Printed

variable {F : Type} (f : Floats F) (u : Unicode) (v : ScientificVerifier F)

/-- The text lets every value come from where the parser looks for it. -/
structure Sourced (inp : VerificationInput F) : Prop where
  energy : energies u inp.stdout ≠ [] ∨ ∃ data, inp.xml = some data ∧ data.totalEnergyRy.isSome
  pressure : ∃ last, (Regex.findAll (printedPressure u) (trajectory inp.stdout)).getLast? = some last ∧
    Spaced u last.whole
  force : forceComponents u inp.stdout ≠ []
  cycles : contains inp.stdout "convergence NOT achieved" = false

/-- The energy of the text, or that of the XML file where the text has none. -/
def finalEnergy (text : Text) (xml : Option (XmlData F)) : Option F :=
  (lastFloat f (energies u text)).map fun e =>
    if f.eq e f.zero then (xmlEnergy f xml).getD e else e

/-- What the verifier asks of its input, spelled out on the text and the XML file. -/
structure Accepted (inp : VerificationInput F) : Prop where
  success : inp.jobSuccess = true
  reads : (parseVcRelax f u inp.stdout inp.xml).isSome ∧ (parseScf f u inp.stdout).isSome ∧
    (monotonic f (energies u inp.stdout)).isSome
  nonzero : ∀ e p n, finalEnergy f u inp.stdout inp.xml = some e →
    lastFloat f (pressures u inp.stdout) = some p → firstNat u (atomsPerCell u) inp.stdout = some n →
    f.eq e f.zero = false ∨ f.eq p f.zero = false ∨ n ≠ 0
  done : contains inp.stdout "JOB DONE" = true
  geometry : Found geometryDone inp.stdout ∧ ¬ Found geometryFailed inp.stdout
  scf : Found (converged u) inp.stdout
  force : Found (forceWord u) inp.stdout ∧
    ∀ sizes, forces f u inp.stdout = some sizes → f.lt v.forceThresholdRy (f.maximum sizes) = false
  pressure : Found (pressureWord u) inp.stdout ∧ ∀ p, lastFloat f (pressures u inp.stdout) = some p →
    f.lt v.pressureThresholdKbar (f.abs p) = false
  cell : ∀ ibrav cell, firstNat u (bravais u) inp.stdout = some ibrav →
    lastCell f u inp.stdout ibrav = some cell →
    ((cell.or (inp.xml.bind (·.cell))).any fun c => f.reasonable c.aBohr) = true

/-- What the parser returns, value by value. -/
structure Reading (text : Text) (xml : Option (XmlData F)) (parsed : ParsedVCResult F) : Prop where
  energy : finalEnergy f u text xml = some parsed.finalEnergyRy
  pressure : lastFloat f (pressures u text) = some parsed.pressureKbar
  natoms : firstNat u (atomsPerCell u) text = some parsed.natoms
  force : ∃ sizes, forces f u text = some sizes ∧ parsed.maxForceRyBohr = f.maximum sizes
  geometry : parsed.converged = (decide (Found geometryDone text) && !decide (Found geometryFailed text))
  cell : ∃ ibrav cell, firstNat u (bravais u) text = some ibrav ∧
    lastCell f u text ibrav = some cell ∧ parsed.cell = cell.or (xml.bind (·.cell))

theorem parseVcRelax_reading {text : Text} {xml : Option (XmlData F)} {parsed : ParsedVCResult F}
    (h : parseVcRelax f u text xml = some parsed) : Reading f u text xml parsed := by
  unfold parseVcRelax at h
  simp only [Option.bind_eq_bind, Option.pure_def, Option.bind_eq_some_iff] at h
  obtain ⟨ibrav,hibrav,energy,henergy,iterations,-,p,hp,sizes,hsizes,cell,hcell,natoms,hnatoms,ev,-,h⟩ := h
  cases hx : (if f.eq energy f.zero then xmlEnergy f xml else none) with
  | none =>
    rw [hx] at h
    obtain rfl := Option.some.inj h
    refine ⟨?_,hp,hnatoms,⟨sizes,hsizes,rfl⟩,rfl,ibrav,cell,hibrav,hcell,rfl⟩
    rw [finalEnergy, henergy]
    split at hx
    · next hz => simp [hx]
    · next hz => simp [hz]
  | some e =>
    rw [hx] at h
    simp only [Option.bind_eq_some_iff] at h
    obtain ⟨_,-,h⟩ := h
    obtain rfl := Option.some.inj h
    refine ⟨?_,hp,hnatoms,⟨sizes,hsizes,rfl⟩,rfl,ibrav,cell,hibrav,hcell,rfl⟩
    rw [finalEnergy, henergy]
    split at hx
    · next hz => simp [hz, hx]
    · cases hx

variable {f u v}

/-- Decimal numbers as rationals; roots and norms are those of perfect squares. -/
def root (q : ℚ) : ℚ :=
  let exact (n : ℕ) := ((List.range (n + 1)).find? fun k => k * k == n).getD 0
  (exact q.num.toNat : ℚ) / exact q.den

def readDecimal (text : Text) : Option ℚ :=
  match splitChar '.' text with
  | [whole,fraction] =>
    some ((natOf {} whole : ℚ) + (natOf {} fraction : ℚ) / 10 ^ fraction.length)
  | _ => none

def decimals : Floats ℚ where
  read := readDecimal
  ofNat n := some n
  lit q := q
  lt a b := decide (a < b)
  le a b := decide (a ≤ b)
  eq a b := a == b
  add := (· + ·)
  sub := (· - ·)
  mul := (· * ·)
  div := (· / ·)
  abs q := if q < 0 then -q else q
  pow q _ := root q
  sqrt := root
  norm xs := root (xs.map fun x => x * x).sum
  dot xs ys := (List.zipWith (· * ·) xs ys).sum
  cross
    | [a,b,c], [x,y,z] => [b * z - c * y,c * x - a * z,a * y - b * x]
    | _, _ => []
  clip q a b := max a (min b q)
  arccos _ := 90
  degrees q := q
  format _ _ := ""

def strictVerifier : ScientificVerifier ℚ := ⟨1 / 1000,1 / 2,1 / 1000000⟩

end DftForge.Qe
