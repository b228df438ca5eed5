import DftForge.Structure.QeInput
import Mathlib.Data.List.Sort

/-! # The structure importer

`StructureImporter.import_structure`: a source is parsed, its neighbours are checked, it is
normalized, and the result is validated. Numbers are exact, and distances are compared by
their squares. The readers and the neighbour list of ASE, pymatgen, spglib and the file
system are parameters.
-/
namespace DftForge.Structure
open DftForge.Library DftForge.Runtime DftForge.Python

section Sources

/-- A flat list or a list of rows, as `np.array` takes them. -/
inductive Coordinates where
  | flat (xs : List ℚ)
  | nested (rows : List (List ℚ))

/-- `pbc` of an explicit structure. -/
inductive Periodicity where
  | same (periodic : Bool)
  | each (axes : List Bool)

def Periodicity.axes : Periodicity → Option (Fin 3 → Bool)
  | .same periodic => some fun _ => periodic
  | .each [periodic] => some fun _ => periodic
  | .each [a,b,c] => some ![a,b,c]
  | .each _ => none

/-- The rows of the array, where a flat list is one row. -/
def Coordinates.rows : Coordinates → List (List ℚ)
  | .flat xs => [xs]
  | .nested [] => [[]]
  | .nested rows => rows

/-- The keys of an explicit structure. -/
structure Explicit where
  lattice : Option (List (List ℚ))
  positions : Option Coordinates
  symbols : Option (List Text)
  fractional : Option Bool := none
  pbc : Option Periodicity := none

inductive Source where
  | text (s : Text)
  | path (p : Text)
  | dict (d : Explicit)

/-- What a parser returns. -/
inductive Parsed where
  | atoms (x : Atoms)
  /-- Something that is no `Atoms`. -/
  | other
  /-- No parser was found. -/
  | unsupported

end Sources

/-- A vector of lattice translations. -/
abbrev Translation := Fin 3 → ℤ

/-- The libraries and the files. -/
structure Libraries extends Ambient where
  /-- `Path(text).exists()`. -/
  fileExists : Text → Except String Bool
  /-- `Path(text).read_text()`. -/
  readText : Text → Except String Text
  /-- What `Path` raises for a dict. -/
  noPath : String
  /-- `str` of a dict. -/
  dictText : Explicit → Text
  readCif : Text → Except String (Option Atoms)
  readVaspFile : Text → Except String (Option Atoms)
  readVaspText : Text → Except String (Option Atoms)
  /-- The frames of an XYZ text. -/
  readXyz : Text → Except String (List Atoms)
  /-- What `NeighborList`, with half the cutoff for each atom, lists for each atom; the
  cutoff is given by its square. -/
  neighborList : Atoms → ℚ → Except String (ℕ → List (ℕ × Translation))
  /-- Sites and cell of `get_primitive_standard_structure`; nothing where it raises. -/
  primitive : Atoms → Option (List Site × CellMatrix)
  /-- The occupancy of each site, by its species. -/
  occupancies : Atoms → Except String (List (Text × ℚ))
  /-- Symbol, crystal system and number. -/
  spaceGroup : Atoms → Except String (String × String × ℤ)
  /-- `get_chemical_formula`. -/
  formula : Atoms → String
  /-- A number, as an f-string shows it. -/
  shown : ℚ → String
  /-- The root of a number in a format. -/
  rootShown : String → ℚ → String

structure ValidationReport where
  success : Bool := false
  atoms : Option Atoms := none
  format : Option String := none
  formula : Option String := none
  spaceGroup : Option String := none
  natoms : ℕ := 0
  nspecies : ℕ := 0
  species : List Text := []
  warnings : List String := []
  errors : List String := []
  /-- The crystal system and the number of the space group. -/
  metadata : Option (String × ℤ) := none

section Geometry

def normSq (v : Vector3) : ℚ := v 0 * v 0 + v 1 * v 1 + v 2 * v 2

/-- `np.linalg.det`. -/
def det (m : CellMatrix) : ℚ :=
  m 0 0 * m 1 1 * m 2 2 - m 0 0 * m 1 2 * m 2 1 - m 0 1 * m 1 0 * m 2 2 + m 0 1 * m 1 2 * m 2 0 +
    m 0 2 * m 1 0 * m 2 1 - m 0 2 * m 1 1 * m 2 0

/-- `offset @ cell`. -/
def translate (cell : CellMatrix) (o : Translation) : Vector3 := fun j =>
  o 0 * cell 0 j + o 1 * cell 1 j + o 2 * cell 2 j

namespace Atoms
variable (x : Atoms)

def position (i : ℕ) : Vector3 := ((x.sites[i]?).map Site.position).getD 0

def symbols : List Text := x.sites.map Site.symbol

/-- The square of the distance from an atom to an image of another. -/
def distanceSq (i j : ℕ) (o : Translation) : ℚ := normSq (x.position i - (x.position j + translate x.cell o))

/-- `_is_periodic`. -/
def isPeriodic : Bool := x.pbc 0 && x.pbc 1 && x.pbc 2

/-- The square of `max(5.0, max(norms))`. -/
def cutoffSq : ℚ := max 25 (max (normSq (x.cell 0)) (max (normSq (x.cell 1)) (normSq (x.cell 2))))

end Atoms
end Geometry

/-- Distances are left out unless they are longer than this; its square. -/
def tinySq : ℚ := 1 / 10 ^ 24

def allowedElements : List String :=
  ["H","He","Li","Be","B","C","N","O","F","Ne","Na","Mg","Al","Si","P","S","Cl","Ar","K","Ca","Sc","Ti","V",
    "Cr","Mn","Fe","Co","Ni","Cu","Zn","Ga","Ge","As","Se","Br","Kr","Rb","Sr","Y","Zr","Nb","Mo","Tc","Ru",
    "Rh","Pd","Ag","Cd","In","Sn","Sb","Te","I","Xe","Cs","Ba","La","Ce","Pr","Nd","Pm","Sm","Eu","Gd","Tb",
    "Dy","Ho","Er","Tm","Yb","Lu","Hf","Ta","W","Re","Os","Ir","Pt","Au","Hg","Tl","Pb","Bi","Po","At","Rn",
    "Fr","Ra","Ac","Th","Pa","U","Np","Pu","Am","Cm","Bk","Cf","Es","Fm","Md","No","Lr","Rf","Db","Sg","Bh",
    "Hs","Mt","Ds","Rg","Cn","Nh","Fl","Mc","Lv","Ts","Og"]

section Formats

/-- `Path(source).name`. -/
def pathName (source : Text) : Text :=
  ((splitChar '/' source).filter fun part => part ≠ [] && part ≠ ['.']).getLast?.getD []

/-- `Path(source).suffix`, of a name. -/
def pathSuffix (name : Text) : Text :=
  let tail := (name.reverse.takeWhile (· ≠ '.')).reverse
  if tail ≠ [] ∧ tail.length + 1 < name.length then '.' :: tail else []

/-- `_infer_format`. -/
def inferFormat : Source → String
  | .dict _ => "explicit"
  | .text s | .path s =>
    let suffix := lower (pathSuffix (pathName s))
    let name := lower (pathName s)
    if suffix = ".cif".toList ∨ startsWith name "poscar" ∨ startsWith name "contcar" ∨
        suffix = ".vasp".toList then
      if suffix = ".cif".toList then "cif" else "poscar"
    else if suffix = ".xyz".toList ∨ name = "xyz".toList then "xyz"
    else if suffix = ".in".toList ∨ suffix = ".pwi".toList ∨ suffix = ".qe".toList then "qe_input"
    else "unknown"

/-- `_detect_format_from_text`. -/
def detectFormatFromText (text : Text) : String :=
  let up := upper text
  if contains up "_ATOMIC_POSITIONS" || contains up "ATOMIC_SPECIES" then "qe_input"
  else if startsWith up "POSCAR" || startsWith up "ATOM" || contains up "DIRECT" ||
      contains up "CARTESIAN" then
    "poscar"
  else
    match splitLines text with
    | first :: _ :: _ => if (words first).length = 1 then "xyz" else "unknown"
    | _ => "unknown"

end Formats

section Checks

/-- `dist < limit`, from the square of the distance. -/
def Closer (distanceSq limit : ℚ) : Prop := 0 < limit ∧ distanceSq < limit ^ 2

instance (distanceSq limit : ℚ) : Decidable (Closer distanceSq limit) :=
  inferInstanceAs (Decidable (_ ∧ _))

/-- `_validate_periodicity`. -/
def validatePeriodicity (x : Atoms) : List String :=
  if x.isPeriodic then []
  else ["Structure is not periodic in all three dimensions (pbc must be True for x, y, z)"]

/-- `_validate_elements`. -/
def validateElements (x : Atoms) : List String :=
  (x.symbols.filter fun symbol => String.ofList symbol ∉ allowedElements).map fun symbol =>
    "Unsupported element symbol: " ++ String.ofList symbol

/-- `_sort_symbols`. -/
def sortSymbols (x : Atoms) : Atoms :=
  { x with sites := x.sites.insertionSort fun s t => s.symbol ≤ t.symbol }

end Checks

namespace Libraries
variable (lib : Libraries)

section Parsers

def ofOption (x : Option Atoms) : Parsed := x.elim .other .atoms

/-- Whether a source is a text that names no file. -/
def isContent : Source → Except String Bool
  | .text s => do
    let found ← lib.fileExists s
    return !found
  | _ => return false

/-- `str(source)`. -/
def sourceText : Source → Text
  | .text s => s
  | .path p => p
  | .dict d => lib.dictText d

/-- `Path(source)`. -/
def sourcePath : Source → Except String Text
  | .text s => return s
  | .path p => return p
  | .dict _ => throw lib.noPath

def parseCif (source : Source) : Except String Parsed := do
  let path ← lib.sourcePath source
  let x ← lib.readCif path
  return ofOption x

def parsePoscar (source : Source) : Except String Parsed := do
  let content ← lib.isContent source
  let x ← if content then lib.readVaspText (lib.sourceText source)
    else lib.readVaspFile (lib.sourceText source)
  return ofOption x

def parseXyz (source : Source) : Except String Parsed := do
  let content ← lib.isContent source
  let text ← if content then pure (lib.sourceText source) else do
    let path ← lib.sourcePath source
    lib.readText path
  let frames ← lib.readXyz text
  match frames.getLast? with
  | some x => return .atoms x
  | none => throw "XYZ source contains no frames"

/-- The text of a source that is read as an input. -/
def inputText : Source → Except String Text
  | .dict d => return lib.dictText d
  | .text s | .path s => do
    let found ← lib.fileExists s
    if found then lib.readText s else return s

def parseInput (source : Source) : Except String Parsed := do
  let text ← lib.inputText source
  let x ← lib.parseQeInput text
  return .atoms x

/-- `_build_from_explicit`. -/
def buildFromExplicit (lattice : List (List ℚ)) (positions : Coordinates) (symbols : List Text)
    (fractional : Bool) (pbc : Periodicity) : Except String Atoms := do
  raiseIf (rectangular lattice = false) lib.noArray
  raiseIf (lattice.length ≠ 3 ∨ lattice.any (·.length ≠ 3) = true) "lattice must be a 3x3 array"
  let rows := positions.rows
  raiseIf (rectangular rows = false) lib.noArray
  raiseIf (rows.any (·.length ≠ 3) = true) "positions must have shape (N, 3)"
  raiseIf (symbols.length ≠ rows.length) "symbols and positions length mismatch"
  let normalized ← symbols.mapM lib.normalizeElement
  raiseIf (normalized.all lib.isSymbol = false) lib.noAtoms
  let cell := toMatrix lattice
  let place (row : List ℚ) := if fractional then Matrix.vecMul (toVector row) cell else toVector row
  match pbc.axes with
  | some axes => return { sites := List.zipWith Site.mk normalized (rows.map place), cell, pbc := axes }
  | none => throw lib.noAtoms

/-- `source[key]`. -/
def entry {α : Type} (key : String) : Option α → Except String α
  | some v => return v
  | none => throw ("'" ++ key ++ "'")

def parseExplicit (source : Source) (fractional : Bool) : Except String Parsed :=
  match source with
  | .dict d => do
    let lattice ← entry "lattice" d.lattice
    let positions ← entry "positions" d.positions
    let symbols ← entry "symbols" d.symbols
    let x ← lib.buildFromExplicit lattice positions symbols (d.fractional.getD fractional)
      (d.pbc.getD (.same true))
    return .atoms x
  | _ => throw "explicit format requires a dict with lattice/positions/symbols"

/-- The dispatch of `import_structure`. -/
def parse (source : Source) (fmt : String) (fractional : Bool) : Except String Parsed :=
  if fmt = "cif" then lib.parseCif source
  else if fmt = "poscar" then lib.parsePoscar source
  else if fmt = "xyz" then lib.parseXyz source
  else if fmt = "qe_input" then lib.parseInput source
  else if fmt = "explicit" then lib.parseExplicit source fractional
  else do
    let content ← lib.isContent source
    let detected := detectFormatFromText (lib.sourceText source)
    if !content then return .unsupported
    else if detected = "xyz" then lib.parseXyz source
    else if detected = "poscar" then lib.parsePoscar source
    else if detected = "qe_input" then lib.parseInput source
    else return .unsupported

end Parsers

section Validation

/-- The square of `_min_nearest_neighbor_distance`; nothing where it is infinite. -/
def minNearestNeighborSq (x : Atoms) : Except String (Option ℚ) :=
  if x.sites.length < 2 then return none
  else do
    let listed ← lib.neighborList x x.cutoffSq
    let distances := (List.range x.sites.length).flatMap fun i =>
      (listed i).map fun n => x.distanceSq i n.1 n.2
    return (distances.filter (tinySq < ·)).min?

/-- `_validate_nearest_neighbors`. -/
def validateNearestNeighbors (x : Atoms) (limit : ℚ) : Except String (List String) :=
  if x.sites.length < 2 then return []
  else do
    match ← lib.minNearestNeighborSq x with
    | some d =>
      if Closer d limit then
        return ["Nearest-neighbor distance " ++ lib.rootShown ".3f" d ++ " Å is below threshold " ++
          lib.shown limit ++ " Å"]
      else return []
    | none => return []

/-- `_validate_occupancies`. -/
def validateOccupancies (x : Atoms) : List String :=
  match lib.occupancies x with
  | .error e => ["Occupancy check failed: " ++ e]
  | .ok sites =>
    (sites.filter fun site => site.2 < 99 / 100 ∨ 101 / 100 < site.2).map fun site =>
      "Site " ++ String.ofList site.1 ++ " has occupancy " ++ lib.shown site.2

/-- `_validate_vacuum_and_cell`. -/
def validateVacuumAndCell (x : Atoms) : List String :=
  if x.isPeriodic then
    let maxAxis := max (normSq (x.cell 0)) (max (normSq (x.cell 1)) (normSq (x.cell 2)))
    let minAxis := min (normSq (x.cell 0)) (min (normSq (x.cell 1)) (normSq (x.cell 2)))
    (if 100 ^ 2 < maxAxis then ["Very large cell axis (" ++ lib.rootShown ".2f" maxAxis ++
      " Å) may indicate excessive vacuum"] else []) ++
    (if minAxis < (3 / 2) ^ 2 then ["Very small cell axis (" ++ lib.rootShown ".2f" minAxis ++
      " Å) may indicate an incomplete cell"] else [])
  else []

/-- `_normalize_to_primitive`. -/
def normalizeToPrimitive (x : Atoms) : Atoms :=
  match lib.primitive x with
  | some (sites,cell) => ⟨sites,cell,fun _ => true⟩
  | none => x

end Validation
end Libraries

/-- `StructureImporter`. -/
structure StructureImporter where
  minNearestNeighborAngstrom : ℚ := 4 / 5
  standardize : Bool := true

namespace StructureImporter
variable (imp : StructureImporter) (lib : Libraries)

/-- The structure after the normalization. -/
def normalize (x : Atoms) : Atoms :=
  sortSymbols (if imp.standardize then lib.normalizeToPrimitive x else x)

/-- The report on a normalized structure. -/
def describe (report : ValidationReport) (x : Atoms) : ValidationReport :=
  let species := x.symbols.dedup.insertionSort (· ≤ ·)
  let report := { report with
    atoms := some x, natoms := x.sites.length, species, nspecies := species.length
    formula := some (lib.formula x) }
  match lib.spaceGroup x with
  | .ok (symbol,system,number) => { report with spaceGroup := some symbol, metadata := some (system,number) }
  | .error e => { report with warnings := report.warnings ++ ["Space group analysis failed: " ++ e] }

/-- The validations of a normalized structure. -/
def validate (report : ValidationReport) (x : Atoms) : Except String ValidationReport := do
  let neighbors ← lib.validateNearestNeighbors x imp.minNearestNeighborAngstrom
  let errors := report.errors ++ validatePeriodicity x ++ validateElements x ++
    lib.validateOccupancies x ++ neighbors
  return { report with
    errors, warnings := report.warnings ++ lib.validateVacuumAndCell x, success := errors.isEmpty }

/-- `format or _infer_format(source)`. -/
def chosenFormat (source : Source) (format : Option String) : String :=
  if format.getD "" = "" then inferFormat source else format.getD ""

/-- `import_structure`. -/
def importStructure (source : Source) (format : Option String) (fractional : Bool) :
    Except String ValidationReport := do
  let fmt := chosenFormat source format
  let report : ValidationReport := { format := some fmt }
  match lib.parse source fmt fractional with
  | .error e => return { report with errors := ["Parsing failed: " ++ e] }
  | .ok .unsupported => return { report with errors := ["Unsupported or unknown structure format: " ++ fmt] }
  | .ok .other => return { report with errors := ["Parser returned an empty or invalid structure"] }
  | .ok (.atoms x) =>
    if x.sites = [] then return { report with errors := ["Parser returned an empty or invalid structure"] }
    else do
      let neighbors ← lib.validateNearestNeighbors x imp.minNearestNeighborAngstrom
      if neighbors ≠ [] then return { report with errors := neighbors }
      else
        let normal := imp.normalize lib x
        if det normal.cell ≤ 0 then
          return { report with errors := ["Normalization failed: Invalid cell vectors"] }
        else imp.validate lib (describe lib report normal) normal

end StructureImporter
end DftForge.Structure
