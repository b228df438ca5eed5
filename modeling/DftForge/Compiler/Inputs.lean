import DftForge.Catalog.Bands
import DftForge.Qe.Recovery

/-! # The input compiler

`QECompiler`: the inputs of pw.x, bands.x and dos.x as namelists and cards. The profile
comes from `MATERIAL_DB` or from a structure. What ASE computes of a structure, the
formatting of numbers and the files of the pseudopotential directory are parameters.
-/
namespace DftForge.Compiler
open DftForge.Runtime DftForge.Python DftForge.Engines DftForge.Catalog DftForge.Qe

/-- The value of a namelist entry, with quotation marks or without. -/
inductive Value where
  | text (s : String)
  | bare (s : String)
  deriving DecidableEq, Repr

structure Namelist where
  name : String
  entries : List (String × Value)
  deriving DecidableEq, Repr

structure Card where
  title : String
  rows : List String
  deriving DecidableEq, Repr

structure Input where
  namelists : List Namelist
  cards : List Card := []
  deriving DecidableEq, Repr

section Print

def Value.print : Value → String
  | .text s => "\"" ++ s ++ "\""
  | .bare s => s

def Namelist.lines (n : Namelist) : List String :=
  ("&" ++ n.name) :: n.entries.map (fun e => "  " ++ e.1 ++ " = " ++ e.2.print) ++ ["/",""]

def Card.lines (c : Card) : List String := c.title :: c.rows ++ [""]

/-- The text that is written. -/
def Input.content (i : Input) : String :=
  "\n".intercalate (i.namelists.flatMap Namelist.lines ++ i.cards.flatMap Card.lines)

/-- What a program finds under a name of a namelist. -/
def Input.entry (i : Input) (name key : String) : Option Value :=
  (i.namelists.find? (·.name = name)).bind fun n => n.entries.lookup key

def Input.card (i : Input) (title : String) : Option (List String) :=
  (i.cards.find? (·.title = title)).map (·.rows)

end Print

abbrev Vec (F : Type) := F × F × F

/-- ASE's `Atoms`; the positions as `get_scaled_positions` gives them, the cell in Å. -/
structure Atoms (F : Type) where
  symbols : List String
  scaledPositions : List (Vec F)
  cell : List (Vec F)
  pbc : List Bool := [true,true,true]

/-- An entry of the compiler's `MATERIAL_DB`. -/
structure Entry extends Material where
  inputDft : Option String := none

/-- The dictionary that `_resolve` calls `db`. -/
structure Profile (F : Type) where
  ibrav : ℤ
  nspecies : ℕ
  species : List String
  masses : List F
  pseudos : List (String × String)
  occupations : String
  smearing : String
  degauss : ℚ
  inputDft : Option String := none
  ecutwfcDefault : Option ℚ
  ecutrhoDefault : Option ℚ
  kpointsDefault : Option (List ℤ)
  isMetal : Bool

/-- The built-in entries. -/
def builtinEntries : List (String × Entry) := [
  ("Si",{
    formula := "Si", structureType := "diamond", spaceGroup := "Fd-3m", ibrav := 2
    geometry := .primitive (543 / 100) 2, nspecies := 1, species := ["Si"], masses := [28086 / 1000]
    pseudos := [("Si","Si_r.upf")], occupations := "smearing", smearing := "mp", degauss := 5 / 1000
    ecutwfcDefault := some 25, ecutrhoDefault := some 200, kpointsDefault := some [4,4,4,1,1,1]
    isMetal := false }),
  ("Al",{
    formula := "Al", structureType := "fcc", spaceGroup := "Fm-3m", ibrav := 2
    geometry := .primitive (405 / 100) 1, nspecies := 1, species := ["Al"], masses := [26982 / 1000]
    pseudos := [("Al","Al.upf")], occupations := "smearing", smearing := "mp", degauss := 2 / 100
    ecutwfcDefault := some 20, ecutrhoDefault := some 160, kpointsDefault := some [8,8,8,1,1,1]
    isMetal := true }),
  ("MgO",{
    formula := "MgO", structureType := "nacl", spaceGroup := "Fm-3m", ibrav := 2
    geometry := .primitive (421 / 100) 2, nspecies := 2, species := ["Mg","O"]
    masses := [24305 / 1000,15999 / 1000], pseudos := [("Mg","Mg.pz-n-vbc.UPF"),("O","O-q6.gth")]
    occupations := "smearing", smearing := "mp", degauss := 1 / 100
    ecutwfcDefault := some 40, ecutrhoDefault := some 320, kpointsDefault := some [4,4,4,1,1,1]
    isMetal := false, inputDft := some "pz" })]

/-- The compiler with its table, its directory, and what it takes from its libraries. -/
structure QECompiler (F : Type) where
  f : Floats F
  nums : Numerals
  materials : List (String × Entry)
  pseudoDir : String
  pseudos : PseudoDir
  /-- `str(value)`. -/
  shown : Json → String
  /-- `str(value)` of a number that the code has as a float. -/
  shownFloat : ℚ → String
  /-- `f"{value:.1e}"`; a text raises. -/
  scientific : Json → Option String
  /-- `round(x)`; raises without a finite value. -/
  round : F → Option ℤ
  /-- `Cell.fromcellpar` of the six numbers of an entry. -/
  fromCellpar : List ℚ → Option (List (Vec F))
  /-- The scaled positions of new `Atoms` as they are read back. -/
  scaled : List (Vec F) → List (Vec F) → List (Vec F)
  /-- `cell.cellpar()[:3]`. -/
  lengths : List (Vec F) → Vec F
  /-- The mass in ASE's table of the elements. -/
  atomicMass : String → Option F
  /-- `cell.bandpath(npoints=n, pbc=pbc).kpts`. -/
  bandpath : Atoms F → ℤ → Option (List (Vec F))
  /-- The labelled points of the segments of the path. -/
  pathSegments : Atoms F → Option (List (List (String × Vec F)))

/-- `a or b` for an optional text. -/
def orText (a : Option String) (b : String) : String :=
  match a with
  | some s => if s = "" then b else s
  | none => b

def lowerText (s : String) : String := String.ofList (lower s.toList)

namespace QECompiler
variable {F : Type} (c : QECompiler F)

def vec (v : List ℚ) : Vec F := (c.f.lit (v.getD 0 0),c.f.lit (v.getD 1 0),c.f.lit (v.getD 2 0))

/-- The fcc cell of the three built-in materials. -/
def fccCell (a : ℚ) : List (Vec F) :=
  let half := c.f.div (c.f.lit a) (c.f.lit 2)
  [(c.f.zero,half,half),(half,c.f.zero,half),(half,half,c.f.zero)]

def newAtoms (symbols : List String) (positions cell : List (Vec F)) : Atoms F :=
  { symbols, scaledPositions := c.scaled cell positions, cell }

/-- `build_atoms`. -/
def buildAtoms (material : String) (e : Entry) : Option (Atoms F) :=
  match e.geometry with
  | .cell cellpar sites => (c.fromCellpar cellpar).map fun cell =>
      c.newAtoms (sites.map (·.1)) (sites.map fun site => c.vec site.2) cell
  | .primitive a _ =>
    if material = "Si" then
      some (c.newAtoms ["Si","Si"] [c.vec [0,0,0],c.vec [1 / 4,1 / 4,1 / 4]] (c.fccCell a))
    else if material = "Al" then some (c.newAtoms ["Al"] [c.vec [0,0,0]] (c.fccCell a))
    else if material = "MgO" then
      some (c.newAtoms ["Mg","O"] [c.vec [0,0,0],c.vec [1 / 2,1 / 2,1 / 2]] (c.fccCell a))
    else none

def profile (e : Entry) : Profile F where
  ibrav := e.ibrav
  nspecies := e.nspecies
  species := e.species
  masses := e.masses.map c.f.lit
  pseudos := e.pseudos
  occupations := e.occupations
  smearing := e.smearing
  degauss := e.degauss
  inputDft := e.inputDft
  ecutwfcDefault := e.ecutwfcDefault
  ecutrhoDefault := e.ecutrhoDefault
  kpointsDefault := e.kpointsDefault
  isMetal := e.isMetal

/-- The file of an element in the directory. -/
def pseudoOf (el : String) : Option String :=
  [el ++ ".upf",el ++ ".UPF"].find? fun file => (c.pseudos.lookup file).isSome

/-- One division of the mesh of a structure. -/
def division (length : F) (periodic : Bool) : Option ℤ :=
  if periodic then (c.round (c.f.div (c.f.lit 24) length)).map fun n => max 1 (min 8 n) else some 1

/-- `max` of the three lengths. -/
def longest (lengths : Vec F) : F :=
  let first := if c.f.lt lengths.1 lengths.2.1 then lengths.2.1 else lengths.1
  if c.f.lt first lengths.2.2 then lengths.2.2 else first

/-- `profile_from_atoms`, with the lattice parameter in Bohr. -/
def profileFromAtoms (atoms : Atoms F) : Option (Profile F × F) := do
  let species := (atoms.symbols.dedup).mergeSort
  let pseudos ← species.mapM fun el => (c.pseudoOf el).map fun file => (el,file)
  let masses ← species.mapM c.atomicMass
  let lengths := c.lengths atoms.cell
  let pbc := if atoms.pbc.length = 3 then atoms.pbc else [true,true,true]
  let k0 ← c.division lengths.1 (pbc.getD 0 true)
  let k1 ← c.division lengths.2.1 (pbc.getD 1 true)
  let k2 ← c.division lengths.2.2 (pbc.getD 2 true)
  return ({
    ibrav := 0, nspecies := species.length, species, masses, pseudos, occupations := "smearing"
    smearing := "mv", degauss := 1 / 100, ecutwfcDefault := some 40, ecutrhoDefault := some 320
    kpointsDefault := some [k0,k1,k2,1,1,1], isMetal := true },
    c.f.mul (c.longest lengths) (c.f.lit bohrPerAng))

/-- `_resolve`: the profile, the atoms, and the lattice parameter in Bohr. -/
def resolve (material : String) (atoms : Option (Atoms F)) : Option (Profile F × Atoms F × F) :=
  match atoms with
  | some atoms => (c.profileFromAtoms atoms).map fun p => (p.1,atoms,p.2)
  | none => do
    let e ← c.materials.lookup material
    let atoms ← c.buildAtoms material e
    return (c.profile e,atoms,c.f.mul (c.f.lit e.latticeAngstrom) (c.f.lit bohrPerAng))

/-- `_check_pseudos` finds nothing missing. -/
def hasPseudos (db : Profile F) : Bool := db.pseudos.all fun p => (c.pseudos.lookup p.2).isSome

/-- A cutoff that is given, else the profile's; without either it raises. -/
def cutoff (given : Option Json) (default : Option ℚ) : Option String :=
  (given.map c.shown).or (default.map c.shownFloat)

/-- `tuple(kpoints) if kpoints else tuple(db.get("kpoints_default", …))`. -/
def mesh (kpoints : Option (List Json)) (db : Profile F) : List Json :=
  match kpoints with
  | some (k :: ks) => k :: ks
  | _ => (db.kpointsDefault.getD [4,4,4,1,1,1]).map fun n => .num n

/-- The row of six numbers; a shorter mesh raises. -/
def meshRow : List Json → Option String
  | k0 :: k1 :: k2 :: s0 :: s1 :: s2 :: _ =>
    some ("  " ++ c.shown k0 ++ " " ++ c.shown k1 ++ " " ++ c.shown k2 ++ "  " ++
      c.shown s0 ++ " " ++ c.shown s1 ++ " " ++ c.shown s2)
  | _ => none

def vecText (v : Vec F) : String :=
  c.f.format ".8f" v.1 ++ "  " ++ c.f.format ".8f" v.2.1 ++ "  " ++ c.f.format ".8f" v.2.2

/-- The keyword arguments of `compile_t1`. -/
structure T1Args (F : Type) where
  qePrefix : Option String := none
  ecutwfc : Option Json := none
  ecutrho : Option Json := none
  kpoints : Option (List Json) := none
  forceThreshold : ℚ := 1 / 1000
  pressureThreshold : ℚ := 1 / 2
  convThr : Json := .num (1 / 10 ^ 8)
  cellDynamics : String := "bfgs"
  nstep : Json := .num 200
  cellOptimization : Json := .bool true
  atoms : Option (Atoms F) := none

/-- `compile_t1`; nothing where it raises. -/
def compileT1 (material : String) (o : T1Args F) : Option Input := do
  let (db,atoms,alatBohr) ← c.resolve material o.atoms
  let qePrefix := orText o.qePrefix (lowerText material)
  let ecutwfc ← c.cutoff o.ecutwfc db.ecutwfcDefault
  let ecutrho ← c.cutoff o.ecutrho db.ecutrhoDefault
  guard (c.hasPseudos db)
  let convThr ← c.scientific o.convThr
  let species ← (db.species.zip db.masses).mapM fun (elem,mass) =>
    (db.pseudos.lookup elem).map fun file => "  " ++ elem ++ "  " ++ c.f.format ".3f" mass ++ "  " ++ file
  let kpoints ← c.meshRow (mesh o.kpoints db)
  let alatAng := c.f.div alatBohr (c.f.lit bohrPerAng)
  return {
    namelists := [
      ⟨"CONTROL",[
        ("calculation",.text (if truthy o.cellOptimization then "vc-relax" else "relax")),
        ("prefix",.text qePrefix),("outdir",.text "./"),("pseudo_dir",.text c.pseudoDir),
        ("nstep",.bare (c.shown o.nstep)),
        ("forc_conv_thr",.bare (c.f.format ".6g" (c.f.lit o.forceThreshold)))]⟩,
      ⟨"SYSTEM",[
        ("ibrav",.bare (toString db.ibrav)),("celldm(1)",.bare (c.f.format ".6f" alatBohr)),
        ("nat",.bare (toString atoms.symbols.length)),("ntyp",.bare (toString db.nspecies)),
        ("ecutwfc",.bare ecutwfc),("ecutrho",.bare ecutrho),
        ("occupations",.text db.occupations),("smearing",.text db.smearing),
        ("degauss",.bare (c.shownFloat db.degauss))] ++
        match db.inputDft with
        | some dft => if dft = "" then [] else [("input_dft",.text dft)]
        | none => []⟩,
      ⟨"ELECTRONS",[("conv_thr",.bare convThr),("mixing_beta",.bare "0.7")]⟩,
      ⟨"IONS",[("ion_dynamics",.text "bfgs")]⟩] ++
      if truthy o.cellOptimization then [⟨"CELL",[
        ("cell_dynamics",.text o.cellDynamics),("press",.bare "0.0"),
        ("press_conv_thr",.bare (c.f.format ".6g" (c.f.lit o.pressureThreshold)))]⟩]
      else []
    cards := [
      ⟨"ATOMIC_SPECIES",species⟩,
      ⟨"ATOMIC_POSITIONS (crystal)",(atoms.symbols.zip atoms.scaledPositions).map fun (sym,pos) =>
        "  " ++ sym ++ "  " ++ c.vecText pos⟩] ++
      (if db.ibrav = 0 then [⟨"CELL_PARAMETERS (alat=1.0)",atoms.cell.map fun v =>
        "  " ++ c.vecText (c.f.div v.1 alatAng,c.f.div v.2.1 alatAng,c.f.div v.2.2 alatAng)⟩]
      else []) ++ [⟨"K_POINTS automatic",[kpoints]⟩] }

/-- The keyword arguments of `compile_scf`. -/
structure ScfArgs (F : Type) where
  qePrefix : Option String := none
  calculation : String := "scf"
  ecutwfc : Option Json := none
  ecutrho : Option Json := none
  kpoints : Option (List Json) := none
  convThr : Json := .num (1 / 10 ^ 8)
  nbnd : Option Json := none
  nkpointsBands : ℤ := 60
  atoms : Option (Atoms F) := none
  kmode : String := "path"

/-- The number of bands from the valence electrons of the atoms' files. -/
def derivedBands (db : Profile F) (atoms : Atoms F) : Option ℤ := do
  let valences ← atoms.symbols.mapM fun s => do
    let file ← db.pseudos.lookup s
    let text ← c.pseudos.lookup file
    return readZValence c.nums text
  return max (atoms.symbols.length * 4) (⌈valences.sum / 2⌉ + if db.isMetal then 12 else 8)

/-- The denser mesh of a uniform nscf run. -/
def doubled (kpoints : List Json) : Option (List Json) :=
  ((kpoints.take 3).mapM fun k => (numberOf k).map fun n =>
    if 1 < n then Json.num (max 1 (2 * n)) else .num 1).map (· ++ kpoints.drop 3)

/-- The k-points: a path for the bands, else a mesh. -/
def kpointsCard (o : ScfArgs F) (db : Profile F) (atoms : Atoms F) : Option Card :=
  if o.calculation = "nscf" ∧ o.kmode = "path" then
    (c.bandpath atoms (max 10 o.nkpointsBands)).map fun points =>
      ⟨"K_POINTS crystal",("  " ++ toString points.length) ::
        points.map fun k => "  " ++ c.vecText k ++ "  1.0"⟩
  else do
    let kpoints ← if o.calculation = "nscf" then doubled (mesh o.kpoints db) else some (mesh o.kpoints db)
    let row ← c.meshRow kpoints
    return ⟨"K_POINTS automatic",[row]⟩

/-- `compile_scf`; nothing where it raises. -/
def compileScf (material : String) (o : ScfArgs F) : Option Input := do
  let (db,atoms,alatBohr) ← c.resolve material o.atoms
  let qePrefix := orText o.qePrefix (lowerText material)
  let ecutwfc ← c.cutoff o.ecutwfc db.ecutwfcDefault
  let ecutrho ← c.cutoff o.ecutrho db.ecutrhoDefault
  guard (c.hasPseudos db)
  let nbnd ← o.nbnd.or ((c.derivedBands db atoms).map fun n => Json.num n)
  let convThr ← c.scientific o.convThr
  let species ← (db.species.zip db.masses).mapM fun (elem,mass) =>
    (db.pseudos.lookup elem).map fun file => "  " ++ elem ++ "  " ++ c.f.format ".3f" mass ++ "  " ++ file
  let kpoints ← c.kpointsCard o db atoms
  let alatAng := c.f.div alatBohr (c.f.lit bohrPerAng)
  return {
    namelists := [
      ⟨"CONTROL",[
        ("calculation",.text o.calculation),("prefix",.text qePrefix),("outdir",.text "./"),
        ("pseudo_dir",.text c.pseudoDir)] ++
        if o.calculation = "bands" ∨ o.calculation = "nscf" then
          [("restart_mode",Value.text "from_scratch")]
        else []⟩,
      ⟨"SYSTEM",[
        ("ibrav",.bare (toString db.ibrav)),("celldm(1)",.bare (c.f.format ".6f" alatBohr)),
        ("nat",.bare (toString atoms.symbols.length)),("ntyp",.bare (toString db.nspecies)),
        ("ecutwfc",.bare ecutwfc),("ecutrho",.bare ecutrho),
        ("occupations",.text db.occupations),("smearing",.text db.smearing),
        ("degauss",.bare (c.shownFloat db.degauss)),("nbnd",.bare (c.shown nbnd))]⟩,
      ⟨"ELECTRONS",[("conv_thr",.bare convThr),("mixing_beta",.bare "0.7")]⟩]
    cards := [
      ⟨"ATOMIC_SPECIES",species⟩,
      ⟨"ATOMIC_POSITIONS (crystal)",(atoms.symbols.zip atoms.scaledPositions).map fun (sym,pos) =>
        "  " ++ sym ++ "  " ++ c.vecText pos⟩] ++
      (if db.ibrav = 0 then [⟨"CELL_PARAMETERS (alat=1.0)",atoms.cell.map fun v =>
        "  " ++ c.vecText (c.f.div v.1 alatAng,c.f.div v.2.1 alatAng,c.f.div v.2.2 alatAng)⟩]
      else []) ++ [kpoints] }

/-- The labelled points of the path, without repeating the one before. -/
def flatPath (segments : List (List (String × Vec F))) : List (String × Vec F) :=
  segments.flatten.foldl (fun flat pt =>
    match flat.getLast? with
    | some last => if c.f.eq last.2.1 pt.2.1 && c.f.eq last.2.2.1 pt.2.2.1 && c.f.eq last.2.2.2 pt.2.2.2
        then flat else flat ++ [pt]
    | none => [pt]) []

/-- `_LABEL_MAP.get(label, label)`. -/
def labelOf (label : String) : String := if label = "G" then "GAMMA" else label

/-- `compile_bands_input` without an explicit path. -/
def compileBandsInput (material : String) (qePrefix : Option String) (atoms : Option (Atoms F)) :
    Option Input := do
  let src ← atoms.or ((c.materials.lookup material).bind (c.buildAtoms material))
  let segments ← c.pathSegments src
  let flat := c.flatPath segments
  return {
    namelists := [⟨"bands",[
      ("prefix",.text (orText qePrefix (lowerText material))),("outdir",.text "./"),
      ("lsym",.bare ".true."),("no_overlap",.bare ".true.")]⟩]
    cards := [⟨toString flat.length,flat.map fun pt => "  " ++ c.vecText pt.2 ++ "  " ++ labelOf pt.1⟩,
      ⟨"0",[]⟩] }

/-- The keyword arguments of `compile_dos_input`. -/
structure DosArgs where
  qePrefix : Option String := none
  emin : Option Json := none
  emax : Option Json := none
  deltae : Json := .num (1 / 100)
  fwhm : Json := .num (5 / 100)
  ngauss : ℤ := 1

/-- `compile_dos_input`. -/
def compileDosInput (material : String) (hasAtoms : Bool) (o : DosArgs) : Option Input :=
  if hasAtoms || (c.materials.lookup material).isSome then some {
    namelists := [⟨"dos",[
      ("prefix",.text (orText o.qePrefix (lowerText material))),("outdir",.text "./"),
      ("ngauss",.bare (toString o.ngauss)),("degauss",.bare (c.shown o.fwhm)),
      ("DeltaE",.bare (c.shown o.deltae))] ++
      (o.emin.map fun e => ("Emin",Value.bare (c.shown e))).toList ++
      (o.emax.map fun e => ("Emax",Value.bare (c.shown e))).toList⟩] }
  else none

end QECompiler
end DftForge.Compiler
