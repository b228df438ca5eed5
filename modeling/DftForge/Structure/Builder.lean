import DftForge.Structure.Import
import DftForge.Tools.Registry
import Mathlib.Data.List.MinMax

/-! # The structure builder

`build_2d` and `dope_3d`, the commands over them and the tools over the commands. Numbers are
exact, and distances are compared by their squares. ASE, the readers of structures and the
interpreter are parameters; the file that a command writes is left out.
-/
namespace DftForge.Structure
open DftForge.Runtime DftForge.Python DftForge.Engines

/-- What raises while a structure is built. -/
inductive BuildError where
  /-- `StructureBuildError`, or the error response of a command. -/
  | refused (message : String)
  /-- An exception of a library or of the interpreter. -/
  | raised (message : String)
  deriving DecidableEq

structure Ase where
  unicode : Unicode
  /-- The symbol that an assignment to `atoms.symbols` reads in a text. -/
  readSymbol : Text → Except String Text
  /-- `atomic_numbers.get`. -/
  atomicNumber : Text → Option ℕ
  /-- `ase.build.graphene(a=a)`. -/
  graphene : ℚ → Atoms
  /-- `atoms.center(vacuum=vacuum, axis=2)`. -/
  center : ℚ → Atoms → Atoms
  /-- `make_supercell` with a diagonal matrix. -/
  makeSupercell : Atoms → ℕ × ℕ × ℕ → Atoms
  /-- `neighbor_list("ijD", atoms, cutoff)`. -/
  neighborList : Atoms → ℚ → List (ℕ × ℕ × Vector3)
  /-- `sqrt`. -/
  root : ℚ → ℚ
  fileExists : Text → Bool
  readStructure : Text → Except String Atoms
  /-- `build_atoms`, for the keys of `MATERIAL_DB`. -/
  buildAtoms : Text → Option (Except String Atoms)
  formulaAtoms : Text → Except String Atoms
  repr : Text → String
  /-- `str` of a value that is no text. -/
  str : Json → Text
  /-- A number with so many decimals. -/
  fixed : ℕ → ℚ → String
  /-- What the interpreter says of a value of a wrong type, of a missing key or of an index. -/
  wrongValue : String

/-- `int(text)`. -/
def readInt (u : Unicode) (text : Text) : Option ℤ := readInteger u (strip text)

/-- `text.split(c, 1)` of a text with the character. -/
def splitOnce (c : Char) (text : Text) : Option (Text × Text) :=
  if c ∈ text then some (text.takeWhile (· ≠ c),(text.dropWhile (· ≠ c)).tail) else none

structure Sites where
  top : Vector3
  bridge : Vector3
  hollow : Vector3

structure BuildResult where
  atoms : Atoms
  description : String
  sites : Option Sites := none

structure Dopant where
  element : Text
  index : ℤ

structure Adsorbate where
  element : Text
  site : Text := "top".toList
  height : Option ℚ := none
  siteIndex : ℤ := 0

/-- `TMD_MONOLAYERS`: metal, chalcogen, `a` and the bond. -/
def tmdMonolayers : List (String × String × String × ℚ × ℚ) := [
  ("mos2","Mo","S",316/100,241/100),("ws2","W","S",315/100,241/100),
  ("mose2","Mo","Se",329/100,238/100),("wse2","W","Se",328/100,241/100),
  ("mote2","Mo","Te",352/100,273/100),("wte2","W","Te",351/100,272/100)]

namespace Atoms
variable (x : Atoms)

/-- `atoms.symbols[index] = element`, of a symbol. -/
def setSymbol (index : ℕ) (symbol : Text) : Atoms :=
  { x with sites := x.sites.modify index fun s => { s with symbol := symbol } }

/-- `del atoms[index]`. -/
def delete (index : ℕ) : Atoms := { x with sites := x.sites.eraseIdx index }

/-- `atoms.append(Atom(element, position))`. -/
def append (s : Site) : Atoms := { x with sites := x.sites ++ [s] }

end Atoms

namespace Ase
variable (ase : Ase)

section Distances

/-- The square of `min_distance`. -/
def minDistanceSq (x : Atoms) : Option ℚ :=
  if x.sites.length < 2 then none else ((ase.neighborList x 6).map fun e => normSq e.2.2).min?

def checkDistances (x : Atoms) (what : String) : Except BuildError Unit :=
  match ase.minDistanceSq x with
  | some d =>
    if d < 81/100 then
      .error (.refused (what ++ ": minimum interatomic distance " ++ ase.fixed 3 (ase.root d) ++
        " Å < 0.9 Å"))
    else .ok ()
  | none => .ok ()

end Distances

section Monolayers

def tmdMonolayer (metal chalc : String) (a bond vacuum : ℚ) : Atoms :=
  let inplane := a / ase.root 3
  let dz := ase.root (bond ^ 2 - inplane ^ 2)
  let c := 2 * dz + vacuum
  let cell : CellMatrix := ![![a,0,0],![-a / 2,a * ase.root 3 / 2,0],![0,0,c]]
  { sites := [⟨metal.toList,Matrix.vecMul ![1/3,2/3,1/2] cell⟩,
      ⟨chalc.toList,Matrix.vecMul ![2/3,1/3,1/2 + dz / c] cell⟩,
      ⟨chalc.toList,Matrix.vecMul ![2/3,1/3,1/2 - dz / c] cell⟩]
    cell := cell
    pbc := fun _ => true }

/-- `a or default`. -/
def orDefault (a : Option ℚ) (default : ℚ) : ℚ := (a.filter (· ≠ 0)).getD default

def buildMonolayer (kind : Text) (a : Option ℚ) (vacuum : ℚ) : Except BuildError Atoms :=
  let kind := String.ofList ((lower kind).filter fun c => c ≠ '-' ∧ c ≠ '_')
  if kind = "graphene" then .ok (ase.center (vacuum / 2) (ase.graphene (orDefault a (246/100))))
  else if kind = "bn" ∨ kind = "hbn" then
    .ok (ase.center (vacuum / 2)
      (((ase.graphene (orDefault a (251/100))).setSymbol 0 ['B']).setSymbol 1 ['N']))
  else match tmdMonolayers.lookup kind with
    | some (metal, chalc, a, bond) => .ok (ase.tmdMonolayer metal chalc a bond vacuum)
    | none => .error (.refused ("unsupported monolayer kind: " ++ kind ++ " (graphene | bn | " ++
        " | ".intercalate (tmdMonolayers.map (·.1)) ++ ")"))

end Monolayers

section Supercells

def badSupercell (spec : Text) (example' : String) : BuildError :=
  .refused ("bad supercell spec: " ++ ase.repr spec ++ " (expected e.g. '" ++ example' ++ "')")

def parseSupercell (spec : Text) : Except BuildError (ℕ × ℕ) :=
  let spec := strip (lower (if spec = [] then "1x1".toList else spec))
  match (splitOnce 'x' spec).map fun p => (readInt ase.unicode p.1,readInt ase.unicode p.2) with
  | some (some m, some n) =>
    if m < 1 ∨ n < 1 then .error (ase.badSupercell spec "3x3") else .ok (m.toNat,n.toNat)
  | _ => .error (ase.badSupercell spec "3x3")

def parseSupercell3d (spec : Text) : Except BuildError (ℕ × ℕ × ℕ) :=
  let spec := strip (lower (if spec = [] then "1x1x1".toList else spec))
  match (splitChar 'x' spec).mapM (readInt ase.unicode) with
  | some [m, n] =>
    if m < 1 ∨ n < 1 then .error (ase.badSupercell spec "2x2x2") else .ok (m.toNat,n.toNat,1)
  | some [m, n, p] =>
    if m < 1 ∨ n < 1 ∨ p < 1 then .error (ase.badSupercell spec "2x2x2")
    else .ok (m.toNat,n.toNat,p.toNat)
  | _ => .error (ase.badSupercell spec "2x2x2")

end Supercells

section Modifications

/-- What is raised for an index, with the last index that there is. -/
def outOfRange (what : String) (index : ℤ) (x : Atoms) : BuildError :=
  .refused (what ++ " index " ++ toString index ++ " out of range (0.." ++
    toString ((x.sites.length : ℤ) - 1) ++ ")")

def substitute (x : Atoms) (index : ℤ) (element : Text) : Except BuildError Atoms :=
  if 0 ≤ index ∧ index < x.sites.length then
    match ase.readSymbol element with
    | .ok symbol => .ok (x.setSymbol index.toNat symbol)
    | .error message => .error (.raised message)
  else .error (outOfRange "substitute" index x)

def removeAtom (x : Atoms) (index : ℤ) : Except BuildError Atoms :=
  if 0 ≤ index ∧ index < x.sites.length then .ok (x.delete index.toNat)
  else .error (outOfRange "vacancy" index x)

/-- The square of `hypot` of the first two components. -/
local instance threeAxes : NeZero 3 := ⟨Nat.succ_ne_zero 2⟩

def planarSq (v : Vector3) : ℚ := v 0 * v 0 + v 1 * v 1

def surfaceSites (x : Atoms) (siteIndex : ℤ) : Except BuildError Sites :=
  match (x.sites.map fun s => s.position 2).max? with
  | none => .error (.raised ase.wrongValue)
  | some zTop =>
    let layer := (List.range x.sites.length).filter fun i => |x.position i 2 - zTop| < 1/10
    let ref := layer.getD (siteIndex % layer.length).toNat 0
    let pos := x.position ref
    let nbrs := (((ase.neighborList x 4).filter fun e =>
      e.1 = ref ∧ |e.2.2 2| < 1/10 ∧ e.2.1 ∈ layer).map (·.2.2)).insertionSort fun v w => normSq v ≤ normSq w
    match nbrs with
    | v1 :: v2 :: _ =>
      -- only the first shell tells the lattices apart
      let coord := nbrs.countP fun v => planarSq v < 144/100 * planarSq v1
      let div := if 5 ≤ coord then 3 else 1
      .ok ⟨pos,![pos 0 + v1 0 / 2,pos 1 + v1 1 / 2,pos 2],
        ![pos 0 + (v1 0 + v2 0) / div,pos 1 + (v1 1 + v2 1) / div,pos 2]⟩
    | _ => .error (.refused "reference atom has <2 in-plane neighbours — not a 2D sheet?")

def siteNamed (sites : Sites) (site : Text) : Option Vector3 :=
  if site = "top".toList then some sites.top
  else if site = "bridge".toList then some sites.bridge
  else if site = "hollow".toList then some sites.hollow
  else none

def addAdsorbate (x : Atoms) (element site : Text) (height : ℚ) (siteIndex : ℤ) :
    Except BuildError Atoms :=
  let site := lower site
  if site ∉ ["top".toList,"bridge".toList,"hollow".toList] then
    .error (.refused ("unsupported adsorption site: " ++ String.ofList site ++ " (top | bridge | hollow)"))
  else do
    let sites ← ase.surfaceSites x siteIndex
    let pos := (siteNamed sites site).getD 0
    if ase.atomicNumber element = none then .error (.raised ase.wrongValue)
    else do
      let x := x.append ⟨element,![pos 0,pos 1,pos 2 + height]⟩
      ase.checkDistances x ("adsorb " ++ String.ofList element ++ "@" ++ String.ofList site)
      return x

end Modifications

section Build2d

/-- The loop over the dopants. -/
def substituteAll (x : Atoms) (dopants : List Dopant) : Except BuildError Atoms :=
  dopants.foldlM (fun x d => ase.substitute x d.index d.element) x

/-- The sites that `build_2d` tells of; a refusal leaves none. -/
def toldSites (x : Atoms) (siteIndex : ℤ) : Except BuildError (Option Sites) :=
  match ase.surfaceSites x siteIndex with
  | .ok sites => .ok (some sites)
  | .error (.refused _) => .ok none
  | .error (.raised message) => .error (.raised message)

/-- The arguments of `build_2d`. -/
structure Build2d where
  kind : Text
  supercell : Text := "1x1".toList
  vacancyIndex : Option ℤ := none
  dopants : List Dopant := []
  adsorbate : Option Adsorbate := none
  height : ℚ := 3/2
  vacuum : ℚ := 15
  a : Option ℚ := none

/-- The lattice of `build_2d` before its substitutions. -/
def lattice2d (b : Build2d) : Except BuildError (Atoms × List String) := do
  let x ← ase.buildMonolayer b.kind b.a b.vacuum
  let (m,n) ← ase.parseSupercell b.supercell
  let parts := [String.ofList b.kind]
  let (x,parts) := if (m,n) ≠ (1,1)
    then (ase.makeSupercell x (m,n,1),parts ++ [toString m ++ "x" ++ toString n ++ " supercell"])
    else (x,parts)
  match b.vacancyIndex with
  | none => return (x,parts)
  | some index =>
    let x ← removeAtom x index
    return (x,parts ++ ["vacancy@" ++ toString index])

/-- The adsorbate of `build_2d`. -/
def adsorb2d (b : Build2d) (x : Atoms) : Except BuildError Atoms :=
  match b.adsorbate with
  | none => .ok x
  | some ads => ase.addAdsorbate x ads.element ads.site (ads.height.getD b.height) ads.siteIndex

def dopantPart (d : Dopant) : String := String.ofList d.element ++ "@" ++ toString d.index

def adsorbatePart (ads : Adsorbate) : String := String.ofList ads.element ++ "@" ++ String.ofList ads.site

def build2d (b : Build2d) : Except BuildError BuildResult := do
  let (x,parts) ← ase.lattice2d b
  let x ← ase.substituteAll x b.dopants
  ase.checkDistances x "after lattice modifications"
  let sites ← ase.toldSites x ((b.adsorbate.map Adsorbate.siteIndex).getD 0)
  let x ← ase.adsorb2d b x
  let parts := parts ++ b.dopants.map dopantPart ++ b.adsorbate.toList.map adsorbatePart
  return ⟨x," + ".intercalate parts,sites⟩

/-- The namespace of the command `structure build2d`. -/
structure Build2dArgs where
  kind : Text
  supercell : Text := "1x1".toList
  vacancy : Option ℤ := none
  dopant : List Text := []
  adsorb : Option Text := none
  height : ℚ := 3/2
  vacuum : ℚ := 15

/-- A dopant as the command takes it, `ELEMENT@INDEX`. -/
def parseDopant (spec : Text) : Except BuildError Dopant :=
  match (splitOnce '@' spec).map fun p => (strip p.1,readInt ase.unicode p.2) with
  | some (element, some index) => .ok ⟨element,index⟩
  | _ => .error (.refused ("bad dopant spec " ++ ase.repr spec ++ " (expected ELEMENT@INDEX, e.g. N@0)"))

def parseAdsorb (spec : Text) : Except BuildError Adsorbate :=
  match splitOnce '@' spec with
  | some (element, site) => .ok { element := strip element, site := lower (strip site) }
  | none =>
    .error (.refused ("bad adsorb spec " ++ ase.repr spec ++ " (expected ELEMENT@SITE, e.g. O@hollow)"))

def cmdStructureBuild2d (args : Build2dArgs) : Except BuildError BuildResult := do
  let dopants ← args.dopant.mapM ase.parseDopant
  let adsorbate ← (args.adsorb.filter (· ≠ [])).mapM ase.parseAdsorb
  ase.build2d { kind := args.kind, supercell := args.supercell, vacancyIndex := args.vacancy,
                dopants := dopants, adsorbate := adsorbate, height := args.height, vacuum := args.vacuum }

end Build2d

section Dope

/-- `_pick_substitution_site`. -/
def distanceTo (dopant el : Text) : ℕ :=
  match ase.atomicNumber dopant with
  | none => 0
  | some z => ((((ase.atomicNumber el).getD 999 : ℕ) : ℤ) - z).natAbs

def pickSubstitutionSite (x : Atoms) (dopant : Text) : Except BuildError ℤ :=
  match ((x.symbols.dedup.insertionSort (· ≤ ·)).argmin (ase.distanceTo dopant)) with
  | some el => .ok (x.symbols.idxOf el)
  | none => .error (.raised ase.wrongValue)

/-- The structure that a source names. -/
def source (src : Text) : Except BuildError Atoms :=
  let read := if lower (pathSuffix (pathName src)) ∈ [".cif".toList,".poscar".toList,".xyz".toList] ∧
      ase.fileExists src = true then ase.readStructure src
    else (ase.buildAtoms src).getD (ase.formulaAtoms src)
  read.mapError .raised

/-- The supercell of `dope_3d` before its substitution, with its size. -/
def hostCell (src supercell : Text) : Except BuildError (Atoms × ℕ × ℕ × ℕ) := do
  let x ← ase.source src
  let size ← ase.parseSupercell3d supercell
  return (if size ≠ (1,1,1) then ase.makeSupercell x size else x,size)

/-- `atoms.symbols[index]`, where a negative index counts from the end. -/
def symbolAt (x : Atoms) (index : ℤ) : Except BuildError Text :=
  match x.symbols[(if index < 0 then index + x.sites.length else index).toNat]? with
  | some symbol => if -x.sites.length ≤ index then .ok symbol else .error (.raised ase.wrongValue)
  | none => .error (.raised ase.wrongValue)

/-- The index that `dope_3d` substitutes. -/
def siteIndex (x : Atoms) (dopant : Text) : Option ℤ → Except BuildError ℤ
  | none => ase.pickSubstitutionSite x dopant
  | some index => .ok index

def dope3d (src element supercell : Text) (index : Option ℤ) : Except BuildError BuildResult := do
  let (x,m,n,p) ← ase.hostCell src supercell
  let index ← ase.siteIndex x element index
  let host ← ase.symbolAt x index
  let x ← ase.substitute x index element
  ase.checkDistances x ("dope " ++ String.ofList element ++ "@" ++ toString index)
  return ⟨x,String.ofList host ++ "→" ++ String.ofList element ++ " in " ++ toString m ++ "x" ++ toString n ++
    "x" ++ toString p ++ " supercell (" ++ ase.fixed 1 (100 / x.sites.length) ++ "% nominal, " ++
    toString (x.symbols.count element) ++ " atom)",none⟩

/-- The namespace of the command `structure dope`, with the defaults of its parser. -/
structure DopeArgs where
  source : Text
  element : Text
  supercell : Text := "2x2x2".toList
  index : ℤ := 0

def cmdStructureDope (args : DopeArgs) : Except BuildError BuildResult :=
  ase.dope3d args.source args.element args.supercell (some args.index)

end Dope

section Tools

/-- A value in an f-string. -/
def shown : Json → Text
  | .str s => s.toList
  | v => ase.str v

/-- `args.get(key, default)`, of a text; the schemas refuse the other values. -/
def textArg (args : Dict) (key default : String) : Except BuildError Text :=
  match args.get? key with
  | none => .ok default.toList
  | some (.str s) => .ok s.toList
  | some _ => .error (.raised ase.wrongValue)

/-- `args.get(key, default)`, of a number. -/
def numberArg (args : Dict) (key : String) (default : ℚ) : Except BuildError ℚ :=
  match args.get? key with
  | none => .ok default
  | some (.num q) => .ok q
  | some _ => .error (.raised ase.wrongValue)

def vacancyArg (args : Dict) : Except BuildError (Option ℤ) :=
  match args.get? "vacancy" with
  | none => .ok none
  | some .null => .ok none
  | some (.num q) => if q.isInt then .ok (some q.num) else .error (.raised ase.wrongValue)
  | some _ => .error (.raised ase.wrongValue)

/-- The spec that is made of an entry of `dopants`. -/
def dopantSpec : Json → Except BuildError Text
  | .str s => .ok (s.toList ++ "@0".toList)
  | .obj d => .ok (((Dict.get? d "element").map ase.shown).getD ['X'] ++ '@' ::
      ((Dict.get? d "index").map ase.shown).getD ['0'])
  | _ => .error (.raised ase.wrongValue)

def dopantsArg (args : Dict) : Except BuildError (List Text) :=
  match args.get? "dopants" with
  | none => .ok []
  | some (.arr items) => items.mapM ase.dopantSpec
  | some v => if truthy v then .error (.raised ase.wrongValue) else .ok []

def adsorbArg (args : Dict) : Except BuildError (Option Text) :=
  match args.get? "adsorb" with
  | none => .ok none
  | some (.obj d) =>
    if d.isEmpty then .ok none
    else match Dict.get? d "element" with
      | none => .error (.raised ase.wrongValue)
      | some element =>
        .ok (some (ase.shown element ++ '@' :: ((Dict.get? d "site").map ase.shown).getD "top".toList))
  | some v => if truthy v then .error (.raised ase.wrongValue) else .ok none

/-- `_structure_build2d`. -/
def structureBuild2d (args : Dict) : Except BuildError BuildResult := do
  let dopant ← ase.dopantsArg args
  let kind ← ase.textArg args "kind" "graphene"
  let supercell ← ase.textArg args "supercell" "1x1"
  let vacancy ← ase.vacancyArg args
  let adsorb ← ase.adsorbArg args
  let height ← ase.numberArg args "height" (3/2)
  let vacuum ← ase.numberArg args "vacuum" 15
  ase.cmdStructureBuild2d ⟨kind,supercell,vacancy,dopant,adsorb,height,vacuum⟩

/-- `int(value or 0)`. -/
def intOr0 (v : Json) : Except BuildError ℤ :=
  if truthy v = false then .ok 0
  else match v with
    | .num q => .ok (q.num.tdiv q.den)
    | .bool _ => .ok 1
    | .str s => (readInt ase.unicode s.toList).elim (.error (.raised ase.wrongValue)) .ok
    | _ => .error (.raised ase.wrongValue)

/-- `_structure_dope`. -/
def structureDope (args : Dict) : Except BuildError BuildResult := do
  let src ← ase.textArg args "source" ""
  let element ← ase.textArg args "element" ""
  let supercell ← ase.textArg args "supercell" "2x2x2"
  let index ← ase.intOr0 ((args.get? "index").getD (.num 0))
  ase.cmdStructureDope ⟨src,element,supercell,index⟩

end Tools

end Ase

end DftForge.Structure
