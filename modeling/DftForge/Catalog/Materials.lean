import DftForge.Runtime.Json

/-! # Material entries and profiles

The records of the material tables, the three built-in ones, and the profile that a
task carries. The generated library table is a parameter of the catalogue.
-/
namespace DftForge.Catalog
open DftForge.Runtime

/-- The cell of an entry: a prototype by its lattice constant, or an explicit cell. -/
inductive Geometry where
  | primitive (latticeConstantAngstrom : ℚ) (natomsPrimitive : ℕ)
  | cell (cellpar : List ℚ) (sites : List (String × List ℚ))

structure Material where
  formula : String
  structureType : String
  spaceGroup : String
  ibrav : ℤ
  geometry : Geometry
  nspecies : ℕ
  species : List String
  masses : List ℚ
  pseudos : List (String × String)
  occupations : String
  smearing : String
  degauss : ℚ
  charge : ℤ := 0
  isMetal : Bool
  ecutwfcDefault : Option ℚ := none
  ecutrhoDefault : Option ℚ := none
  kpointsDefault : Option (List ℤ) := none

structure MaterialProfile where
  formula : String
  structureType : String
  spaceGroup : String
  ibrav : ℤ
  latticeConstantBohr : ℚ
  natoms : ℕ
  nspecies : ℕ
  species : List String
  masses : List ℚ
  pseudos : List (String × String)
  occupations : String
  smearing : String
  degauss : ℚ
  charge : ℤ
  isMetal : Bool

def bohrPerAng : ℚ := 18897261246 / 10000000000

namespace Material
variable (m : Material)

def latticeAngstrom : ℚ :=
  match m.geometry with
  | .primitive a _ => a
  | .cell cellpar _ => cellpar.headD 0

/-- `len(db["sites"]) if "sites" in db else db["natoms_primitive"]`. -/
def natoms : ℕ :=
  match m.geometry with
  | .primitive _ natoms => natoms
  | .cell _ sites => sites.length

def profile : MaterialProfile :=
  { formula := m.formula, structureType := m.structureType, spaceGroup := m.spaceGroup, ibrav := m.ibrav
    latticeConstantBohr := m.latticeAngstrom * bohrPerAng
    natoms := m.natoms, nspecies := m.nspecies, species := m.species, masses := m.masses
    pseudos := m.pseudos, occupations := m.occupations, smearing := m.smearing
    degauss := m.degauss, charge := m.charge, isMetal := m.isMetal }

end Material

/-- `MATERIALS` as the module is loaded. -/
def builtinMaterials : List (String × Material) := [
  ("Si",{
    formula := "Si", structureType := "diamond", spaceGroup := "Fd-3m", ibrav := 2
    geometry := .primitive (543 / 100) 2, nspecies := 1, species := ["Si"], masses := [28086 / 1000]
    pseudos := [("Si","Si_r.upf")], occupations := "smearing", smearing := "mp", degauss := 5 / 1000
    isMetal := false }),
  ("Al",{
    formula := "Al", structureType := "fcc", spaceGroup := "Fm-3m", ibrav := 2
    geometry := .primitive (405 / 100) 1, nspecies := 1, species := ["Al"], masses := [26982 / 1000]
    pseudos := [("Al","Al.upf")], occupations := "smearing", smearing := "mp", degauss := 2 / 100
    isMetal := true }),
  ("MgO",{
    formula := "MgO", structureType := "nacl", spaceGroup := "Fm-3m", ibrav := 2
    geometry := .primitive (421 / 100) 2, nspecies := 2, species := ["Mg","O"]
    masses := [24305 / 1000,15999 / 1000], pseudos := [("Mg","Mg.pz-n-vbc.UPF"),("O","O-q6.gth")]
    occupations := "smearing", smearing := "mp", degauss := 1 / 100, isMetal := false })]

end DftForge.Catalog
