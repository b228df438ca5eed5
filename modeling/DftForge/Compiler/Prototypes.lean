import DftForge.Catalog.Materials
import DftForge.Qe.Recovery

/-! # Prototype cells and catalogue cells

`formula_atoms` and `reference_elements`, which guess a structure from a formula, beside the
cells of `MATERIAL_DB`, and the choice between the two that a calculation makes. Cells are
the symbols of their atoms. What pymatgen reads in a formula and the covalent radii of ASE
are parameters.
-/
namespace DftForge.Compiler
open DftForge.Runtime DftForge.Python DftForge.Qe

/-- What the libraries say about a formula. -/
structure Formulas where
  /-- `Composition(formula).as_dict()` in its order, or the text of the exception. -/
  composition : String → Except String (List (String × ℚ))
  /-- `Composition(formula).reduced_formula`. -/
  reduced : String → String
  /-- `_cov_radius`. -/
  covRadius : String → ℚ
  /-- `repr(text)`. -/
  repr : String → String

section Tables

def diamondEls : List String := ["C","Si","Ge","Sn"]

def bccEls : List String := ["Fe","Cr","W","Mo","V","Nb","Ta","K","Na","Li"]

def hcpEls : List String := ["Mg","Zn","Ti","Zr","Co","Be","Ru","Os","Sc","Y","Hf","Re"]

def fccEls : List String := ["Al","Cu","Ag","Au","Ni","Ca","Sr","Ir","Rh","Pd","Pt","Pb"]

/-- The keys of `PEROVSKITE_A`. -/
def perovskites : List String := [
  "CaTiO3","SrTiO3","BaTiO3","KTaO3","KNbO3","PbTiO3","SrZrO3","BaZrO3","LaAlO3","LaFeO3",
  "SrCoO3","BaSnO3","SrSnO3","CaZrO3","PbZrO3","LaCrO3","YAlO3","NaTaO3","AgNbO3","BiFeO3"]

def zincblendeFormulas : List String := [
  "AlAs","AlP","AlSb","CdS","CdSe","CdTe","GaAs","GaP","GaSb","InAs","InP","InSb","SiC","ZnS",
  "ZnSe","ZnTe"]

def rocksaltFormulas : List String := [
  "AgCl","AgBr","BaO","CaO","KBr","KCl","KF","LiBr","LiCl","LiF","MgO","NaBr","NaCl","NaF","NiO",
  "SrO"]

def fluoriteFormulas : List String := ["BaF2","CaF2","CeO2","SrF2","ThO2","UO2"]

def antifluoriteFormulas : List String := ["K2O","Li2O","Na2O"]

/-- `TMD_BULKS` with the metal and the chalcogen of each. -/
def tmdBulks : List (String × String × String) := [
  ("MoS2","Mo","S"),("WS2","W","S"),("MoSe2","Mo","Se"),("WSe2","W","Se"),("MoTe2","Mo","Te"),
  ("WTe2","W","Te")]

/-- The symbols of the cells that `build_atoms` gives for the keys of `MATERIAL_DB`. -/
def catalogueCells : List (String × List String) := [
  ("Si",["Si","Si"]),("Al",["Al"]),("MgO",["Mg","O"]),("Ag",["Ag"]),("AlAs",["Al","As"]),
  ("AlN",["Al","Al","N","N"]),("AlP",["Al","P"]),("AlSb",["Al","Sb"]),("Au",["Au"]),
  ("BN",["B","B","N","N"]),("Be",["Be","Be"]),("C",["C","C"]),("Ca",["Ca"]),("CaO",["Ca","O"]),
  ("Cd",["Cd","Cd"]),("CdS",["Cd","Cd","S","S"]),("CdSe",["Cd","Se"]),("CdTe",["Cd","Te"]),
  ("CsCl",["Cs","Cl"]),("Cu",["Cu"]),("Ga",["Ga","Ga","Ga","Ga"]),("GaAs",["Ga","As"]),
  ("GaN",["Ga","Ga","N","N"]),("GaP",["Ga","P"]),("GaSb",["Ga","Sb"]),("Ge",["Ge","Ge"]),("In",["In"]),
  ("InAs",["In","As"]),("InP",["In","P"]),("InSb",["In","Sb"]),("K",["K"]),("KBr",["K","Br"]),
  ("KCl",["K","Cl"]),("KF",["K","F"]),("Li",["Li"]),("LiBr",["Li","Br"]),("LiCl",["Li","Cl"]),
  ("LiF",["Li","F"]),("Mg",["Mg","Mg"]),("Na",["Na"]),("NaBr",["Na","Br"]),("NaCl",["Na","Cl"]),
  ("NaF",["Na","F"]),("P",["P","P","P","P"]),("Pb",["Pb"]),("Pd",["Pd"]),("Pt",["Pt"]),("Rb",["Rb"]),
  ("RbCl",["Rb","Cl"]),("Sn",["Sn","Sn"]),("Sr",["Sr","Sr"]),("SrO",["Sr","O"]),("Zn",["Zn","Zn"]),
  ("ZnO",["Zn","Zn","O","O"]),("ZnS",["Zn","S"]),("ZnSe",["Zn","Se"]),("ZnTe",["Zn","Te"])]

end Tables

section Prototypes
variable (covRadius : String → ℚ) (formula : String)

/-- The cell of one element. -/
def elementCell (el : String) : Except String (List String × String) :=
  if el ∈ diamondEls then .ok (List.replicate 8 el,"diamond")
  else if el ∈ bccEls then .ok (List.replicate 2 el,"bcc")
  else if el ∈ hcpEls then .ok (List.replicate 2 el,"hcp")
  else if el ∈ fccEls then .ok (List.replicate 4 el,"fcc")
  else .error ("no trusted elemental prototype for '" ++ formula ++ "'; provide a CIF/POSCAR structure")

/-- `sorted(comp, key=lambda e: -comp[e])` with the rounded amounts; the sort is stable. -/
def byAmount (comp : List (String × ℚ)) : List (String × ℤ) :=
  (comp.insertionSort fun a b => b.2 ≤ a.2).map fun e => (e.1,roundHalfEven e.2)

/-- `sorted(nums)`. -/
def sortedNums (els : List (String × ℤ)) : List ℤ := (els.map (·.2)).insertionSort (· ≤ ·)

/-- The A site is the first of the larger cations. -/
def perovskiteCell (els : List String) : List String × String :=
  let aSite := ((els.filter (· ≠ "O")).argmax covRadius).getD ""
  let bSite := (els.find? fun e => e ≠ "O" ∧ e ≠ aSite).getD ""
  ([aSite,bSite,"O","O","O"],"perovskite")

/-- The first key of `TMD_BULKS` that is the formula without regard to case. -/
def tmdKey (key : String) : Option (String × String) :=
  (tmdBulks.find? fun k => lower k.1.toList = lower key.toList).map (·.2)

def tmdCell (metal chalc : String) : List String × String :=
  ([metal,chalc,chalc,metal,chalc,chalc],"tmd-2h")

/-- The branches for two elements of one atom each. -/
def pairCell (key e1 e2 : String) : Except String (List String × String) :=
  if key ∈ zincblendeFormulas then .ok ([e1,e2],"zincblende")
  else if key ∈ rocksaltFormulas then .ok ([e1,e2],"rocksalt")
  else .error ("formula '" ++ formula ++ "' has no unique trusted prototype; provide a CIF/POSCAR structure")

/-- The branches for one atom of an element and two of another. -/
def fluoriteCell (key one two : String) : Except String (List String × String) :=
  if key ∈ fluoriteFormulas ∨ key ∈ antifluoriteFormulas then .ok ([one,two,two],"fluorite")
  else .error ("formula '" ++ formula ++ "' is not a trusted fluorite/antifluorite material; " ++
    "provide a CIF/POSCAR structure")

/-- The branches after the perovskites. -/
def layeredOrBinary (key : String) (els : List (String × ℤ)) : Except String (List String × String) :=
  match tmdKey key with
  | some (metal, chalc) => .ok (tmdCell metal chalc)
  | none =>
    match els with
    | [(e1, 1), (e2, 1)] => pairCell formula key e1 e2
    | [(e1, 1), (e2, 2)] => fluoriteCell formula key e1 e2
    | [(e1, 2), (e2, 1)] => fluoriteCell formula key e2 e1
    | _ => .error ("no trusted structure prototype for '" ++ formula ++
        "' (supports selected elemental, AB, ABO3, AB2 and MoS2-family materials). " ++
        "Provide a CIF file or use structure.build2d for 2D monolayers.")

/-- What `formula_atoms` builds from a composition and its reduced formula. -/
def prototype (comp : List (String × ℚ)) (key : String) : Except String (List String × String) :=
  let els := byAmount comp
  if ∃ e ∈ els, e.2 ≤ 0 then .error ("cannot parse formula: " ++ formula)
  else match els with
    | [(el, _)] => elementCell formula el
    | els =>
      if key ∈ perovskites ∧ els.length = 3 ∧ "O" ∈ els.map (·.1) ∧ sortedNums els = [1,1,3] ∧
          comp.lookup "O" = some 3 then .ok (perovskiteCell covRadius (els.map (·.1)))
      else layeredOrBinary formula key els

end Prototypes

namespace Formulas
variable (c : Formulas) (formula : String)

/-- `formula_atoms`: the symbols of the atoms and the name of the prototype. -/
def formulaAtoms : Except String (List String × String) :=
  match c.composition formula with
  | .error message => .error message
  | .ok comp => prototype c.covRadius formula comp (c.reduced formula)

/-- `reference_elements`. -/
def referenceElements : Except String (List String) :=
  (c.formulaAtoms formula).map fun atoms => atoms.1.eraseDups

end Formulas

theorem nodup_eraseDups (symbols : List String) : symbols.eraseDups.Nodup := by
  induction hn : symbols.length using Nat.strong_induction_on generalizing symbols with
  | _ n ih =>
    cases symbols with
    | nil => exact List.nodup_nil
    | cons el rest =>
      rw [List.eraseDups_cons, List.nodup_cons]
      refine ⟨?_,ih _ ?_ _ rfl⟩
      · rw [List.mem_eraseDups, List.mem_filter]
        simp
      · rw [← hn, List.length_cons]
        exact Nat.lt_succ_of_le (List.length_filter_le _ _)

theorem Formulas.referenceElements_nodup {c : Formulas} {formula : String} {elements : List String}
    (h : c.referenceElements formula = .ok elements) : elements.Nodup := by
  unfold Formulas.referenceElements at h
  cases hatoms : c.formulaAtoms formula with
  | error message =>
    rw [hatoms] at h
    cases h
  | ok atoms =>
    rw [hatoms] at h
    obtain rfl := Except.ok.inj h
    exact nodup_eraseDups _

section Suffix

/-- `Path(text).name`. -/
def pathName (text : Text) : Text :=
  ((text.splitOn '/').filter fun part => part ≠ [] ∧ part ≠ ['.']).getLastD []

/-- `Path(text).suffix`. -/
def pathSuffix (text : Text) : Text :=
  let name := (pathName text).reverse
  match name.takeWhile (· ≠ '.'), name.dropWhile (· ≠ '.') with
  | [], _ => []
  | _, [] => []
  | _, [_] => []
  | extension, _ => '.' :: extension.reverse

/-- `Path(text).suffix.lower() in (".cif", ".poscar", ".xyz")`. -/
def namesStructureFile (text : String) : Bool :=
  let suffix := lower (pathSuffix text.toList)
  decide (suffix = ".cif".toList ∨ suffix = ".poscar".toList ∨ suffix = ".xyz".toList)

example : namesStructureFile "work/NaCl.CIF" = true ∧ namesStructureFile "NaCl" = false ∧
    namesStructureFile ".cif" = false := by decide +kernel

end Suffix

/-- The cell of a calculation as `QECalcTool.execute` chooses it; `read` is `read_structure`. -/
def Formulas.cell (c : Formulas) (read : String → Except String (List String)) (material : String)
    (structure_ : Option String) : Except String (List String) :=
  match structure_ with
  | some path => read path
  | none =>
    if material = "" then .error "qe node missing 'material' param"
    else match catalogueCells.lookup material with
      | some symbols => .ok symbols
      | none =>
        if namesStructureFile material then read material
        else (c.formulaAtoms material).map (·.1)

/-- The composition that a catalogue key spells out. -/
def spelled (cell : List String) : List (String × ℚ) := cell.eraseDups.map fun el => (el,1)

/-- The readings of the catalogue keys; every other text is refused. -/
def catalogueFormulas : Formulas where
  composition text := match catalogueCells.lookup text with
    | some cell => .ok (spelled cell)
    | none => .error (text ++ " is an invalid formula!")
  reduced text := text
  covRadius _ := 0
  repr text := "'" ++ text ++ "'"

end DftForge.Compiler
