import DftForge.Compiler.Inputs
import DftForge.Qe.Evidence

/-! # The physical system of two inputs

`compile_t1` and `compile_scf` write the same profile line by line, each in its own copy.
The copies differ in the override of the exchange-correlation functional.
-/
namespace DftForge.Compiler
open DftForge.Runtime DftForge.Python DftForge.Catalog DftForge.Qe

/-- The settings of `&SYSTEM` that say which system is computed. -/
def settings : List String := ["ibrav","celldm(1)","nat","ntyp","ecutwfc","ecutrho","occupations","smearing",
  "degauss","input_dft"]

/-- The cards that do: species with their pseudopotentials, positions, cell and mesh. -/
def physicalCards : List String := ["ATOMIC_SPECIES","ATOMIC_POSITIONS (crystal)","CELL_PARAMETERS (alat=1.0)",
  "K_POINTS automatic"]

def SamePhysics (a b : Input) : Prop :=
  (∀ key ∈ settings, a.entry "SYSTEM" key = b.entry "SYSTEM" key) ∧
    ∀ title ∈ physicalCards, a.card title = b.card title

/-- `db.get("input_dft")` is true. -/
def Profile.overrides {F : Type} (db : Profile F) : Bool := db.inputDft.any (· ≠ "")

namespace QECompiler
variable {F : Type} {c : QECompiler F} {material : String} {t : T1Args F} {s : ScfArgs F}

/-- Both compile the same structure with the same cutoffs and mesh, the second for `scf`. -/
structure SameArgs (t : T1Args F) (s : ScfArgs F) : Prop where
  atoms : t.atoms = s.atoms
  ecutwfc : t.ecutwfc = s.ecutwfc
  ecutrho : t.ecutrho = s.ecutrho
  kpoints : t.kpoints = s.kpoints
  calculation : s.calculation = "scf"

section Spec
variable (c) (db : Profile F) (atoms : Atoms F) (alatBohr : F)

def speciesRows : Option (List String) := (db.species.zip db.masses).mapM fun (elem,mass) =>
  (db.pseudos.lookup elem).map fun file => "  " ++ elem ++ "  " ++ c.f.format ".3f" mass ++ "  " ++ file

/-- The entries that both copies write. -/
def systemEntries (ecutwfc ecutrho : String) : List (String × Value) := [
  ("ibrav",.bare (toString db.ibrav)),("celldm(1)",.bare (c.f.format ".6f" alatBohr)),
  ("nat",.bare (toString atoms.symbols.length)),("ntyp",.bare (toString db.nspecies)),
  ("ecutwfc",.bare ecutwfc),("ecutrho",.bare ecutrho),
  ("occupations",.text db.occupations),("smearing",.text db.smearing),
  ("degauss",.bare (c.shownFloat db.degauss))]

def overrideEntries : List (String × Value) :=
  match db.inputDft with
  | some dft => if dft = "" then [] else [("input_dft",.text dft)]
  | none => []

/-- The cards that both copies write. -/
def systemCards (species : List String) (row : String) : List Card :=
  let alatAng := c.f.div alatBohr (c.f.lit bohrPerAng)
  [⟨"ATOMIC_SPECIES",species⟩,
    ⟨"ATOMIC_POSITIONS (crystal)",(atoms.symbols.zip atoms.scaledPositions).map fun (sym,pos) =>
      "  " ++ sym ++ "  " ++ c.vecText pos⟩] ++
    (if db.ibrav = 0 then [⟨"CELL_PARAMETERS (alat=1.0)",atoms.cell.map fun v =>
      "  " ++ c.vecText (c.f.div v.1 alatAng,c.f.div v.2.1 alatAng,c.f.div v.2.2 alatAng)⟩]
    else []) ++ [⟨"K_POINTS automatic",[row]⟩]

end Spec

/-- What an input was compiled from. -/
structure Compiled (c : QECompiler F) (material : String) (given : Option (Atoms F)) (wfc rho : Option Json)
    (mesh? : Option (List Json)) (db : Profile F) (rest : List (String × Value)) (i : Input) : Prop where
  spec : ∃ atoms alat ecutwfc ecutrho species row, c.resolve material given = some (db,atoms,alat) ∧
    c.cutoff wfc db.ecutwfcDefault = some ecutwfc ∧ c.cutoff rho db.ecutrhoDefault = some ecutrho ∧
    c.speciesRows db = some species ∧ c.meshRow (mesh mesh? db) = some row ∧
    (∀ key, i.entry "SYSTEM" key = (c.systemEntries db atoms alat ecutwfc ecutrho ++ rest).lookup key) ∧
    i.cards = c.systemCards db atoms alat species row

theorem compileT1_spec {relax : Input} (h : c.compileT1 material t = some relax) :
    ∃ db, c.Compiled material t.atoms t.ecutwfc t.ecutrho t.kpoints db (overrideEntries db) relax := by
  simp only [compileT1, Option.bind_eq_bind, Option.bind_eq_some_iff, Option.pure_def, Option.some.injEq] at h
  obtain ⟨⟨db,atoms,alat⟩,hresolve,wfc,hwfc,rho,hrho,_,_,_,_,species,hspecies,row,hrow,rfl⟩ := h
  exact ⟨db,⟨atoms,alat,wfc,rho,species,row,hresolve,hwfc,hrho,hspecies,hrow,fun key => rfl,rfl⟩⟩

theorem compileScf_spec {single : Input} (h : c.compileScf material s = some single)
    (hscf : s.calculation = "scf") : ∃ db nbnd,
      c.Compiled material s.atoms s.ecutwfc s.ecutrho s.kpoints db [("nbnd",nbnd)] single := by
  simp only [compileScf, Option.bind_eq_bind, Option.bind_eq_some_iff, Option.pure_def, Option.some.injEq,
    kpointsCard, hscf] at h
  simp only [show ("scf" = "nscf") = False by decide, false_and, if_false, Option.bind_some,
    Option.bind_eq_some_iff, Option.some.injEq] at h
  obtain ⟨⟨db,atoms,alat⟩,hresolve,wfc,hwfc,rho,hrho,_,_,nbnd,_,_,_,species,hspecies,_,⟨row,hrow,rfl⟩,rfl⟩ := h
  exact ⟨db,_,⟨atoms,alat,wfc,rho,species,row,hresolve,hwfc,hrho,hspecies,hrow,fun key => rfl,rfl⟩⟩

section Lookup
variable {db : Profile F} {atoms : Atoms F} {alat : F} {wfc rho : String}

theorem system_isSome : ∀ key ∈ settings, key ≠ "input_dft" →
    ((c.systemEntries db atoms alat wfc rho).lookup key).isSome = true := by
  simp [settings, systemEntries, List.lookup_cons]

theorem system_inputDft : (c.systemEntries db atoms alat wfc rho).lookup "input_dft" = none := by
  simp [systemEntries, List.lookup_cons]

theorem override_inputDft : (overrideEntries db).lookup "input_dft" = none ↔ db.overrides = false := by
  unfold overrideEntries Profile.overrides
  cases db.inputDft with
  | none => simp
  | some dft =>
    by_cases h : dft = ""
    · simp [h]
    · simp [h]

end Lookup

/-- The profile that is compiled overrides the functional. -/
def Overrides (c : QECompiler F) (material : String) (atoms : Option (Atoms F)) : Prop :=
  ∃ db rest, c.resolve material atoms = some (db,rest) ∧ db.overrides = true

/-- The inputs of a relaxation and of a single point describe one system exactly when the
profile does not override the functional. -/
theorem same_physics_iff (hargs : SameArgs t s) {relax single : Input}
    (ht : c.compileT1 material t = some relax) (hs : c.compileScf material s = some single) :
    SamePhysics relax single ↔ ¬ c.Overrides material s.atoms := by
  obtain ⟨db,atoms,alat,wfc,rho,species,row,hresolve,hwfc,hrho,hspecies,hrow,hentry,hcards⟩ := compileT1_spec ht
  obtain ⟨db',nbnd,atoms',alat',wfc',rho',species',row',hresolve',hwfc',hrho',hspecies',hrow',hentry',hcards'⟩ :=
    compileScf_spec hs hargs.calculation
  -- both resolved the same profile, with the same cutoffs and the same mesh
  rw [hargs.atoms, hresolve', Option.some.injEq, Prod.mk.injEq, Prod.mk.injEq] at hresolve
  obtain ⟨rfl,rfl,rfl⟩ := hresolve
  rw [hargs.ecutwfc, hwfc', Option.some.injEq] at hwfc
  rw [hargs.ecutrho, hrho', Option.some.injEq] at hrho
  rw [hspecies', Option.some.injEq] at hspecies
  rw [hargs.kpoints, hrow', Option.some.injEq] at hrow
  subst hwfc hrho hspecies hrow
  have hinput : relax.entry "SYSTEM" "input_dft" = single.entry "SYSTEM" "input_dft" ↔
      db'.overrides = false := by
    rw [hentry, hentry', List.lookup_append, List.lookup_append, system_inputDft, Option.none_or,
      Option.none_or, ← override_inputDft]
    rfl
  constructor
  · rintro ⟨hsettings,_⟩ ⟨db,rest,hdb,hover⟩
    rw [hresolve', Option.some.injEq, Prod.mk.injEq] at hdb
    rw [← hdb.1, hinput.mp (hsettings "input_dft" (by decide))] at hover
    cases hover
  · intro hnot
    refine ⟨fun key hkey => ?_,fun title _ => ?_⟩
    · by_cases hdft : key = "input_dft"
      · rw [hdft, hinput]
        by_contra hover
        exact hnot ⟨db',_,hresolve',Bool.not_eq_false _ |>.mp hover⟩
      · obtain ⟨value,hvalue⟩ := Option.isSome_iff_exists.mp
          (@system_isSome F c db' atoms' alat' wfc' rho' key hkey hdft)
        rw [hentry, hentry', List.lookup_append, List.lookup_append, hvalue]
        rfl
    · rw [Input.card, Input.card, hcards, hcards']

/-- `f"{q:.nf}"` of a rational. -/
def fixed (n : ℕ) (q : ℚ) : String :=
  let digits := toString (roundHalfEven (|q| * 10 ^ n)).toNat
  let padded := "".pushn '0' (n + 1 - digits.length) ++ digits
  (if q < 0 then "-" else "") ++ String.ofList (padded.toList.take (padded.length - n)) ++ "." ++
    String.ofList (padded.toList.drop (padded.length - n))

/-- Without the zeros at the end. -/
def trimmed (s : String) : String := String.ofList (rstripOf (· = '0') s.toList)

/-- The compiler on rationals, with the built-in entries and their files. -/
def rational : QECompiler ℚ where
  f := { decimals with format := fun spec q =>
    if spec = ".8f" then fixed 8 q else if spec = ".6f" then fixed 6 q
    else if spec = ".3f" then fixed 3 q else trimmed (fixed 6 q) }
  nums := gaasNumerals
  materials := builtinEntries
  pseudoDir := "assets/pseudos"
  pseudos := [("Si_r.upf",[]),("Al.upf",[]),("Mg.pz-n-vbc.UPF",[]),("O-q6.gth",[])]
  shown
    | .num q => if q.den = 1 then toString q.num else trimmed (fixed 12 q)
    | _ => ""
  shownFloat q := if q.den = 1 then toString q.num ++ ".0" else trimmed (fixed 12 q)
  scientific v := if numberOf v = some (1 / 10 ^ 8) then some "1.0e-08" else none
  round q := some (roundHalfEven q)
  fromCellpar _ := none
  scaled _ positions := positions
  lengths _ := (0,0,0)
  atomicMass _ := none
  bandpath _ _ := none
  pathSegments _ := none

theorem silicon_same : ∃ relax single, rational.compileT1 "Si" {} = some relax ∧
    rational.compileScf "Si" { nbnd := some (.num 16) } = some single ∧
      (SamePhysics relax single ↔ ¬ rational.Overrides "Si" none) := by
  have ht : (rational.compileT1 "Si" {}).isSome = true := by decide +kernel
  have hs : (rational.compileScf "Si" { nbnd := some (.num 16) }).isSome = true := by decide +kernel
  obtain ⟨relax,ht⟩ := Option.isSome_iff_exists.mp ht
  obtain ⟨single,hs⟩ := Option.isSome_iff_exists.mp hs
  exact ⟨relax,single,ht,hs,same_physics_iff ⟨rfl,rfl,rfl,rfl,rfl⟩ ht hs⟩

/-- The relaxation of MgO uses the functional of its pseudopotentials, the single point does not. -/
theorem magnesia_differs : ¬ ∀ (t : T1Args ℚ) (s : ScfArgs ℚ) (relax single : Input), SameArgs t s →
    rational.compileT1 "MgO" t = some relax → rational.compileScf "MgO" s = some single →
      SamePhysics relax single := by
  intro h
  have ht : ((rational.compileT1 "MgO" {}).map fun i => i.entry "SYSTEM" "input_dft") =
      some (some (.text "pz")) := by decide +kernel
  have hs : ((rational.compileScf "MgO" { nbnd := some (.num 16) }).map fun i =>
      i.entry "SYSTEM" "input_dft") = some none := by decide +kernel
  obtain ⟨relax,ht,hrelax⟩ := Option.map_eq_some_iff.mp ht
  obtain ⟨single,hs,hsingle⟩ := Option.map_eq_some_iff.mp hs
  have hsame := (h _ _ relax single ⟨rfl,rfl,rfl,rfl,rfl⟩ ht hs).1 "input_dft" (by decide)
  rw [hrelax, hsingle] at hsame
  cases hsame

end QECompiler
end DftForge.Compiler
