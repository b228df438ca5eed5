import DftForge.Catalog.Tasks
import DftForge.Engines.Repair

/-! # The number of bands of a T2 run

`nbnd` comes from the task, where a rule counts atoms, or from the compiler, where a
rule counts the valence electrons that `_pseudo_z_valence` reads. Both are compared
with the electrons that the pseudopotential files declare.
-/
namespace DftForge.Catalog
open DftForge.Library DftForge.Runtime DftForge.Python DftForge.Engines

/-- The pseudopotential directory: file names with their texts. -/
abbrev PseudoDir := List (String × Text)

variable (nums : Numerals)

/-- `float(tok)` of the first token of the line that is a number. -/
def firstFloat (line : Text) : Option ℚ := (words line).findSome? fun tok => nums.float (String.ofList tok)

/-- `_pseudo_z_valence` on the text of the file: 0 without a `Z valence` line. -/
def readZValence (text : Text) : ℚ :=
  match (splitLines text).find? fun line => contains line "Z valence" with
  | none => 0
  | some line => (firstFloat nums line).getD 0

/-- `z_valence="..."`, the attribute of UPF version 2. -/
def zValenceAttribute : Re.Pattern := Regex.chain [
  Re.lit "z_valence", .many Re.space, Re.lit "=", .many Re.space, Re.lit "\"", .many Re.space,
  .group 1 (Regex.plus (.one fun c => !isSpace c && c ≠ '"')), .many Re.space, Re.lit "\""]

/-- The valence a file declares: the attribute of version 2, or the line of version 1. -/
def declaredValence (text : Text) : Option ℚ :=
  match Regex.search zValenceAttribute text with
  | some m => nums.float (String.ofList (m.group 1))
  | none =>
    match (splitLines text).find? fun line => contains line "Z valence" with
    | some line => firstFloat nums line
    | none => none

/-- The atoms of the compiled cell. -/
def buildAtoms (material : String) (m : Material) : Option (List String) :=
  match m.geometry with
  | .cell _ sites => some (sites.map (·.1))
  | .primitive _ _ =>
    if material = "Si" then some ["Si","Si"]
    else if material = "Al" then some ["Al"]
    else if material = "MgO" then some ["Mg","O"]
    else none

/-- The pseudopotential texts of the atoms, when the map and the directory have them all. -/
def pseudoTexts (m : Material) (dir : PseudoDir) (atoms : List String) : Option (List Text) :=
  atoms.mapM fun s => (m.pseudos.lookup s).bind fun file => dir.lookup file

/-- `_check_pseudos` finds nothing missing. -/
def hasPseudos (m : Material) (dir : PseudoDir) : Bool :=
  m.pseudos.all fun p => (dir.lookup p.2).isSome

/-- The bands on top of the occupied ones. -/
def extraBands (m : Material) : ℤ := if m.isMetal then 12 else 8

/-- The rule of `compile_scf` for the texts of the atoms' files. -/
def derivedNbnd (m : Material) (texts : List Text) : ℤ :=
  max (texts.length * 4) (⌈(texts.map (readZValence nums)).sum / 2⌉ + extraBands m)

/-- The `nbnd` line of `compile_scf`, when it compiles. -/
def compileNbnd (m : Material) (dir : PseudoDir) (atoms : List String) (nbnd : Option ℤ) : Option ℤ :=
  if hasPseudos m dir then
    match nbnd with
    | some n => some n
    | none => (pseudoTexts m dir atoms).map (derivedNbnd nums m)
  else none

/-- `params.get("nbnd")` of a task. -/
def Task.nbnd (task : Task) : Option ℤ :=
  match task.parameters.get? "nbnd" with
  | some (.num q) => some ⌊q⌋
  | _ => none

/-- Where `nbnd` comes from. -/
inductive Source where
  | task (subtype : Option String)
  | compiler

/-- The `nbnd` that goes into the scf and nscf inputs. -/
def emittedNbnd (material : String) (m : Material) (dir : PseudoDir) (atoms : List String) :
    Source → Option ℤ
  | .task subtype =>
    match libraryTask material m "T2" subtype with
    | .ok task => compileNbnd nums m dir atoms task.nbnd
    | .error _ => none
  | .compiler => compileNbnd nums m dir atoms none

/-- The valence electrons the files of the atoms declare, when all do. -/
def declaredElectrons (m : Material) (dir : PseudoDir) (atoms : List String) : Option ℚ :=
  ((pseudoTexts m dir atoms).bind fun texts => texts.mapM (declaredValence nums)).map (·.sum)

/-- Whatever `nbnd` is emitted holds the electrons of the cell two by two. -/
def EnoughBands (material : String) (m : Material) (dir : PseudoDir) (atoms : List String) : Prop :=
  ∀ source nbnd, emittedNbnd nums material m dir atoms source = some nbnd →
    ∀ nelec, declaredElectrons nums m dir atoms = some nelec → ⌈nelec / 2⌉ ≤ nbnd

/-- The electrons that the files declare beyond the ones that are read, counted in pairs. -/
def missedElectrons (texts : List Text) (nelec : ℚ) : ℚ :=
  nelec - 2 * ⌈(texts.map (readZValence nums)).sum / 2⌉

/-- On average an atom has at most 8 valence electrons, or 16 in a metal, and either at
most 8 or the reader misses no more than the extra bands hold. -/
def FewElectrons (m : Material) (dir : PseudoDir) (atoms : List String) : Prop :=
  hasPseudos m dir = true → ∀ texts nelec, pseudoTexts m dir atoms = some texts →
    declaredElectrons nums m dir atoms = some nelec →
    nelec ≤ (if m.isMetal then 16 else 8) * m.natoms ∧
      (nelec ≤ 8 * texts.length ∨ missedElectrons nums texts nelec ≤ 2 * extraBands m)

variable {nums} {material : String} {m : Material} {dir : PseudoDir} {atoms : List String}

theorem ceil_half_le {q : ℚ} {n : ℤ} : ⌈q / 2⌉ ≤ n ↔ q ≤ 2 * n := by
  rw [Int.ceil_le,div_le_iff₀ (by norm_num)]
  constructor <;> intro h <;> linarith

theorem task_nbnd {subtype : Option String} {task : Task}
    (h : libraryTask material m "T2" subtype = .ok task) : task.nbnd = some (heuristicNbnd m) := by
  have htask : task.parameters.get? "nbnd" = some (.num (heuristicNbnd m)) := by
    simp only [libraryTask,if_neg (show ¬"T2" = "T1" by decide),if_true] at h
    cases h
    rfl
  simp [Task.nbnd,htask]

/-- The task route emits the count of atoms whenever the inputs compile. -/
theorem emitted_task (subtype : Option String) :
    emittedNbnd nums material m dir atoms (.task subtype) =
      if hasPseudos m dir then some (heuristicNbnd m) else none := by
  obtain ⟨task,htask⟩ := libraryTask_ok material m subtype (.inr rfl)
  simp only [emittedNbnd,htask,compileNbnd,task_nbnd htask]

theorem emitted_compiler : emittedNbnd nums material m dir atoms .compiler =
    if hasPseudos m dir then (pseudoTexts m dir atoms).map (derivedNbnd nums m) else none := rfl

theorem heuristic_iff {nelec : ℚ} :
    ⌈nelec / 2⌉ ≤ heuristicNbnd m ↔ nelec ≤ (if m.isMetal then 16 else 8) * m.natoms := by
  rw [ceil_half_le,heuristicNbnd]
  split_ifs <;> push_cast <;> constructor <;> intro h <;> linarith

theorem derived_iff {texts : List Text} {nelec : ℚ} :
    ⌈nelec / 2⌉ ≤ derivedNbnd nums m texts ↔
      nelec ≤ 8 * texts.length ∨ missedElectrons nums texts nelec ≤ 2 * extraBands m := by
  rw [derivedNbnd,le_max_iff,ceil_half_le,ceil_half_le,missedElectrons]
  push_cast
  constructor
  · rintro (h | h)
    · exact .inl (by linarith)
    · exact .inr (by linarith)
  · rintro (h | h)
    · exact .inl (by linarith)
    · exact .inr (by linarith)

/-- There are enough bands exactly when there are few electrons. -/
theorem enough_bands_iff (nums : Numerals) (material : String) (m : Material) (dir : PseudoDir)
    (atoms : List String) : EnoughBands nums material m dir atoms ↔ FewElectrons nums m dir atoms := by
  constructor
  · intro h hpseudos texts nelec htexts hnelec
    have htask := h (.task none) (heuristicNbnd m) (by rw [emitted_task,if_pos hpseudos]) nelec hnelec
    have hcompiler := h .compiler (derivedNbnd nums m texts)
      (by rw [emitted_compiler,if_pos hpseudos,htexts]; rfl) nelec hnelec
    exact ⟨heuristic_iff.mp htask,derived_iff.mp hcompiler⟩
  · intro h source nbnd hemitted nelec hnelec
    have htexts : ∃ texts, pseudoTexts m dir atoms = some texts := by
      cases ht : pseudoTexts m dir atoms with
      | none => simp [declaredElectrons,ht] at hnelec
      | some texts => exact ⟨texts,rfl⟩
    obtain ⟨texts,htexts⟩ := htexts
    by_cases hpseudos : hasPseudos m dir = true
    · obtain ⟨hheuristic,hderived⟩ := h hpseudos texts nelec htexts hnelec
      cases source with
      | task subtype =>
        rw [emitted_task,if_pos hpseudos,Option.some.injEq] at hemitted
        rw [← hemitted]
        exact heuristic_iff.mpr hheuristic
      | compiler =>
        rw [emitted_compiler,if_pos hpseudos,htexts,Option.map_some,Option.some.injEq] at hemitted
        rw [← hemitted]
        exact derived_iff.mpr hderived
    · cases source with
      | task subtype => simp [emitted_task,hpseudos] at hemitted
      | compiler => simp [emitted_compiler,hpseudos] at hemitted

/-- GaAs of the generated table. -/
def gaas : Material := {
  formula := "GaAs", structureType := "zincblende", spaceGroup := "F-43m", ibrav := 0
  geometry := .cell [4065993 / 1000000,4065993 / 1000000,4065993 / 1000000,60,60,60]
    [("Ga",[0,0,0]),("As",[1 / 4,1 / 4,1 / 4])]
  nspecies := 2, species := ["Ga","As"], masses := [69723 / 1000,74921595 / 1000000]
  pseudos := [("Ga","Ga.upf"),("As","As.upf")], occupations := "smearing", smearing := "mp"
  degauss := 1 / 100, isMetal := false, ecutwfcDefault := some 45, ecutrhoDefault := some 360
  kpointsDefault := some [6,6,6,1,1,1] }

/-- The headers of the two files. -/
def gaasPseudos : PseudoDir := [
  ("Ga.upf","   19.00000000000      Z valence\n".toList),
  ("As.upf","    5.00000000000      Z valence\n".toList)]

/-- Python's `float` on the texts of the two files. -/
def gaasNumerals : Numerals where
  int _ := none
  float s := if s = "19.00000000000" then some 19 else if s = "5.00000000000" then some 5 else none
  shown _ := ""
  crash _ := ""

/-- The task of GaAs has 8 bands for 24 electrons. -/
theorem gaas_bands : buildAtoms "GaAs" gaas = some ["Ga","As"] ∧
    declaredElectrons gaasNumerals gaas gaasPseudos ["Ga","As"] = some 24 ∧
    emittedNbnd gaasNumerals "GaAs" gaas gaasPseudos ["Ga","As"] (.task none) = some 8 ∧
    ¬EnoughBands gaasNumerals "GaAs" gaas gaasPseudos ["Ga","As"] := by
  have hatoms : buildAtoms "GaAs" gaas = some ["Ga","As"] := rfl
  have helectrons : declaredElectrons gaasNumerals gaas gaasPseudos ["Ga","As"] = some 24 := by
    decide +kernel
  have hbands : emittedNbnd gaasNumerals "GaAs" gaas gaasPseudos ["Ga","As"] (.task none) = some 8 := by
    rw [emitted_task]
    rfl
  refine ⟨hatoms,helectrons,hbands,fun h => ?_⟩
  have henough := h (.task none) 8 hbands 24 helectrons
  norm_num at henough

end DftForge.Catalog
