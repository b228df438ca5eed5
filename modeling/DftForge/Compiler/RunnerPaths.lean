import DftForge.Compiler.SamePhysics

/-! # Where the runner looks for the results

`TaskRunner` compiles its inputs without naming the files of the programs and then reads
paths that it makes up from the material. `QECalcTool` does the same from the prefix.
What QE writes follows from the inputs it is run on.
-/
namespace DftForge.Compiler
open DftForge.Runtime DftForge.Python DftForge.Catalog DftForge.Qe

inductive Program where
  | pw
  | bands
  | dos
  deriving DecidableEq, Repr

/-- The namelist in which a program looks for its prefix. -/
def Program.namelist : Program → String
  | .pw => "CONTROL"
  | .bands => "bands"
  | .dos => "dos"

def Value.content : Value → String
  | .text s => s
  | .bare s => s

/-- An entry of the program's namelist, else QE's default. -/
def setting (program : Program) (i : Input) (key default : String) : String :=
  ((i.entry program.namelist key).map Value.content).getD default

/-- The files of a program in the directory where it runs: pw.x writes its XML twice,
bands.x none of its own, dos.x the density of states. -/
def written (program : Program) (i : Input) : List String :=
  let qePrefix := setting program i "prefix" "pwscf"
  let outdir := setting program i "outdir" "./"
  let out := if outdir = "./" then "" else outdir
  match program with
  | .pw => [out ++ qePrefix ++ ".xml",out ++ qePrefix ++ ".save/data-file-schema.xml"]
  | .bands => []
  | .dos => [setting program i "fildos" (qePrefix ++ ".dos")]

inductive Calc where
  | vcRelax
  | bands
  | dos
  deriving DecidableEq, Repr

/-- One run: the programs with their inputs, and the file that is read afterwards. -/
structure Flow where
  calls : List (Program × Input)
  reads : String

def Flow.writes (fl : Flow) : List String := fl.calls.flatMap fun call => written call.1 call.2

/-- The files that `QECalcTool` looks for, in this order. -/
def toolCandidates : Calc → String → List String
  | .vcRelax, qePrefix => [qePrefix ++ ".xml"]
  | .bands, qePrefix =>
    [qePrefix ++ ".xml",qePrefix ++ ".save/data-file-schema.xml",qePrefix ++ "_bands.xml"]
  | .dos, qePrefix => [qePrefix ++ ".dos"]

/-- The file that `QECalcTool` reads among those that are there; a density of states under
another name comes last. -/
def toolReads (kind : Calc) (qePrefix : String) (files : List String) : Option String :=
  ((toolCandidates kind qePrefix).find? (· ∈ files)).or
    (if kind = .dos then ((files.filter (·.endsWith ".dos")).mergeSort).head? else none)

/-- `tuple(value)`. -/
def tupleOf : Json → Option (List Json)
  | .arr items => some items
  | .str s => some (s.toList.map fun ch => .str (String.ofList [ch]))
  | .obj fields => some (fields.map fun kv => .str kv.1)
  | _ => none

/-- `params.get(key)`, where null is None. -/
def optional (params : Dict) (key : String) : Option Json :=
  match params.get? key with
  | some .null => none
  | v => v

namespace QECompiler
variable {F : Type} (c : QECompiler F) (material : String) (params : Dict)

/-- `run_t1`. -/
def runT1 : Option Flow := do
  let _ ← c.materials.lookup material
  let kpoints ← tupleOf ((params.get? "kpoints").getD (ints [4,4,4,1,1,1]))
  let input ← c.compileT1 material {
    ecutwfc := optional params "ecutwfc", ecutrho := optional params "ecutrho", kpoints := some kpoints
    convThr := (params.get? "conv_thr").getD (.num (1 / 10 ^ 8))
    nstep := (params.get? "nstep").getD (.num 200)
    cellOptimization := (params.get? "cell_optimization").getD (.bool true) }
  return ⟨[(.pw,input)],material ++ "_vcrelax.save/data-file-schema.xml"⟩

/-- One of the two pw.x inputs of `run_t2_bands` and `run_t2_dos`. -/
def stageInput (calculation meshKey : String) : Option Input := do
  let kpoints ← tupleOf ((params.get? meshKey).getD (ints [8,8,8,1,1,1]))
  c.compileScf material {
    calculation, ecutwfc := optional params "ecutwfc", ecutrho := optional params "ecutrho"
    kpoints := some kpoints, convThr := (params.get? "conv_thr").getD (.num (1 / 10 ^ 8))
    nbnd := optional params "nbnd" }

/-- `run_t2_bands`. -/
def runT2Bands : Option Flow := do
  let _ ← c.materials.lookup material
  let scf ← c.stageInput material params "scf" "kpoints_scf"
  let nscf ← c.stageInput material params "nscf" "kpoints_nscf"
  let bands ← c.compileBandsInput material (some (lowerText material)) none
  return ⟨[(.pw,scf),(.pw,nscf),(.bands,bands)],lowerText material ++ "_bands.xml"⟩

/-- `run_t2_dos`. -/
def runT2Dos : Option Flow := do
  let _ ← c.materials.lookup material
  let scf ← c.stageInput material params "scf" "kpoints_scf"
  let nscf ← c.stageInput material params "nscf" "kpoints_nscf"
  let dos ← c.compileDosInput material false {
    qePrefix := some (lowerText material)
    deltae := (params.get? "dos_deltae").getD (.num (1 / 100))
    fwhm := (params.get? "dos_fwhm").getD (.num (5 / 100)) }
  return ⟨[(.pw,scf),(.pw,nscf),(.dos,dos)],lowerText material ++ "_dos.dat"⟩

/-- The run method for a kind of calculation. -/
def run : Calc → Option Flow
  | .vcRelax => c.runT1 material params
  | .bands => c.runT2Bands material params
  | .dos => c.runT2Dos material params

/-- The run method on a task of the catalogue, with the parameters of a retry. -/
def runTask (tables : Tables) (taskId : String) (retry : Dict) (kind : Calc) : Option Flow :=
  match tables.getTaskSpec taskId with
  | .ok spec => c.run spec.material (spec.parameters.update retry) kind
  | .error _ => none

end QECompiler

/-- The run reads a file that its programs write, and the one that the tool reads. -/
def Flow.Right (fl : Flow) (kind : Calc) (qePrefix : String) : Prop :=
  fl.reads ∈ fl.writes ∧ toolReads kind qePrefix fl.writes = some fl.reads

section Lower

theorem lowerChar_length {ch : Char} (h : ch.toNat ≠ 0x130) : (lowerChar ch).length = 1 := by
  unfold lowerChar
  split_ifs <;> rfl

theorem toLower_ne {ch : Char} (h : ch.toNat ≠ 0x130) : ch.toLower.toNat ≠ 0x130 := by
  unfold Char.toLower
  split_ifs with hupper
  · obtain ⟨_,hle⟩ := hupper
    have hle : ch.val.toNat ≤ 90 := hle
    have hsum : (ch.val + ('a'.val - 'A'.val)).toNat = ch.val.toNat + 32 := by
      rw [UInt32.toNat_add]
      exact Nat.mod_eq_of_lt (by change ch.val.toNat + 32 < 2 ^ 32; omega)
    change (ch.val + ('a'.val - 'A'.val)).toNat ≠ 0x130
    omega
  · exact h

theorem not_mem_lower {ch : Char} (h : ch.toNat = 0x130) (s : Text) : ch ∉ lower s := by
  intro hmem
  obtain ⟨d,_,hd⟩ := List.mem_flatMap.mp hmem
  unfold lowerChar at hd
  split_ifs at hd with h1 h2
  · rw [List.mem_singleton] at hd
    rw [hd] at h
    exact absurd h (by decide)
  · simp only [List.mem_cons, List.not_mem_nil, or_false] at hd
    rcases hd with hd | hd <;> rw [hd] at h <;> exact absurd h (by decide)
  · rw [List.mem_singleton] at hd
    exact toLower_ne h2 (hd ▸ h)

/-- A text in lower case does not go on where its source ends. -/
theorem append_eq_lower {s t : Text} (h : s ++ t = lower s) : t = [] := by
  by_cases hdot : ∃ ch ∈ s, ch.toNat = 0x130
  · obtain ⟨ch,hch,hdot⟩ := hdot
    exact absurd (h ▸ List.mem_append_left t hch) (not_mem_lower hdot s)
  · have hlength : (lower s).length = s.length := by
      clear h
      induction s with
      | nil => rfl
      | cons ch s ih =>
        rw [lower, List.flatMap_cons, List.length_append,
          lowerChar_length fun h => hdot ⟨ch,List.mem_cons_self,h⟩, List.length_cons, Nat.add_comm]
        congr 1
        exact ih fun ⟨ch,hch,h⟩ => hdot ⟨ch,List.mem_cons_of_mem _ hch,h⟩
    rw [← h, List.length_append] at hlength
    exact List.length_eq_zero_iff.mp (by omega)

end Lower

namespace QECompiler
variable {F : Type} {c : QECompiler F} {material : String} {params : Dict}

/-- The two XML files of pw.x. -/
def pwFiles (qePrefix : String) : List String := [qePrefix ++ ".xml",qePrefix ++ ".save/data-file-schema.xml"]

theorem written_pw {i : Input} {qePrefix : String} (h : setting .pw i "prefix" "pwscf" = qePrefix)
    (hout : setting .pw i "outdir" "./" = "./") : written .pw i = pwFiles qePrefix := by
  simp only [written, h, hout, if_true, String.empty_append, pwFiles]

theorem compileT1_written {t : T1Args F} {i : Input} (h : c.compileT1 material t = some i) :
    written .pw i = pwFiles (orText t.qePrefix (lowerText material)) := by
  simp only [compileT1, Option.bind_eq_bind, Option.bind_eq_some_iff, Option.pure_def, Option.some.injEq] at h
  obtain ⟨_,_,_,_,_,_,_,_,_,_,_,_,_,_,rfl⟩ := h
  exact written_pw rfl rfl

theorem compileScf_written {s : ScfArgs F} {i : Input} (h : c.compileScf material s = some i) :
    written .pw i = pwFiles (orText s.qePrefix (lowerText material)) := by
  simp only [compileScf, Option.bind_eq_bind, Option.bind_eq_some_iff, Option.pure_def, Option.some.injEq] at h
  obtain ⟨_,_,_,_,_,_,_,_,_,_,_,_,_,_,_,_,rfl⟩ := h
  exact written_pw rfl rfl

theorem compileDosInput_written {o : DosArgs} {i : Input}
    (h : c.compileDosInput material false o = some i) :
    written .dos i = [orText o.qePrefix (lowerText material) ++ ".dos"] := by
  unfold compileDosInput at h
  split_ifs at h
  obtain rfl := Option.some.inj h
  obtain ⟨qePrefix,emin,emax,deltae,fwhm,ngauss⟩ := o
  cases emin <;> cases emax <;> rfl

/-- The programs of the run write neither of these. -/
theorem not_mem_pwFiles {qePrefix tail : String} (hxml : tail ≠ ".xml")
    (hsave : tail ≠ ".save/data-file-schema.xml") : qePrefix ++ tail ∉ pwFiles qePrefix := by
  simp only [pwFiles, List.mem_cons, List.not_mem_nil, or_false, String.append_right_inj]
  exact not_or.mpr ⟨hxml,hsave⟩

/-- The directory that `run_t1` looks into is never that of the prefix. -/
theorem vcrelax_not_mem_pwFiles (material : String) :
    material ++ "_vcrelax.save/data-file-schema.xml" ∉ pwFiles (lowerText material) := by
  have hlower : (lowerText material).toList = lower material.toList := String.toList_ofList
  -- a file of the prefix with this name would make the material a proper start of its lower case
  have hnot : ∀ tail rest : String, "_vcrelax.save/data-file-schema.xml" = rest ++ tail → rest ≠ "" →
      material ++ "_vcrelax.save/data-file-schema.xml" ≠ lowerText material ++ tail := by
    intro tail rest htail hrest heq
    rw [htail, ← String.append_assoc, String.append_left_inj] at heq
    have hlist := congrArg String.toList heq
    rw [String.toList_append, hlower] at hlist
    exact hrest (String.toList_eq_nil_iff.mp (append_eq_lower hlist))
  simp only [pwFiles, List.mem_cons, List.not_mem_nil, or_false]
  rintro (h | h)
  · exact hnot ".xml" "_vcrelax.save/data-file-schema" rfl (by decide) h
  · exact hnot ".save/data-file-schema.xml" "_vcrelax" rfl (by decide) h

theorem runT1_misses {fl : Flow} (h : c.runT1 material params = some fl) : fl.reads ∉ fl.writes := by
  simp only [runT1, Option.bind_eq_bind, Option.bind_eq_some_iff, Option.pure_def, Option.some.injEq] at h
  obtain ⟨_,_,kpoints,_,input,hinput,rfl⟩ := h
  have hwritten := compileT1_written hinput
  simp only [Flow.writes, List.flatMap_cons, List.flatMap_nil, List.append_nil, hwritten]
  exact vcrelax_not_mem_pwFiles material

theorem stageInput_written {calculation meshKey : String} {i : Input}
    (h : c.stageInput material params calculation meshKey = some i) :
    written .pw i = pwFiles (lowerText material) := by
  simp only [stageInput, Option.bind_eq_bind, Option.bind_eq_some_iff] at h
  obtain ⟨kpoints,_,hinput⟩ := h
  exact compileScf_written hinput

theorem orText_lowerText (material : String) :
    orText (some (lowerText material)) (lowerText material) = lowerText material := by
  unfold orText
  dsimp only
  rw [ite_self]

theorem runT2Bands_misses {fl : Flow} (h : c.runT2Bands material params = some fl) :
    fl.reads ∉ fl.writes := by
  simp only [runT2Bands, Option.bind_eq_bind, Option.bind_eq_some_iff, Option.pure_def, Option.some.injEq] at h
  obtain ⟨_,_,scf,hscf,nscf,hnscf,bands,_,rfl⟩ := h
  have hnot := @not_mem_pwFiles (lowerText material) "_bands.xml" (by decide) (by decide)
  simp only [Flow.writes, List.flatMap_cons, List.flatMap_nil, List.append_nil, stageInput_written hscf,
    stageInput_written hnscf]
  simp only [List.mem_append, not_or]
  exact ⟨hnot,hnot,List.not_mem_nil⟩

theorem runT2Dos_misses {fl : Flow} (h : c.runT2Dos material params = some fl) : fl.reads ∉ fl.writes := by
  simp only [runT2Dos, Option.bind_eq_bind, Option.bind_eq_some_iff, Option.pure_def, Option.some.injEq] at h
  obtain ⟨_,_,scf,hscf,nscf,hnscf,dos,hdos,rfl⟩ := h
  have hnot := @not_mem_pwFiles (lowerText material) "_dos.dat" (by decide) (by decide)
  have hdat : lowerText material ++ "_dos.dat" ∉ [lowerText material ++ ".dos"] := by
    rw [List.mem_singleton, String.append_right_inj]
    decide
  simp only [Flow.writes, List.flatMap_cons, List.flatMap_nil, List.append_nil, stageInput_written hscf,
    stageInput_written hnscf, compileDosInput_written hdos, orText_lowerText]
  simp only [List.mem_append, not_or]
  exact ⟨hnot,hnot,hdat⟩

theorem run_misses {kind : Calc} {fl : Flow} (h : c.run material params kind = some fl) :
    fl.reads ∉ fl.writes := by
  cases kind with
  | vcRelax => exact runT1_misses h
  | bands => exact runT2Bands_misses h
  | dos => exact runT2Dos_misses h

/-- Beside the same programs the tool finds a file that they wrote. -/
theorem tool_finds {kind : Calc} {fl : Flow} (h : c.run material params kind = some fl) :
    ∃ path ∈ fl.writes, toolReads kind (lowerText material) fl.writes = some path := by
  have hfirst : ∀ path rest, toolCandidates kind (lowerText material) = path :: rest → path ∈ fl.writes →
      ∃ path ∈ fl.writes, toolReads kind (lowerText material) fl.writes = some path := by
    intro path rest hcand hmem
    refine ⟨path,hmem,?_⟩
    simp only [toolReads, hcand, List.find?_cons, hmem, decide_true, Option.some_or]
  cases kind with
  | vcRelax =>
    simp only [run, runT1, Option.bind_eq_bind, Option.bind_eq_some_iff, Option.pure_def, Option.some.injEq] at h
    obtain ⟨_,_,kpoints,_,input,hinput,rfl⟩ := h
    refine hfirst _ _ rfl ?_
    simp only [Flow.writes, List.flatMap_cons, compileT1_written hinput]
    exact List.mem_append_left _ List.mem_cons_self
  | bands =>
    simp only [run, runT2Bands, Option.bind_eq_bind, Option.bind_eq_some_iff, Option.pure_def,
      Option.some.injEq] at h
    obtain ⟨_,_,scf,hscf,_,_,_,_,rfl⟩ := h
    refine hfirst _ _ rfl ?_
    simp only [Flow.writes, List.flatMap_cons, stageInput_written hscf]
    exact List.mem_append_left _ List.mem_cons_self
  | dos =>
    simp only [run, runT2Dos, Option.bind_eq_bind, Option.bind_eq_some_iff, Option.pure_def,
      Option.some.injEq] at h
    obtain ⟨_,_,scf,_,nscf,_,dos,hdos,rfl⟩ := h
    refine hfirst _ _ rfl ?_
    simp only [Flow.writes, List.flatMap_cons, compileDosInput_written hdos, orText_lowerText]
    exact List.mem_append_right _ (List.mem_append_right _ (List.mem_append_left _ List.mem_cons_self))

/-- No run of a task reads a file that its programs wrote. -/
theorem run_never_right (c : QECompiler F) (tables : Tables) (taskId : String) (retry : Dict) (kind : Calc)
    (qePrefix : String) {fl : Flow} (h : c.runTask tables taskId retry kind = some fl) :
    ¬ fl.Right kind qePrefix := by
  unfold runTask at h
  split at h
  · exact fun hright => run_misses h hright.1
  · cases h

theorem silicon_runs :
    (rational.runTask (Tables.initial []) "T1_Si_vcrelax" [] .vcRelax).isSome = true := by
  decide +kernel

theorem silicon_never_right : ∃ fl,
    rational.runTask (Tables.initial []) "T1_Si_vcrelax" [] .vcRelax = some fl ∧ ¬ fl.Right .vcRelax "si" := by
  obtain ⟨fl,hfl⟩ := Option.isSome_iff_exists.mp silicon_runs
  exact ⟨fl,hfl,run_never_right rational (Tables.initial []) "T1_Si_vcrelax" [] .vcRelax "si" hfl⟩

theorem silicon_unread : ¬ ∀ (fl : Flow),
    rational.runTask (Tables.initial []) "T1_Si_vcrelax" [] .vcRelax = some fl → fl.Right .vcRelax "si" := by
  intro h
  obtain ⟨fl,hfl⟩ := Option.isSome_iff_exists.mp silicon_runs
  have hright := (h fl hfl).1
  unfold runTask at hfl
  split at hfl
  · exact run_misses hfl hright
  · cases hfl

end QECompiler
end DftForge.Compiler
