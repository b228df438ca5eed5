import DftForge.Compiler.RunnerPaths
import DftForge.Engines.Cutoffs
import DftForge.Library.Decimals

/-! # The input of the next attempt

What `QECalcTool` compiles for a node that runs pw.x, and how the input changes when
`QEParamRepairer` has repaired the node. The repairer starts from fallbacks of its own,
the compiler from the defaults of the material.
-/
namespace DftForge.Compiler
open DftForge.Runtime DftForge.Python DftForge.Engines DftForge.Catalog DftForge.Qe
open DftForge.Library (int_text_ne not_mem_int_text)

/-- What `execute` makes of the material, structure and prefix of a node. -/
structure Target (F : Type) where
  material : String
  qePrefix : String
  atoms : Option (Atoms F)

/-- The same as a function of the three parameters; nothing where it raises. -/
abbrev ReadTarget (F : Type) := Option Json → Option Json → Option Json → Option (Target F)

/-- `tuple(params["kpoints"]) if params.get("kpoints") else None`. -/
def givenMesh (params : Dict) : Option (Option (List Json)) :=
  match params.get? "kpoints" with
  | none => some none
  | some v => if truthy v then (tupleOf v).map some else some none

/-- The number that is written in `&SYSTEM`, as `read` reads it. -/
def Input.number {α : Type} (i : Input) (read : String → Option α) (key : String) : Option α :=
  match i.entry "SYSTEM" key with
  | some (.bare text) => read text
  | _ => none

namespace QECompiler
variable {F : Type} (c : QECompiler F)

/-- `_as_float`. -/
def asFloat (params : Dict) (key : String) (default : ℚ) : Option ℚ :=
  match optional params key with
  | none => some default
  | some v => (toFloat c.nums v).toOption

/-- `_as_int`. -/
def asInt (params : Dict) (key : String) (default : ℤ) : Option ℤ :=
  match optional params key with
  | none => some default
  | some v => (toInt c.nums v).toOption

/-- `str(params.get(key, default))`. -/
def textOr (params : Dict) (key default : String) : String :=
  match params.get? key with
  | none => default
  | some v => c.shown v

/-- The arguments of `_run_vc_relax`. -/
def relaxArgs (tgt : Target F) (params : Dict) (kpoints : Option (List Json)) : T1Args F where
  qePrefix := some tgt.qePrefix
  ecutwfc := optional params "ecutwfc"
  ecutrho := optional params "ecutrho"
  kpoints
  atoms := tgt.atoms

/-- The arguments of `_run_scf`. -/
def scfArgs (tgt : Target F) (params : Dict) (kpoints : Option (List Json)) (convThr : ℚ) : ScfArgs F where
  qePrefix := some tgt.qePrefix
  ecutwfc := optional params "ecutwfc"
  ecutrho := optional params "ecutrho"
  kpoints
  convThr := .num convThr
  nbnd := optional params "nbnd"
  atoms := tgt.atoms

/-- The arguments of `_run_nscf`. -/
def nscfArgs (tgt : Target F) (params : Dict) (kpoints : Option (List Json)) (convThr : ℚ) (points : ℤ) :
    ScfArgs F :=
  { scfArgs tgt params kpoints convThr with
    calculation := "nscf"
    nkpointsBands := points
    kmode := c.textOr params "kmode" "path" }

variable (target : ReadTarget F)

/-- The pw.x input that `execute` writes for a node with these parameters; nothing where it
raises, and for the calculations that do not run pw.x. -/
def nodeInput (params : Dict) : Option Input := do
  let tgt ← target (params.get? "material") (params.get? "structure") (params.get? "prefix")
  let kind := c.textOr params "calc" "scf"
  if kind = "vc-relax" then
    let kpoints ← givenMesh params
    c.compileT1 tgt.material (relaxArgs tgt params kpoints)
  else if kind = "scf" then
    let kpoints ← givenMesh params
    let convThr ← c.asFloat params "conv_thr" (1 / 10 ^ 8)
    c.compileScf tgt.material (scfArgs tgt params kpoints convThr)
  else if kind = "nscf" then
    let kpoints ← givenMesh params
    let convThr ← c.asFloat params "conv_thr" (1 / 10 ^ 8)
    let points ← c.asInt params "nkpoints_bands" 60
    c.compileScf tgt.material (c.nscfArgs tgt params kpoints convThr points)
  else none

/-- How Python prints and reads numbers: what `str` writes, `int` and `float` read back, and
`True`, lists, dictionaries and the empty text are no numbers. -/
structure Prints : Prop where
  float_num : ∀ q, c.nums.float (c.shown (.num q)) = some q
  float_default : ∀ q, c.nums.float (c.shownFloat q) = some q
  int_num : ∀ q : ℚ, c.nums.int (c.shown (.num q)) = if q.den = 1 then some q.num else none
  str : ∀ s, c.shown (.str s) = s
  empty : c.nums.float "" = none ∧ c.nums.int "" = none
  other : ∀ v : Json, (∀ q, v ≠ .num q) → (∀ s, v ≠ .str s) →
    c.nums.float (c.shown v) = none ∧ c.nums.int (c.shown v) = none

variable {c} {target} {params : Dict}

theorem optional_eq_some {key : String} {v : Json} (h : optional params key = some v) :
    params.get? key = some v ∧ v ≠ .null := by
  unfold optional at h
  cases hget : params.get? key with
  | none => simp [hget] at h
  | some w =>
    rw [hget] at h
    have hw : w = v := by cases w <;> simp_all
    subst hw
    exact ⟨rfl,by rintro rfl; simp at h⟩

theorem getOr_of_absent {key : String} (h : optional params key = none) (default : ℚ) :
    getOr params key default = .num default := by
  unfold optional at h
  unfold getOr
  cases hget : params.get? key with
  | none => rfl
  | some w =>
    rw [hget] at h
    cases w <;> simp_all [truthy]

/-- The repairer starts from the cutoff that is given, except that 0 counts as none. -/
theorem start_given (hp : c.Prints) {v : Json} (hv : optional params "ecutwfc" = some v) {w : ℚ}
    (hw : c.nums.float (c.shown v) = some w) :
    ∃ start, toFloat c.nums (getOr params "ecutwfc" 45) = .ok start ∧ (start = w ∨ w = 0 ∧ start = 45) := by
  obtain ⟨hget,hnull⟩ := optional_eq_some hv
  unfold getOr
  rw [hget]
  cases v with
  | num q =>
    rw [hp.float_num,Option.some.injEq] at hw
    subst hw
    by_cases hq : q = 0
    · exact ⟨45,by simp [truthy,hq,toFloat],.inr ⟨hq,rfl⟩⟩
    · exact ⟨q,by simp [truthy,hq,toFloat],.inl rfl⟩
  | str s =>
    rw [hp.str] at hw
    have hs : s ≠ "" := by
      rintro rfl
      rw [hp.empty.1] at hw
      cases hw
    exact ⟨w,by simp [truthy,hs,toFloat,hw],.inl rfl⟩
  | null => exact absurd rfl hnull
  | bool b => simp [(hp.other (.bool b) (by simp) (by simp)).1] at hw
  | arr items => simp [(hp.other (.arr items) (by simp) (by simp)).1] at hw
  | obj fields => simp [(hp.other (.obj fields) (by simp) (by simp)).1] at hw

theorem bands_given (hp : c.Prints) {v : Json} (hv : optional params "nbnd" = some v) {n : ℤ}
    (hn : c.nums.int (c.shown v) = some n) : toInt c.nums (getOr params "nbnd" 0) = .ok n := by
  obtain ⟨hget,hnull⟩ := optional_eq_some hv
  unfold getOr
  rw [hget]
  cases v with
  | num q =>
    rw [hp.int_num] at hn
    split_ifs at hn with hden
    obtain rfl := Option.some.inj hn
    have hq : q = (q.num : ℚ) := ((Rat.den_eq_one_iff q).mp hden).symm
    by_cases hzero : q = 0
    · simp [truthy,hzero,toInt,truncate]
    · simp only [truthy,hzero,ne_eq,not_false_eq_true,decide_true,if_true,toInt,truncate]
      rw [hq]
      simp
  | str s =>
    rw [hp.str] at hn
    have hs : s ≠ "" := by
      rintro rfl
      rw [hp.empty.2] at hn
      cases hn
    simp [truthy,hs,toInt,hn]
  | null => exact absurd rfl hnull
  | bool b => simp [(hp.other (.bool b) (by simp) (by simp)).2] at hn
  | arr items => simp [(hp.other (.arr items) (by simp) (by simp)).2] at hn
  | obj fields => simp [(hp.other (.obj fields) (by simp) (by simp)).2] at hn

section Compile
variable {material : String} {t : T1Args F} {s : ScfArgs F} {i : Input}

theorem cutoff_isSome {given given' : Option Json} {default : Option ℚ} {text : String}
    (h : c.cutoff given default = some text) (hgiven : given'.isSome ∨ given' = given) :
    ∃ text', c.cutoff given' default = some text' := by
  rcases hgiven with hsome | rfl
  · obtain ⟨v,rfl⟩ := Option.isSome_iff_exists.mp hsome
    exact ⟨c.shown v,rfl⟩
  · exact ⟨text,h⟩

/-- Other cutoffs that are given never make the compilation fail. -/
theorem compileT1_again (h : c.compileT1 material t = some i) {wfc rho : Option Json}
    (hwfc : wfc.isSome ∨ wfc = t.ecutwfc) (hrho : rho.isSome ∨ rho = t.ecutrho) :
    ∃ i', c.compileT1 material { t with ecutwfc := wfc, ecutrho := rho } = some i' := by
  simp only [compileT1,Option.bind_eq_bind,Option.bind_eq_some_iff,Option.pure_def,Option.some.injEq] at h ⊢
  obtain ⟨⟨db,atoms,alat⟩,hresolve,wfcText,hw,rhoText,hr,u,hu,conv,hconv,species,hspecies,row,hrow,rfl⟩ := h
  obtain ⟨wfcText',hw'⟩ := cutoff_isSome hw hwfc
  obtain ⟨rhoText',hr'⟩ := cutoff_isSome hr hrho
  exact ⟨_,(db,atoms,alat),hresolve,wfcText',hw',rhoText',hr',u,hu,conv,hconv,species,hspecies,row,hrow,rfl⟩

theorem compileScf_again (h : c.compileScf material s = some i) {wfc rho nbnd : Option Json}
    (hwfc : wfc.isSome ∨ wfc = s.ecutwfc) (hrho : rho.isSome ∨ rho = s.ecutrho)
    (hnbnd : nbnd.isSome ∨ nbnd = s.nbnd) :
    ∃ i', c.compileScf material { s with ecutwfc := wfc, ecutrho := rho, nbnd } = some i' := by
  simp only [compileScf,Option.bind_eq_bind,Option.bind_eq_some_iff,Option.pure_def,Option.some.injEq] at h ⊢
  obtain ⟨⟨db,atoms,alat⟩,hresolve,wfcText,hw,rhoText,hr,u,hu,n,hn,conv,hconv,species,hspecies,card,hcard,rfl⟩ := h
  obtain ⟨wfcText',hw'⟩ := cutoff_isSome hw hwfc
  obtain ⟨rhoText',hr'⟩ := cutoff_isSome hr hrho
  obtain ⟨n',hn'⟩ : ∃ n', nbnd.or ((c.derivedBands db atoms).map fun n => Json.num n) = some n' := by
    rcases hnbnd with hsome | rfl
    · obtain ⟨v,rfl⟩ := Option.isSome_iff_exists.mp hsome
      exact ⟨v,rfl⟩
    · exact ⟨n,hn⟩
  exact ⟨_,(db,atoms,alat),hresolve,wfcText',hw',rhoText',hr',u,hu,n',hn',conv,hconv,species,hspecies,card,
    hcard,rfl⟩

/-- A cutoff is written as it is given, else as the default of the material. -/
def WritesCutoff (c : QECompiler F) (given : Option Json) (i : Input) (key : String) : Prop :=
  ∃ default text, c.cutoff given default = some text ∧ i.entry "SYSTEM" key = some (.bare text)

/-- So is the number of bands. -/
def WritesBands (c : QECompiler F) (given : Option Json) (i : Input) : Prop :=
  ∃ (default : Option ℤ) (v : Json), given.or (default.map fun n => Json.num n) = some v ∧
    i.entry "SYSTEM" "nbnd" = some (.bare (c.shown v))

theorem WritesCutoff.given {key : String} {v : Json} (h : c.WritesCutoff (some v) i key) :
    i.number c.nums.float key = c.nums.float (c.shown v) := by
  obtain ⟨default,text,hcutoff,hentry⟩ := h
  obtain rfl : c.shown v = text := Option.some.inj hcutoff
  simp [Input.number,hentry]

theorem WritesBands.given {v : Json} (h : c.WritesBands (some v) i) :
    i.number c.nums.int "nbnd" = c.nums.int (c.shown v) := by
  obtain ⟨default,w,hv,hentry⟩ := h
  obtain rfl : v = w := Option.some.inj hv
  simp [Input.number,hentry]

theorem WritesCutoff.numeric (hp : c.Prints) {key : String} {given : Option Json}
    (h : c.WritesCutoff given i key) (hnum : ∀ v, given = some v → ∃ q, c.nums.float (c.shown v) = some q) :
    ∃ q, i.number c.nums.float key = some q := by
  cases given with
  | some v =>
    obtain ⟨q,hq⟩ := hnum v rfl
    exact ⟨q,h.given.trans hq⟩
  | none =>
    obtain ⟨default,text,hcutoff,hentry⟩ := h
    obtain ⟨q,_,rfl⟩ := Option.map_eq_some_iff.mp hcutoff
    exact ⟨q,by simp [Input.number,hentry,hp.float_default]⟩

theorem WritesBands.numeric (hp : c.Prints) {given : Option Json} (h : c.WritesBands given i)
    (hnum : ∀ v, given = some v → ∃ n, c.nums.int (c.shown v) = some n) :
    ∃ n, i.number c.nums.int "nbnd" = some n := by
  cases given with
  | some v =>
    obtain ⟨n,hn⟩ := hnum v rfl
    exact ⟨n,h.given.trans hn⟩
  | none =>
    obtain ⟨default,v,hv,hentry⟩ := h
    obtain ⟨q,hq,rfl⟩ := Option.map_eq_some_iff.mp hv
    obtain ⟨n,_,hn⟩ := Option.bind_eq_some_iff.mp hq
    obtain rfl : (n : ℚ) = q := Option.some.inj hn
    exact ⟨n,by simp [Input.number,hentry,hp.int_num]⟩

theorem compileT1_writes (h : c.compileT1 material t = some i) :
    c.WritesCutoff t.ecutwfc i "ecutwfc" ∧ c.WritesCutoff t.ecutrho i "ecutrho" ∧
      i.entry "SYSTEM" "nbnd" = none := by
  obtain ⟨db,atoms,alat,wfc,rho,species,row,_,hwfc,hrho,_,_,hentry,_⟩ := compileT1_spec h
  refine ⟨⟨_,_,hwfc,hentry _⟩,⟨_,_,hrho,hentry _⟩,?_⟩
  rw [hentry]
  unfold overrideEntries
  cases db.inputDft with
  | none => rfl
  | some dft =>
    by_cases hdft : dft = ""
    · simp [hdft,systemEntries,List.lookup_cons]
    · simp [hdft,systemEntries,List.lookup_cons]

theorem compileScf_writes (h : c.compileScf material s = some i) :
    c.WritesCutoff s.ecutwfc i "ecutwfc" ∧ c.WritesCutoff s.ecutrho i "ecutrho" ∧ c.WritesBands s.nbnd i := by
  simp only [compileScf,Option.bind_eq_bind,Option.bind_eq_some_iff,Option.pure_def,Option.some.injEq] at h
  obtain ⟨⟨db,atoms,alat⟩,_,wfc,hwfc,rho,hrho,_,_,n,hn,_,_,_,_,_,_,rfl⟩ := h
  exact ⟨⟨_,_,hwfc,rfl⟩,⟨_,_,hrho,rfl⟩,⟨_,_,hn,rfl⟩⟩

end Compile

section Node
variable {i : Input} {params' : Dict}

/-- The keys that the repairs in question set. -/
def repairedKeys : List String := ["nbnd","ecutwfc","ecutrho"]

theorem optional_congr {key : String} (h : params'.get? key = params.get? key) :
    optional params' key = optional params key := by
  unfold optional
  rw [h]

theorem givenMesh_congr (h : params'.get? "kpoints" = params.get? "kpoints") :
    givenMesh params' = givenMesh params := by
  unfold givenMesh
  rw [h]

/-- Parameters that differ in values given for these keys compile as well. -/
theorem nodeInput_again (h : c.nodeInput target params = some i)
    (hkeys : ∀ key ∉ repairedKeys, params'.get? key = params.get? key)
    (hgiven : ∀ key ∈ repairedKeys, (optional params' key).isSome ∨ optional params' key = optional params key) :
    ∃ i', c.nodeInput target params' = some i' := by
  have hwfc := hgiven "ecutwfc" (by decide)
  have hrho := hgiven "ecutrho" (by decide)
  have hnbnd := hgiven "nbnd" (by decide)
  have hkind : c.textOr params' "calc" "scf" = c.textOr params "calc" "scf" := by
    unfold textOr
    rw [hkeys "calc" (by decide)]
  have hmode : c.textOr params' "kmode" "path" = c.textOr params "kmode" "path" := by
    unfold textOr
    rw [hkeys "kmode" (by decide)]
  have hmesh := givenMesh_congr (hkeys "kpoints" (by decide))
  have hconv : c.asFloat params' "conv_thr" (1 / 10 ^ 8) = c.asFloat params "conv_thr" (1 / 10 ^ 8) := by
    unfold asFloat
    rw [optional_congr (hkeys "conv_thr" (by decide))]
  have hpoints : c.asInt params' "nkpoints_bands" 60 = c.asInt params "nkpoints_bands" 60 := by
    unfold asInt
    rw [optional_congr (hkeys "nkpoints_bands" (by decide))]
  unfold nodeInput at h ⊢
  simp only [hkeys "material" (by decide),hkeys "structure" (by decide),hkeys "prefix" (by decide),hkind,
    hmesh,hconv,hpoints,Option.bind_eq_bind,Option.bind_eq_some_iff] at h ⊢
  obtain ⟨tgt,htgt,h⟩ := h
  split_ifs at h with hrelax hscf hnscf
  · obtain ⟨kpoints,hk,h⟩ := Option.bind_eq_some_iff.mp h
    obtain ⟨i',hi'⟩ := compileT1_again h hwfc hrho
    refine ⟨i',tgt,htgt,?_⟩
    rw [if_pos hrelax,hk]
    exact hi'
  · simp only [Option.bind_eq_some_iff] at h
    obtain ⟨kpoints,hk,convThr,hct,h⟩ := h
    obtain ⟨i',hi'⟩ := compileScf_again h hwfc hrho hnbnd
    refine ⟨i',tgt,htgt,?_⟩
    rw [if_neg hrelax,if_pos hscf,hk,hct]
    exact hi'
  · simp only [Option.bind_eq_some_iff] at h
    obtain ⟨kpoints,hk,convThr,hct,points,hpts,h⟩ := h
    obtain ⟨i',hi'⟩ := compileScf_again h hwfc hrho hnbnd
    refine ⟨i',tgt,htgt,?_⟩
    rw [if_neg hrelax,if_neg hscf,if_pos hnscf,hk,hct,hpts]
    simp only [nscfArgs,hmode]
    exact hi'

/-- Where the numbers in the input of a node come from; a relaxation has no number of bands. -/
theorem nodeInput_writes (h : c.nodeInput target params = some i) :
    c.WritesCutoff (optional params "ecutwfc") i "ecutwfc" ∧
      c.WritesCutoff (optional params "ecutrho") i "ecutrho" ∧
      if c.textOr params "calc" "scf" = "vc-relax" then i.entry "SYSTEM" "nbnd" = none
      else c.WritesBands (optional params "nbnd") i := by
  unfold nodeInput at h
  simp only [Option.bind_eq_bind,Option.bind_eq_some_iff] at h
  obtain ⟨tgt,_,h⟩ := h
  split_ifs at h ⊢ with hrelax hscf hnscf
  · obtain ⟨kpoints,_,h⟩ := Option.bind_eq_some_iff.mp h
    exact compileT1_writes h
  · simp only [Option.bind_eq_some_iff] at h
    obtain ⟨_,_,_,_,h⟩ := h
    exact compileScf_writes h
  · simp only [Option.bind_eq_some_iff] at h
    obtain ⟨_,_,_,_,_,_,h⟩ := h
    exact compileScf_writes h

end Node

section Repair
open QEParamRepairer
variable (c) (target)

/-- The second input has more bands. -/
def MoreBands (i i' : Input) : Prop := ∃ n n', i.number c.nums.int "nbnd" = some n ∧
  i'.number c.nums.int "nbnd" = some n' ∧ n < n'

/-- The second input has a higher cutoff for the wavefunctions, of at most `MAX_ECUT`, and no
lower one for the density. -/
def HigherCutoffs (i i' : Input) : Prop := ∃ w w' r r', i.number c.nums.float "ecutwfc" = some w ∧
  i'.number c.nums.float "ecutwfc" = some w' ∧ i.number c.nums.float "ecutrho" = some r ∧
  i'.number c.nums.float "ecutrho" = some r' ∧ w < w' ∧ r ≤ r' ∧ w' ≤ maxEcut

/-- A repair that answers `True` makes the next input stronger than the one that failed. -/
def Strengthens (node : NodeRun) (error : ToolError) : Prop :=
  (repair c.nums node error).verdict = .ok true → ∃ i, c.nodeInput target node.params = some i ∧
    (branch error = .bands → ∃ i', c.nodeInput target (repair c.nums node error).params = some i' ∧
      c.MoreBands i i') ∧
    (branch error = .cutoff → ∃ i', c.nodeInput target (repair c.nums node error).params = some i' ∧
      c.HigherCutoffs i i')

/-- The three parameters are numbers or None. -/
structure Numeric (params : Dict) : Prop where
  wfc : ∀ v, optional params "ecutwfc" = some v → ∃ q, c.nums.float (c.shown v) = some q
  rho : ∀ v, optional params "ecutrho" = some v → ∃ q, c.nums.float (c.shown v) = some q
  bands : ∀ v, optional params "nbnd" = some v → ∃ n, c.nums.int (c.shown v) = some n

/-- The failed input writes `nbnd`, and not a default of 24 or more. -/
def BandsBelow (params : Dict) (i : Input) : Prop :=
  c.textOr params "calc" "scf" ≠ "vc-relax" ∧
    (optional params "nbnd" = none → ∃ n, i.number c.nums.int "nbnd" = some n ∧ n < 24)

/-- Where the given cutoff leaves room below `MAX_ECUT`: a default for the wavefunctions was
below 55 Ry, and the density was cut off at no more than eight times the raised cutoff. -/
def CutoffsBelow (params : Dict) (i : Input) : Prop :=
  ∀ start, toFloat c.nums (getOr params "ecutwfc" 45) = .ok start → start < maxEcut →
    (optional params "ecutwfc" = none → ∃ w, i.number c.nums.float "ecutwfc" = some w ∧
      w < 45 + cutoffBumpStep) ∧
    ∃ r, i.number c.nums.float "ecutrho" = some r ∧ r ≤ min (start + cutoffBumpStep) maxEcut * 8

variable {c} {target} {node : NodeRun} {error : ToolError} {i : Input}

theorem optional_num {key : String} {q : ℚ} (h : params.get? key = some (.num q)) :
    optional params key = some (.num q) := by
  unfold optional
  rw [h]

/-- With the number of bands set, the next attempt of an scf or nscf node writes it. -/
theorem nodeInput_bands (hp : c.Prints) (hi : c.nodeInput target params = some i) (n : ℤ) :
    ∃ i', c.nodeInput target (params.set "nbnd" (.num n)) = some i' ∧
      i'.number c.nums.int "nbnd" = if c.textOr params "calc" "scf" = "vc-relax" then none else some n := by
  have hset : (params.set "nbnd" (.num n)).get? "nbnd" = some (.num n) := Dict.get?_set_self _ _ _
  have hother : ∀ key, key ≠ "nbnd" → (params.set "nbnd" (.num n)).get? key = params.get? key :=
    fun key hne => Dict.get?_set_of_ne hne _ _
  have hkeep : ∀ key ∉ repairedKeys, (params.set "nbnd" (.num n)).get? key = params.get? key :=
    fun key hkey => hother key fun h => hkey (by simp [h,repairedKeys])
  have hgiven : ∀ key ∈ repairedKeys, (optional (params.set "nbnd" (.num n)) key).isSome ∨
      optional (params.set "nbnd" (.num n)) key = optional params key := by
    intro key _
    by_cases hkey : key = "nbnd"
    · subst hkey
      exact .inl (by rw [optional_num hset]; rfl)
    · exact .inr (optional_congr (hother key hkey))
  obtain ⟨i',hi'⟩ := nodeInput_again hi hkeep hgiven
  have hkind : c.textOr (params.set "nbnd" (.num n)) "calc" "scf" = c.textOr params "calc" "scf" := by
    unfold textOr
    rw [hother "calc" (by decide)]
  have hwrites := (nodeInput_writes hi').2.2
  rw [hkind,optional_num hset] at hwrites
  refine ⟨i',hi',?_⟩
  split_ifs at hwrites ⊢ with hrelax
  · simp [Input.number,hwrites]
  · rw [hwrites.given,hp.int_num]
    simp

/-- With both cutoffs set, the next attempt writes them. -/
theorem nodeInput_cutoffs (hp : c.Prints) (hi : c.nodeInput target params = some i) (w r : ℚ) :
    ∃ i', c.nodeInput target ((params.set "ecutwfc" (.num w)).set "ecutrho" (.num r)) = some i' ∧
      i'.number c.nums.float "ecutwfc" = some w ∧ i'.number c.nums.float "ecutrho" = some r := by
  have hrho : ((params.set "ecutwfc" (.num w)).set "ecutrho" (.num r)).get? "ecutrho" = some (.num r) :=
    Dict.get?_set_self _ _ _
  have hwfc : ((params.set "ecutwfc" (.num w)).set "ecutrho" (.num r)).get? "ecutwfc" = some (.num w) := by
    rw [Dict.get?_set_of_ne (by decide),Dict.get?_set_self]
  have hother : ∀ key, key ≠ "ecutwfc" → key ≠ "ecutrho" →
      ((params.set "ecutwfc" (.num w)).set "ecutrho" (.num r)).get? key = params.get? key := by
    intro key hw hr
    rw [Dict.get?_set_of_ne hr,Dict.get?_set_of_ne hw]
  generalize (params.set "ecutwfc" (.num w)).set "ecutrho" (.num r) = params' at hrho hwfc hother ⊢
  have hkeep : ∀ key ∉ repairedKeys, params'.get? key = params.get? key := by
    intro key hkey
    exact hother key (fun h => hkey (by simp [h,repairedKeys])) fun h => hkey (by simp [h,repairedKeys])
  have hgiven : ∀ key ∈ repairedKeys, (optional params' key).isSome ∨
      optional params' key = optional params key := by
    intro key _
    by_cases hw : key = "ecutwfc"
    · subst hw
      exact .inl (by rw [optional_num hwfc]; rfl)
    by_cases hr : key = "ecutrho"
    · subst hr
      exact .inl (by rw [optional_num hrho]; rfl)
    · exact .inr (optional_congr (hother key hw hr))
  obtain ⟨i',hi'⟩ := nodeInput_again hi hkeep hgiven
  obtain ⟨hgw,hgr,_⟩ := nodeInput_writes hi'
  rw [optional_num hwfc] at hgw
  rw [optional_num hrho] at hgr
  exact ⟨i',hi',by rw [hgw.given,hp.float_num],by rw [hgr.given,hp.float_num]⟩

/-- Doubling a number of bands, but to no less than 24, gives more of them. -/
theorem lt_doubled (n : ℤ) : n < max (n * 2) 24 := by
  rcases le_or_gt 24 n with h | h
  · exact lt_max_of_lt_left (by omega)
  · exact lt_max_of_lt_right h

theorem bands_iff (hp : c.Prints) (hi : c.nodeInput target node.params = some i)
    (hnum : c.Numeric node.params) (hbranch : branch error = .bands) :
    c.Strengthens target node error ↔ c.BandsBelow node.params i := by
  obtain ⟨current,hcurrent⟩ : ∃ current, toInt c.nums (getOr node.params "nbnd" 0) = .ok current := by
    cases hv : optional node.params "nbnd" with
    | none => exact ⟨0,by simp [getOr_of_absent hv,toInt,truncate]⟩
    | some v =>
      obtain ⟨n,hn⟩ := hnum.bands v hv
      exact ⟨n,bands_given hp hv hn⟩
  have hrepair : repair c.nums node error = repairBands c.nums node := by
    unfold repair
    rw [hbranch]
  have hparams : (repair c.nums node error).params =
      node.params.set "nbnd" (.num (max (current * 2) 24 : ℤ)) := by
    simp [hrepair,repairBands,hcurrent]
  have hverdict : (repair c.nums node error).verdict = .ok true := by
    simp [hrepair,repairBands,hcurrent]
  obtain ⟨i',hi',hnext⟩ := nodeInput_bands hp hi (max (current * 2) 24)
  have hwrites := (nodeInput_writes hi).2.2
  unfold Strengthens BandsBelow MoreBands
  rw [hparams,hverdict,hbranch,hi,hi']
  simp only [true_implies,Option.some.injEq,exists_eq_left',reduceCtorEq,false_implies,and_true]
  constructor
  · rintro ⟨n,n',hn,hn',hlt⟩
    have hkind : c.textOr node.params "calc" "scf" ≠ "vc-relax" := by
      intro hrelax
      rw [hnext,if_pos hrelax] at hn'
      cases hn'
    rw [hnext,if_neg hkind] at hn'
    obtain rfl := Option.some.inj hn'
    refine ⟨hkind,fun habsent => ⟨n,hn,?_⟩⟩
    have hzero : current = 0 := by
      rw [getOr_of_absent habsent] at hcurrent
      simpa [toInt,truncate] using hcurrent.symm
    simpa [hzero] using hlt
  · rintro ⟨hkind,hbelow⟩
    rw [if_neg hkind] at hnext hwrites
    cases hv : optional node.params "nbnd" with
    | none =>
      obtain ⟨n,hn,hlt⟩ := hbelow hv
      exact ⟨n,_,hn,hnext,lt_max_of_lt_right hlt⟩
    | some v =>
      obtain ⟨n,hn⟩ := hnum.bands v hv
      rw [hv] at hwrites
      have hsame : n = current := by
        have := bands_given hp hv hn
        rw [hcurrent] at this
        exact (Except.ok.inj this).symm
      subst hsame
      exact ⟨n,_,hwrites.given.trans hn,hnext,lt_doubled n⟩

theorem cutoff_iff (hp : c.Prints) (hi : c.nodeInput target node.params = some i)
    (hnum : c.Numeric node.params) (hbranch : branch error = .cutoff) :
    c.Strengthens target node error ↔ c.CutoffsBelow node.params i := by
  obtain ⟨start,hstart⟩ : ∃ start, toFloat c.nums (getOr node.params "ecutwfc" 45) = .ok start := by
    cases hv : optional node.params "ecutwfc" with
    | none => exact ⟨45,by simp [getOr_of_absent hv,toFloat]⟩
    | some v =>
      obtain ⟨w,hw⟩ := hnum.wfc v hv
      obtain ⟨start,hstart,_⟩ := start_given hp hv hw
      exact ⟨start,hstart⟩
  have hrepair : repair c.nums node error = repairCutoff c.nums node := by
    unfold repair
    rw [hbranch]
  obtain ⟨hwfc,hrho,_⟩ := nodeInput_writes hi
  obtain ⟨w,hw⟩ := hwfc.numeric hp hnum.wfc
  obtain ⟨r,hr⟩ := hrho.numeric hp hnum.rho
  by_cases hmax : maxEcut ≤ start
  · have hverdict : (repair c.nums node error).verdict = .ok false := by
      simp [hrepair,repairCutoff,hstart,hmax,unchanged]
    refine iff_of_true (fun h => ?_) fun start' hstart' hlt => ?_
    · rw [hverdict] at h
      cases h
    · rw [hstart] at hstart'
      obtain rfl := Except.ok.inj hstart'
      exact absurd hlt (not_lt.mpr hmax)
  · have hverdict : (repair c.nums node error).verdict = .ok true := by
      simp [hrepair,repairCutoff,hstart,hmax]
    have hparams : (repair c.nums node error).params =
        (node.params.set "ecutwfc" (.num (min (start + cutoffBumpStep) maxEcut))).set "ecutrho"
          (.num (min (start + cutoffBumpStep) maxEcut * 8)) := by
      simp [hrepair,repairCutoff,hstart,hmax]
    obtain ⟨i',hi',hw',hr'⟩ := nodeInput_cutoffs hp hi (min (start + cutoffBumpStep) maxEcut)
      (min (start + cutoffBumpStep) maxEcut * 8)
    unfold Strengthens CutoffsBelow HigherCutoffs
    rw [hparams,hverdict,hbranch,hi,hi',hstart]
    simp only [true_implies,Option.some.injEq,exists_eq_left',reduceCtorEq,false_implies,true_and,
      Except.ok.injEq,forall_eq',hw,hw',hr,hr']
    have hbump : start < min (start + cutoffBumpStep) maxEcut :=
      lt_min (by norm_num [cutoffBumpStep]) (not_le.mp hmax)
    constructor
    · rintro ⟨_,_,_,_,rfl,rfl,rfl,rfl,hlt,hle,-⟩ _
      refine ⟨fun habsent => ?_,hle⟩
      have hdefault : start = 45 := by
        rw [getOr_of_absent habsent] at hstart
        exact (Except.ok.inj hstart).symm
      rw [hdefault] at hlt
      exact hlt.trans_le (min_le_left _ _)
    · intro h
      obtain ⟨hbelow,hle⟩ := h (not_le.mp hmax)
      refine ⟨_,_,_,_,rfl,rfl,rfl,rfl,?_,hle,min_le_right _ _⟩
      cases hv : optional node.params "ecutwfc" with
      | none =>
        have hdefault : start = 45 := by
          rw [getOr_of_absent hv] at hstart
          exact (Except.ok.inj hstart).symm
        have hlt := hbelow hv
        rw [hdefault]
        exact lt_min hlt (hlt.trans (by norm_num [cutoffBumpStep,maxEcut]))
      | some v =>
        rw [hv] at hwfc
        obtain ⟨start',hstart',hfrom⟩ := start_given hp hv (hwfc.given.symm.trans hw)
        rw [hstart] at hstart'
        obtain rfl := Except.ok.inj hstart'
        rcases hfrom with rfl | ⟨rfl,rfl⟩
        · exact hbump
        · exact lt_trans (by norm_num) hbump

/-- The repairer strengthens what ran exactly when nothing was above what it goes by. -/
theorem strengthens_iff (hp : c.Prints) (hi : c.nodeInput target node.params = some i)
    (hnum : c.Numeric node.params) (error : ToolError) : c.Strengthens target node error ↔
      (branch error = .bands → c.BandsBelow node.params i) ∧
      (branch error = .cutoff → c.CutoffsBelow node.params i) := by
  cases hbranch : branch error with
  | bands => simp [bands_iff hp hi hnum hbranch]
  | cutoff => simp [cutoff_iff hp hi hnum hbranch]
  | declined => exact iff_of_true (fun _ => ⟨i,hi,by simp [hbranch],by simp [hbranch]⟩) (by simp)
  | timeout => exact iff_of_true (fun _ => ⟨i,hi,by simp [hbranch],by simp [hbranch]⟩) (by simp)

end Repair

section Samples

def fraction (q : ℚ) : String := toString q.num ++ "/" ++ toString (q.den : ℤ)

/-- Numbers in decimals where they are integers; a float keeps its point. -/
def intText (q : ℚ) : String := if q.den = 1 then toString q.num else fraction q
def floatText (q : ℚ) : String := if q.den = 1 then toString q.num ++ ".0" else fraction q

def readWhole (text : Text) : Option ℚ := (String.ofList text).toInt?.map Int.cast

def readNumber (s : String) : Option ℚ :=
  if s = "" then none
  else match splitChar '/' s.toList with
  | [a,b] => (readWhole a).bind fun n => (readWhole b).map (n / ·)
  | _ =>
    match splitChar '.' s.toList with
    | [a,['0']] => readWhole a
    | _ => readWhole s.toList

def readInteger (s : String) : Option ℤ := if s = "" ∨ '/' ∈ s.toList then none else s.toInt?

theorem toInt?_text (n : ℤ) : (toString n).toInt? = some n := Int.toInt?_repr n

theorem readWhole_text (n : ℤ) : readWhole (toString n).toList = some (n : ℚ) := by
  unfold readWhole
  rw [String.ofList_toList,toInt?_text]
  rfl

theorem splitChar_two {ch : Char} {a b : Text} (ha : ch ∉ a) (hb : ch ∉ b) :
    splitChar ch (a ++ ch :: b) = [a,b] := by
  rw [splitChar_append ha,splitChar_of_not_mem hb]

theorem fraction_toList (q : ℚ) :
    (fraction q).toList = (toString q.num).toList ++ '/' :: (toString (q.den : ℤ)).toList := by
  simp only [fraction,String.toList_append,List.append_assoc]
  rfl

theorem fraction_ne (q : ℚ) : fraction q ≠ "" := by
  intro h
  have hlist := fraction_toList q
  rw [h] at hlist
  simp at hlist

theorem readNumber_fraction (q : ℚ) : readNumber (fraction q) = some q := by
  have hslash : ∀ n : ℤ, '/' ∉ (toString n).toList := fun n => not_mem_int_text n (by decide)
  have hsplit := splitChar_two (hslash q.num) (hslash q.den)
  unfold readNumber
  rw [if_neg (fraction_ne q),fraction_toList,hsplit]
  simp only [readWhole_text,Option.bind_some,Option.map_some,Int.cast_natCast,Rat.num_div_den]

theorem readNumber_int (n : ℤ) : readNumber (toString n) = some (n : ℚ) := by
  unfold readNumber
  rw [if_neg (int_text_ne n),splitChar_of_not_mem (not_mem_int_text n (by decide)),
    splitChar_of_not_mem (not_mem_int_text n (by decide))]
  exact readWhole_text n

theorem readNumber_float (n : ℤ) : readNumber (toString n ++ ".0") = some (n : ℚ) := by
  have hne : toString n ++ ".0" ≠ "" := by simp
  have hlist : (toString n ++ ".0").toList = (toString n).toList ++ '.' :: ['0'] := by
    rw [String.toList_append]
    rfl
  have hslash : '/' ∉ (toString n).toList ++ '.' :: ['0'] := by
    rw [List.mem_append,not_or]
    exact ⟨not_mem_int_text n (by decide),by decide⟩
  unfold readNumber
  rw [if_neg hne,hlist,splitChar_of_not_mem hslash,splitChar_two (not_mem_int_text n (by decide)) (by decide)]
  exact readWhole_text n

/-- Aluminium nitride of the generated table. -/
def nitride : Entry where
  formula := "AlN"
  structureType := "wurtzite"
  spaceGroup := "P6_3mc"
  ibrav := 0
  geometry := .cell [3128588 / 10 ^ 6,3128588 / 10 ^ 6,5016955 / 10 ^ 6,90,90,120] [
    ("Al",[666667 / 10 ^ 6,333333 / 10 ^ 6,499287 / 10 ^ 6]),
    ("Al",[333333 / 10 ^ 6,666667 / 10 ^ 6,999287 / 10 ^ 6]),
    ("N",[666667 / 10 ^ 6,333333 / 10 ^ 6,880713 / 10 ^ 6]),
    ("N",[333333 / 10 ^ 6,666667 / 10 ^ 6,380713 / 10 ^ 6])]
  nspecies := 2
  species := ["Al","N"]
  masses := [269815385 / 10 ^ 7,14007 / 10 ^ 3]
  pseudos := [("Al","Al.upf"),("N","N.upf")]
  occupations := "smearing"
  smearing := "mp"
  degauss := 1 / 100
  ecutwfcDefault := some 60
  ecutrhoDefault := some 480
  kpointsDefault := some [6,6,4,1,1,1]
  isMetal := false

/-- The compiler on rationals that prints and reads every number exactly. -/
def exactNumbers : QECompiler ℚ := { rational with
  nums := { int := readInteger, float := readNumber, shown := floatText, crash := fun _ => "" }
  materials := ("AlN",nitride) :: builtinEntries
  pseudos := [("Al.upf",[]),("N.upf",[]),("Si_r.upf",[])]
  shown := fun
    | .num q => intText q
    | .str s => s
    | _ => ""
  shownFloat := floatText
  fromCellpar := fun _ => some [(3128588 / 10 ^ 6,0,0),(-1564294 / 10 ^ 6,2709437 / 10 ^ 6,0),
    (0,0,5016955 / 10 ^ 6)] }

theorem exactNumbers_prints : exactNumbers.Prints where
  float_num q := by
    change readNumber (intText q) = some q
    unfold intText
    split_ifs with hden
    · rw [readNumber_int,(Rat.den_eq_one_iff q).mp hden]
    · exact readNumber_fraction q
  float_default q := by
    change readNumber (floatText q) = some q
    unfold floatText
    split_ifs with hden
    · rw [readNumber_float,(Rat.den_eq_one_iff q).mp hden]
    · exact readNumber_fraction q
  int_num q := by
    change readInteger (intText q) = _
    unfold intText
    by_cases hden : q.den = 1
    · rw [if_pos hden,if_pos hden]
      exact (if_neg (not_or.mpr ⟨int_text_ne _,not_mem_int_text _ (by decide)⟩)).trans (toInt?_text _)
    · rw [if_neg hden,if_neg hden]
      exact if_pos (Or.inr (by rw [fraction_toList]; simp))
  str s := rfl
  empty := ⟨rfl,rfl⟩
  other v hnum hstr := by
    cases v with
    | num q => exact absurd rfl (hnum q)
    | str s => exact absurd rfl (hstr s)
    | null => exact ⟨rfl,rfl⟩
    | bool b => exact ⟨rfl,rfl⟩
    | arr items => exact ⟨rfl,rfl⟩
    | obj fields => exact ⟨rfl,rfl⟩

/-- A material of the table, with the prefix `execute` makes of it. -/
def namedTarget : ReadTarget ℚ := fun material _ _ =>
  match material with
  | some (.str m) => some ⟨m,lowerText m,none⟩
  | _ => none

/-- The scf node of a material with cutoffs and bands left to the compiler. -/
def plainScf (material : String) : NodeRun where
  nodeId := "scf"
  params := [("calc",.str "scf"),("material",.str material),("ecutwfc",.null),("nbnd",.null)]

def unconverged : ToolError where
  message := "scf verification failed: SCF did not converge"
  category := "scf_not_converged"
  repairable := true

theorem plainScf_numeric (material : String) : exactNumbers.Numeric (plainScf material).params where
  wfc v h := by cases h
  rho v h := by cases h
  bands v h := by cases h

/-- The default that an input of the compiler writes. -/
theorem number_default {i : Input} {params : Dict} (hi : exactNumbers.nodeInput namedTarget params = some i)
    (key : String) (q : ℚ) (h : ((exactNumbers.nodeInput namedTarget params).map fun i => i.entry "SYSTEM" key) =
      some (some (.bare (exactNumbers.shownFloat q)))) : i.number exactNumbers.nums.float key = some q := by
  rw [hi,Option.map_some,Option.some.injEq] at h
  simp only [Input.number,h,exactNumbers_prints.float_default]

theorem strengthens_silicon : exactNumbers.Strengthens namedTarget (plainScf "Si") unconverged := by
  have hsome : (exactNumbers.nodeInput namedTarget (plainScf "Si").params).isSome = true := by decide +kernel
  obtain ⟨i,hi⟩ := Option.isSome_iff_exists.mp hsome
  have hwfc := number_default hi "ecutwfc" 25 (by decide +kernel)
  have hrho := number_default hi "ecutrho" 200 (by decide +kernel)
  have hbranch : QEParamRepairer.branch unconverged = .cutoff := by decide +kernel
  refine (strengthens_iff exactNumbers_prints hi (plainScf_numeric "Si") unconverged).mpr ⟨?_,?_⟩
  · rw [hbranch]
    exact nofun
  · intro _ start hstart _
    obtain rfl : 45 = start := Except.ok.inj hstart
    exact ⟨fun _ => ⟨25,hwfc,by norm_num [QEParamRepairer.cutoffBumpStep]⟩,200,hrho,
      by norm_num [QEParamRepairer.cutoffBumpStep,QEParamRepairer.maxEcut]⟩

/-- The scf of AlN runs with 60 Ry, and with 55 Ry after the repair. -/
theorem nitride_weakened : ¬ exactNumbers.Strengthens namedTarget (plainScf "AlN") unconverged := by
  have hsome : (exactNumbers.nodeInput namedTarget (plainScf "AlN").params).isSome = true := by decide +kernel
  obtain ⟨i,hi⟩ := Option.isSome_iff_exists.mp hsome
  have hwfc := number_default hi "ecutwfc" 60 (by decide +kernel)
  have hbranch : QEParamRepairer.branch unconverged = .cutoff := by decide +kernel
  intro h
  have hbelow := (cutoff_iff exactNumbers_prints hi (plainScf_numeric "AlN") hbranch).mp h
  obtain ⟨w,hw,hlt⟩ := (hbelow 45 rfl (by norm_num [QEParamRepairer.maxEcut])).1 rfl
  rw [hwfc] at hw
  obtain rfl := Option.some.inj hw
  norm_num [QEParamRepairer.cutoffBumpStep] at hlt

end Samples

end QECompiler
end DftForge.Compiler
