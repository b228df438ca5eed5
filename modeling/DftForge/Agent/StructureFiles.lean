import DftForge.Agent.OutputNames
import DftForge.Agent.StructureChain

/-! # The structure files of a session

A run of a graph keeps the path of its structure and reads the file again when it is
retried or resumed. Paths lead to files, several of them perhaps to one. The file stays what
it was when the arguments that leave the same in the output names are the same, the paths
that the plans give lead elsewhere, and no run is given a file from before the session that
a step builds later.
-/
namespace DftForge.Agent
open DftForge.Runtime DftForge.Python DftForge.Engines DftForge.Tools

/-- The namespaces of the builder commands, without the output. -/
inductive Namespace where
  | generate (source : Json)
  | build2d (kind supercell vacancy : Json) (dopant : List String) (adsorb : Option String)
      (height vacuum : Json)
  | dope (source element supercell : Json) (index : ℤ)
  | molecule (kind : Json) (box : ℚ)
  | reference (element : Json)

section Wrappers
variable (sh : Shell) (args : Dict)

def valueAt (key : String) (default : Json) : Json := (args.get? key).getD default

def dopantSpec : Json → Option String
  | .str d => some (d ++ "@0")
  | .obj d => some (sh.textAt d "element" "X" ++ "@" ++ sh.textAt d "index" "0")
  | _ => none

def dopantSpecs : Option (List String) :=
  match args.get? "dopants" with
  | some (.arr items) => items.mapM (dopantSpec sh)
  | some v => if truthy v then none else some []
  | none => some []

/-- The adsorbate as `ELEMENT@SITE`; without an element the wrapper raises. -/
def adsorbSpec : Option (Option String) :=
  match args.get? "adsorb" with
  | some (.obj []) => some none
  | some (.obj fields) =>
    (Dict.get? fields "element").map fun element =>
      some (sh.text element ++ "@" ++ sh.textAt fields "site" "top")
  | some v => if truthy v then none else some none
  | none => some none

def dopeIndex : Option ℤ :=
  match args.get? "index" with
  | some (.num q) => some (truncate q)
  | some v => if truthy v then none else some 0
  | none => some 0

def moleculeBox : Option ℚ :=
  match args.get? "box" with
  | some (.num q) => some q
  | some _ => none
  | none => some 10

/-- What the wrapper of a builder hands to its command; `none` if it raises. -/
def namespaceOf : Builder → Option Namespace
  | .generate => some (.generate (valueAt args "source" (.str "")))
  | .build2d =>
    match dopantSpecs sh args, adsorbSpec sh args with
    | some dopant, some adsorb =>
      some (.build2d (valueAt args "kind" (.str "graphene")) (valueAt args "supercell" (.str "1x1"))
        (valueAt args "vacancy" .null) dopant adsorb (valueAt args "height" (.num (3 / 2)))
        (valueAt args "vacuum" (.num 15)))
    | _, _ => none
  | .dope => (dopeIndex args).map fun index =>
      .dope (valueAt args "source" (.str "")) (valueAt args "element" (.str ""))
        (valueAt args "supercell" (.str "2x2x2")) index
  | .molecule => (moleculeBox args).map fun box => .molecule (valueAt args "kind" (.str "")) box
  | .reference => some (.reference (valueAt args "element" (.str "")))

end Wrappers

/-- `Path(source).suffix.lower() in (".cif", ".poscar", ".xyz")`. -/
def namesStructureFile (source : Text) : Bool :=
  let name := ((splitChar '/' source).filter fun part => part ≠ [] && part ≠ ['.']).getLast?.getD []
  [".cif",".poscar",".xyz"].any fun suffix =>
    decide (suffix.toList <:+ lower name) && decide (suffix.length < name.length)

section Session
variable {σ ι : Type*} (sh : Shell) (locate : String → ι)

/-- The structure in each file. -/
abbrev Files (σ ι : Type*) := ι → Option σ

/-- A build step: its builder and what the plan says to it, its output path with its key, and its
effective arguments, to which the structure in the source file of a doped crystal belongs. -/
structure Build (σ : Type*) where
  builder : Builder
  plan : Dict
  path : String
  key : OutputKey
  args : Namespace
  read : Option σ

def readSource (files : Files σ ι) : Namespace → Option σ
  | .dope source _ _ _ =>
    if namesStructureFile (sh.text source).toList then files (locate (sh.text source)) else none
  | _ => none

/-- The build step that a visit is, when the registry accepts its arguments. -/
def buildOf (files : Files σ ι) (v : Visit) : Option (Build σ) :=
  match v.step.tool, v.outcome with
  | some (.build b), .called args _ =>
    if accepts args b then
      match args.get? "output", outputKey sh v.step.args b, namespaceOf sh args b with
      | some (.str path), some key, some ns => some ⟨b,v.step.args,path,key,ns,readSource sh locate files ns⟩
      | _, _, _ => none
    else none
  | _, _ => none

variable [DecidableEq ι] (make : Namespace → Option σ → Option σ)

/-- A visit builds this structure into this file. -/
def Writes (files : Files σ ι) (v : Visit) (file : ι) (structure_ : σ) : Prop :=
  ∃ b, buildOf sh locate files v = some b ∧ locate b.path = file ∧ make b.args b.read = some structure_

def written (files : Files σ ι) (v : Visit) : Files σ ι :=
  match buildOf sh locate files v with
  | some b => match make b.args b.read with
    | some structure_ => Function.update files (locate b.path) (some structure_)
    | none => files
  | none => files

/-- The visits with the files that each of them finds. -/
def history (files : Files σ ι) : List Visit → List (Files σ ι × Visit)
  | [] => []
  | v :: rest => (files,v) :: history (written sh locate make files v) rest

/-- A plan, with the structure that the turns before left in the context. -/
structure Turn where
  last : Json
  plan : List (Step × StepEnv)

def sessionVisits (turns : List Turn) : List Visit :=
  turns.flatMap fun turn => visits sh ⟨turn.last,.null⟩ turn.plan

/-- `inputs.structure` of a call of `graph.run`. -/
def Visit.givenStructure (v : Visit) : Option String :=
  match v.step.tool, v.outcome with
  | some .graphRun, .called args _ =>
    match args.get? "inputs" with
    | some (.obj inputs) => match Dict.get? inputs "structure" with
      | some (.str path) => some path
      | _ => none
    | _ => none
  | _, _ => none

variable (files : Files σ ι) (turns : List Turn)

abbrev sessionHistory : List (Files σ ι × Visit) := history sh locate make files (sessionVisits sh turns)

/-- No build step overwrites the structure that a run was given with another one. -/
def Immutable : Prop :=
  ∀ before f g between f' w after, sessionHistory sh locate make files turns =
      before ++ (f,g) :: (between ++ (f',w) :: after) →
    ∀ path s s', g.givenStructure = some path → f (locate path) = some s →
      Writes sh locate make f' w (locate path) s' → s' = s

/-- Build steps with different effective arguments have different output files. -/
def Distinct : Prop :=
  ∀ x ∈ sessionHistory sh locate make files turns, ∀ y ∈ sessionHistory sh locate make files turns, ∀ b b',
    buildOf sh locate x.1 x.2 = some b → buildOf sh locate y.1 y.2 = some b' →
      (b.args,b.read) ≠ (b'.args,b'.read) → locate b.path ≠ locate b'.path

/-- The names that the session gives its files lead to different ones: no links, and the case of letters counts. -/
def NamesApart : Prop :=
  ∀ x ∈ sessionHistory sh locate make files turns, ∀ y ∈ sessionHistory sh locate make files turns,
    ∀ b b' key key', buildOf sh locate x.1 x.2 = some b → buildOf sh locate y.1 y.2 = some b' →
      b.key = .named key → b'.key = .named key' →
        locate (sessionPath sh key) = locate (sessionPath sh key') → key = key'

/-- Build steps with names of their own in which their arguments leave the same have the same effective
arguments. -/
def NamesTell : Prop :=
  ∀ x ∈ sessionHistory sh locate make files turns, ∀ y ∈ sessionHistory sh locate make files turns,
    ∀ b b' key key', buildOf sh locate x.1 x.2 = some b → buildOf sh locate y.1 y.2 = some b' →
      b.key = .named key → b'.key = .named key' → SameName sh b.builder b.plan b'.builder b'.plan →
        (b.args,b.read) = (b'.args,b'.read)

/-- A path from the plan leads to the output of another build step only if that has the same effective
arguments. -/
def GivenApart : Prop :=
  ∀ x ∈ sessionHistory sh locate make files turns, ∀ y ∈ sessionHistory sh locate make files turns,
    ∀ b b' path, buildOf sh locate x.1 x.2 = some b → buildOf sh locate y.1 y.2 = some b' →
      b.key = .given path → locate path = locate b'.path → (b.args,b.read) = (b'.args,b'.read)

/-- The file that a run is given and a later step builds is one that an earlier step builds, too. -/
def BuiltHere : Prop :=
  ∀ before f g between f' w after, sessionHistory sh locate make files turns =
      before ++ (f,g) :: (between ++ (f',w) :: after) →
    ∀ path b, g.givenStructure = some path → buildOf sh locate f' w = some b → locate b.path = locate path →
      ∃ x ∈ before, ∃ b', buildOf sh locate x.1 x.2 = some b' ∧ locate b'.path = locate path

end Session

section Proofs
variable {σ ι : Type*} [DecidableEq ι] {sh : Shell} {locate : String → ι} {make : Namespace → Option σ → Option σ}
  {files : Files σ ι} {turns : List Turn} {vs : List Visit} {v : Visit}

theorem run_of_mem_visits {s : RunState} {plan : List (Step × StepEnv)} (h : v ∈ visits sh s plan) :
    runStep sh v.state v.step v.env = some v.outcome := by
  obtain ⟨before,after,hsplit⟩ := List.append_of_mem h
  exact (visits_state hsplit).2

theorem run_of_mem_session (h : v ∈ sessionVisits sh turns) :
    runStep sh v.state v.step v.env = some v.outcome := by
  obtain ⟨turn,_,hv⟩ := List.mem_flatMap.mp h
  exact run_of_mem_visits hv

theorem mem_of_mem_history {x : Files σ ι × Visit} (h : x ∈ history sh locate make files vs) : x.2 ∈ vs := by
  induction vs generalizing files with
  | nil => cases h
  | cons v rest ih =>
    rcases List.mem_cons.mp h with rfl | h
    · exact List.mem_cons_self
    · exact List.mem_cons_of_mem _ (ih h)

omit [DecidableEq ι] in
/-- The output path of a build step is the path of its key, which comes from what the plan says. -/
theorem path_of_buildOf {f : Files σ ι} {b : Build σ}
    (hrun : runStep sh v.state v.step v.env = some v.outcome) (h : buildOf sh locate f v = some b) :
    b.path = b.key.path sh ∧ outputKey sh b.plan b.builder = some b.key := by
  unfold buildOf at h
  split at h
  · next builder args result htool hout =>
    split_ifs at h with haccepts
    split at h
    · next path key ns hpath hkey hns =>
      cases h
      refine ⟨?_,hkey⟩
      rw [runStep,htool,hout] at hrun
      simp only [reduceCtorEq,if_false,prepareStepArgs] at hrun
      cases houtput : outputPath sh v.step.args builder with
      | none =>
        rw [houtput] at hrun
        split at hrun <;> simp at hrun
      | some output =>
        rw [houtput] at hrun
        split at hrun
        · cases hrun
        · cases hrun
        · cases hrun
          obtain ⟨k,hk,hsame⟩ := outputPath_key houtput haccepts
          rw [Dict.get?_set_self] at hpath
          rw [hkey] at hk
          cases hk
          rw [hsame] at hpath
          cases hpath
          rfl
    · cases h
  · cases h

/-- A visit that does not write a file leaves it. -/
theorem written_of_not_writes {file : ι} (h : ∀ s, ¬Writes sh locate make files v file s) :
    written sh locate make files v file = files file := by
  unfold written
  cases hb : buildOf sh locate files v with
  | none => rfl
  | some b =>
    dsimp only
    cases hs : make b.args b.read with
    | none => rfl
    | some s => exact Function.update_of_ne (fun heq => h s ⟨b,hb,heq.symm,hs⟩) _ _

theorem written_eq_some {file : ι} {s : σ} (h : written sh locate make files v file = some s) :
    files file = some s ∧ (∀ s, ¬Writes sh locate make files v file s) ∨ Writes sh locate make files v file s := by
  by_cases hwrites : ∃ s, Writes sh locate make files v file s
  · obtain ⟨s',b,hb,hpath,hmake⟩ := hwrites
    refine .inr ⟨b,hb,hpath,?_⟩
    unfold written at h
    simp only [hb,hmake,hpath,Function.update_self] at h
    rw [hmake,h]
  · have hnot : ∀ s, ¬Writes sh locate make files v file s := fun s hs => hwrites ⟨s,hs⟩
    exact .inl ⟨by rwa [written_of_not_writes hnot] at h,hnot⟩

/-- A file holds what it held at first, or what a visit built into it. -/
theorem files_at {before after : List (Files σ ι × Visit)} {f : Files σ ι} {g : Visit} {file : ι} {s : σ}
    (h : history sh locate make files vs = before ++ (f,g) :: after) (hfile : f file = some s) :
    files file = some s ∧ (∀ x ∈ before, ∀ s, ¬Writes sh locate make x.1 x.2 file s) ∨
      ∃ x ∈ before, Writes sh locate make x.1 x.2 file s := by
  induction vs generalizing files before with
  | nil => simp [history] at h
  | cons v rest ih =>
    rw [history] at h
    cases before with
    | nil =>
      cases h
      exact .inl ⟨hfile,by simp⟩
    | cons x xs =>
      rw [List.cons_append,List.cons.injEq] at h
      obtain ⟨rfl,hrest⟩ := h
      rcases ih hrest with ⟨hheld,hnone⟩ | ⟨y,hy,hwrites⟩
      · rcases written_eq_some hheld with ⟨hheld,hnot⟩ | hwrites
        · exact .inl ⟨hheld,List.forall_mem_cons.mpr ⟨hnot,hnone⟩⟩
        · exact .inr ⟨_,List.mem_cons_self,hwrites⟩
      · exact .inr ⟨y,List.mem_cons_of_mem _ hy,hwrites⟩

theorem nameKey_of_outputKey {args : Dict} {b : Builder} {key : NameKey}
    (h : outputKey sh args b = some (.named key)) : nameKey sh args b = some key := by
  have hnamed {o : Option NameKey} (h : o.map OutputKey.named = some (.named key)) : o = some key := by
    obtain ⟨k,hk,heq⟩ := Option.map_eq_some_iff.mp h
    rw [hk,OutputKey.named.inj heq]
  unfold outputKey at h
  split at h
  · split_ifs at h
    · cases h
    · exact hnamed h
  · split_ifs at h
    · cases h
    · exact hnamed h
  · exact hnamed h

section Pairs
variable {x y : Files σ ι × Visit} {b b' : Build σ}

theorem build_of_mem (hx : x ∈ sessionHistory sh locate make files turns) (hb : buildOf sh locate x.1 x.2 = some b) :
    b.path = b.key.path sh ∧ outputKey sh b.plan b.builder = some b.key :=
  path_of_buildOf (run_of_mem_session (mem_of_mem_history hx)) hb

/-- Two build steps with own names have one name exactly when their arguments leave the same in it. -/
theorem sameName_of_mem (hx : x ∈ sessionHistory sh locate make files turns)
    (hy : y ∈ sessionHistory sh locate make files turns) (hb : buildOf sh locate x.1 x.2 = some b)
    (hb' : buildOf sh locate y.1 y.2 = some b') {key key' : NameKey} (hkey : b.key = .named key)
    (hkey' : b'.key = .named key') : SameName sh b.builder b.plan b'.builder b'.plan ↔ key = key' :=
  sameName_iff (nameKey_of_outputKey (hkey ▸ (build_of_mem hx hb).2))
    (nameKey_of_outputKey (hkey' ▸ (build_of_mem hy hb').2))

end Pairs

/-- Where no two names lead to one file, the builds have different files exactly when the names tell their
arguments apart and the paths from the plans lead elsewhere. -/
theorem distinct_iff (hnames : NamesApart sh locate make files turns) : Distinct sh locate make files turns ↔
    NamesTell sh locate make files turns ∧ GivenApart sh locate make files turns := by
  constructor
  · intro h
    refine ⟨fun x hx y hy b b' key key' hb hb' hkey hkey' hsame => ?_,fun x hx y hy b b' path hb hb' hkey hfile => ?_⟩
    · by_contra hne
      refine h x hx y hy b b' hb hb' hne ?_
      rw [(build_of_mem hx hb).1,(build_of_mem hy hb').1,hkey,hkey',(sameName_of_mem hx hy hb hb' hkey hkey').mp hsame]
    · by_contra hne
      refine h x hx y hy b b' hb hb' hne ?_
      rw [(build_of_mem hx hb).1,hkey]
      exact hfile
  · rintro ⟨htell,hgiven⟩ x hx y hy b b' hb hb' hne hfile
    refine hne ?_
    have hpath := (build_of_mem hx hb).1
    have hpath' := (build_of_mem hy hb').1
    cases hkey : b.key with
    | given path =>
      rw [hkey] at hpath
      exact hgiven x hx y hy b b' path hb hb' hkey ((congrArg locate hpath).symm.trans hfile)
    | named key =>
      cases hkey' : b'.key with
      | given path =>
        rw [hkey'] at hpath'
        exact (hgiven y hy x hx b' b path hb' hb hkey' ((congrArg locate hpath').symm.trans hfile.symm)).symm
      | named key' =>
        rw [hpath,hpath',hkey,hkey'] at hfile
        exact htell x hx y hy b b' key key' hb hb' hkey hkey'
          ((sameName_of_mem hx hy hb hb' hkey hkey').mpr (hnames x hx y hy b b' key key' hb hb' hkey hkey' hfile))

end Proofs

/-- In a session whose names lead to different files, builds with different arguments have different files exactly
when the names and the paths from the plans tell them apart; then the files given to runs stay what they are, unless
a run is given one that only later steps build. -/
theorem files_stay_iff {σ ι : Type*} [DecidableEq ι] (sh : Shell) (locate : String → ι)
    (make : Namespace → Option σ → Option σ) (files : Files σ ι) (turns : List Turn)
    (hnames : NamesApart sh locate make files turns) :
    (Distinct sh locate make files turns ↔
      NamesTell sh locate make files turns ∧ GivenApart sh locate make files turns) ∧
    (NamesTell sh locate make files turns ∧ GivenApart sh locate make files turns ∧
      BuiltHere sh locate make files turns → Immutable sh locate make files turns) := by
  refine ⟨distinct_iff hnames,?_⟩
  rintro ⟨htell,hgiven,hbuilt⟩ before f g between f' w after hsplit path s s' hpath hfile ⟨b,hb,hwfile,hmake⟩
  have hdistinct := (distinct_iff hnames).mpr ⟨htell,hgiven⟩
  have hearlier : ∀ x ∈ before, x ∈ sessionHistory sh locate make files turns := fun x hx => by
    rw [hsplit]
    exact List.mem_append_left _ hx
  have hlater : (f',w) ∈ sessionHistory sh locate make files turns := by
    rw [hsplit]
    simp
  -- every earlier step on the file has built what the later one builds
  have hsame : ∀ x ∈ before, ∀ b', buildOf sh locate x.1 x.2 = some b' → locate b'.path = locate path →
      make b'.args b'.read = some s' := by
    intro x hx b' hb' hfile'
    have heq : (b'.args,b'.read) = (b.args,b.read) := by
      by_contra hne
      exact hdistinct x (hearlier x hx) _ hlater b' b hb' hb hne (hfile'.trans hwfile.symm)
    obtain ⟨hargs,hread⟩ := Prod.mk.inj heq
    rw [hargs,hread,hmake]
  obtain ⟨x,hx,b',hb',hfile'⟩ := hbuilt before f g between f' w after hsplit path b hpath hb hwfile
  rcases files_at hsplit hfile with ⟨-,hnone⟩ | ⟨y,hy,c,hc,hcfile,hcmake⟩
  · exact absurd ⟨b',hb',hfile',hsame x hx b' hb' hfile'⟩ (hnone x hx s')
  · exact Option.some_injective _ ((hsame y hy c hc hcfile).symm.trans hcmake)

/-- The formula of a sheet of graphene: 18 atoms or 32, with one less for a vacancy. -/
def sheetFormula : Namespace → Option String → Option String
  | .build2d _ (.str "4x4") .null _ _ _ _, _ => some "C32"
  | .build2d _ _ .null _ _ _ _, _ => some "C18"
  | .build2d _ _ _ _ _ _ _, _ => some "C17"
  | _, _ => none

def sheetStep (args : Dict) : Step × StepEnv :=
  (⟨some (.build .build2d),args⟩,
    ⟨.passes,fun _ => false,fun _ => none,fun _ => answer [("output",.str "s/graphene_3_3.cif")]⟩)

def scfStep : Step × StepEnv :=
  (⟨some .graphRun,[("template_id",.str "t0_scf")]⟩,
    ⟨.passes,fun _ => true,fun _ => some 17,fun _ => answer [("run_id",.str "r1")]⟩)

/-- A sheet with a vacancy and its energy, and another sheet in the next turn. -/
def sheetSession (args : Dict) : List Turn := [
  ⟨.null,[sheetStep [("kind",.str "graphene"),("supercell",.str "3x3"),("vacancy",.num 0)],scfStep]⟩,
  ⟨.str "s/graphene_3_3.cif",[sheetStep args]⟩]

/-- The sheet without the vacancy. -/
def vacancySession : List Turn := sheetSession [("kind",.str "graphene"),("supercell",.str "3x3")]

/-- A larger sheet. -/
def largerSession : List Turn := sheetSession [("kind",.str "graphene"),("supercell",.str "4x4")]

/-- What of a build step can be compared: its path and the formula it makes. -/
def builtFormula (x : Files String String × Visit) : Option (String × Option String) :=
  (buildOf emptySession id x.1 x.2).map fun b => (b.path,sheetFormula b.args b.read)

theorem buildOf_of_builtFormula {x : Files String String × Visit} {path : String} {formula : Option String}
    (h : builtFormula x = some (path,formula)) :
    ∃ b, buildOf emptySession id x.1 x.2 = some b ∧ b.path = path ∧ sheetFormula b.args b.read = formula := by
  obtain ⟨b,hb,heq⟩ := Option.map_eq_some_iff.mp h
  obtain ⟨hpath,hformula⟩ := Prod.mk.inj heq
  exact ⟨b,hb,hpath,hformula⟩

/-- The run was given the sheet with the vacancy, and a retry would read the other one. -/
theorem vacancy_overwritten :
    ¬Immutable emptySession id sheetFormula (fun _ => none) vacancySession ∧
      ¬Distinct emptySession id sheetFormula (fun _ => none) vacancySession := by
  set visited := sessionHistory emptySession id sheetFormula (fun _ => none) vacancySession with hvisited
  have hlength : visited.length = 3 := by decide +kernel
  have hfirst : visited[0]?.bind builtFormula = some ("s/graphene_3_3.cif",some "C17") := by decide +kernel
  have hgiven : visited[1]?.bind (·.2.givenStructure) = some "s/graphene_3_3.cif" := by decide +kernel
  have hfile : visited[1]?.bind (·.1 "s/graphene_3_3.cif") = some "C17" := by decide +kernel
  have hlast : visited[2]?.bind builtFormula = some ("s/graphene_3_3.cif",some "C18") := by decide +kernel
  obtain ⟨x,y,z,hlist⟩ := List.length_eq_three.mp hlength
  rw [hlist] at hfirst hgiven hfile hlast
  obtain ⟨b,hb,hpath,hmake⟩ := buildOf_of_builtFormula hfirst
  obtain ⟨b',hb',hpath',hmake'⟩ := buildOf_of_builtFormula hlast
  constructor
  · intro h
    have heq := h [x] y.1 y.2 [] z.1 z.2 [] (hvisited.symm.trans hlist) _ _ _ hgiven hfile ⟨b',hb',hpath',hmake'⟩
    revert heq
    decide
  · intro h
    have hne : (b.args,b.read) ≠ (b'.args,b'.read) := by
      intro heq
      obtain ⟨hargs,hread⟩ := Prod.mk.inj heq
      rw [hargs,hread,hmake'] at hmake
      revert hmake
      decide
    have hx : x ∈ visited := by rw [hlist]; simp
    have hz : z ∈ visited := by rw [hlist]; simp
    exact h x hx z hz b b' hb hb' hne (hpath.trans hpath'.symm)

theorem larger_sheet_kept :
    Immutable emptySession id sheetFormula (fun _ => none) largerSession ∧
      Distinct emptySession id sheetFormula (fun _ => none) largerSession := by
  obtain ⟨hiff,hkept⟩ := files_stay_iff emptySession id sheetFormula (fun _ => none) largerSession
    fun _ _ _ _ _ _ _ _ _ _ _ _ h => sessionPath_injective h
  set visited := sessionHistory emptySession id sheetFormula (fun _ => none) largerSession with hvisited
  have hlength : visited.length = 3 := by decide +kernel
  have hpaths : visited.map (fun x => (buildOf emptySession id x.1 x.2).map Build.path) =
      [some "s/graphene_3_3.cif",none,some "s/graphene_4_4.cif"] := by decide +kernel
  have hgiven : visited.map (·.2.givenStructure) = [none,some "s/graphene_3_3.cif",none] := by decide +kernel
  obtain ⟨x,y,z,hlist⟩ := List.length_eq_three.mp hlength
  rw [hlist] at hpaths hgiven
  simp only [List.map_cons,List.map_nil,List.cons.injEq,and_true] at hpaths hgiven
  obtain ⟨hx,hy,hz⟩ := hpaths
  -- the path of a build tells which of the two it is
  have hpath : ∀ u ∈ visited, ∀ w ∈ visited, ∀ b b', buildOf emptySession id u.1 u.2 = some b →
      buildOf emptySession id w.1 w.2 = some b' → b.path = b'.path → (b.args,b.read) = (b'.args,b'.read) := by
    intro u hu w hw b b' hb hb' heq
    rw [hlist] at hu hw
    simp only [List.mem_cons,List.not_mem_nil,or_false] at hu hw
    rcases hu with rfl | rfl | rfl <;> rcases hw with rfl | rfl | rfl <;> simp_all
  have htell : NamesTell emptySession id sheetFormula (fun _ => none) largerSession := by
    intro u hu w hw b b' key key' hb hb' hkey hkey' hsame
    refine hpath u hu w hw b b' hb hb' ?_
    rw [(build_of_mem hu hb).1,(build_of_mem hw hb').1,hkey,hkey',(sameName_of_mem hu hw hb hb' hkey hkey').mp hsame]
  have hapart : GivenApart emptySession id sheetFormula (fun _ => none) largerSession := by
    intro u hu w hw b b' path hb hb' hkey hfile
    refine hpath u hu w hw b b' hb hb' ?_
    rw [(build_of_mem hu hb).1,hkey]
    exact hfile
  have hbuilt : BuiltHere emptySession id sheetFormula (fun _ => none) largerSession := by
    intro before f g between f' w after hsplit path b hpath' hb hfile
    have hsplit := hlist.symm.trans hsplit
    -- only the second visit is a run, and the sheet that is built after it has another path
    rcases before with _ | ⟨_,_ | ⟨_,before⟩⟩
    · obtain ⟨rfl,-⟩ := List.cons.inj hsplit
      simp [hgiven.1] at hpath'
    · simp only [List.cons_append,List.nil_append,List.cons.injEq] at hsplit
      obtain ⟨-,rfl,hrest⟩ := hsplit
      have hlater : (f',w) = z := by
        have hmem : (f',w) ∈ [z] := hrest ▸ List.mem_append_right between List.mem_cons_self
        exact List.mem_singleton.mp hmem
      rw [← hlater,hb,Option.map_some,Option.some.injEq] at hz
      rw [hgiven.2.1,Option.some.injEq] at hpath'
      rw [hz,← hpath'] at hfile
      exact absurd hfile (by decide)
    · have hlong := congrArg List.length hsplit
      simp only [List.length_cons,List.length_nil,List.length_append] at hlong
      omega
  exact ⟨hkept ⟨htell,hapart,hbuilt⟩,hiff.mpr ⟨htell,hapart⟩⟩

end DftForge.Agent
