import DftForge.Hpc.JobParams
import DftForge.Library.Lookups
import DftForge.Hpc.TemplateRows

/-! # What the job scripts say

The two templates as rows, and when both rendered scripts are well formed: no directive of the
template without a value, no placeholder left, and every value as it was given.
-/
namespace DftForge.Hpc
open DftForge.Library DftForge.Runtime DftForge.Python DftForge.Engines

section Templates

/-- The rows of both templates before the run command. -/
def setupRows : List Row := [
  .plain [],
  .plain [.hole "module_loads".toList],
  .plain [.hole "env_setup".toList],
  .plain [],
  .plain [.text "cd ".toList,.hole "work_dir".toList]]

/-- The rows of `SBATCH_TEMPLATE`. -/
def sbatchRows : List Row := [
  .directive "#SBATCH --job-name=".toList [.hole "job_name".toList],
  .directive "#SBATCH --nodes=".toList [.hole "nodes".toList],
  .directive "#SBATCH --ntasks=".toList [.hole "ntasks".toList],
  .directive "#SBATCH --cpus-per-task=".toList [.hole "cpus_per_task".toList],
  .directive "#SBATCH --time=".toList [.hole "walltime".toList],
  .directive "#SBATCH --partition=".toList [.hole "partition".toList],
  .directive "#SBATCH --account=".toList [.hole "account".toList],
  .directive "#SBATCH --mem=".toList [.hole "memory".toList],
  .directive "#SBATCH --output=".toList [.hole "job_name".toList,.text "-%j.out".toList],
  .directive "#SBATCH --error=".toList [.hole "job_name".toList,.text "-%j.err".toList]] ++ setupRows

/-- The rows of `QSUB_TEMPLATE`. -/
def qsubRows : List Row := [
  .directive "#PBS -N ".toList [.hole "job_name".toList],
  .directive "#PBS -l ".toList [.text "nodes=".toList,.hole "nodes".toList,.text ":ppn=".toList,
    .hole "cpus_per_task".toList],
  .directive "#PBS -l walltime=".toList [.hole "walltime".toList],
  .directive "#PBS -q ".toList [.hole "partition".toList],
  .directive "#PBS -o ".toList [.hole "job_name".toList,.text "-$PBS_JOBID.out".toList],
  .directive "#PBS -e ".toList [.hole "job_name".toList,.text "-$PBS_JOBID.err".toList]] ++ setupRows

theorem sbatchRows_marked : ∀ row ∈ sbatchRows, row.marked = true := by decide +kernel

theorem qsubRows_marked : ∀ row ∈ qsubRows, row.marked = true := by decide +kernel

def sbatch : Template := ⟨sbatchRows,sbatchRows_marked⟩

def qsub : Template := ⟨qsubRows,qsubRows_marked⟩

theorem fill_sbatch : fill (fun _ => none) sbatch.pieces = sbatchTemplate.toList := by
  delta sbatchTemplate
  simp only [String.toList_append,-String.reduceToList,-String.reduceAppend]
  repeat rw [String.toList_ofList]
  decide +kernel

theorem fill_qsub : fill (fun _ => none) qsub.pieces = qsubTemplate.toList := by
  delta qsubTemplate
  simp only [String.toList_append,-String.reduceToList,-String.reduceAppend]
  repeat rw [String.toList_ofList]
  decide +kernel

/-- No directive of `QSUB_TEMPLATE` is taken out, whatever is missing. -/
theorem qsub_not_dropped {v : Text → Option Text} {row : Row} (hrow : row ∈ qsub.rows) :
    ¬Template.Dropped v row := by
  have hfronts : ∀ row ∈ qsub.rows, row.removable = false := by decide +kernel
  rw [dropped_iff,hfronts row hrow]
  exact fun h => Bool.false_ne_true h.2

/-- A directive of `SBATCH_TEMPLATE` is taken out where its value is missing. -/
theorem sbatch_dropped_iff {v : Text → Option Text} {row : Row} (hrow : row ∈ sbatch.rows) :
    Template.Dropped v row ↔ row.emptied v = true := by
  have hfronts : ∀ row ∈ sbatch.rows, row.removable = true ∨ row = .plain row.pieces := by
    decide +kernel
  rw [dropped_iff,and_iff_left_iff_imp]
  intro hempty
  cases row with
  | directive front value =>
    refine (hfronts _ hrow).resolve_right fun h => ?_
    cases h
  | plain pieces => cases hempty

end Templates

section Values

theorem keys_set (d : Dict) (key : String) (v : Json) :
    (d.set key v).map Prod.fst =
      if key ∈ d.map Prod.fst then d.map Prod.fst else d.map Prod.fst ++ [key] := by
  induction d with
  | nil => rfl
  | cons e d ih =>
    obtain ⟨k,w⟩ := e
    by_cases hk : k = key
    · subst hk
      rw [Dict.set,if_pos rfl,List.map_cons,List.map_cons,if_pos List.mem_cons_self]
    · rw [Dict.set,if_neg hk,List.map_cons,ih,List.map_cons]
      have hmem : key ∈ k :: d.map Prod.fst ↔ key ∈ d.map Prod.fst := by simp [Ne.symm hk]
      simp only [hmem]
      split_ifs
      · rfl
      · rfl

theorem nodup_set {d : Dict} (h : (d.map Prod.fst).Nodup) (key : String) (v : Json) :
    ((d.set key v).map Prod.fst).Nodup := by
  rw [keys_set]
  split_ifs with hkey
  · exact h
  · rw [List.nodup_append]
    refine ⟨h,List.nodup_singleton _,fun a ha b hb => ?_⟩
    rw [List.mem_singleton.mp hb]
    exact fun heq => hkey (heq ▸ ha)

theorem nodup_update {d other : Dict} (h : (d.map Prod.fst).Nodup) :
    ((d.update other).map Prod.fst).Nodup := by
  unfold Dict.update
  induction other generalizing d with
  | nil => exact h
  | cons e other ih => exact ih (nodup_set h e.1 e.2)

theorem nodup_takeAll {find : String → Option Json} {name : String → String} {keys : List String} {d : Dict}
    (h : (d.map Prod.fst).Nodup) : ((takeAll find name keys d).map Prod.fst).Nodup := by
  unfold takeAll
  induction keys generalizing d with
  | nil => exact h
  | cons key keys ih =>
    rw [List.foldl_cons]
    refine ih ?_
    cases find key with
    | none => exact h
    | some v => exact nodup_set h _ _

variable {nums : Numerals} {params : Dict} {jobDefaults : Option JobDefaults} {merged values : Dict}
  {p : Printer} {engine : Text} {jobName workDir : String}

theorem nodup_resolve (h : resolve nums params jobDefaults = .ok merged) : (merged.map Prod.fst).Nodup := by
  have hdefaults : (defaults.map Prod.fst).Nodup := by decide
  have hwith : ((withDefaults defaults jobDefaults).map Prod.fst).Nodup := by
    cases jobDefaults with
    | none => exact hdefaults
    | some d => exact nodup_update hdefaults
  unfold resolve at h
  cases hints : intKeys.foldlM (takeInt nums params) (withDefaults defaults jobDefaults) with
  | error e =>
    rw [hints] at h
    cases h
  | ok counts =>
    rw [hints] at h
    cases h
    rw [takeDefaults_eq,takeTexts_eq,(takeInts_ok hints).1]
    exact nodup_takeAll (nodup_takeAll (nodup_takeAll hwith))

/-- The values as they are printed. -/
def printed (p : Printer) (values : Dict) : List (Text × Text) := values.map fun e => (e.1.toList,p.shown e.2)

/-- The text of a value, where there is one. -/
def shownAt (p : Printer) (values : Dict) : Text → Option Text := given? (printed p values)

theorem shownAt_toList (key : String) : shownAt p values key.toList = (values.get? key).map p.shown :=
  lookup_map (fun _ _ h => String.toList_injective h) p.shown values key

theorem nodup_printed (h : (values.map Prod.fst).Nodup) : ((printed p values).map Prod.fst).Nodup := by
  have hkeys : (printed p values).map Prod.fst = (values.map Prod.fst).map String.toList := by
    rw [printed,List.map_map,List.map_map]
    rfl
  rw [hkeys]
  exact h.map fun _ _ heq => String.toList_injective heq

theorem scriptValues_eq (h : scriptValues nums p params jobDefaults engine jobName workDir = .ok values) :
    ∃ merged, resolve nums params jobDefaults = .ok merged ∧
      values = ((merged.set "run_command" (.str (String.ofList (runCommand p params engine)))).set
        "job_name" (.str jobName)).set "work_dir" (.str workDir) := by
  unfold scriptValues at h
  cases hresolve : resolve nums params jobDefaults with
  | error e =>
    rw [hresolve] at h
    cases h
  | ok merged =>
    rw [hresolve] at h
    exact ⟨merged,rfl,(Except.ok.inj h).symm⟩

theorem nodup_scriptValues (h : scriptValues nums p params jobDefaults engine jobName workDir = .ok values) :
    (values.map Prod.fst).Nodup := by
  obtain ⟨merged,hresolve,rfl⟩ := scriptValues_eq h
  exact nodup_set (nodup_set (nodup_set (nodup_resolve hresolve) _ _) _ _) _ _

/-- The parameters keep the values that `_resolve` leaves. -/
theorem scriptValues_get? (h : scriptValues nums p params jobDefaults engine jobName workDir = .ok values)
    (hresolve : resolve nums params jobDefaults = .ok merged) (k : JobParam) :
    values.get? k.key = merged.get? k.key := by
  obtain ⟨merged',hresolve',rfl⟩ := scriptValues_eq h
  obtain rfl := Except.ok.inj (hresolve.symm.trans hresolve')
  have hkeys : k.key ≠ "run_command" ∧ k.key ≠ "job_name" ∧ k.key ≠ "work_dir" := by cases k <;> decide
  rw [Dict.get?_set_of_ne hkeys.2.2,Dict.get?_set_of_ne hkeys.2.1,Dict.get?_set_of_ne hkeys.1]

theorem scriptValues_command
    (h : scriptValues nums p params jobDefaults engine jobName workDir = .ok values) :
    values.get? "run_command" = some (.str (String.ofList (runCommand p params engine))) ∧
      values.get? "job_name" = some (.str jobName) ∧ values.get? "work_dir" = some (.str workDir) := by
  obtain ⟨merged,-,rfl⟩ := scriptValues_eq h
  refine ⟨?_,?_,Dict.get?_set_self _ _ _⟩
  · rw [Dict.get?_set_of_ne (by decide),Dict.get?_set_of_ne (by decide),Dict.get?_set_self]
  · rw [Dict.get?_set_of_ne (by decide),Dict.get?_set_self]

end Values

/-- Some value is supplied for the parameter. -/
def Supplied (params : Dict) (jobDefaults : Option JobDefaults) (k : JobParam) : Prop :=
  ∃ v, Gives params k v ∨ GivesDefault jobDefaults k v

section Scripts
variable (nums : Numerals) (p : Printer) (params : Dict) (jobDefaults : Option JobDefaults) (engine : Text)
  (jobName workDir : String) (values : Dict)

/-- The text is a well-formed script of the template for these values. -/
structure WellFormedScript (t : Template) (text : Text) : Prop where
  /-- No line is a directive with no value, in the syntax of the expression or of the template. -/
  directives : ∀ line ∈ splitLines text, isEmptyDirective line = false ∧ t.isBare line = false
  /-- No placeholder of the template is left. -/
  replaced : ∀ key, .hole key ∈ t.pieces → (shownAt p values key).isSome = true
  /-- Every value stands where the template has its place, as it was given. -/
  verbatim : text = t.script (shownAt p values)
  /-- Every supplied parameter has a place, and keeps the value that counts. -/
  supplied : ∀ k, Supplied params jobDefaults k → .hole k.key.toList ∈ t.pieces ∧
    ∃ v, values.get? k.key = some v ∧ Prior nums params jobDefaults k v
  /-- So do the run command, the job name and the work directory. -/
  named : ∀ e ∈ [("run_command",runCommand p params engine),("job_name",jobName.toList),
    ("work_dir",workDir.toList)], .hole e.1.toList ∈ t.pieces ∧ shownAt p values e.1.toList = some e.2

/-- The values fit both templates. -/
structure Renderable (v : Text → Option Text) : Prop where
  /-- A row of `SBATCH_TEMPLATE` is clean, or a directive with no value. -/
  sbatch : ∀ row ∈ sbatch.rows, sbatch.Clean v row ∨ row.emptied v = true
  /-- In `QSUB_TEMPLATE` no directive is without a value. -/
  qsub : ∀ row ∈ qsub.rows, qsub.Clean v row
  /-- The run command ends with no white space. -/
  command : ∃ c, (fill v commandRow.pieces).getLast? = some c ∧ isSpace c = false

end Scripts

section Fitting
variable {v : Text → Option Text}

theorem renderable_iff : Renderable v ↔ sbatch.Fits v ∧ qsub.Fits v := by
  constructor
  · rintro ⟨hsbatch,hqsub,hcommand⟩
    refine ⟨⟨fun row hrow => ?_,hcommand⟩,⟨fun row hrow => .inl (hqsub row hrow),hcommand⟩⟩
    rw [sbatch_dropped_iff hrow]
    exact hsbatch row hrow
  · rintro ⟨hsbatch,hqsub⟩
    refine ⟨fun row hrow => ?_,fun row hrow => ?_,hsbatch.ends⟩
    · rw [← sbatch_dropped_iff hrow]
      exact hsbatch.rows row hrow
    · exact (hqsub.rows row hrow).resolve_right (qsub_not_dropped hrow)

end Fitting

section Rendering
variable {nums : Numerals} {params : Dict} {jobDefaults : Option JobDefaults} {values : Dict} {p : Printer}
  {engine : Text} {jobName workDir : String} {t : Template}

theorem render_eq (h : scriptValues nums p params jobDefaults engine jobName workDir = .ok values)
    (hundisturbed : Undisturbed (printed p values) t.pieces) :
    render p (fill (fun _ => none) t.pieces) values =
      withoutEmptyDirectives (fill (shownAt p values) t.pieces) := by
  rw [render,shownAt,← replaceAll_fill (nodup_printed (nodup_scriptValues h)) hundisturbed]
  rfl

/-- The keys of a script. -/
def scriptKeys : List String :=
  ["run_command","job_name","work_dir"] ++ [JobParam.nodes,.ntasks,.cpusPerTask,.walltime,.partition,.account,
    .memory,.moduleLoads,.envSetup].map JobParam.key

theorem shownAt_isSome (h : scriptValues nums p params jobDefaults engine jobName workDir = .ok values)
    {key : String} (hkey : key ∈ scriptKeys) : (shownAt p values key.toList).isSome = true := by
  obtain ⟨merged,hresolve,-⟩ := scriptValues_eq h
  obtain ⟨hcommand,hjob,hdir⟩ := scriptValues_command h
  have hparam (k : JobParam) : (values.get? k.key).isSome = true := by
    rw [scriptValues_get? h hresolve,resolve_get? hresolve]
    simp
  rw [shownAt_toList,Option.isSome_map]
  obtain hkey | hkey := List.mem_append.mp hkey
  · simp only [List.mem_cons,List.not_mem_nil,or_false] at hkey
    obtain rfl | rfl | rfl := hkey
    · rw [hcommand,Option.isSome_some]
    · rw [hjob,Option.isSome_some]
    · rw [hdir,Option.isSome_some]
  · obtain ⟨k,-,rfl⟩ := List.mem_map.mp hkey
    exact hparam k

/-- What is left to a script, where its template has the places of these parameters. -/
theorem wellFormed_iff (h : scriptValues nums p params jobDefaults engine jobName workDir = .ok values)
    (hundisturbed : Undisturbed (printed p values) t.pieces) (hholes : ∀ key, .hole key ∈ t.pieces →
      ∃ k ∈ scriptKeys, key = k.toList) (hnamed : ∀ key ∈ ["run_command","job_name","work_dir"],
      .hole key.toList ∈ t.pieces) :
    WellFormedScript nums p params jobDefaults engine jobName workDir values t
        (render p (fill (fun _ => none) t.pieces) values) ↔
      t.Fits (shownAt p values) ∧ ∀ k, Supplied params jobDefaults k →
        .hole k.key.toList ∈ t.pieces ∧ Respected params jobDefaults k := by
  obtain ⟨merged,hresolve,-⟩ := scriptValues_eq h
  obtain ⟨hcommand,hjob,hdir⟩ := scriptValues_command h
  have hprior (k : JobParam) : (∃ v, values.get? k.key = some v ∧ Prior nums params jobDefaults k v) ↔
      Respected params jobDefaults k := by
    rw [scriptValues_get? h hresolve]
    exact prior_iff hresolve k
  have htext := render_eq h hundisturbed
  rw [htext,← written_iff]
  constructor
  · rintro ⟨hdirectives,-,hverbatim,hsupplied,-⟩
    exact ⟨⟨hverbatim,hdirectives⟩,fun k hk => ⟨(hsupplied k hk).1,(hprior k).mp (hsupplied k hk).2⟩⟩
  · rintro ⟨⟨hverbatim,hdirectives⟩,hsupplied⟩
    refine ⟨hdirectives,fun key hkey => ?_,hverbatim,
      fun k hk => ⟨(hsupplied k hk).1,(hprior k).mpr (hsupplied k hk).2⟩,fun e he => ?_⟩
    · obtain ⟨k,hk,rfl⟩ := hholes key hkey
      exact shownAt_isSome h hk
    · simp only [List.mem_cons,List.not_mem_nil,or_false] at he
      rw [shownAt_toList]
      obtain rfl | rfl | rfl := he
      · refine ⟨hnamed _ (by simp),?_⟩
        rw [hcommand,Option.map_some,p.shown_str,String.toList_ofList]
      · refine ⟨hnamed _ (by simp),?_⟩
        rw [hjob,Option.map_some,p.shown_str]
      · refine ⟨hnamed _ (by simp),?_⟩
        rw [hdir,Option.map_some,p.shown_str]

theorem sbatch_holes : (∀ piece ∈ sbatch.pieces, ∀ key ∈ piece.key?, ∃ k ∈ scriptKeys, key = k.toList) ∧
    ∀ key ∈ scriptKeys, .hole key.toList ∈ sbatch.pieces := by
  constructor
  · decide +kernel
  · decide +kernel

theorem qsub_holes : (∀ piece ∈ qsub.pieces, ∀ key ∈ piece.key?, ∃ k ∈ scriptKeys, key = k.toList) ∧
    ∀ key ∈ scriptKeys,
      (.hole key.toList ∈ qsub.pieces ↔ key ≠ "ntasks" ∧ key ≠ "account" ∧ key ≠ "memory") := by
  constructor
  · decide +kernel
  · decide +kernel

/-- Both scripts are well formed exactly when the values fit both templates, and nothing is supplied
that the template of the other scheduler has no place for. -/
theorem scripts_well_formed_iff
    (h : scriptValues nums p params jobDefaults engine jobName workDir = .ok values)
    (hsbatch : Undisturbed (printed p values) sbatch.pieces)
    (hqsub : Undisturbed (printed p values) qsub.pieces) :
    ((∃ text, renderSbatch nums p params jobDefaults engine jobName workDir = .ok text ∧
        WellFormedScript nums p params jobDefaults engine jobName workDir values sbatch text) ∧
      ∃ text, renderQsub nums p params jobDefaults engine jobName workDir = .ok text ∧
        WellFormedScript nums p params jobDefaults engine jobName workDir values qsub text) ↔
    Renderable (shownAt p values) ∧ ∀ k, Supplied params jobDefaults k →
      k ≠ .ntasks ∧ k ≠ .account ∧ k ≠ .memory ∧ Respected params jobDefaults k := by
  have hkey (k : JobParam) : k.key ∈ scriptKeys := by cases k <;> decide
  have hplace (k : JobParam) :
      .hole k.key.toList ∈ qsub.pieces ↔ k ≠ .ntasks ∧ k ≠ .account ∧ k ≠ .memory := by
    rw [qsub_holes.2 _ (hkey k)]
    cases k <;> decide
  have hcommon : ∀ key ∈ ["run_command","job_name","work_dir"], key ∈ scriptKeys ∧
      key ≠ "ntasks" ∧ key ≠ "account" ∧ key ≠ "memory" := by decide
  have hfirst := wellFormed_iff h hsbatch (fun key hkey => sbatch_holes.1 _ hkey key rfl)
    fun key hkey => sbatch_holes.2 key (hcommon key hkey).1
  have hsecond := wellFormed_iff h hqsub (fun key hkey => qsub_holes.1 _ hkey key rfl)
    fun key hkey => (qsub_holes.2 key (hcommon key hkey).1).mpr (hcommon key hkey).2
  rw [fill_sbatch] at hfirst
  rw [fill_qsub] at hsecond
  have hrendered : renderSbatch nums p params jobDefaults engine jobName workDir =
      .ok (render p sbatchTemplate.toList values) := by
    rw [renderSbatch,h]
    rfl
  have hqueued : renderQsub nums p params jobDefaults engine jobName workDir =
      .ok (render p qsubTemplate.toList values) := by
    rw [renderQsub,h]
    rfl
  rw [hrendered,hqueued]
  simp only [Except.ok.injEq,exists_eq_left',hfirst,hsecond,renderable_iff,hplace]
  constructor
  · rintro ⟨⟨hfits,-⟩,hfits',hsupplied⟩
    exact ⟨⟨hfits,hfits'⟩,fun k hk => by simpa [and_assoc] using hsupplied k hk⟩
  · rintro ⟨⟨hfits,hfits'⟩,hsupplied⟩
    refine ⟨⟨hfits,fun k hk => ⟨sbatch_holes.2 _ (hkey k),(hsupplied k hk).2.2.2⟩⟩,hfits',fun k hk => ?_⟩
    obtain ⟨hntasks,haccount,hmemory,hrespected⟩ := hsupplied k hk
    exact ⟨⟨hntasks,haccount,hmemory⟩,hrespected⟩

end Rendering

section Examples

/-- How numbers and texts are printed. -/
def plainShown : Json → Text
  | .num q => (toString q.num).toList
  | .str s => s.toList
  | _ => []

theorem plainShown_str (s : String) : plainShown (.str s) = s.toList := rfl

def plainPrinter : Printer := ⟨plainShown,plainShown_str⟩

def regularParams : Dict := [("partition",.str "regular")]

/-- The values of a job. -/
def jobValues (partition jobName workDir : String) : Dict := [
  ("nodes",.num 1),
  ("ntasks",.num 8),
  ("cpus_per_task",.num 1),
  ("walltime",.str "24:00:00"),
  ("partition",.str partition),
  ("account",.str ""),
  ("memory",.str ""),
  ("module_loads",.str ""),
  ("env_setup",.str ""),
  ("run_command",.str "srun pw.x -in pw.in > pw.out"),
  ("job_name",.str jobName),
  ("work_dir",.str workDir)]

theorem regular_values :
    scriptValues plainNumerals plainPrinter regularParams none "qe".toList "dftforge" "." =
      .ok (jobValues "regular" "dftforge" ".") := by
  rfl

theorem regular_undisturbed {pieces : List Piece}
    (hpieces : ∀ piece ∈ pieces, '\x7b' ∉ piece.fill some ∧ '\x7d' ∉ piece.fill some) :
    Undisturbed (printed plainPrinter (jobValues "regular" "dftforge" ".")) pieces := by
  refine undisturbed_of_no_brace ?_ ?_ hpieces
  · decide +kernel
  · decide +kernel

theorem regular_renderable : Renderable (shownAt plainPrinter (jobValues "regular" "dftforge" ".")) := by
  refine ⟨?_,?_,'t',?_,rfl⟩
  · decide +kernel
  · decide +kernel
  · decide +kernel

/-- Only the partition is supplied. -/
theorem regular_supplied (k : JobParam) (h : Supplied regularParams none k) : k = .partition := by
  obtain ⟨v,⟨s,hs,hv⟩ | ⟨s,-,hv⟩⟩ := h
  · have hkey : s = "partition" := by
      by_contra hne
      rw [lookupGiven,regularParams,get?_cons_of_ne hne] at hv
      cases hv
    subst hkey
    cases k <;> revert hs <;> decide
  · cases hv

/-- Both scripts of a job on a partition. -/
theorem regular_scripts :
    (∃ text,
        renderSbatch plainNumerals plainPrinter regularParams none "qe".toList "dftforge" "." = .ok text ∧
        WellFormedScript plainNumerals plainPrinter regularParams none "qe".toList "dftforge" "."
          (jobValues "regular" "dftforge" ".") sbatch text) ∧
      ∃ text,
        renderQsub plainNumerals plainPrinter regularParams none "qe".toList "dftforge" "." = .ok text ∧
        WellFormedScript plainNumerals plainPrinter regularParams none "qe".toList "dftforge" "."
          (jobValues "regular" "dftforge" ".") qsub text := by
  have hsbatch : ∀ piece ∈ sbatch.pieces, '\x7b' ∉ piece.fill some ∧ '\x7d' ∉ piece.fill some := by
    decide +kernel
  have hqsub : ∀ piece ∈ qsub.pieces, '\x7b' ∉ piece.fill some ∧ '\x7d' ∉ piece.fill some := by
    decide +kernel
  refine (scripts_well_formed_iff regular_values (regular_undisturbed hsbatch)
    (regular_undisturbed hqsub)).mpr ⟨regular_renderable,fun k hk => ?_⟩
  obtain rfl := regular_supplied k hk
  refine ⟨by decide,by decide,by decide,fun u v _ hv => ?_,fun s v _ _ hv _ _ => ?_⟩
  · cases hv
  · cases hv

theorem unnamed_values : scriptValues plainNumerals plainPrinter [] none "qe".toList "dftforge" "." =
    .ok (jobValues "" "dftforge" ".") := by
  rfl

theorem placeholder_values : scriptValues plainNumerals plainPrinter [] none "qe".toList
    "\x7b\x7bwork_dir\x7d\x7d" "/tmp" = .ok (jobValues "" "\x7b\x7bwork_dir\x7d\x7d" "/tmp") := by
  rfl

theorem queue_left_empty : ∃ text,
    renderQsub plainNumerals plainPrinter [] none "qe".toList "dftforge" "." = .ok text ∧
    "#PBS -q ".toList ∈ splitLines text ∧
    ¬WellFormedScript plainNumerals plainPrinter [] none "qe".toList "dftforge" "."
      (jobValues "" "dftforge" ".") qsub text := by
  have hline : "#PBS -q ".toList ∈
      splitLines (render plainPrinter qsubTemplate.toList (jobValues "" "dftforge" ".")) := by
    rw [← fill_qsub]
    decide +kernel
  refine ⟨render plainPrinter qsubTemplate.toList (jobValues "" "dftforge" "."),?_,hline,fun h => ?_⟩
  · rw [renderQsub,unnamed_values]
    rfl
  · have hbare : qsub.isBare "#PBS -q ".toList = true := by decide +kernel
    rw [(h.directives _ hline).2] at hbare
    cases hbare

/-- With no partition the script keeps the directive of the queue, with no queue; and a job name that
looks like a placeholder is replaced. -/
theorem scripts_not_well_formed :
    (∃ text, renderQsub plainNumerals plainPrinter [] none "qe".toList "dftforge" "." = .ok text ∧
      "#PBS -q ".toList ∈ splitLines text ∧
      ¬WellFormedScript plainNumerals plainPrinter [] none "qe".toList "dftforge" "."
        (jobValues "" "dftforge" ".") qsub text) ∧
    ∃ text,
      renderSbatch plainNumerals plainPrinter [] none "qe".toList "\x7b\x7bwork_dir\x7d\x7d" "/tmp" =
        .ok text ∧
      "#SBATCH --job-name=/tmp".toList ∈ splitLines text ∧
      ¬WellFormedScript plainNumerals plainPrinter [] none "qe".toList "\x7b\x7bwork_dir\x7d\x7d" "/tmp"
        (jobValues "" "\x7b\x7bwork_dir\x7d\x7d" "/tmp") sbatch text := by
  refine ⟨queue_left_empty,?_⟩
  have hline : "#SBATCH --job-name=/tmp".toList ∈ splitLines
      (render plainPrinter sbatchTemplate.toList (jobValues "" "\x7b\x7bwork_dir\x7d\x7d" "/tmp")) := by
    rw [← fill_sbatch]
    decide +kernel
  refine ⟨_,?_,hline,fun h => ?_⟩
  · rw [renderSbatch,placeholder_values]
    rfl
  · have hscript : "#SBATCH --job-name=/tmp".toList ∉ splitLines
        (sbatch.script (shownAt plainPrinter (jobValues "" "\x7b\x7bwork_dir\x7d\x7d" "/tmp"))) := by
      decide +kernel
    rw [h.verbatim] at hline
    exact hscript hline

end Examples
end DftForge.Hpc
