import DftForge.Python.Paths
import DftForge.Runtime.Run

/-! # The saved wave functions of an earlier node

The nodes after a self-consistent run read its save through a link in their own directory.
-/
namespace DftForge.Engines
open DftForge.Library.RealPaths DftForge.Python
variable {F : Type}

def isNscf (dep : Text) : Bool := "nscf".toList <:+: dep

def preferred (deps : List Text) : List Text := deps.filter isNscf ++ deps.filter fun dep => !isNscf dep

inductive LinkError where
  | tool (error : Runtime.ToolError)
  | raised

section Link
variable (d : Disk F) (base : Path FileName) (save : FileName)

/-- Where the save of a node is looked for. -/
def upstreamSave (dep : Text) : Option (List FileName) := d.resolve ((base.join (pathOf dep)).join (pathOf save.1))

/-- `target.symlink_to`, after the broken link in its place is removed. -/
def symlinkTo (workdir place : List FileName) : Except LinkError (Disk F) :=
  if h : d.tree.entry workdir = some .dir ∧ d.tree.entry (workdir ++ [save]) ≠ some .dir then
    .ok (d.put workdir save (.link ⟨true,Tree.names place⟩) h.1 h.2)
  else .error .raised

/-- The link to a save, unless something is in its place already. -/
def placeLink (workdir place : List FileName) : Except LinkError (Disk F) :=
  let isLink := d.isSymlink (workdir ++ [save])
  let present := (d.stat ⟨true,Tree.names (workdir ++ [save])⟩).isSome
  if isLink && !present then symlinkTo d save workdir place
  else if present || isLink then .ok d
  else symlinkTo d save workdir place

def linkFirst (workdir : List FileName) : List Text → Except LinkError (Disk F)
  | [] => .error (.tool {
      message := "no upstream " ++ String.ofList save.1 ++ " found — add a succeeded scf/nscf dependency"
      category := "missing_upstream"
      repairable := false })
  | dep :: rest =>
    match upstreamSave d base save dep with
    | none => .error .raised
    | some place =>
      if (d.stat ⟨true,Tree.names place⟩).isSome then placeLink d save workdir place else linkFirst workdir rest

/-- `_link_upstream_save`. -/
def linkUpstreamSave (workdir : List FileName) (upstream : List Text) : Except LinkError (Disk F) :=
  linkFirst d base save workdir (preferred upstream)

variable {d base save}

def HasSave (d : Disk F) (base : Path FileName) (save : FileName) (dep : Text) (place : List FileName) : Prop :=
  upstreamSave d base save dep = some place ∧ d.tree.entry place ≠ none

def NoSave (d : Disk F) (base : Path FileName) (save : FileName) (dep : Text) : Prop :=
  ∃ place, upstreamSave d base save dep = some place ∧ d.tree.entry place = none

theorem stat_upstreamSave {dep : Text} {place : List FileName} (h : upstreamSave d base save dep = some place) :
    d.stat ⟨true,Tree.names place⟩ = d.tree.entry place := d.stat_place (d.resolve_clear h)

theorem linkFirst_ok {workdir : List FileName} {deps : List Text} {d' : Disk F}
    (h : linkFirst d base save workdir deps = .ok d') : ∃ before dep after place, deps = before ++ dep :: after ∧
      (∀ b ∈ before, NoSave d base save b) ∧ HasSave d base save dep place ∧ placeLink d save workdir place = .ok d' := by
  induction deps with
  | nil => cases h
  | cons dep rest ih =>
    unfold linkFirst at h
    split at h
    · cases h
    · next place hplace =>
      rw [stat_upstreamSave hplace] at h
      split_ifs at h with hexists
      · exact ⟨[],dep,rest,place,rfl,by simp,⟨hplace,Option.isSome_iff_ne_none.mp hexists⟩,h⟩
      · obtain ⟨before,dep',after,place',rfl,hbefore,hrest⟩ := ih h
        refine ⟨dep :: before,dep',after,place',rfl,?_,hrest⟩
        rintro b (_ | ⟨_,hb⟩)
        · exact ⟨place,hplace,by simpa using hexists⟩
        · exact hbefore b hb

theorem preferred_split {deps before after : List Text} {dep : Text} (h : preferred deps = before ++ dep :: after) :
    isNscf dep = true ∨ ∀ other ∈ deps, isNscf other = true → other ∈ before := by
  rcases List.append_eq_append_iff.mp h with ⟨more,hbefore,_⟩ | ⟨more,hnscf,hrest⟩
  · refine Or.inr fun other hother hnscf => ?_
    rw [hbefore]
    exact List.mem_append_left _ (List.mem_filter.mpr ⟨hother,hnscf⟩)
  · cases more with
    | nil =>
      refine Or.inr fun other hother hother' => ?_
      rw [List.append_nil] at hnscf
      exact hnscf ▸ List.mem_filter.mpr ⟨hother,hother'⟩
    | cons m more =>
      obtain ⟨rfl,_⟩ := List.cons.inj hrest
      have hmem : dep ∈ deps.filter isNscf := hnscf ▸ List.mem_append_right _ List.mem_cons_self
      exact Or.inl (List.mem_filter.mp hmem).2

theorem mem_preferred {deps : List Text} {dep : Text} : dep ∈ preferred deps ↔ dep ∈ deps := by
  unfold preferred
  rw [List.mem_append,List.mem_filter,List.mem_filter]
  cases isNscf dep <;> simp

theorem placeLink_eq {workdir place : List FileName} : placeLink d save workdir place =
    if (d.stat ⟨true,Tree.names (workdir ++ [save])⟩).isSome then .ok d else symlinkTo d save workdir place := by
  unfold placeLink
  cases (d.stat ⟨true,Tree.names (workdir ++ [save])⟩).isSome <;> cases d.isSymlink (workdir ++ [save]) <;> rfl

theorem symlinkTo_ok {workdir place : List FileName} {d' : Disk F} (hlinks : 0 < d.links)
    (hplace : d.tree.Clear place) (hexists : d.tree.entry place ≠ none)
    (hfree : d.stat ⟨true,Tree.names (workdir ++ [save])⟩ = none) (h : symlinkTo d save workdir place = .ok d') :
    d'.stat ⟨true,Tree.names (workdir ++ [save])⟩ = d.tree.entry place ∧
      ∀ p ≠ workdir ++ [save], d'.tree.entry p = d.tree.entry p := by
  unfold symlinkTo at h
  split_ifs at h
  obtain rfl := Except.ok.inj h
  exact ⟨d.stat_put_link hlinks hplace hexists hfree,fun _ hp => d.put_entry hp⟩

theorem symlinkTo_dir {workdir place : List FileName} (hdir : d.tree.entry workdir = some .dir)
    (hfree : d.stat ⟨true,Tree.names (workdir ++ [save])⟩ = none) : ∃ d', symlinkTo d save workdir place = .ok d' := by
  have hnot : d.tree.entry (workdir ++ [save]) ≠ some .dir := by
    intro hentry
    have hlink := d.isLink_of_stat_none hfree hentry
    cases hlink
  exact ⟨_,dif_pos ⟨hdir,hnot⟩⟩

theorem linkFirst_missing {workdir : List FileName} {deps : List Text} {e : Runtime.ToolError}
    (h : linkFirst d base save workdir deps = .error (.tool e)) : ∀ dep ∈ deps, NoSave d base save dep := by
  induction deps with
  | nil => simp
  | cons dep rest ih =>
    unfold linkFirst at h
    split at h
    · cases h
    · next place hplace =>
      rw [stat_upstreamSave hplace] at h
      split_ifs at h with hexists
      · rw [placeLink_eq] at h
        unfold symlinkTo at h
        split_ifs at h
        cases h
      · rintro b (_ | ⟨_,hb⟩)
        · exact ⟨place,hplace,by simpa using hexists⟩
        · exact ih h b hb

theorem linkFirst_finds {workdir : List FileName} {deps : List Text} (hdir : d.tree.entry workdir = some .dir)
    (hdeps : ∀ dep ∈ deps, upstreamSave d base save dep ≠ none) (hsome : ∃ dep ∈ deps, ∃ place, HasSave d base save dep place) :
    ∃ d', linkFirst d base save workdir deps = .ok d' := by
  induction deps with
  | nil => simp at hsome
  | cons dep rest ih =>
    obtain ⟨place,hplace⟩ := Option.ne_none_iff_exists'.mp (hdeps dep List.mem_cons_self)
    unfold linkFirst
    rw [hplace]
    dsimp only
    rw [stat_upstreamSave hplace]
    split_ifs with hexists
    · rw [placeLink_eq]
      split_ifs with hpresent
      · exact ⟨d,rfl⟩
      · exact symlinkTo_dir hdir (by simpa using hpresent)
    · refine ih (fun dep' hdep' => hdeps dep' (List.mem_cons_of_mem dep hdep')) ?_
      obtain ⟨dep',hdep',place',hsave⟩ := hsome
      rcases List.mem_cons.mp hdep' with rfl | hdep'
      · obtain rfl := Option.some.inj (hplace.symm.trans hsave.1)
        exact absurd (Option.isSome_iff_ne_none.mpr hsave.2) hexists
      · exact ⟨dep',hdep',place',hsave⟩

/-- Where the link succeeds, the node finds a save in its directory: what was there, or the save of an upstream node,
which is an NSCF node where one has a save. Nothing else on the disk changes. It fails only where no upstream node has a
save. -/
theorem upstream_save_linked (workdir : List FileName) (upstream : List Text) (hlinks : 0 < d.links) :
    let target : Path FileName := ⟨true,Tree.names (workdir ++ [save])⟩
    (∀ d', linkUpstreamSave d base save workdir upstream = .ok d' →
      d.stat target ≠ none ∧ d' = d ∨
      d.stat target = none ∧ ∃ dep ∈ upstream, ∃ place, HasSave d base save dep place ∧
        d'.stat target = d.tree.entry place ∧
        (isNscf dep = true ∨ ∀ other ∈ upstream, isNscf other = true → NoSave d base save other) ∧
        ∀ p ≠ workdir ++ [save], d'.tree.entry p = d.tree.entry p) ∧
    (∀ e, linkUpstreamSave d base save workdir upstream = .error (.tool e) →
      ∀ dep ∈ upstream, NoSave d base save dep) ∧
    (d.tree.entry workdir = some .dir → (∀ dep ∈ upstream, upstreamSave d base save dep ≠ none) →
      (∃ dep ∈ upstream, ∃ place, HasSave d base save dep place) →
      ∃ d', linkUpstreamSave d base save workdir upstream = .ok d') := by
  refine ⟨fun d' h => ?_,fun e h dep hdep => ?_,fun hdir hdeps hsome => ?_⟩
  · obtain ⟨before,dep,after,place,hdeps,hbefore,hsave,hlink⟩ := linkFirst_ok h
    rw [placeLink_eq] at hlink
    split_ifs at hlink with hpresent
    · exact Or.inl ⟨Option.isSome_iff_ne_none.mp hpresent,(Except.ok.inj hlink).symm⟩
    · have hfree : d.stat ⟨true,Tree.names (workdir ++ [save])⟩ = none := by simpa using hpresent
      obtain ⟨hstat,hothers⟩ := symlinkTo_ok hlinks (d.resolve_clear hsave.1) hsave.2 hfree hlink
      have hdep : dep ∈ upstream := by
        rw [← mem_preferred,hdeps]
        exact List.mem_append_right _ List.mem_cons_self
      refine Or.inr ⟨hfree,dep,hdep,place,hsave,hstat,?_,hothers⟩
      exact (preferred_split hdeps).imp_right fun hall other hother hnscf => hbefore other (hall other hother hnscf)
  · exact linkFirst_missing h dep (mem_preferred.mpr hdep)
  · refine linkFirst_finds hdir (fun dep hdep => hdeps dep (mem_preferred.mp hdep)) ?_
    obtain ⟨dep,hdep,place,hsave⟩ := hsome
    exact ⟨dep,mem_preferred.mpr hdep,place,hsave⟩

end Link

section Sample

theorem isFileName_run : IsFileName "run_1".toList := by decide

theorem isFileName_scf : IsFileName "scf".toList := by decide

theorem isFileName_bands : IsFileName "bands".toList := by decide

theorem isFileName_save : IsFileName "si.save".toList := by decide

def runName : FileName := ⟨_,isFileName_run⟩

def scfName : FileName := ⟨_,isFileName_scf⟩

def bandsName : FileName := ⟨_,isFileName_bands⟩

def saveName : FileName := ⟨_,isFileName_save⟩

/-- `/run_1/scf/si.save` and `/run_1/bands`. -/
def runTree : Tree FileName Text :=
  (((Tree.bare.put [] runName .dir rfl (ne_dir rfl)).put [runName] scfName .dir rfl (ne_dir rfl)).put
    [runName,scfName] saveName .dir rfl (ne_dir rfl)).put [runName] bandsName .dir rfl (ne_dir rfl)

def runDisk : Disk Text := ⟨runTree,[],Tree.clear_nil,rfl,40⟩

def runBase : Path FileName := ⟨true,Tree.names [runName]⟩

theorem run_hasSave : HasSave runDisk runBase saveName scfName.1 [runName,scfName,saveName] := by
  have hentry : runDisk.tree.entry [runName,scfName,saveName] = some .dir := rfl
  refine ⟨?_,by rw [hentry]; exact Option.some_ne_none _⟩
  unfold upstreamSave
  rw [pathOf_name,pathOf_name]
  exact Disk.resolve_place (Tree.clear_of_entry hentry rfl)

theorem run_save_linked : ∃ d', linkUpstreamSave runDisk runBase saveName [runName,bandsName] [scfName.1] = .ok d' ∧
    d'.stat ⟨true,Tree.names [runName,bandsName,saveName]⟩ = some .dir := by
  obtain ⟨hok,_,hfinds⟩ := upstream_save_linked [runName,bandsName] [scfName.1] (by decide : 0 < runDisk.links)
  have hbands : runDisk.tree.entry [runName,bandsName] = some .dir := rfl
  have htarget : runDisk.tree.entry ([runName,bandsName] ++ [saveName]) = none := rfl
  have hplace : ∀ dep ∈ [scfName.1], upstreamSave runDisk runBase saveName dep ≠ none := by
    intro dep hdep
    rw [List.mem_singleton.mp hdep,run_hasSave.1]
    exact Option.some_ne_none _
  obtain ⟨d',hd'⟩ := hfinds hbands hplace ⟨_,List.mem_singleton.mpr rfl,_,run_hasSave⟩
  have hclear : runDisk.tree.Clear ([runName,bandsName] ++ [saveName]) := by
    refine (Tree.clear_of_entry hbands rfl).concat fun e he => ?_
    rw [htarget] at he
    cases he
  have hfree : runDisk.stat ⟨true,Tree.names ([runName,bandsName] ++ [saveName])⟩ = none := by
    rw [Disk.stat_place hclear,htarget]
  refine ⟨d',hd',?_⟩
  rcases hok d' hd' with ⟨hpresent,_⟩ | ⟨_,dep,hdep,place,⟨hdepPlace,_⟩,hstat,_⟩
  · exact absurd hfree hpresent
  · obtain rfl := List.mem_singleton.mp hdep
    obtain rfl := Option.some.inj (hdepPlace.symm.trans run_hasSave.1)
    exact hstat

end Sample

end DftForge.Engines
