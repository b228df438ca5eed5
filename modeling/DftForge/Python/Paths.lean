import DftForge.Library.RealPaths
import DftForge.Python.Text

/-! # Paths of files

Paths as `pathlib` reads and writes them, and where they lead on a disk.
-/
namespace DftForge.Python
open DftForge.Library.RealPaths

def IsFileName (n : Text) : Prop := n ≠ [] ∧ n ≠ ['.'] ∧ n ≠ ['.','.'] ∧ '/' ∉ n

instance : DecidablePred IsFileName := fun _ => inferInstanceAs (Decidable (_ ∧ _ ∧ _ ∧ _))

/-- What an entry of a directory can be called. -/
abbrev FileName := {n : Text // IsFileName n}

/-- Empty components and `.` are left out. -/
def component (part : Text) : Option (Comp FileName) :=
  if part = ['.','.'] then some .up else if h : IsFileName part then some (.name ⟨part,h⟩) else none

/-- `Path(text)`. -/
def pathOf (text : Text) : Path FileName := ⟨text.head? = some '/',(text.splitOn '/').filterMap component⟩

def relativeText (place : List FileName) : Text := ['/'].intercalate (place.map (·.1))

/-- `str(path)` of an absolute path. -/
def placeText (place : List FileName) : Text := '/' :: relativeText place

theorem component_name (n : FileName) : component n.1 = some (.name n) := by
  unfold component
  rw [if_neg n.2.2.2.1,dif_pos n.2]

theorem components_names (place : List FileName) : (place.map (·.1)).filterMap component = Tree.names place := by
  rw [List.filterMap_map,Tree.names,← List.filterMap_eq_map]
  exact List.filterMap_congr fun n _ => component_name n

theorem relativeText_splitOn {place : List FileName} (hne : place ≠ []) :
    (relativeText place).splitOn '/' = place.map (·.1) := by
  refine List.splitOn_intercalate '/' (fun part hpart => ?_) (by rwa [ne_eq,List.map_eq_nil_iff])
  obtain ⟨n,_,rfl⟩ := List.mem_map.mp hpart
  exact n.2.2.2.2

theorem relativeText_head (n : FileName) (place : List FileName) : (relativeText (n :: place)).head? = n.1.head? := by
  obtain ⟨c,name,hname⟩ := List.exists_cons_of_ne_nil n.2.1
  cases place with
  | nil => rw [relativeText,List.map_singleton,List.intercalate_singleton]
  | cons m place =>
    rw [relativeText,List.map_cons,List.map_cons,List.intercalate_cons_cons,hname]
    rfl

theorem pathOf_relativeText (place : List FileName) : pathOf (relativeText place) = ⟨false,Tree.names place⟩ := by
  cases place with
  | nil => rfl
  | cons n rest =>
    have hhead : (relativeText (n :: rest)).head? ≠ some '/' := by
      rw [relativeText_head]
      exact fun hslash => n.2.2.2.2 (List.mem_of_mem_head? hslash)
    rw [pathOf,relativeText_splitOn (List.cons_ne_nil n rest),components_names,decide_eq_false hhead]

theorem pathOf_name (n : FileName) : pathOf n.1 = ⟨false,Tree.names [n]⟩ := by
  have hn := pathOf_relativeText [n]
  rwa [relativeText,List.map_singleton,List.intercalate_singleton] at hn

theorem pathOf_placeText (place : List FileName) : pathOf (placeText place) = ⟨true,Tree.names place⟩ := by
  have hsplit : (placeText place).splitOn '/' = [] :: (relativeText place).splitOn '/' :=
    List.splitOn_append_cons_self [] (relativeText place)
  rw [pathOf,hsplit]
  cases place with
  | nil => rfl
  | cons n rest =>
    rw [relativeText_splitOn (List.cons_ne_nil n rest),List.filterMap_cons,components_names]
    rfl

/-- The files that the program sees. -/
structure Disk (F : Type*) where
  tree : Tree FileName F
  cwd : List FileName
  cwd_clear : tree.Clear cwd
  cwd_dir : tree.entry cwd = some .dir
  /-- More links than these on one path count as a loop. -/
  links : ℕ

namespace Disk
variable {F : Type*} (d : Disk F)

/-- `path.resolve()`, unless it meets a loop. -/
def resolve (path : Path FileName) : Option (List FileName) :=
  follow d.tree.entry false d.links (if path.absolute then [] else d.cwd) path.comps

/-- What `stat` finds. -/
def stat (path : Path FileName) : Option (Entry FileName F) :=
  (follow d.tree.entry true d.links (if path.absolute then [] else d.cwd) path.comps).bind d.tree.entry

/-- `path.is_symlink()` of a resolved path. -/
def isSymlink (place : List FileName) : Bool := (d.tree.entry place).any Entry.isLink

variable {d}

theorem resolve_clear {path : Path FileName} {place : List FileName} (h : d.resolve path = some place) :
    d.tree.Clear place := by
  refine Tree.follow_clear ?_ h
  split_ifs
  · exact Tree.clear_nil
  · exact d.cwd_clear

theorem resolve_place {place : List FileName} (h : d.tree.Clear place) : d.resolve ⟨true,Tree.names place⟩ = some place :=
  Tree.realpath_clear h

theorem resolve_join {path : Path FileName} {place : List FileName} (h : d.resolve path = some place) {ns : List FileName}
    (hclear : d.tree.Clear (place ++ ns)) : d.resolve (path.join ⟨false,Tree.names ns⟩) = some (place ++ ns) :=
  Tree.realpath_append h hclear

theorem stat_place {place : List FileName} (h : d.tree.Clear place) :
    d.stat ⟨true,Tree.names place⟩ = d.tree.entry place := Tree.stat_entry h

section Put
variable (d) {place : List FileName} {n : FileName} {e : Entry FileName F} {hdir : d.tree.entry place = some .dir}
  {hfree : d.tree.entry (place ++ [n]) ≠ some .dir}

theorem cwd_ne_free (hfree : d.tree.entry (place ++ [n]) ≠ some .dir) : d.cwd ≠ place ++ [n] := by
  intro heq
  exact hfree (heq ▸ d.cwd_dir)

theorem put_cwd_dir : (d.tree.put place n e hdir hfree).entry d.cwd = some .dir := by
  rw [Tree.put_entry (d.cwd_ne_free hfree),d.cwd_dir]

theorem put_cwd_clear : (d.tree.put place n e hdir hfree).Clear d.cwd := Tree.clear_of_entry d.put_cwd_dir rfl

/-- The disk with a new entry, where no directory is in its place. -/
def put (place : List FileName) (n : FileName) (e : Entry FileName F) (hdir : d.tree.entry place = some .dir)
    (hfree : d.tree.entry (place ++ [n]) ≠ some .dir) : Disk F :=
  ⟨d.tree.put place n e hdir hfree,d.cwd,d.put_cwd_clear,d.put_cwd_dir,d.links⟩

variable {d}

theorem put_entry {p : List FileName} (hp : p ≠ place ++ [n]) : (d.put place n e hdir hfree).tree.entry p = d.tree.entry p :=
  Tree.putEntry_of_ne hp

/-- Where the kernel finds nothing there is nothing or a link. -/
theorem isLink_of_stat_none {p : List FileName} (h : d.stat ⟨true,Tree.names p⟩ = none) {e : Entry FileName F}
    (he : d.tree.entry p = some e) : e.isLink = true := by
  by_contra hlink
  rw [Bool.not_eq_true] at hlink
  rw [stat_place (Tree.clear_of_entry he hlink),he] at h
  cases h

/-- The kernel finds through a new link what lies where it leads. -/
theorem stat_put_link {p : List FileName} (hlinks : 0 < d.links) (hp : d.tree.Clear p) (hexists : d.tree.entry p ≠ none)
    (hfree' : d.stat ⟨true,Tree.names (place ++ [n])⟩ = none) :
    (d.put place n (.link ⟨true,Tree.names p⟩) hdir hfree).stat ⟨true,Tree.names (place ++ [n])⟩ = d.tree.entry p := by
  obtain ⟨k,hk⟩ := Nat.exists_eq_add_one_of_ne_zero (Nat.pos_iff_ne_zero.mp hlinks)
  have hunused : ∀ e ∈ d.tree.entry (place ++ [n]), e.isLink = true := fun e he => isLink_of_stat_none hfree' he
  have hne : p ≠ place ++ [n] := by
    rintro rfl
    obtain ⟨e,he⟩ := Option.ne_none_iff_exists'.mp hexists
    have hlink := hp _ List.prefix_rfl e he
    rw [hunused e he] at hlink
    cases hlink
  have hreached : follow (d.tree.put place n (.link ⟨true,Tree.names p⟩) hdir hfree).entry true (k + 1) []
      (Tree.names (place ++ [n])) = some p :=
    Tree.stat_put_link (Tree.clear_of_entry hdir rfl) hp hexists hunused rfl
  have hstat : (d.put place n (.link ⟨true,Tree.names p⟩) hdir hfree).stat ⟨true,Tree.names (place ++ [n])⟩ =
      (follow (d.tree.put place n (.link ⟨true,Tree.names p⟩) hdir hfree).entry true d.links []
        (Tree.names (place ++ [n]))).bind (d.tree.put place n (.link ⟨true,Tree.names p⟩) hdir hfree).entry := rfl
  rw [hstat,hk,hreached,Option.bind_some,Tree.put_entry hne]

end Put

end Disk

end DftForge.Python
