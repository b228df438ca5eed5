import DftForge.Engines.Repair
import DftForge.Library.Fallible

/-! # Repairs after timeouts

A repair of the timeout branch lowers the number of path points or the divisions of the mesh
and nothing else, so the timeouts of a node are answered only finitely often.
-/
namespace DftForge.Engines.TimeoutRepair
open DftForge.Runtime DftForge.Library DftForge.Library.Doubles QEParamRepairer

/-- The list of a mesh with its shifts. -/
def meshOf (entries : List ℤ) : Json := .arr (entries.map fun n : ℤ => .num n)

/-- A positive number of path points, or none and a mesh with positive divisions. -/
inductive Counted (params : Dict) : Prop
  | path {n : ℤ} : 0 < n → params.get? "nkpoints_bands" = some (.num n) → Counted params
  | mesh {entries : List ℤ} : truthy ((params.get? "nkpoints_bands").getD .null) = false →
    params.get? "kpoints" = some (meshOf entries) → (∀ n ∈ entries.take 3, 0 < n) → Counted params

/-- One entry is changed at most. -/
def SameBut (key : String) (params params' : Dict) : Prop :=
  ∀ other, other ≠ key → params'.get? other = params.get? other

/-- The number of path points is lower, or the divisions of the mesh are in sum and none is higher. -/
inductive Shrinks (params params' : Dict) : Prop
  | path {n m : ℤ} : params.get? "nkpoints_bands" = some (.num n) →
    params'.get? "nkpoints_bands" = some (.num m) → m < n → minBandPathPoints ≤ m →
    SameBut "nkpoints_bands" params params' → Shrinks params params'
  | mesh {entries entries' : List ℤ} : params.get? "kpoints" = some (meshOf entries) →
    params'.get? "kpoints" = some (meshOf entries') →
    List.Forall₂ (fun n m => m ≤ n ∧ min 2 n ≤ m) (entries.take 3) (entries'.take 3) →
    (entries'.take 3).sum < (entries.take 3).sum → entries'.drop 3 = entries.drop 3 →
    SameBut "kpoints" params params' → Shrinks params params'

section Mesh
variable {nums : Numerals} {entries : List ℤ}

/-- `max(2, int(n) // 2) if n > 2 else int(n)` on a whole number. -/
def half (n : ℤ) : ℤ := if 2 < n then max 2 (n.fdiv 2) else n

theorem half_le (n : ℤ) : half n ≤ n := by
  unfold half
  rw [Int.fdiv_eq_ediv_of_nonneg n two_pos.le]
  split_ifs <;> omega

theorem half_lt {n : ℤ} (h : 2 < n) : half n < n := by
  rw [half,if_pos h,Int.fdiv_eq_ediv_of_nonneg n two_pos.le]
  omega

theorem min_le_half (n : ℤ) : min 2 n ≤ half n := by
  unfold half
  rw [Int.fdiv_eq_ediv_of_nonneg n two_pos.le]
  split_ifs <;> omega

theorem aboveTwo_num (n : ℤ) : aboveTwo nums (.num n) = .ok (decide (2 < n)) := by
  have hcast : (2 : ℚ) < n ↔ 2 < n := by exact_mod_cast Iff.rfl
  simp [aboveTwo,hcast]

theorem toInt_num (n : ℤ) : toInt nums (.num n) = .ok n := by rw [toInt,truncate_intCast]

theorem halved_num (n : ℤ) : halved nums (.num n) = .ok (half n) := by
  unfold halved half
  rw [aboveTwo_num]
  by_cases h : 2 < n <;> simp [h,toInt_num,bind,Except.bind,pure,Except.pure]

theorem anyAboveTwo_num (entries : List ℤ) :
    anyAboveTwo nums (entries.map fun n : ℤ => .num n) = .ok (entries.any fun n => 2 < n) := by
  induction entries with
  | nil => rfl
  | cons n entries ih =>
    rw [List.map_cons,anyAboveTwo,aboveTwo_num,ih]
    by_cases h : 2 < n <;> simp [h,bind,Except.bind]

/-- The divisions halved, the shifts as they were. -/
def reduced (entries : List ℤ) : List ℤ := (entries.take 3).map half ++ entries.drop 3

theorem reducedMesh_num (entries : List ℤ) :
    reducedMesh nums (entries.map fun n : ℤ => .num n) = .ok (reduced entries) := by
  have hfront : ((entries.take 3).map fun n : ℤ => Json.num n).mapM (halved nums) =
      .ok ((entries.take 3).map half) := by
    rw [List.mapM_map]
    exact mapM_ok fun n _ => halved_num n
  have hback : ((entries.drop 3).map fun n : ℤ => Json.num n).mapM (toInt nums) = .ok (entries.drop 3) := by
    rw [List.mapM_map]
    exact (mapM_ok fun n _ => toInt_num n).trans (congrArg _ (List.map_id _))
  rw [reducedMesh,← List.map_take,← List.map_drop,hfront,hback]
  rfl

theorem take_reduced (h : 3 ≤ entries.length) : (reduced entries).take 3 = (entries.take 3).map half := by
  have hlength : ((entries.take 3).map half).length = 3 := by simp [h]
  exact List.take_left' hlength

theorem drop_reduced (h : 3 ≤ entries.length) : (reduced entries).drop 3 = entries.drop 3 := by
  have hlength : ((entries.take 3).map half).length = 3 := by simp [h]
  exact List.drop_left' hlength

end Mesh

section Step
variable {nums : Numerals} {node : NodeRun} {n : ℤ} {entries : List ℤ}

theorem truthy_num (hn : 0 < n) : truthy (.num n) = true := by
  have hne : (n : ℚ) ≠ 0 := by exact_mod_cast hn.ne'
  simpa [truthy] using hne

theorem repairTimeout_low (hn : 0 < n) (hpath : node.params.get? "nkpoints_bands" = some (.num n))
    (hlow : n ≤ minBandPathPoints) : repairTimeout nums node = unchanged node (.ok false) := by
  unfold repairTimeout
  simp only [hpath,Option.getD_some,truthy_num hn,if_true,toInt_num,hlow]

theorem repairTimeout_crash (hn : 0 < n) (hpath : node.params.get? "nkpoints_bands" = some (.num n))
    (hhigh : minBandPathPoints < n) {crash : String} (h : sixTenths nums n = .error crash) :
    repairTimeout nums node = unchanged node (.error crash) := by
  unfold repairTimeout
  simp only [hpath,Option.getD_some,truthy_num hn,if_true,toInt_num,if_neg (not_le.mpr hhigh),h]

theorem repairTimeout_path {m : ℤ} (hn : 0 < n) (hpath : node.params.get? "nkpoints_bands" = some (.num n))
    (hhigh : minBandPathPoints < n) (h : sixTenths nums n = .ok m) :
    repairTimeout nums node =
      { params := node.params.set "nkpoints_bands" (.num (max minBandPathPoints m : ℤ))
        error := note node ("nkpoints_bands -> " ++ toString (max minBandPathPoints m))
        verdict := .ok true } := by
  unfold repairTimeout
  simp only [hpath,Option.getD_some,truthy_num hn,if_true,toInt_num,if_neg (not_le.mpr hhigh),h]

theorem repairTimeout_mesh (hpath : truthy ((node.params.get? "nkpoints_bands").getD .null) = false)
    (hmesh : node.params.get? "kpoints" = some (meshOf entries)) :
    repairTimeout nums node =
      if 3 ≤ entries.length ∧ ∃ n ∈ entries.take 3, 2 < n then
        { params := node.params.set "kpoints" (meshOf (reduced entries))
          error := note node ("kpoints -> " ++ toString (reduced entries))
          verdict := .ok true }
      else unchanged node (.ok false) := by
  unfold repairTimeout
  simp only [hpath,hmesh,meshOf,Bool.false_eq_true,if_false,List.length_map]
  by_cases hlength : entries.length < 3
  · rw [if_pos hlength,if_neg fun h => absurd h.1 (not_le.mpr hlength)]
  · rw [if_neg hlength,← List.map_take,anyAboveTwo_num]
    cases hany : (entries.take 3).any fun n => 2 < n with
    | false =>
      rw [if_neg]
      rintro ⟨-,n,hmem,hn⟩
      have hall := List.any_eq_false.mp hany n hmem
      simp [hn] at hall
    | true =>
      obtain ⟨n,hmem,hn⟩ := List.any_eq_true.mp hany
      rw [if_pos ⟨not_lt.mp hlength,n,hmem,of_decide_eq_true hn⟩]
      simp only [reducedMesh_num]

/-- An answered timeout of a node with a path. -/
theorem shrinks_path {m : ℤ} (hn : 0 < n) (hpath : node.params.get? "nkpoints_bands" = some (.num n))
    (hhigh : minBandPathPoints < n) (h : sixTenths nums n = .ok m) :
    Shrinks node.params (node.params.set "nkpoints_bands" (.num (max minBandPathPoints m : ℤ))) :=
  .path hpath (Dict.get?_set_self _ _ _) (max_lt hhigh (sixTenths_lt hn h)) (le_max_left _ _)
    fun _ hother => Dict.get?_set_of_ne hother _ _

theorem sum_half_lt {ns : List ℤ} (h : ∃ n ∈ ns, 2 < n) : (ns.map half).sum < ns.sum := by
  obtain ⟨n,hmem,hn⟩ := h
  have hlt := List.sum_lt_sum half id (fun n _ => half_le n) ⟨n,hmem,half_lt hn⟩
  rwa [List.map_id] at hlt

theorem shrinks_mesh (hmesh : node.params.get? "kpoints" = some (meshOf entries))
    (hlength : 3 ≤ entries.length) (habove : ∃ n ∈ entries.take 3, 2 < n) :
    Shrinks node.params (node.params.set "kpoints" (meshOf (reduced entries))) := by
  refine .mesh hmesh (Dict.get?_set_self _ _ _) ?_ ?_ (drop_reduced hlength)
    fun _ hother => Dict.get?_set_of_ne hother _ _
  · rw [take_reduced hlength,List.forall₂_map_right_iff,List.forall₂_same]
    exact fun n _ => ⟨half_le n,min_le_half n⟩
  · rw [take_reduced hlength]
    exact sum_half_lt habove

/-- What a call does on counted parameters. -/
theorem repairTimeout_cases (hcounted : Counted node.params) :
    ((repairTimeout nums node).verdict = .ok true ∧ Shrinks node.params (repairTimeout nums node).params) ∨
      ((repairTimeout nums node).params = node.params ∧
        ((repairTimeout nums node).verdict = .ok false ∨
          ∃ (n : ℤ) (crash : String), node.params.get? "nkpoints_bands" = some (.num n) ∧ 0 < n ∧
            toDouble n = none ∧ (repairTimeout nums node).verdict = .error crash)) := by
  cases hcounted with
  | @path n hn hpath =>
    by_cases hlow : n ≤ minBandPathPoints
    · rw [repairTimeout_low hn hpath hlow]
      exact .inr ⟨rfl,.inl rfl⟩
    · have hhigh := not_le.mp hlow
      cases hsix : sixTenths nums n with
      | error crash =>
        have hdouble : toDouble n = none := by
          cases hx : toDouble n with
          | none => rfl
          | some x =>
            rw [sixTenths,hx] at hsix
            cases hsix
        rw [repairTimeout_crash hn hpath hhigh hsix]
        exact .inr ⟨rfl,.inr ⟨n,crash,hpath,hn,hdouble,rfl⟩⟩
      | ok m =>
        rw [repairTimeout_path hn hpath hhigh hsix]
        exact .inl ⟨rfl,shrinks_path hn hpath hhigh hsix⟩
  | @mesh entries hpath hmesh hpos =>
    rw [repairTimeout_mesh hpath hmesh]
    split_ifs with h
    · exact .inl ⟨rfl,shrinks_mesh hmesh h.1 h.2⟩
    · exact .inr ⟨rfl,.inl rfl⟩

end Step

section Cost
variable {params params' : Dict}

def count : Json → ℕ
  | .num q => (truncate q).toNat
  | _ => 0

def sides : Json → ℕ
  | .arr kpts => ((kpts.take 3).map count).sum
  | _ => 0

/-- The number of path points and the divisions of the mesh, in sum. -/
def cost (params : Dict) : ℕ :=
  count ((params.get? "nkpoints_bands").getD .null) + sides ((params.get? "kpoints").getD .null)

theorem count_num (n : ℤ) : count (.num n) = n.toNat := by rw [count,truncate_intCast]

theorem sides_meshOf (entries : List ℤ) : sides (meshOf entries) = ((entries.take 3).map Int.toNat).sum := by
  rw [meshOf,sides,← List.map_take,List.map_map]
  exact congrArg List.sum (List.map_congr_left fun n _ => count_num n)

/-- A division that is not lowered below two has the same loss in both ways of counting. -/
theorem sum_toNat_eq {ns ms : List ℤ} (h : List.Forall₂ (fun n m => m ≤ n ∧ min 2 n ≤ m) ns ms) :
    ((ns.map Int.toNat).sum : ℤ) + ms.sum = (ms.map Int.toNat).sum + ns.sum := by
  induction h with
  | nil => rfl
  | @cons n m ns ms hnm _ ih =>
    simp only [List.map_cons,List.sum_cons,Nat.cast_add]
    omega

theorem Shrinks.cost_lt (h : Shrinks params params') : cost params' < cost params := by
  unfold cost
  cases h with
  | path hold hnew hlt hmin hsame =>
    rw [hold,hnew,hsame "kpoints" (by decide),Option.getD_some,Option.getD_some,count_num,count_num]
    unfold minBandPathPoints at hmin
    omega
  | mesh hold hnew hsides hsum _ hsame =>
    rw [hold,hnew,hsame "nkpoints_bands" (by decide),Option.getD_some,Option.getD_some,
      sides_meshOf,sides_meshOf]
    have hloss := sum_toNat_eq hsides
    omega

theorem meshOf_injective : Function.Injective meshOf := by
  intro entries entries' h
  refine List.map_injective_iff.mpr ?_ (Json.arr.inj h)
  intro n m hnm
  exact_mod_cast Json.num.inj hnm

theorem sides_pos {ns ms : List ℤ} (h : List.Forall₂ (fun n m => m ≤ n ∧ min 2 n ≤ m) ns ms)
    (hpos : ∀ n ∈ ns, 0 < n) : ∀ m ∈ ms, 0 < m := by
  induction h with
  | nil => exact nofun
  | cons hnm _ ih =>
    rw [List.forall_mem_cons] at hpos ⊢
    exact ⟨(lt_min two_pos hpos.1).trans_le hnm.2,ih hpos.2⟩

theorem Counted.shrinks (hcounted : Counted params) (h : Shrinks params params') : Counted params' := by
  cases h with
  | path _ hnew _ hmin _ =>
    refine .path ?_ hnew
    unfold minBandPathPoints at hmin
    omega
  | mesh hold hnew hsides _ _ hsame =>
    have hpath := hsame "nkpoints_bands" (by decide)
    cases hcounted with
    | path hn hget => exact .path hn (hpath.trans hget)
    | mesh hfalsy hmesh hpos =>
      obtain rfl := meshOf_injective (Option.some.inj (hmesh.symm.trans hold))
      refine .mesh ?_ hnew (sides_pos hsides hpos)
      rw [hpath]
      exact hfalsy

end Cost

section Chain
variable {nums : Numerals} {nodes : ℕ → NodeRun} {errors : ℕ → ToolError}

/-- The errors are timeouts, and each repair works on the parameters that the one before left. -/
structure Consecutive (nums : Numerals) (nodes : ℕ → NodeRun) (errors : ℕ → ToolError) : Prop where
  timeouts : ∀ i, branch (errors i) = .timeout
  next : ∀ i, (nodes (i + 1)).params = (repair nums (nodes i) (errors i)).params

theorem Consecutive.repair_eq (h : Consecutive nums nodes errors) (i : ℕ) :
    repair nums (nodes i) (errors i) = repairTimeout nums (nodes i) := by rw [repair,h.timeouts i]

/-- The first call that does not answer true. -/
def EndsAt (nums : Numerals) (nodes : ℕ → NodeRun) (errors : ℕ → ToolError) (k : ℕ) : Prop :=
  (∀ i < k, (repair nums (nodes i) (errors i)).verdict = .ok true) ∧
    (repair nums (nodes k) (errors k)).verdict = .ok false

/-- The path points, if any, are fewer than the smallest number beyond the doubles. -/
def Convertible (params : Dict) : Prop :=
  ∀ n : ℤ, params.get? "nkpoints_bands" = some (.num n) → n < overflow

theorem Convertible.shrinks {params params' : Dict} (hfits : Convertible params)
    (h : Shrinks params params') : Convertible params' := by
  intro n hn
  cases h with
  | @path n' m hold hnew hlt _ _ =>
    obtain rfl : n = m := by exact_mod_cast Json.num.inj (Option.some.inj (hn.symm.trans hnew))
    have hcast : (n : ℚ) < n' := by exact_mod_cast hlt
    exact hcast.trans (hfits n' hold)
  | mesh _ _ _ _ _ hsame =>
    rw [hsame "nkpoints_bands" (by decide)] at hn
    exact hfits n hn

/-- On convertible parameters a call answers true and lowers the cost, or it answers false. -/
theorem step {node : NodeRun} (hnode : Counted node.params)
    (hfits : Convertible node.params) :
    ((repairTimeout nums node).verdict = .ok true ∧ Shrinks node.params (repairTimeout nums node).params) ∨
      (repairTimeout nums node).verdict = .ok false := by
  obtain hshrinks | ⟨-,hfalse | ⟨n,-,hpath,hn,hdouble,-⟩⟩ := @repairTimeout_cases nums node hnode
  · exact .inl hshrinks
  · exact .inr hfalse
  · have hpos : (0 : ℚ) < n := by exact_mod_cast hn
    exact absurd (hfits n hpath) (not_lt.mpr ((toDouble_eq_none_iff hpos).mp hdouble))

/-- While the calls answer true the parameters stay counted and convertible, and every call costs. -/
theorem Consecutive.run (h : Consecutive nums nodes errors) (hcounted : Counted (nodes 0).params)
    (hfits : Convertible (nodes 0).params) {k : ℕ}
    (htrue : ∀ i < k, (repair nums (nodes i) (errors i)).verdict ≠ .ok false) :
    Counted (nodes k).params ∧ Convertible (nodes k).params ∧
      (∀ i < k, (repair nums (nodes i) (errors i)).verdict = .ok true) ∧
      cost (nodes k).params + k ≤ cost (nodes 0).params := by
  induction k with
  | zero => exact ⟨hcounted,hfits,nofun,Nat.le_refl _⟩
  | succ k ih =>
    obtain ⟨hk,hconv,hverdicts,hcost⟩ := ih fun i hi => htrue i (hi.trans k.lt_succ_self)
    have hnext := h.next k
    have hlast := htrue k k.lt_succ_self
    rw [h.repair_eq k] at hnext hlast
    obtain ⟨hverdict,hshrinks⟩ | hfalse := @step nums _ hk hconv
    · rw [← hnext] at hshrinks
      refine ⟨hk.shrinks hshrinks,hconv.shrinks hshrinks,fun i hi => ?_,?_⟩
      · obtain hi | rfl := Nat.lt_succ_iff_lt_or_eq.mp hi
        · exact hverdicts i hi
        · rw [h.repair_eq]
          exact hverdict
      · have hlt := hshrinks.cost_lt
        omega
    · exact absurd hfalse hlast

theorem Consecutive.ends (h : Consecutive nums nodes errors) (hcounted : Counted (nodes 0).params)
    (hfits : Convertible (nodes 0).params) : ∃ k, EndsAt nums nodes errors k := by
  classical
  have hexists : ∃ k, (repair nums (nodes k) (errors k)).verdict = .ok false := by
    by_contra hnone
    have hrun : ∀ k, cost (nodes k).params + k ≤ cost (nodes 0).params := fun k =>
      (h.run hcounted hfits fun i _ hfalse => hnone ⟨i,hfalse⟩).2.2.2
    have hcost := hrun (cost (nodes 0).params + 1)
    omega
  refine ⟨Nat.find hexists,?_,Nat.find_spec hexists⟩
  exact (h.run hcounted hfits fun i hi => Nat.find_min hexists hi).2.2.1

/-- A number beyond the doubles is not multiplied. -/
theorem repairTimeout_overflow {node : NodeRun} {n : ℤ}
    (hpath : node.params.get? "nkpoints_bands" = some (.num n)) (hlarge : overflow ≤ n) :
    repairTimeout nums node = unchanged node (.error (nums.crash (.num n))) := by
  have hhigh : minBandPathPoints < n := by
    have hmin : (minBandPathPoints : ℚ) < n := (lt_overflow (by norm_num [minBandPathPoints])).trans_le hlarge
    exact_mod_cast hmin
  have hn : 0 < n := lt_trans (by decide) hhigh
  have hpos : (0 : ℚ) < n := by exact_mod_cast hn
  refine repairTimeout_crash hn hpath hhigh ?_
  rw [sixTenths,(toDouble_eq_none_iff hpos).mpr hlarge]

/-- A repair after a timeout lowers the points of the path or the divisions of the mesh, and
consecutive repairs come to one that is declined, when the number of path points is a double. -/
theorem timeout_repairs_end (nums : Numerals) :
    (∀ node : NodeRun, Counted node.params → (repairTimeout nums node).verdict = .ok true →
      Shrinks node.params (repairTimeout nums node).params) ∧
    (∀ nodes errors, Consecutive nums nodes errors → Counted (nodes 0).params →
      Convertible (nodes 0).params → ∃ k, EndsAt nums nodes errors k) ∧
    ∀ (node : NodeRun) (n : ℤ), node.params.get? "nkpoints_bands" = some (.num n) → overflow ≤ n →
      (repairTimeout nums node).params = node.params ∧
        (repairTimeout nums node).verdict = .error (nums.crash (.num n)) := by
  refine ⟨fun node hcounted hverdict => ?_,fun nodes errors h => h.ends,fun node n hpath hlarge => ?_⟩
  · obtain ⟨-,hshrinks⟩ | ⟨-,hfalse | ⟨_,_,-,-,-,herror⟩⟩ := @repairTimeout_cases nums node hcounted
    · exact hshrinks
    · rw [hfalse] at hverdict
      cases hverdict
    · rw [herror] at hverdict
      cases hverdict
  · rw [repairTimeout_overflow hpath hlarge]
    exact ⟨rfl,rfl⟩

end Chain

section Nodes

def noTexts : Numerals where
  int _ := none
  float _ := none
  shown _ := ""
  crash _ := "int too large to convert to float"

def timeout : ToolError := { message := "pw.x timed out after 600s", category := "execution" }

theorem branch_timeout : branch timeout = .timeout := by decide +kernel

/-- The node after so many repairs. -/
def repaired (node : NodeRun) : ℕ → NodeRun
  | 0 => node
  | i + 1 => { repaired node i with params := (repair noTexts (repaired node i) timeout).params }

theorem consecutive_repaired (node : NodeRun) : Consecutive noTexts (repaired node) fun _ => timeout :=
  ⟨fun _ => branch_timeout,fun _ => rfl⟩

def meshNode : NodeRun := { nodeId := "scf", params := [("kpoints",meshOf [12,12,1,0,0,0])] }

def pathNode (n : ℤ) : NodeRun := { nodeId := "nscf", params := [("nkpoints_bands",.num n)] }

def beyond : ℤ := 2 ^ 1024

theorem overflow_le_beyond : overflow ≤ beyond := by
  rw [beyond,Int.cast_pow,Int.cast_ofNat,overflow]
  exact sub_le_self _ (pow_pos two_pos _).le

theorem timeout_repairs_end_mesh :
    Shrinks meshNode.params (repairTimeout noTexts meshNode).params ∧
    (∃ k, EndsAt noTexts (repaired (pathNode 60)) (fun _ => timeout) k) ∧
    (repairTimeout noTexts (pathNode beyond)).params = (pathNode beyond).params := by
  obtain ⟨hshrinks,hends,hlarge⟩ := timeout_repairs_end noTexts
  have hcrash := hlarge (pathNode beyond) beyond rfl overflow_le_beyond
  refine ⟨hshrinks meshNode ?_ ?_,hends _ _ (consecutive_repaired _) ?_ ?_,hcrash.1⟩
  · exact .mesh rfl rfl (by decide)
  · rw [repairTimeout_mesh rfl rfl,if_pos]
    exact ⟨by decide,12,by decide,by decide⟩
  · exact .path (by decide : (0 : ℤ) < 60) rfl
  · intro n hn
    obtain rfl : n = 60 := by exact_mod_cast (Json.num.inj (Option.some.inj hn)).symm
    exact lt_overflow (by norm_num)

/-- With `2 ^ 1024` path points the repairs end in an exception. -/
theorem never_declined : Consecutive noTexts (fun _ => pathNode beyond) (fun _ => timeout) ∧
    Counted (pathNode beyond).params ∧
    ¬ ∃ k, EndsAt noTexts (fun _ => pathNode beyond) (fun _ => timeout) k := by
  have hcrash := @repairTimeout_overflow noTexts (pathNode beyond) beyond rfl overflow_le_beyond
  have hconsecutive : Consecutive noTexts (fun _ => pathNode beyond) (fun _ => timeout) := by
    refine ⟨fun _ => branch_timeout,fun _ => ?_⟩
    rw [repair,branch_timeout,hcrash]
    rfl
  refine ⟨hconsecutive,.path (pow_pos two_pos _) rfl,fun ⟨k,_,hfalse⟩ => ?_⟩
  rw [hconsecutive.repair_eq k,hcrash] at hfalse
  cases hfalse

end Nodes

end DftForge.Engines.TimeoutRepair
