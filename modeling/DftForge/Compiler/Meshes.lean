import DftForge.Compiler.StrongerInputs
import DftForge.Python.Words

/-! # Automatic meshes

The k-points that the mesh of an emitted input stands for. The axes of a structure that are not
periodic get one division, and the compiler shifts every mesh.
-/
namespace DftForge.Compiler
open DftForge.Runtime DftForge.Python DftForge.Catalog DftForge.Qe
open DftForge.Library (int_text_ne not_mem_int_text)

/-- A number of a row as QE reads it. -/
def rowNumber (row : String) (k : ℕ) : Option ℤ :=
  (words row.toList)[k]?.bind fun w => (String.ofList w).toInt?

/-- A number of the row of the automatic mesh: three divisions, then three shifts. -/
def Input.meshNumber (i : Input) (k : ℕ) : Option ℤ :=
  match i.card "K_POINTS automatic" with
  | some [row] => rowNumber row k
  | _ => none

/-- QE's `k_i = (2 i + s) / (2 n)`. -/
def meshPoint (n s : ℤ) (i : ℕ) : ℚ := (2 * i + s) / (2 * n)

/-- Every point of the automatic mesh is zero along the axes that are not periodic. -/
def GammaOnly (pbc : List Bool) (i : Input) : Prop :=
  ∀ axis < 3, pbc[axis]? = some false → ∃ n s, i.meshNumber axis = some n ∧ i.meshNumber (axis + 3) = some s ∧
    ∀ j : ℕ, j < n → meshPoint n s j = 0

namespace QECompiler
variable {F : Type} {c : QECompiler F}

/-- `str` writes an integer in digits. -/
def WritesInts (c : QECompiler F) : Prop := ∀ n : ℤ, c.shown (.num n) = toString n

section Rows

theorem isWordText_int (n : ℤ) : IsWordText (toString n).toList := by
  refine ⟨fun h => int_text_ne n (String.toList_eq_nil_iff.mp h),fun ch hch => ?_⟩
  by_contra hspace
  refine not_mem_int_text n ⟨?_,?_⟩ hch
  · by_contra hdigit
    exact hspace (isSpace_digit (Bool.not_eq_false _ ▸ hdigit))
  · rintro rfl
    exact hspace rfl

/-- The words of a row are the texts it is made of. -/
theorem words_row {a b d e f g : String} (h : ∀ w ∈ [a,b,d,e,f,g], IsWordText w.toList) :
    words ("  " ++ a ++ " " ++ b ++ " " ++ d ++ "  " ++ e ++ " " ++ f ++ " " ++ g).toList =
      [a.toList,b.toList,d.toList,e.toList,f.toList,g.toList] := by
  have hrow : ("  " ++ a ++ " " ++ b ++ " " ++ d ++ "  " ++ e ++ " " ++ f ++ " " ++ g).toList =
      ' ' :: ' ' :: (a.toList ++ ' ' :: (b.toList ++ ' ' :: (d.toList ++ ' ' :: ' ' ::
        (e.toList ++ ' ' :: (f.toList ++ ' ' :: g.toList))))) := by
    simp
  simp only [List.mem_cons,List.not_mem_nil,or_false,forall_eq_or_imp,forall_eq] at h
  obtain ⟨ha,hb,hd,he,hf,hg⟩ := h
  rw [hrow,words_space rfl,words_space rfl,words_blank ha,words_blank hb,words_blank hd,words_space rfl,
    words_blank he,words_blank hf,words_single hg]

/-- The row of a mesh of integers has them. -/
theorem rowNumber_ints (hc : c.WritesInts) {ns : List ℤ} {row : String}
    (h : c.meshRow (ns.map fun n : ℤ => .num n) = some row) {k : ℕ} (hk : k < 6) :
    rowNumber row k = ns[k]? := by
  obtain ⟨n0,n1,n2,s0,s1,s2,rest,rfl⟩ : ∃ n0 n1 n2 s0 s1 s2 rest,
      ns = n0 :: n1 :: n2 :: s0 :: s1 :: s2 :: rest := by
    rcases ns with _ | ⟨n0,_ | ⟨n1,_ | ⟨n2,_ | ⟨s0,_ | ⟨s1,_ | ⟨s2,rest⟩⟩⟩⟩⟩⟩
    all_goals first
      | exact ⟨n0,n1,n2,s0,s1,s2,rest,rfl⟩
      | cases h
  obtain rfl := Option.some.inj h
  simp only [hc n0,hc n1,hc n2,hc s0,hc s1,hc s2]
  rw [rowNumber,words_row (by simpa using ⟨isWordText_int n0,isWordText_int n1,isWordText_int n2,
    isWordText_int s0,isWordText_int s1,isWordText_int s2⟩)]
  interval_cases k <;> simp

end Rows

section Cards
variable {material : String} {i : Input}

theorem compileT1_mesh {o : T1Args F} (h : c.compileT1 material o = some i) : ∃ db atoms alat row,
    c.resolve material o.atoms = some (db,atoms,alat) ∧ c.meshRow (mesh o.kpoints db) = some row ∧
      i.card "K_POINTS automatic" = some [row] := by
  simp only [compileT1,Option.bind_eq_bind,Option.bind_eq_some_iff,Option.pure_def,Option.some.injEq] at h
  obtain ⟨⟨db,atoms,alat⟩,hresolve,_,_,_,_,_,_,_,_,species,_,row,hrow,rfl⟩ := h
  refine ⟨db,atoms,alat,row,hresolve,hrow,?_⟩
  unfold Input.card
  by_cases hcell : db.ibrav = 0 <;> simp [hcell]

theorem compileScf_kpoints {o : ScfArgs F} (h : c.compileScf material o = some i) : ∃ db atoms alat card,
    c.resolve material o.atoms = some (db,atoms,alat) ∧ c.kpointsCard o db atoms = some card ∧
      i.card "K_POINTS automatic" = if card.title = "K_POINTS automatic" then some card.rows else none := by
  simp only [compileScf,Option.bind_eq_bind,Option.bind_eq_some_iff,Option.pure_def,Option.some.injEq] at h
  obtain ⟨⟨db,atoms,alat⟩,hresolve,_,_,_,_,_,_,_,_,_,_,species,_,card,hcard,rfl⟩ := h
  refine ⟨db,atoms,alat,card,hresolve,hcard,?_⟩
  unfold Input.card
  by_cases hcell : db.ibrav = 0 <;> by_cases htitle : card.title = "K_POINTS automatic" <;>
    simp [hcell,htitle]

/-- The card of an automatic mesh has the row of the mesh. -/
theorem automatic_card {kpoints : Option (List Json)} {card : Card}
    (h : (do let ks ← kpoints; let row ← c.meshRow ks; return ⟨"K_POINTS automatic",[row]⟩) = some card) :
    ∃ ks row, kpoints = some ks ∧ c.meshRow ks = some row ∧ card = ⟨"K_POINTS automatic",[row]⟩ := by
  simp only [Option.bind_eq_bind,Option.bind_eq_some_iff,Option.pure_def,Option.some.injEq] at h
  obtain ⟨ks,hks,row,hrow,rfl⟩ := h
  exact ⟨ks,row,hks,hrow,rfl⟩

theorem meshNumber_of_row {row : String} (h : i.card "K_POINTS automatic" = some [row]) (k : ℕ) :
    i.meshNumber k = rowNumber row k := by
  rw [Input.meshNumber,h]

end Cards

section Gamma
variable {material : String} {atoms : Atoms F} {i : Input}

/-- The division of a denser mesh. -/
def doubledDivision (n : ℤ) : ℤ := if 1 < n then max 1 (2 * n) else 1

theorem doubledDivision_pos (n : ℤ) : 0 < doubledDivision n := by
  unfold doubledDivision
  split_ifs <;> omega

/-- The denser mesh of integers. -/
def doubledMesh (ns : List ℤ) : List ℤ := (ns.take 3).map doubledDivision ++ ns.drop 3

theorem doubled_ints (ns : List ℤ) :
    doubled (ns.map fun n : ℤ => Json.num n) = some ((doubledMesh ns).map fun n : ℤ => Json.num n) := by
  have hdivision : ∀ n : ℤ, ((numberOf (Json.num n)).map fun q : ℚ =>
      if 1 < q then Json.num (max 1 (2 * q)) else .num 1) = some (Json.num (doubledDivision n)) := by
    intro n
    rw [numberOf,Option.map_some,doubledDivision]
    by_cases hn : 1 < n
    · have hq : (1 : ℚ) < n := by exact_mod_cast hn
      rw [if_pos hn,if_pos hq]
      push_cast
      rfl
    · have hq : ¬ (1 : ℚ) < n := by exact_mod_cast hn
      rw [if_neg hn,if_neg hq]
      rfl
  have hmapM : ∀ ms : List ℤ, (ms.map fun n : ℤ => Json.num n).mapM (fun k => (numberOf k).map fun q : ℚ =>
      if 1 < q then Json.num (max 1 (2 * q)) else .num 1) =
        some ((ms.map doubledDivision).map fun n : ℤ => Json.num n) := by
    intro ms
    induction ms with
    | nil => rfl
    | cons m ms ih =>
      rw [List.map_cons,List.mapM_cons,hdivision,Option.bind_eq_bind,Option.bind_some,ih]
      rfl
  rw [doubled,doubledMesh,← List.map_take,hmapM,Option.map_some,← List.map_drop,List.map_append]

/-- The input of a structure whose mesh is not given: a relaxation, an scf run, or an nscf run on a
uniform mesh. -/
inductive CompilesMesh (c : QECompiler F) (atoms : Atoms F) : Input → Prop where
  | relax {material o i} : o.atoms = some atoms → o.kpoints.getD [] = [] →
      c.compileT1 material o = some i → CompilesMesh c atoms i
  | scf {material o i} : o.atoms = some atoms → o.kpoints.getD [] = [] → o.calculation = "scf" →
      c.compileScf material o = some i → CompilesMesh c atoms i
  | uniform {material o i} : o.atoms = some atoms → o.kpoints.getD [] = [] → o.calculation = "nscf" →
      o.kmode = "uniform" → c.compileScf material o = some i → CompilesMesh c atoms i

/-- The mesh of a profile. -/
def defaultMesh (db : Profile F) : List ℤ := db.kpointsDefault.getD [4,4,4,1,1,1]

theorem mesh_absent {kpoints : Option (List Json)} (h : kpoints.getD [] = []) (db : Profile F) :
    mesh kpoints db = (defaultMesh db).map fun n : ℤ => .num n := by
  unfold mesh
  split
  · cases h
  · rw [bind_pure_comp,List.map_eq_map,List.map_map]
    rfl

/-- An scf run has the mesh as it is. -/
theorem kpointsCard_scf {o : ScfArgs F} {db : Profile F} {card : Card} (hcalc : o.calculation ≠ "nscf")
    (h : c.kpointsCard o db atoms = some card) :
    ∃ row, c.meshRow (mesh o.kpoints db) = some row ∧ card = ⟨"K_POINTS automatic",[row]⟩ := by
  rw [kpointsCard,if_neg fun hpath => hcalc hpath.1,if_neg hcalc] at h
  obtain ⟨_,row,⟨rfl⟩,hrow,rfl⟩ := automatic_card h
  exact ⟨row,hrow,rfl⟩

/-- An nscf run on a uniform mesh has the doubled mesh of the profile. -/
theorem kpointsCard_uniform {o : ScfArgs F} {db : Profile F} {card : Card} (hcalc : o.calculation = "nscf")
    (hmode : o.kmode ≠ "path") (hk : o.kpoints.getD [] = []) (h : c.kpointsCard o db atoms = some card) :
    ∃ row, c.meshRow ((doubledMesh (defaultMesh db)).map fun n : ℤ => Json.num n) = some row ∧
      card = ⟨"K_POINTS automatic",[row]⟩ := by
  rw [kpointsCard,if_neg fun hpath => hmode hpath.2,if_pos hcalc,mesh_absent hk,doubled_ints] at h
  obtain ⟨_,row,⟨rfl⟩,hrow,rfl⟩ := automatic_card h
  exact ⟨row,hrow,rfl⟩

theorem division_pos {length : F} {periodic : Bool} {n : ℤ} (h : c.division length periodic = some n) :
    0 < n := by
  unfold division at h
  split at h
  · obtain ⟨m,_,rfl⟩ := Option.map_eq_some_iff.mp h
    exact lt_of_lt_of_le one_pos (le_max_left 1 _)
  · exact Option.some.inj h ▸ one_pos

/-- The profile of a structure has a mesh with all three shifts. -/
theorem profileFromAtoms_mesh {db : Profile F} {alat : F} (h : c.profileFromAtoms atoms = some (db,alat)) :
    ∃ k0 k1 k2, defaultMesh db = [k0,k1,k2,1,1,1] ∧ 0 < k0 ∧ 0 < k1 ∧ 0 < k2 := by
  simp only [profileFromAtoms,Option.bind_eq_bind,Option.bind_eq_some_iff,Option.pure_def,
    Option.some.injEq,Prod.mk.injEq] at h
  obtain ⟨_,_,_,_,k0,h0,k1,h1,k2,h2,rfl,_⟩ := h
  exact ⟨k0,k1,k2,rfl,division_pos h0,division_pos h1,division_pos h2⟩

theorem resolve_mesh {db : Profile F} {atoms' : Atoms F} {alat : F}
    (h : c.resolve material (some atoms) = some (db,atoms',alat)) :
    ∃ k0 k1 k2, defaultMesh db = [k0,k1,k2,1,1,1] ∧ 0 < k0 ∧ 0 < k1 ∧ 0 < k2 := by
  unfold resolve at h
  obtain ⟨⟨db',alat'⟩,hprofile,heq⟩ := Option.map_eq_some_iff.mp h
  obtain ⟨rfl,_⟩ := Prod.mk.inj heq
  exact profileFromAtoms_mesh hprofile

/-- However the structure is compiled, the mesh has positive divisions and is shifted. -/
theorem CompilesMesh.numbers (hc : c.WritesInts) (h : CompilesMesh c atoms i) :
    ∃ n0 n1 n2 : ℤ, 0 < n0 ∧ 0 < n1 ∧ 0 < n2 ∧ ∀ k < 6, i.meshNumber k = [n0,n1,n2,1,1,1][k]? := by
  cases h with
  | relax hatoms hk h =>
    obtain ⟨db,_,_,row,hresolve,hrow,hcard⟩ := compileT1_mesh h
    rw [hatoms] at hresolve
    obtain ⟨k0,k1,k2,hdefault,h0,h1,h2⟩ := resolve_mesh hresolve
    rw [mesh_absent hk,hdefault] at hrow
    exact ⟨k0,k1,k2,h0,h1,h2,fun k hlt => (meshNumber_of_row hcard k).trans (rowNumber_ints hc hrow hlt)⟩
  | scf hatoms hk hcalc h =>
    obtain ⟨db,_,_,card,hresolve,hkpoints,hcard⟩ := compileScf_kpoints h
    rw [hatoms] at hresolve
    obtain ⟨k0,k1,k2,hdefault,h0,h1,h2⟩ := resolve_mesh hresolve
    obtain ⟨row,hrow,rfl⟩ := kpointsCard_scf (by rw [hcalc]; decide) hkpoints
    rw [mesh_absent hk,hdefault] at hrow
    exact ⟨k0,k1,k2,h0,h1,h2,fun k hlt => (meshNumber_of_row hcard k).trans (rowNumber_ints hc hrow hlt)⟩
  | uniform hatoms hk hcalc hmode h =>
    obtain ⟨db,_,_,card,hresolve,hkpoints,hcard⟩ := compileScf_kpoints h
    rw [hatoms] at hresolve
    obtain ⟨k0,k1,k2,hdefault,_,_,_⟩ := resolve_mesh hresolve
    obtain ⟨row,hrow,rfl⟩ := kpointsCard_uniform hcalc (by rw [hmode]; decide) hk hkpoints
    rw [hdefault] at hrow
    exact ⟨_,_,_,doubledDivision_pos k0,doubledDivision_pos k1,doubledDivision_pos k2,
      fun k hlt => (meshNumber_of_row hcard k).trans (rowNumber_ints hc hrow hlt)⟩

/-- The shift keeps every mesh off Gamma along an axis that is not periodic. -/
theorem CompilesMesh.not_gammaOnly (hc : c.WritesInts) (h : CompilesMesh c atoms i) (axis : ℕ)
    (haxis : axis < 3) (hfalse : atoms.pbc[axis]? = some false) : ¬ GammaOnly atoms.pbc i := by
  intro hgamma
  obtain ⟨n0,n1,n2,h0,h1,h2,hmesh⟩ := h.numbers hc
  obtain ⟨n,s,hn,hs,hzero⟩ := hgamma axis haxis hfalse
  rw [hmesh axis (by omega)] at hn
  rw [hmesh (axis + 3) (by omega)] at hs
  have hnumbers : 0 < n ∧ s = 1 := by
    interval_cases axis <;> obtain rfl := Option.some.inj hn <;>
      exact ⟨by assumption,(Option.some.inj hs).symm⟩
  obtain ⟨hpos,rfl⟩ := hnumbers
  have hpoint := hzero 0 (by exact_mod_cast hpos)
  have hq : (0 : ℚ) < n := by exact_mod_cast hpos
  rw [meshPoint,div_eq_zero_iff] at hpoint
  rcases hpoint with hpoint | hpoint
  · norm_num at hpoint
  · linarith

/-- The points are at Gamma along the axes that are not periodic just where there are none. -/
theorem gamma_only_iff (hc : c.WritesInts) (h : CompilesMesh c atoms i) :
    GammaOnly atoms.pbc i ↔ ∀ axis < 3, atoms.pbc[axis]? ≠ some false :=
  ⟨fun hgamma axis haxis hfalse => h.not_gammaOnly hc axis haxis hfalse hgamma,
    fun hperiodic axis haxis hfalse => absurd hfalse (hperiodic axis haxis)⟩

/-- The compiler on rationals, for oxygen in cells of 10 Å. -/
def boxCompiler : QECompiler ℚ := { rational with
  pseudos := [("O.upf",[])]
  lengths := fun _ => (10,10,10)
  atomicMass := fun _ => some 16 }

/-- Two oxygen atoms in a box. -/
def oxygen (periodic : Bool) : Atoms ℚ where
  symbols := ["O","O"]
  scaledPositions := [(1 / 2,1 / 2,44 / 100),(1 / 2,1 / 2,56 / 100)]
  cell := [(10,0,0),(0,10,0),(0,0,10)]
  pbc := [periodic,periodic,periodic]

theorem boxCompiler_writesInts : boxCompiler.WritesInts := fun n => by
  have hden : (n : ℚ).den = 1 := rfl
  have hshown : boxCompiler.shown (.num n) =
      if (n : ℚ).den = 1 then toString (n : ℚ).num else trimmed (fixed 12 n) := rfl
  rw [hshown,if_pos hden]
  rfl

theorem oxygen_compiles (periodic : Bool) : ∃ i, CompilesMesh boxCompiler (oxygen periodic) i := by
  have h : (boxCompiler.compileT1 "o2" { atoms := some (oxygen periodic) }).isSome = true := by
    cases periodic <;> decide +kernel
  obtain ⟨i,hi⟩ := Option.isSome_iff_exists.mp h
  exact ⟨i,.relax rfl rfl hi⟩

theorem oxygen_crystal_gamma :
    ∃ i, CompilesMesh boxCompiler (oxygen true) i ∧ GammaOnly [true,true,true] i := by
  obtain ⟨i,hi⟩ := oxygen_compiles true
  exact ⟨i,hi,(gamma_only_iff boxCompiler_writesInts hi).mpr (by decide)⟩

/-- The molecule of a box that is not periodic is sampled at the corner of the zone. -/
theorem oxygen_molecule_shifted :
    ¬ ∀ i, CompilesMesh boxCompiler (oxygen false) i → GammaOnly (oxygen false).pbc i := by
  intro h
  obtain ⟨i,hi⟩ := oxygen_compiles false
  exact hi.not_gammaOnly boxCompiler_writesInts 0 (by decide) rfl (h i hi)

end Gamma

end QECompiler
end DftForge.Compiler
