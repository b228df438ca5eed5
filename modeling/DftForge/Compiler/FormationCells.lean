import DftForge.Compiler.Prototypes

/-! # The cell of a formation energy

`cmd_thermo_formation` counts the atoms of the prototype of a formula, while the energy that
it is given belongs to the cell that was run. The two agree but for the formulas whose
catalogue cell has another size than their prototype. Energies are exact numbers here.
-/
namespace DftForge.Compiler
open DftForge.Runtime DftForge.Python DftForge.Qe

/-- `RY_TO_EV`. -/
def ryToEv : ℚ := 13605693122994 / 10 ^ 12

/-- `round(value, 4)`. -/
def round4 (q : ℚ) : ℚ := roundHalfEven (q * 10 ^ 4) / 10 ^ 4

/-- The loop that counts the symbols. -/
def countSymbols (symbols : List String) : List (String × ℕ) :=
  symbols.eraseDups.map fun el => (el,symbols.count el)

/-- The references of the command line: elements with energies and with numbers of atoms. -/
structure References where
  energy : List (String × ℚ)
  natoms : List (String × ℤ)

namespace References
variable (refs : References) (el : String)

/-- `dict(pairs)[el]`, where the last pair counts. -/
def energyOf : Option ℚ := refs.energy.reverse.lookup el

/-- `ref_n.get(el, 1)`. -/
def natomsOf : ℤ := (refs.natoms.reverse.lookup el).getD 1

/-- `refs[el] / ref_n.get(el, 1)`. -/
def perAtom : ℚ := (refs.energyOf el).getD 0 / refs.natomsOf el

end References

structure FormationData where
  evPerAtom : ℚ
  evPerFormula : ℚ
  composition : List (String × ℕ)
  nAtoms : ℕ

/-- `cmd_thermo_formation` after the atoms of the formula are known. -/
def formationOf (symbols : List String) (compoundEnergy : ℚ) (refs : References) :
    Except String FormationData :=
  let counts := countSymbols symbols
  let missing := (counts.map (·.1)).filter fun el => (refs.energyOf el).isNone
  if missing ≠ [] then
    .error ("missing reference energy for: " ++ ", ".intercalate missing ++
      " — run structure.reference + t0_scf for each")
  else if (∃ e ∈ counts, refs.natomsOf e.1 = 0) ∨ (counts.map (·.2)).sum = 0 then
    .error "float division by zero"
  else
    let eForm := compoundEnergy - (counts.map fun e => (e.2 : ℚ) * refs.perAtom e.1).sum
    let nAtoms : ℕ := (counts.map (·.2)).sum
    .ok { evPerAtom := round4 (eForm * ryToEv / nAtoms), evPerFormula := round4 (eForm * ryToEv)
          composition := counts, nAtoms }

/-- `cmd_thermo_formation`. -/
def Formulas.thermoFormation (c : Formulas) (formula : String) (compoundEnergy : ℚ) (refs : References) :
    Except String FormationData :=
  match c.formulaAtoms formula with
  | .error message => .error ("cannot parse formula " ++ c.repr formula ++ ": " ++ message)
  | .ok (symbols, _) => formationOf symbols compoundEnergy refs

section Counts
variable {symbols cell : List String}

theorem toFinset_eraseDups (symbols : List String) : symbols.eraseDups.toFinset = symbols.toFinset := by
  ext el
  simp [List.mem_eraseDups]

/-- A sum over the counts is a sum over the atoms. -/
theorem sum_countSymbols (f : String → ℚ) (symbols : List String) :
    ((countSymbols symbols).map fun e => (e.2 : ℚ) * f e.1).sum = (symbols.map f).sum := by
  rw [Finset.sum_list_map_count symbols, ← toFinset_eraseDups, List.sum_toFinset _ (nodup_eraseDups symbols),
    countSymbols, List.map_map]
  exact congrArg List.sum (List.map_congr_left fun el _ => (nsmul_eq_mul _ _).symm)

theorem sum_counts (symbols : List String) : ((countSymbols symbols).map (·.2)).sum = symbols.length := by
  have hsum := sum_countSymbols (fun _ => 1) symbols
  simp only [mul_one, List.map_const', List.sum_replicate, nsmul_eq_mul] at hsum
  have hcast : ((((countSymbols symbols).map (·.2)).sum : ℕ) : ℚ) = symbols.length := by
    rw [Nat.cast_list_sum, List.map_map]
    exact hsum
  exact_mod_cast hcast

theorem missing_eq_nil_iff (symbols : List String) (refs : References) :
    ((countSymbols symbols).map (·.1)).filter
    (fun el => (refs.energyOf el).isNone) = [] ↔ ∀ el ∈ symbols, (refs.energyOf el).isSome = true := by
  simp [countSymbols, List.filter_eq_nil_iff, List.mem_eraseDups, Option.isSome_iff_ne_none]

/-- The command divides by no zero and misses no reference. -/
structure Computable (symbols : List String) (refs : References) : Prop where
  nonempty : symbols ≠ []
  energy : ∀ el ∈ symbols, (refs.energyOf el).isSome = true
  natoms : ∀ el ∈ symbols, refs.natomsOf el ≠ 0

theorem computable_free (hne : symbols ≠ []) : Computable symbols ⟨symbols.map fun el => (el,0),[]⟩ := by
  refine ⟨hne,fun el hel => ?_,fun el _ => by simp [References.natomsOf]⟩
  rw [References.energyOf, ← List.map_reverse, List.lookup_isSome_iff]
  exact ⟨(el,0),List.mem_map.mpr ⟨el,List.mem_reverse.mpr hel,rfl⟩,beq_self_eq_true el⟩

/-- The same counts, in any order, are counts of the same atoms. -/
theorem countSymbols_perm_iff : (countSymbols symbols).Perm (countSymbols cell) ↔ symbols.Perm cell := by
  have hmem : ∀ (l : List String) el n, (el,n) ∈ countSymbols l ↔ el ∈ l ∧ l.count el = n := by
    intro l el n
    simp [countSymbols, List.mem_eraseDups]
  constructor
  · intro hperm
    rw [List.perm_iff_count]
    intro el
    by_cases hs : el ∈ symbols
    · have hin := hperm.mem_iff.mp ((hmem symbols el _).mpr ⟨hs,rfl⟩)
      exact ((hmem cell el _).mp hin).2.symm
    · by_cases hc : el ∈ cell
      · have hin := hperm.mem_iff.mpr ((hmem cell el _).mpr ⟨hc,rfl⟩)
        exact ((hmem symbols el _).mp hin).2
      · rw [List.count_eq_zero_of_not_mem hs, List.count_eq_zero_of_not_mem hc]
  · intro hperm
    have helements : symbols.eraseDups.Perm cell.eraseDups := by
      rw [List.perm_ext_iff_of_nodup (nodup_eraseDups _) (nodup_eraseDups _)]
      intro el
      rw [List.mem_eraseDups, List.mem_eraseDups, hperm.mem_iff]
    rw [countSymbols, countSymbols]
    refine (helements.map _).trans (List.Perm.of_eq (List.map_congr_left fun el _ => ?_))
    rw [hperm.count_eq]

/-- The energy per atom as a sum over the atoms. -/
def energyPerAtom (symbols : List String) (energy : ℚ) (refs : References) : ℚ :=
  round4 ((energy - (symbols.map refs.perAtom).sum) * ryToEv / symbols.length)

theorem formationOf_ok (energy : ℚ) {refs : References} (h : Computable symbols refs) :
    ∃ r, formationOf symbols energy refs = .ok r ∧ r.evPerAtom = energyPerAtom symbols energy refs ∧
      r.composition = countSymbols symbols := by
  have hzero : ¬ ((∃ e ∈ countSymbols symbols, refs.natomsOf e.1 = 0) ∨
      ((countSymbols symbols).map (·.2)).sum = 0) := by
    rw [sum_counts, List.length_eq_zero_iff]
    rintro (⟨e,he,hn⟩ | hnil)
    · obtain ⟨el,hel,rfl⟩ := List.mem_map.mp he
      exact h.natoms el (List.mem_eraseDups.mp hel) hn
    · exact h.nonempty hnil
  have hmissing := (missing_eq_nil_iff symbols refs).mpr h.energy
  have hrun : formationOf symbols energy refs = .ok {
      evPerAtom := energyPerAtom symbols energy refs
      evPerFormula := round4 ((energy - (symbols.map refs.perAtom).sum) * ryToEv)
      composition := countSymbols symbols, nAtoms := symbols.length } := by
    unfold formationOf
    dsimp only
    rw [if_neg (not_not.mpr hmissing), if_neg hzero, sum_countSymbols, sum_counts]
    rfl
  exact ⟨_,hrun,rfl,rfl⟩

/-- What the command computes it computes from complete references. -/
theorem computable_of_ok {energy : ℚ} {refs : References} {r : FormationData}
    (h : formationOf symbols energy refs = .ok r) : Computable symbols refs := by
  unfold formationOf at h
  dsimp only at h
  split_ifs at h with hmissing hzero
  rw [not_or, sum_counts, List.length_eq_zero_iff] at hzero
  have hpresent := (missing_eq_nil_iff symbols refs).mp (by simpa using hmissing)
  refine ⟨hzero.2,hpresent,fun el hel hn => hzero.1 ⟨(el,symbols.count el),?_,hn⟩⟩
  exact List.mem_map.mpr ⟨el,List.mem_eraseDups.mpr hel,rfl⟩

theorem Computable.perm {refs : References} (h : Computable symbols refs) (hp : symbols.Perm cell) :
    Computable cell refs :=
  ⟨fun hnil => h.nonempty (hnil ▸ hp).eq_nil,fun el hel => h.energy el (hp.mem_iff.mpr hel),
    fun el hel => h.natoms el (hp.mem_iff.mpr hel)⟩

/-- `m` copies of a cell. -/
def copies (m : ℕ) (cell : List String) : List String := (List.replicate m cell).flatten

theorem Computable.copies {refs : References} (h : Computable cell refs) {m : ℕ} (hm : 0 < m) :
    Computable (copies m cell) refs := by
  have hmem : ∀ el, el ∈ DftForge.Compiler.copies m cell ↔ el ∈ cell := by
    intro el
    simp [DftForge.Compiler.copies, List.mem_flatten, List.mem_replicate, Nat.pos_iff_ne_zero.mp hm]
  refine ⟨fun hnil => h.nonempty ?_,fun el hel => h.energy el ((hmem el).mp hel),
    fun el hel => h.natoms el ((hmem el).mp hel)⟩
  exact List.eq_nil_iff_forall_not_mem.mpr fun el hel => by
    have := (hmem el).mpr hel
    rw [hnil] at this
    exact List.not_mem_nil this

theorem energyPerAtom_perm {refs : References} (hp : symbols.Perm cell) (energy : ℚ) :
    energyPerAtom symbols energy refs = energyPerAtom cell energy refs := by
  unfold energyPerAtom
  rw [(hp.map refs.perAtom).sum_eq, hp.length_eq]

/-- The energy per atom does not depend on the number of copies. -/
theorem energyPerAtom_copies (refs : References) {m : ℕ} (hm : 0 < m) (energy : ℚ) :
    energyPerAtom (copies m cell) (m * energy) refs = energyPerAtom cell energy refs := by
  have hm' : (m : ℚ) ≠ 0 := Nat.cast_ne_zero.mpr (Nat.pos_iff_ne_zero.mp hm)
  have hsum : ((copies m cell).map refs.perAtom).sum = m * (cell.map refs.perAtom).sum := by
    simp [copies, List.map_flatten, List.sum_flatten]
  have hlength : ((copies m cell).length : ℚ) = m * cell.length := by
    simp [copies, List.length_flatten]
  unfold energyPerAtom
  rw [hsum, hlength, ← mul_sub, mul_assoc, mul_div_mul_left _ _ hm']

/-- An element whose atoms all have the reference's energy has no formation energy. -/
theorem energyPerAtom_itself {refs : References} {el : String} {perAtom : ℚ}
    (hall : ∀ s ∈ symbols, s = el) (href : refs.perAtom el = perAtom) :
    energyPerAtom symbols (symbols.length * perAtom) refs = 0 := by
  have hsum : (symbols.map refs.perAtom).sum = symbols.length * perAtom := by
    rw [List.map_congr_left (g := fun _ => perAtom) fun s hs => by rw [hall s hs, href]]
    simp
  unfold energyPerAtom
  rw [hsum, sub_self, zero_mul, zero_div]
  simp [round4, roundHalfEven]

end Counts

section Cells
variable (c : Formulas)

/-- The libraries read the catalogue keys as they are spelled, and the name of a structure
file is no formula that has a prototype. -/
structure Formulas.Documented : Prop where
  keys : ∀ key cell, (key,cell) ∈ catalogueCells →
    c.composition key = .ok (spelled cell) ∧ c.reduced key = key
  files : ∀ text atoms, c.formulaAtoms text = .ok atoms → namesStructureFile text = false

/-- The formation energy of a formula is that of the cell that was run. -/
structure RightCell (formula : String) (cell : List String) : Prop where
  counts : ∀ energy refs r, c.thermoFormation formula energy refs = .ok r →
    r.composition.Perm (countSymbols cell)
  itself : ∀ el, (∀ s ∈ cell, s = el) → ∀ (perAtom : ℚ) (n : ℤ), 0 < n → ∃ r,
    c.thermoFormation formula (cell.length * perAtom) ⟨[(el,n * perAtom)],[(el,n)]⟩ = .ok r ∧
      r.evPerAtom = 0
  scaled : ∀ energy refs r (m : ℕ), 0 < m → c.thermoFormation formula energy refs = .ok r →
    ∃ r', formationOf (copies m cell) (m * energy) refs = .ok r' ∧ r'.evPerAtom = r.evPerAtom

/-- The catalogue keys whose cell has another number of atoms than the prototype. -/
def resizedFormulas : List String :=
  ["Si","Al","Ag","Au","C","Ca","CdS","Cu","Ge","K","Li","Na","Pb","Pd","Pt","Sn","Sr"]

theorem prototype_radius (covRadius : String → ℚ) (formula : String) {comp : List (String × ℚ)} (key : String)
    (hcomp : comp.length ≠ 3) :
    prototype covRadius formula comp key = prototype (fun _ => 0) formula comp key := by
  have hlength : (byAmount comp).length ≠ 3 := by
    rwa [byAmount, List.length_map, List.length_insertionSort]
  unfold prototype
  dsimp only
  split
  · rfl
  · split
    · rfl
    · next els _ => rw [if_neg fun h => hlength h.2.1, if_neg fun h => hlength h.2.1]

/-- A catalogue cell has the atoms of the prototype exactly where it is not resized. -/
def agrees (key : String) (cell : List String) : Bool :=
  match prototype (fun _ => 0) key (spelled cell) key with
  | .ok (symbols, _) => decide (symbols.Perm cell) = decide (key ∉ resizedFormulas)
  | .error _ => true

theorem catalogue_agrees : ∀ e ∈ catalogueCells, agrees e.1 e.2 = true ∧ (spelled e.2).length ≠ 3 := by
  decide +kernel

theorem resized_catalogued : ∀ key ∈ resizedFormulas, (catalogueCells.lookup key).isSome = true := by
  decide +kernel

theorem prototype_nonempty {covRadius : String → ℚ} {formula key : String} {comp : List (String × ℚ)}
    {atoms : List String × String} (h : prototype covRadius formula comp key = .ok atoms) : atoms.1 ≠ [] := by
  unfold prototype layeredOrBinary elementCell pairCell fluoriteCell at h
  dsimp only at h
  split at h
  · cases h
  · split at h
    · split_ifs at h <;> (obtain rfl := Except.ok.inj h; exact List.cons_ne_nil _ _)
    · split at h
      · obtain rfl := Except.ok.inj h
        exact List.cons_ne_nil _ _
      · split at h
        · obtain rfl := Except.ok.inj h
          exact List.cons_ne_nil _ _
        · split at h <;> try split_ifs at h
          all_goals first | cases h; done | (obtain rfl := Except.ok.inj h; exact List.cons_ne_nil _ _)

variable {c}

theorem formulaAtoms_nonempty {formula : String} {atoms : List String × String}
    (h : c.formulaAtoms formula = .ok atoms) : atoms.1 ≠ [] := by
  unfold Formulas.formulaAtoms at h
  split at h
  · cases h
  · exact prototype_nonempty h

theorem thermoFormation_eq {formula : String} {atoms : List String × String}
    (h : c.formulaAtoms formula = .ok atoms) (energy : ℚ) (refs : References) :
    c.thermoFormation formula energy refs = formationOf atoms.1 energy refs := by
  unfold Formulas.thermoFormation
  rw [h]

/-- The counts agree exactly where the prototype has the atoms of the cell. -/
theorem right_iff_perm {formula : String} {atoms : List String × String} {cell : List String}
    (h : c.formulaAtoms formula = .ok atoms) : RightCell c formula cell ↔ atoms.1.Perm cell := by
  constructor
  · intro hright
    obtain ⟨r,hr,_,hcounts⟩ := formationOf_ok 0 (computable_free (formulaAtoms_nonempty h))
    have hperm := hright.counts 0 _ r (by rw [thermoFormation_eq h, hr])
    rw [hcounts] at hperm
    exact countSymbols_perm_iff.mp hperm
  · intro hperm
    refine ⟨fun energy refs r hr => ?_,fun el hall perAtom n hn => ?_,fun energy refs r m hm hr => ?_⟩
    · rw [thermoFormation_eq h] at hr
      obtain ⟨r',hr',_,hcounts⟩ := formationOf_ok energy (computable_of_ok hr)
      obtain rfl := Except.ok.inj (hr.symm.trans hr')
      rw [hcounts]
      exact countSymbols_perm_iff.mpr hperm
    · have hn' : (n : ℚ) ≠ 0 := Int.cast_ne_zero.mpr hn.ne'
      have hcomputable : Computable atoms.1 ⟨[(el,n * perAtom)],[(el,n)]⟩ := by
        refine ⟨formulaAtoms_nonempty h,fun s hs => ?_,fun s hs => ?_⟩
        · rw [hall s (hperm.mem_iff.mp hs)]
          simp [References.energyOf]
        · rw [hall s (hperm.mem_iff.mp hs)]
          simpa [References.natomsOf] using hn.ne'
      obtain ⟨r,hr,hvalue,_⟩ := formationOf_ok (cell.length * perAtom) hcomputable
      refine ⟨r,by rw [thermoFormation_eq h, hr],?_⟩
      rw [hvalue, energyPerAtom_perm hperm]
      refine energyPerAtom_itself hall ?_
      simp [References.perAtom, References.energyOf, References.natomsOf, hn']
    · rw [thermoFormation_eq h] at hr
      have hcomputable := computable_of_ok hr
      obtain ⟨r₁,hr₁,hvalue₁,_⟩ := formationOf_ok energy hcomputable
      obtain rfl := Except.ok.inj (hr.symm.trans hr₁)
      obtain ⟨r',hr',hvalue,_⟩ := formationOf_ok (m * energy) ((hcomputable.perm hperm).copies hm)
      refine ⟨r',hr',?_⟩
      rw [hvalue, hvalue₁, energyPerAtom_copies refs hm, energyPerAtom_perm hperm]

/-- The prototype of a catalogue key has the atoms of its cell exactly where it is not resized. -/
theorem catalogue_perm_iff (hdoc : c.Documented) {key : String} {cell : List String}
    (hkey : (key,cell) ∈ catalogueCells) {atoms : List String × String} (h : c.formulaAtoms key = .ok atoms) :
    atoms.1.Perm cell ↔ key ∉ resizedFormulas := by
  obtain ⟨hcomp,hreduced⟩ := hdoc.keys key cell hkey
  obtain ⟨hagrees,hlength⟩ := catalogue_agrees (key,cell) hkey
  unfold Formulas.formulaAtoms at h
  rw [hcomp, hreduced] at h
  dsimp only at h
  rw [prototype_radius c.covRadius key key hlength] at h
  unfold agrees at hagrees
  rw [h] at hagrees
  exact decide_eq_decide.mp (of_decide_eq_true hagrees)

/-- The formation energy belongs to the cell that was run exactly for the formulas whose
catalogue cell is not resized. -/
theorem formation_cell_iff (hdoc : c.Documented) {formula : String} {atoms : List String × String}
    (h : c.formulaAtoms formula = .ok atoms) {read : String → Except String (List String)}
    {cell : List String} (hcell : c.cell read formula none = .ok cell) :
    RightCell c formula cell ↔ formula ∉ resizedFormulas := by
  rw [right_iff_perm h]
  unfold Formulas.cell at hcell
  dsimp only at hcell
  by_cases hempty : formula = ""
  · rw [if_pos hempty] at hcell
    cases hcell
  · rw [if_neg hempty] at hcell
    split at hcell
    · next symbols hlookup =>
      obtain rfl := Except.ok.inj hcell
      obtain ⟨before,after,htable,_⟩ := List.lookup_eq_some_iff.mp hlookup
      refine catalogue_perm_iff hdoc ?_ h
      rw [htable]
      exact List.mem_append_right _ (List.mem_cons_self ..)
    · next hlookup =>
      rw [hdoc.files formula atoms h, if_neg Bool.false_ne_true, h] at hcell
      obtain rfl := Except.ok.inj hcell
      refine ⟨fun _ hresized => ?_,fun _ => List.Perm.refl _⟩
      have hkey := resized_catalogued formula hresized
      rw [hlookup] at hkey
      cases hkey

theorem catalogueFormulas_documented : catalogueFormulas.Documented := by
  have hkeys : ∀ e ∈ catalogueCells, catalogueCells.lookup e.1 = some e.2 ∧
      namesStructureFile e.1 = false := by
    decide +kernel
  refine ⟨fun key cell hkey => ⟨?_,rfl⟩,fun text atoms h => ?_⟩
  · have hlookup : catalogueCells.lookup key = some cell := (hkeys (key,cell) hkey).1
    simp only [catalogueFormulas, hlookup]
  · cases hlookup : catalogueCells.lookup text with
    | none =>
      simp [Formulas.formulaAtoms, catalogueFormulas, hlookup] at h
    | some cell =>
      obtain ⟨before,after,htable,_⟩ := List.lookup_eq_some_iff.mp hlookup
      exact (hkeys (text,cell) (by rw [htable]; exact List.mem_append_right _ (List.mem_cons_self ..))).2

theorem salt_right : RightCell catalogueFormulas "NaCl" ["Na","Cl"] := by
  have hatoms : catalogueFormulas.formulaAtoms "NaCl" = .ok (["Na","Cl"],"rocksalt") := by decide +kernel
  have hcell : catalogueFormulas.cell (fun _ => .error "") "NaCl" none = .ok ["Na","Cl"] := by
    decide +kernel
  exact (formation_cell_iff catalogueFormulas_documented hatoms hcell).mpr (by decide)

/-- Silicon is run in its primitive cell and counted in the conventional one. -/
theorem silicon_resized : ¬ ∀ formula atoms cell, catalogueFormulas.formulaAtoms formula = .ok atoms →
    catalogueFormulas.cell (fun _ => .error "") formula none = .ok cell →
      RightCell catalogueFormulas formula cell := by
  intro hall
  have hatoms : catalogueFormulas.formulaAtoms "Si" = .ok (List.replicate 8 "Si","diamond") := by
    decide +kernel
  have hcell : catalogueFormulas.cell (fun _ => .error "") "Si" none = .ok ["Si","Si"] := by
    decide +kernel
  have hperm := (right_iff_perm hatoms).mp (hall "Si" _ _ hatoms hcell)
  exact absurd hperm.length_eq (by decide)

end Cells
end DftForge.Compiler
