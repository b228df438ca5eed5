import DftForge.Structure.Dopants

/-! # The site that is doped by default

`dope_3d` without an index replaces an atom of the host element that is closest to the dopant.
The tool and the command always give it an index, the first where the request has none, so the
closest element is replaced exactly if it is that of the first atom of the supercell.
-/
namespace DftForge.Structure
open DftForge.Library DftForge.Runtime DftForge.Python DftForge.Tools

section Sites
variable (ase : Ase)

/-- No element of the host is closer to the dopant in atomic number. -/
def Closest (dopant : Text) (host : List Text) (el : Text) : Prop :=
  el ∈ host ∧ ∀ other ∈ host, ase.distanceTo dopant el ≤ ase.distanceTo dopant other

/-- The composition is that of the host with one atom of a closest element replaced. -/
def ReplacesClosest (dopant : Text) (host result : List Text) : Prop :=
  ∃ el, Closest ase dopant host el ∧ result.Perm (dopant :: host.erase el)

/-- ASE reads the symbol of an element as that element. -/
def ReadsElements : Prop := ∀ el z, ase.atomicNumber el = some z → ase.readSymbol el = .ok el

/-- The supercell of a call. -/
def supercellOf (args : Dict) : Except BuildError Atoms := do
  let src ← ase.textArg args "source" ""
  let supercell ← ase.textArg args "supercell" "2x2x2"
  let (x,_) ← ase.hostCell src supercell
  return x

end Sites

section Replacement
variable {ase : Ase} {dopant : Text} {host : List Text}

theorem perm_set {i : ℕ} (hi : i < host.length) : (host.set i dopant).Perm (dopant :: host.erase host[i]) :=
  (List.set_perm_cons_eraseIdx hi dopant).trans ((List.erase_getElem hi).symm.cons dopant)

/-- Replacing one atom leaves the composition from which one can tell the element replaced. -/
theorem replacesClosest_set {i : ℕ} (hi : i < host.length) :
    ReplacesClosest ase dopant host (host.set i dopant) ↔ Closest ase dopant host host[i] := by
  have hmem : host[i] ∈ host := List.getElem_mem hi
  constructor
  · rintro ⟨el,hel,hperm⟩
    have herase : (host.erase host[i]).Perm (host.erase el) :=
      ((perm_set hi).symm.trans hperm).cons_inv
    have heq : host[i] = el := by
      have hboth : (el :: host).Perm (host[i] :: host) :=
        calc (el :: host).Perm (el :: host[i] :: host.erase host[i]) := (List.perm_cons_erase hmem).cons el
          _ |>.Perm (host[i] :: el :: host.erase host[i]) := List.Perm.swap _ _ _
          _ |>.Perm (host[i] :: el :: host.erase el) := (herase.cons el).cons _
          _ |>.Perm (host[i] :: host) := (List.perm_cons_erase hel.1).symm.cons _
      have hcount := hboth.count_eq el
      rw [List.count_cons_self, List.count_cons] at hcount
      by_contra hne
      simp [hne] at hcount
    exact heq ▸ hel
  · intro h
    exact ⟨host[i],h,perm_set hi⟩

/-- The site that is picked is of a closest element. -/
theorem pickSubstitutionSite_closest {x : Atoms} {index : ℤ}
    (h : ase.pickSubstitutionSite x dopant = .ok index) :
    ∃ (i : ℕ) (hi : i < x.symbols.length), index = i ∧ Closest ase dopant x.symbols x.symbols[i] := by
  unfold Ase.pickSubstitutionSite at h
  cases hel : (x.symbols.dedup.insertionSort (· ≤ ·)).argmin (ase.distanceTo dopant) with
  | none =>
    rw [hel] at h
    cases h
  | some el =>
    rw [hel] at h
    cases h
    have hsort {t : Text} : t ∈ x.symbols.dedup.insertionSort (· ≤ ·) ↔ t ∈ x.symbols := by
      rw [List.mem_insertionSort, List.mem_dedup]
    have hmem : el ∈ x.symbols := hsort.mp (List.argmin_mem (Option.mem_def.mpr hel))
    refine ⟨x.symbols.idxOf el,List.idxOf_lt_length_iff.mpr hmem,rfl,?_⟩
    rw [List.getElem_idxOf]
    exact ⟨hmem,fun other hother => List.le_of_mem_argmin (hsort.mpr hother) (Option.mem_def.mpr hel)⟩

theorem dope3d_symbols {src element supercell : Text} {index : Option ℤ} {r : BuildResult}
    (h : ase.dope3d src element supercell index = .ok r) :
    ∃ x size, ase.hostCell src supercell = .ok (x,size) ∧ ∃ (i : ℕ) (symbol : Text),
      ase.siteIndex x element index = .ok i ∧ ase.readSymbol element = .ok symbol ∧ i < x.symbols.length ∧
        r.atoms.symbols = x.symbols.set i symbol := by
  simp only [Ase.dope3d, bind_eq_ok] at h
  obtain ⟨⟨x,m,n,p⟩,hcell,index',hindex,host,-,y,hy,-,-,h⟩ := h
  cases h
  obtain ⟨i,symbol,rfl,hread,hi,hsymbols⟩ := substitute_symbols hy
  exact ⟨x,(m,n,p),hcell,i,symbol,hindex,hread,hi,hsymbols⟩

/-- Without an index, `dope_3d` replaces an atom of a closest element. -/
theorem dope3d_replacesClosest (hase : ReadsElements ase) {src element supercell : Text} {z : ℕ}
    (hz : ase.atomicNumber element = some z) {r : BuildResult}
    (h : ase.dope3d src element supercell none = .ok r) :
    ∃ x size, ase.hostCell src supercell = .ok (x,size) ∧
      ReplacesClosest ase element x.symbols r.atoms.symbols := by
  obtain ⟨x,size,hcell,i,symbol,hindex,hread,-,hsymbols⟩ := dope3d_symbols h
  obtain ⟨j,hj,hij,hclosest⟩ := pickSubstitutionSite_closest hindex
  obtain rfl := Int.ofNat.inj hij
  rw [hase element z hz] at hread
  obtain rfl := Except.ok.inj hread
  rw [hsymbols]
  exact ⟨x,size,hcell,(replacesClosest_set hj).mpr hclosest⟩

/-- The command gives an index even where none is given to it. -/
theorem command_replaces_iff (hase : ReadsElements ase) {src element supercell : Text} {z : ℕ}
    (hz : ase.atomicNumber element = some z) {r : BuildResult}
    (h : ase.cmdStructureDope { source := src, element := element, supercell := supercell } = .ok r) :
    ∃ x size, ase.hostCell src supercell = .ok (x,size) ∧
      (ReplacesClosest ase element x.symbols r.atoms.symbols ↔
        ∀ first ∈ x.symbols.head?, Closest ase element x.symbols first) := by
  obtain ⟨x,size,hcell,i,symbol,hindex,hread,hi,hsymbols⟩ := dope3d_symbols h
  obtain rfl : 0 = i := Int.ofNat.inj (Except.ok.inj hindex)
  rw [hase element z hz] at hread
  obtain rfl := Except.ok.inj hread
  refine ⟨x,size,hcell,?_⟩
  rw [hsymbols, replacesClosest_set hi, List.head?_eq_getElem?, List.getElem?_eq_getElem hi]
  simp

end Replacement

section Calls
variable {ase : Ase} {args : Dict} {element : String} {r : BuildResult}

/-- A call without an index replaces an atom of a host element that is closest to the dopant
exactly if the first atom of the supercell is of such an element. -/
theorem default_site_iff (hase : ReadsElements ase) (helement : args.get? "element" = some (.str element))
    {z : ℕ} (hz : ase.atomicNumber element.toList = some z) (hindex : args.get? "index" = none)
    (hrun : ase.structureDope args = .ok r) :
    ∃ x, supercellOf ase args = .ok x ∧ (ReplacesClosest ase element.toList x.symbols r.atoms.symbols ↔
      ∀ first ∈ x.symbols.head?, Closest ase element.toList x.symbols first) := by
  have htext : ase.textArg args "element" "" = .ok element.toList := by
    rw [Ase.textArg, helement]
  have hzero : ase.intOr0 ((args.get? "index").getD (.num 0)) = .ok 0 := by
    rw [hindex]
    rfl
  simp only [Ase.structureDope, bind_eq_ok] at hrun
  obtain ⟨src,hsrc,el,hel,supercell,hsupercell,index,hindex',hrun⟩ := hrun
  rw [htext, Except.ok.injEq] at hel
  rw [hzero, Except.ok.injEq] at hindex'
  subst hel hindex'
  obtain ⟨x,size,hcell,hiff⟩ := command_replaces_iff hase hz hrun
  refine ⟨x,?_,hiff⟩
  simp only [supercellOf, bind_eq_ok]
  exact ⟨src,hsrc,supercell,hsupercell,(x,size),hcell,rfl⟩

end Calls

section Samples

theorem sampleAse_readsElements : ReadsElements sampleAse := by
  intro el z h
  have hlookup : sampleNumbers.lookup el = some z := h
  have hread : sampleAse.readSymbol el =
    if (sampleNumbers.lookup el).isSome then .ok el else .error "KeyError" := rfl
  rw [hread, hlookup]
  rfl

/-- Rubidium in cesium chloride; the first atom, cesium, is the closer one. -/
def rubidiumCall : Dict := [("source",.str "CsCl"),("element",.str "Rb"),("supercell",.str "1x1x1")]

theorem rubidium_replaces_closest : ∃ r, sampleAse.structureDope rubidiumCall = .ok r ∧
    supercellOf sampleAse rubidiumCall = .ok cesiumChlorideCell ∧
      ReplacesClosest sampleAse ['R','b'] cesiumChlorideCell.symbols r.atoms.symbols := by
  obtain ⟨r,hrun,-⟩ : ∃ r, sampleAse.structureDope rubidiumCall = .ok r ∧
      r.atoms.symbols = [['R','b'],['C','l']] := exists_of_builtSymbols (by decide +kernel)
  have hcell : supercellOf sampleAse rubidiumCall = .ok cesiumChlorideCell := rfl
  obtain ⟨x,hx,hiff⟩ := default_site_iff sampleAse_readsElements
    (show rubidiumCall.get? "element" = some (.str "Rb") from rfl) rfl rfl hrun
  obtain rfl := Except.ok.inj (hcell.symm.trans hx)
  refine ⟨r,hrun,hcell,hiff.mpr fun first hfirst => ?_⟩
  obtain rfl : ['C','s'] = first := Option.some.inj hfirst
  exact ⟨by decide,by decide⟩

/-- Fluorine in cesium chloride; chlorine is closer to it than cesium. -/
def fluorineCall : Dict := [("source",.str "CsCl"),("element",.str "F"),("supercell",.str "1x1x1")]

theorem fluorineCall_built : ∃ r, sampleAse.structureDope fluorineCall = .ok r ∧
    r.atoms.symbols = [['F'],['C','l']] :=
  exists_of_builtSymbols (by decide +kernel)

/-- The fluorine takes the place of the cesium. -/
theorem cesium_replaced : ∃ r x, sampleAse.structureDope fluorineCall = .ok r ∧
    supercellOf sampleAse fluorineCall = .ok x ∧
      ¬ ReplacesClosest sampleAse ['F'] x.symbols r.atoms.symbols := by
  obtain ⟨r,hrun,hsymbols⟩ := fluorineCall_built
  refine ⟨r,cesiumChlorideCell,hrun,rfl,?_⟩
  rintro ⟨el,⟨hmem,hclosest⟩,hperm⟩
  have hlost : ['C','l'] ∈ (['F'] : Text) :: [['C','s'],['C','l']].erase el :=
    hperm.subset (by rw [hsymbols]; decide)
  have hel : el = ['C','s'] ∨ el = ['C','l'] := by simpa [cesiumChlorideCell, Atoms.symbols] using hmem
  obtain rfl | rfl := hel
  · exact absurd (hclosest ['C','l'] (by decide)) (by decide)
  · exact absurd hlost (by decide)

end Samples
end DftForge.Structure
