import DftForge.Compiler.BandAxis

/-! # The reported band gap

`parse_bands` finds the gap between the eigenvalues at or below the Fermi level and those above,
whatever bands they are in. This decides for which tables the reported gap is a gap between bands.
Numbers are exact.
-/
namespace DftForge.Compiler
open DftForge.Qe

/-- What the XML of a calculation holds; energies in Hartree. -/
structure BandsXml where
  /-- The numbers of the elements `eigenvalues`. -/
  eigenvalues : List (List ℚ)
  /-- The attributes of `band_structure`. -/
  nks : ℤ := 0
  nbnd : ℤ := 0
  fermiEnergy : Option ℚ := none
  highestOccupiedLevel : Option ℚ := none

/-- `HA_TO_EV`. -/
def haToEv : ℚ := 27211386245988 / 10 ^ 12

/-- What is still at the Fermi level. -/
def tolerance : ℚ := 1 / 10 ^ 9

namespace BandsXml
variable (x : BandsXml)

def rows : List (List ℚ) := x.eigenvalues.filter (· ≠ [])

/-- numpy makes an array of the rows only where they have one length. -/
def Rectangular : Prop := ∀ row ∈ x.rows, row.length = (x.rows.headD []).length

instance : Decidable x.Rectangular := inferInstanceAs (Decidable (∀ row ∈ x.rows, _))

/-- `result.eigenvalues`, a row for each k-point. -/
def table : List (List ℚ) := x.rows.map fun row => row.map (· * haToEv)

/-- `all_evals`. -/
def allEvals : List ℚ := x.table.flatten

def fermiEv : ℚ :=
  match x.fermiEnergy, x.highestOccupiedLevel with
  | some e, _ => e * haToEv
  | none, some e => e * haToEv
  | none, none => x.allEvals.max?.getD 0 / 2

end BandsXml

/-- The gap around the Fermi level, and whether it counts as a metal. -/
def gapOf (evals : List ℚ) (fermi : ℚ) : ℚ × Bool :=
  match (evals.filter (· ≤ fermi + tolerance)).max?, (evals.filter (fermi + tolerance < ·)).min? with
  | some vbm, some cbm => if vbm < cbm then (cbm - vbm,decide (cbm - vbm < 272 / 1000)) else (0,true)
  | _, _ => (0,false)

/-- `parse_bands`, of a file where there is one that can be read. -/
def parseBands (file : Option BandsXml) : BandsFile ℚ :=
  let nothing : BandsFile ℚ := ⟨⟨0,0,0⟩,0,false,none⟩
  match file with
  | none => nothing
  | some x =>
    if x.rows = [] ∨ ¬ x.Rectangular then nothing
    else
      let gap := gapOf x.allEvals x.fermiEv
      { nBands := if x.nbnd = 0 then (x.rows.headD []).length else x.nbnd
        nKpoints := if x.nks = 0 then x.rows.length else x.nks
        fermiEnergyEv := x.fermiEv
        bandGapEv := gap.1
        isMetal := gap.2
        eigenvalues := some x.table }

section Bands
variable (table : List (List ℚ)) (fermi : ℚ)

/-- The eigenvalues of a band, one for each k-point. -/
def band (n : ℕ) : List ℚ := table.filterMap (·[n]?)

/-- Some eigenvalues of the band are at or below the Fermi level, and some above. -/
def CrossesFermi (n : ℕ) : Prop := (∃ e ∈ band table n, e ≤ fermi) ∧ ∃ e ∈ band table n, fermi < e

def OccupiedBand (n : ℕ) : Prop := band table n ≠ [] ∧ ∀ e ∈ band table n, e ≤ fermi

def EmptyBand (n : ℕ) : Prop := band table n ≠ [] ∧ ∀ e ∈ band table n, fermi < e

/-- The last occupied band has its maximum at `lo`, and the first empty one its minimum at `hi`. -/
structure BandEdges (lo hi : ℚ) : Prop where
  last : ∃ v, OccupiedBand table fermi v ∧ (∀ n, v < n → ¬ OccupiedBand table fermi n) ∧
    IsGreatest {e | e ∈ band table v} lo
  first : ∃ c, EmptyBand table fermi c ∧ (∀ n, n < c → ¬ EmptyBand table fermi n) ∧
    IsLeast {e | e ∈ band table c} hi

/-- A gap that is reported for a material that is no metal lies between bands. -/
def GapSeparates (b : BandsFile ℚ) : Prop := b.isMetal = false → 0 < b.bandGapEv →
  (∀ n, ¬ CrossesFermi table fermi n) ∧ ∃ lo hi, BandEdges table fermi lo hi ∧ b.bandGapEv = hi - lo

end Bands

section Condition

/-- The eigenvalues that count as occupied, and the others. -/
def lowerEvals (evals : List ℚ) (fermi : ℚ) : Set ℚ := {e | e ∈ evals ∧ e ≤ fermi + tolerance}
def upperEvals (evals : List ℚ) (fermi : ℚ) : Set ℚ := {e | e ∈ evals ∧ fermi + tolerance < e}

/-- Around the Fermi level is a spacing of eigenvalues that the smearing resolves. -/
def BandsXml.Gapped (x : BandsXml) : Prop := x.rows ≠ [] ∧ x.Rectangular ∧ ∃ vbm cbm,
  IsGreatest (lowerEvals x.allEvals x.fermiEv) vbm ∧ IsLeast (upperEvals x.allEvals x.fermiEv) cbm ∧
    272 / 1000 ≤ cbm - vbm

/-- No band crosses the Fermi level, and no eigenvalue comes between the bands on its two sides. Where
the band above is within the tolerance, its spacing to the next eigenvalues is as large. -/
def BandsXml.Separated (x : BandsXml) : Prop := (∀ n, ¬ CrossesFermi x.table x.fermiEv n) ∧
  ∃ lo hi, BandEdges x.table x.fermiEv lo hi ∧
    ((x.fermiEv + tolerance < hi ∧ ∀ e ∈ x.allEvals, e ≤ lo ∨ hi ≤ e) ∨
      (hi ≤ x.fermiEv + tolerance ∧ ∃ vbm cbm, IsGreatest (lowerEvals x.allEvals x.fermiEv) vbm ∧
        IsLeast (upperEvals x.allEvals x.fermiEv) cbm ∧ hi - lo = cbm - vbm))

variable {evals : List ℚ} {fermi : ℚ}

theorem max?_filter_iff {p : ℚ → Bool} {m : ℚ} :
    (evals.filter p).max? = some m ↔ IsGreatest {e | e ∈ evals ∧ p e = true} m := by
  rw [List.max?_eq_some_iff]
  simp only [IsGreatest,mem_upperBounds,Set.mem_ofPred_eq,List.mem_filter]

theorem min?_filter_iff {p : ℚ → Bool} {m : ℚ} :
    (evals.filter p).min? = some m ↔ IsLeast {e | e ∈ evals ∧ p e = true} m := by
  rw [List.min?_eq_some_iff]
  simp only [IsLeast,mem_lowerBounds,Set.mem_ofPred_eq,List.mem_filter]

theorem lower_lt_upper {vbm cbm : ℚ} (hv : IsGreatest (lowerEvals evals fermi) vbm)
    (hc : IsLeast (upperEvals evals fermi) cbm) : vbm < cbm := hv.1.2.trans_lt hc.1.2

/-- A gap is reported just where there is a large spacing, and it is the spacing. -/
theorem gapOf_iff (evals : List ℚ) (fermi g : ℚ) : (gapOf evals fermi = (g,false) ∧ 0 < g) ↔ ∃ vbm cbm,
    IsGreatest (lowerEvals evals fermi) vbm ∧ IsLeast (upperEvals evals fermi) cbm ∧ 272 / 1000 ≤ cbm - vbm ∧
      g = cbm - vbm := by
  have hmax : ∀ m, (evals.filter (· ≤ fermi + tolerance)).max? = some m ↔
      IsGreatest (lowerEvals evals fermi) m := by
    intro m
    rw [max?_filter_iff]
    simp only [decide_eq_true_eq,lowerEvals]
  have hmin : ∀ m, (evals.filter (fermi + tolerance < ·)).min? = some m ↔
      IsLeast (upperEvals evals fermi) m := by
    intro m
    rw [min?_filter_iff]
    simp only [decide_eq_true_eq,upperEvals]
  constructor
  · rintro ⟨hgap,hpos⟩
    unfold gapOf at hgap
    split at hgap
    · next vbm cbm hv hc =>
      rw [hmax] at hv
      rw [hmin] at hc
      rw [if_pos (lower_lt_upper hv hc)] at hgap
      obtain ⟨rfl,hmetal⟩ := Prod.mk.inj hgap
      exact ⟨vbm,cbm,hv,hc,not_lt.mp (of_decide_eq_false hmetal),rfl⟩
    · obtain ⟨rfl,_⟩ := Prod.mk.inj hgap
      exact absurd hpos (lt_irrefl 0)
  · rintro ⟨vbm,cbm,hv,hc,hle,rfl⟩
    have hlt := lower_lt_upper hv hc
    refine ⟨?_,sub_pos.mpr hlt⟩
    rw [gapOf,(hmax vbm).mpr hv,(hmin cbm).mpr hc]
    simp only [if_pos hlt,decide_eq_false hle.not_gt]

theorem parseBands_some {x : BandsXml} (hne : x.rows ≠ []) (hrect : x.Rectangular) :
    ((parseBands (some x)).bandGapEv,(parseBands (some x)).isMetal) = gapOf x.allEvals x.fermiEv := by
  rw [parseBands,if_neg (not_or.mpr ⟨hne,not_not.mpr hrect⟩)]

/-- A gap is reported just for the gapped tables. -/
theorem reported_iff (x : BandsXml) :
    (parseBands (some x)).isMetal = false ∧ 0 < (parseBands (some x)).bandGapEv ↔ x.Gapped := by
  by_cases hx : x.rows = [] ∨ ¬ x.Rectangular
  · refine iff_of_false ?_ fun h => hx.elim h.1 fun hrect => hrect h.2.1
    rw [parseBands,if_pos hx]
    exact fun h => lt_irrefl _ h.2
  · obtain ⟨hne,hrect⟩ := not_or.mp hx
    rw [not_not] at hrect
    have hgap := parseBands_some hne hrect
    have hiff := gapOf_iff x.allEvals x.fermiEv (parseBands (some x)).bandGapEv
    rw [← hgap,Prod.mk.injEq] at hiff
    constructor
    · rintro ⟨hmetal,hpos⟩
      obtain ⟨vbm,cbm,hv,hc,hle,_⟩ := hiff.mp ⟨⟨rfl,hmetal⟩,hpos⟩
      exact ⟨hne,hrect,vbm,cbm,hv,hc,hle⟩
    · rintro ⟨_,_,vbm,cbm,hv,hc,hle⟩
      have hreported := (gapOf_iff _ _ (cbm - vbm)).mpr ⟨vbm,cbm,hv,hc,hle,rfl⟩
      rw [← hgap,Prod.mk.injEq] at hreported
      obtain ⟨⟨hvalue,hmetal⟩,hpos⟩ := hreported
      exact ⟨hmetal,hvalue ▸ hpos⟩

theorem mem_band {table : List (List ℚ)} {n : ℕ} {e : ℚ} :
    e ∈ band table n ↔ ∃ row ∈ table, row[n]? = some e := List.mem_filterMap

theorem mem_flatten_of_band {table : List (List ℚ)} {n : ℕ} {e : ℚ} (h : e ∈ band table n) :
    e ∈ table.flatten := by
  obtain ⟨row,hrow,he⟩ := mem_band.mp h
  exact List.mem_flatten_of_mem hrow (List.mem_of_getElem? he)

/-- The edges lie on the two sides of the Fermi level. -/
theorem BandEdges.around {table : List (List ℚ)} {lo hi : ℚ} (h : BandEdges table fermi lo hi) :
    (lo ∈ table.flatten ∧ lo ≤ fermi) ∧ hi ∈ table.flatten ∧ fermi < hi := by
  obtain ⟨v,⟨_,hv⟩,_,hlo⟩ := h.last
  obtain ⟨c,⟨_,hc⟩,_,hhi⟩ := h.first
  exact ⟨⟨mem_flatten_of_band hlo.1,hv lo hlo.1⟩,mem_flatten_of_band hhi.1,hc hi hhi.1⟩

theorem tolerance_pos : 0 < tolerance := by norm_num [tolerance]

/-- The spacing around the Fermi level is that of the edges. -/
theorem BandEdges.spacing_iff {table : List (List ℚ)} {lo hi vbm cbm : ℚ} (h : BandEdges table fermi lo hi)
    (hv : IsGreatest (lowerEvals table.flatten fermi) vbm)
    (hc : IsLeast (upperEvals table.flatten fermi) cbm) :
    cbm - vbm = hi - lo ↔ (fermi + tolerance < hi ∧ ∀ e ∈ table.flatten, e ≤ lo ∨ hi ≤ e) ∨
      (hi ≤ fermi + tolerance ∧ ∃ vbm cbm, IsGreatest (lowerEvals table.flatten fermi) vbm ∧
        IsLeast (upperEvals table.flatten fermi) cbm ∧ hi - lo = cbm - vbm) := by
  obtain ⟨⟨hlo,hlof⟩,hhi,hhif⟩ := h.around
  have hpos := tolerance_pos
  have hlov : lo ≤ vbm := hv.2 ⟨hlo,by linarith⟩
  constructor
  · intro heq
    rcases lt_or_ge (fermi + tolerance) hi with hlt | hle
    · have hchi : cbm ≤ hi := hc.2 ⟨hhi,hlt⟩
      obtain rfl : lo = vbm := by linarith
      obtain rfl : hi = cbm := by linarith
      refine .inl ⟨hlt,fun e he => ?_⟩
      rcases le_or_gt e (fermi + tolerance) with hlower | hupper
      · exact .inl (hv.2 ⟨he,hlower⟩)
      · exact .inr (hc.2 ⟨he,hupper⟩)
    · exact .inr ⟨hle,vbm,cbm,hv,hc,heq.symm⟩
  · rintro (⟨hlt,hbetween⟩ | ⟨_,vbm',cbm',hv',hc',heq⟩)
    · have hchi : cbm ≤ hi := hc.2 ⟨hhi,hlt⟩
      have hvlo : vbm ≤ lo := (hbetween vbm hv.1.1).resolve_right fun hle => by linarith [hv.1.2]
      have hhic : hi ≤ cbm := (hbetween cbm hc.1.1).resolve_left fun hle => by linarith [hc.1.2]
      linarith
    · rw [hv.unique hv',hc.unique hc',heq]

theorem gapSeparates_iff (x : BandsXml) :
    GapSeparates x.table x.fermiEv (parseBands (some x)) ↔ ¬ x.Gapped ∨ x.Separated := by
  by_cases hgapped : x.Gapped
  · obtain ⟨hmetal,hpos⟩ := (reported_iff x).mpr hgapped
    obtain ⟨hne,hrect,vbm,cbm,hv,hc,hle⟩ := hgapped
    have hreported := (gapOf_iff _ _ (cbm - vbm)).mpr ⟨vbm,cbm,hv,hc,hle,rfl⟩
    rw [← parseBands_some hne hrect,Prod.mk.injEq] at hreported
    have hgap : (parseBands (some x)).bandGapEv = cbm - vbm := hreported.1.1
    have hsame : GapSeparates x.table x.fermiEv (parseBands (some x)) ↔
        (∀ n, ¬ CrossesFermi x.table x.fermiEv n) ∧ ∃ lo hi, BandEdges x.table x.fermiEv lo hi ∧
          cbm - vbm = hi - lo := by
      rw [GapSeparates,hgap]
      exact ⟨fun h => h hmetal (hgap ▸ hpos),fun h _ _ => h⟩
    rw [hsame,or_iff_right (not_not.mpr ⟨hne,hrect,vbm,cbm,hv,hc,hle⟩),BandsXml.Separated]
    refine and_congr_right' (exists_congr fun lo => exists_congr fun hi => ?_)
    exact and_congr_right fun hedges => hedges.spacing_iff hv hc
  · exact iff_of_true (fun hmetal hpos => absurd ((reported_iff x).mp ⟨hmetal,hpos⟩) hgapped) (.inl hgapped)

end Condition

section Ascending
variable {x : BandsXml}

/-- At each k-point the eigenvalues ascend, and none is within the tolerance above the Fermi level. -/
structure BandsXml.Plain (x : BandsXml) : Prop where
  ascending : ∀ row ∈ x.table, row.Pairwise (· ≤ ·)
  resolved : ∀ e ∈ x.allEvals, x.fermiEv < e → x.fermiEv + tolerance < e

/-- The number of bands. -/
def BandsXml.width (x : BandsXml) : ℕ := (x.rows.headD []).length

theorem length_table (hrect : x.Rectangular) {row : List ℚ} (h : row ∈ x.table) : row.length = x.width := by
  obtain ⟨row',hrow',rfl⟩ := List.mem_map.mp h
  rw [List.length_map]
  exact hrect row' hrow'

theorem lt_width (hrect : x.Rectangular) {n : ℕ} {e : ℚ} (h : e ∈ band x.table n) : n < x.width := by
  obtain ⟨row,hrow,he⟩ := mem_band.mp h
  obtain ⟨hn,_⟩ := List.getElem?_eq_some_iff.mp he
  rwa [length_table hrect hrow] at hn

theorem exists_band (hrect : x.Rectangular) {e : ℚ} (h : e ∈ x.allEvals) :
    ∃ n < x.width, e ∈ band x.table n := by
  obtain ⟨row,hrow,he⟩ := List.mem_flatten.mp h
  obtain ⟨n,hn,rfl⟩ := List.mem_iff_getElem.mp he
  exact ⟨n,length_table hrect hrow ▸ hn,mem_band.mpr ⟨row,hrow,List.getElem?_eq_getElem hn⟩⟩

/-- Without crossings a band with an eigenvalue on one side is there as a whole. -/
theorem occupied_of_mem {n : ℕ} {e : ℚ} (hcross : ¬ CrossesFermi x.table x.fermiEv n) (h : e ∈ band x.table n)
    (hle : e ≤ x.fermiEv) : OccupiedBand x.table x.fermiEv n :=
  ⟨List.ne_nil_of_mem h,fun e' he' => not_lt.mp fun hlt => hcross ⟨⟨e,h,hle⟩,e',he',hlt⟩⟩

theorem empty_of_mem {n : ℕ} {e : ℚ} (hcross : ¬ CrossesFermi x.table x.fermiEv n) (h : e ∈ band x.table n)
    (hlt : x.fermiEv < e) : EmptyBand x.table x.fermiEv n :=
  ⟨List.ne_nil_of_mem h,fun e' he' => not_le.mp fun hle => hcross ⟨⟨e',he',hle⟩,e,h,hlt⟩⟩

/-- The bands ascend at every k-point. -/
theorem exists_above (hrect : x.Rectangular) (hplain : x.Plain) {n m : ℕ} {e : ℚ} (h : e ∈ band x.table n)
    (hnm : n ≤ m) (hm : m < x.width) : ∃ e' ∈ band x.table m, e ≤ e' := by
  obtain ⟨row,hrow,he⟩ := mem_band.mp h
  obtain ⟨hn,rfl⟩ := List.getElem?_eq_some_iff.mp he
  have hm' : m < row.length := (length_table hrect hrow).symm ▸ hm
  refine ⟨row[m],mem_band.mpr ⟨row,hrow,List.getElem?_eq_getElem hm'⟩,?_⟩
  rcases hnm.eq_or_lt with rfl | hlt
  · exact le_rfl
  · exact List.pairwise_iff_getElem.mp (hplain.ascending row hrow) n m hn hm' hlt

theorem exists_below (hplain : x.Plain) {n m : ℕ} {e : ℚ} (h : e ∈ band x.table m)
    (hnm : n ≤ m) : ∃ e' ∈ band x.table n, e' ≤ e := by
  obtain ⟨row,hrow,he⟩ := mem_band.mp h
  obtain ⟨hm,rfl⟩ := List.getElem?_eq_some_iff.mp he
  have hn : n < row.length := hnm.trans_lt hm
  refine ⟨row[n],mem_band.mpr ⟨row,hrow,List.getElem?_eq_getElem hn⟩,?_⟩
  rcases hnm.eq_or_lt with rfl | hlt
  · exact le_rfl
  · exact List.pairwise_iff_getElem.mp (hplain.ascending row hrow) n m hn hm hlt

theorem exists_greatest {l : List ℚ} (h : l ≠ []) : ∃ m, IsGreatest {e | e ∈ l} m := by
  cases hmax : l.max? with
  | none => exact absurd (List.max?_eq_none_iff.mp hmax) h
  | some m => exact ⟨m,List.max?_eq_some_iff.mp hmax⟩

theorem exists_least {l : List ℚ} (h : l ≠ []) : ∃ m, IsLeast {e | e ∈ l} m := by
  cases hmin : l.min? with
  | none => exact absurd (List.min?_eq_none_iff.mp hmin) h
  | some m => exact ⟨m,List.min?_eq_some_iff.mp hmin⟩

/-- Ascending bands that do not cross the Fermi level have edges with nothing between them. -/
theorem plain_edges (hrect : x.Rectangular) (hplain : x.Plain)
    (hcross : ∀ n, ¬ CrossesFermi x.table x.fermiEv n) {below above : ℚ} (hbelow : below ∈ x.allEvals)
    (hle : below ≤ x.fermiEv) (habove : above ∈ x.allEvals) (hlt : x.fermiEv < above) :
    ∃ lo hi, BandEdges x.table x.fermiEv lo hi ∧ ∀ e ∈ x.allEvals, e ≤ lo ∨ hi ≤ e := by
  classical
  obtain ⟨n,hn,hmem⟩ := exists_band hrect hbelow
  obtain ⟨m,_,hmem'⟩ := exists_band hrect habove
  have hocc := occupied_of_mem (hcross n) hmem hle
  have hfirst : ∃ c, EmptyBand x.table x.fermiEv c := ⟨m,empty_of_mem (hcross m) hmem' hlt⟩
  -- the last occupied and the first empty band
  have hv := Nat.findGreatest_spec (P := OccupiedBand x.table x.fermiEv) hn.le hocc
  have hc := Nat.find_spec hfirst
  obtain ⟨lo,hlo⟩ := exists_greatest hv.1
  obtain ⟨hi,hhi⟩ := exists_least hc.1
  have hlast : ∀ k, OccupiedBand x.table x.fermiEv k →
      k ≤ Nat.findGreatest (OccupiedBand x.table x.fermiEv) x.width := by
    intro k hk
    obtain ⟨e,he⟩ := List.exists_mem_of_ne_nil _ hk.1
    exact Nat.le_findGreatest (lt_width hrect he).le hk
  refine ⟨lo,hi,⟨⟨_,hv,fun k hk hocc => absurd (hlast k hocc) hk.not_ge,hlo⟩,
    ⟨_,hc,fun k hk => Nat.find_min hfirst hk,hhi⟩⟩,fun e he => ?_⟩
  obtain ⟨k,_,hk⟩ := exists_band hrect he
  rcases le_or_gt e x.fermiEv with hef | hef
  · have hkv := hlast k (occupied_of_mem (hcross k) hk hef)
    obtain ⟨e',he',hee'⟩ := exists_above hrect hplain hk hkv (lt_width hrect hlo.1)
    exact .inl (hee'.trans (hlo.2 he'))
  · have hck := Nat.find_min' hfirst (empty_of_mem (hcross k) hk hef)
    obtain ⟨e',he',hee'⟩ := exists_below hplain hk hck
    exact .inr ((hhi.2 he').trans hee')

/-- In plain tables the gaps lie between bands where no band crosses the Fermi level. -/
theorem BandsXml.Plain.separated_iff (hplain : x.Plain) (hgapped : x.Gapped) :
    x.Separated ↔ ∀ n, ¬ CrossesFermi x.table x.fermiEv n := by
  refine ⟨fun h => h.1,fun hcross => ⟨hcross,?_⟩⟩
  obtain ⟨_,hrect,vbm,cbm,hv,hc,_⟩ := hgapped
  have hpos := tolerance_pos
  have hle : vbm ≤ x.fermiEv := not_lt.mp fun hlt => (hplain.resolved vbm hv.1.1 hlt).not_ge hv.1.2
  obtain ⟨lo,hi,hedges,hbetween⟩ := plain_edges hrect hplain hcross hv.1.1 hle hc.1.1
    (by linarith [hc.1.2])
  obtain ⟨_,hmem,hlt⟩ := hedges.around
  exact ⟨lo,hi,hedges,.inl ⟨hplain.resolved hi hmem hlt,hbetween⟩⟩

/-- The reported gap is one between bands just where no gap is reported or it is one between bands
that do not cross the Fermi level; in plain tables the second means that none crosses it. -/
theorem reported_gap_iff (x : BandsXml) :
    (GapSeparates x.table x.fermiEv (parseBands (some x)) ↔ ¬ x.Gapped ∨ x.Separated) ∧
    (x.Plain → (GapSeparates x.table x.fermiEv (parseBands (some x)) ↔
      ¬ x.Gapped ∨ ∀ n, ¬ CrossesFermi x.table x.fermiEv n)) := by
  refine ⟨gapSeparates_iff x,fun hplain => (gapSeparates_iff x).trans ?_⟩
  by_cases hgapped : x.Gapped
  · rw [hplain.separated_iff hgapped]
  · exact iff_of_true (.inl hgapped) (.inl hgapped)

/-- A partly filled band, seen at two k-points, and an empty one. -/
def twoPoints : BandsXml where
  eigenvalues := [[-2 / 100,1 / 10],[2 / 100,1 / 10]]
  fermiEnergy := some 0

/-- Its spread over the Fermi level is reported as a gap. -/
theorem metal_with_gap : ¬ GapSeparates twoPoints.table twoPoints.fermiEv (parseBands (some twoPoints)) := by
  intro h
  have hmetal : (parseBands (some twoPoints)).isMetal = false := by decide +kernel
  have hpos : 0 < (parseBands (some twoPoints)).bandGapEv := by decide +kernel
  refine (h hmetal hpos).1 0 ⟨⟨-2 / 100 * haToEv,?_,?_⟩,2 / 100 * haToEv,?_,?_⟩
  · decide +kernel
  · decide +kernel
  · decide +kernel
  · decide +kernel

end Ascending
end DftForge.Compiler
