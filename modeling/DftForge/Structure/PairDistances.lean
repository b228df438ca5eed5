import DftForge.Structure.Coordination
import DftForge.Library.Lookups

/-! # The pair distances of the structure analysis

`analyze` lists the distances of the atoms by pairs of species. A filter of pairs is tested with
`in`, which takes pairs of species in a collection of tuples; in a text it takes none.
-/
namespace DftForge.Structure
open DftForge.Library DftForge.Qe

/-- `pair_types`: a text such as `Na-Cl,Si-Si`, or a collection of tuples. -/
inductive PairTypes where
  | text (s : String)
  | tuples (ps : List (String × String))

namespace PairTypes

/-- `bool(pair_types)`. -/
def truthy : PairTypes → Bool
  | .text s => s ≠ ""
  | .tuples ps => !ps.isEmpty

/-- `pair in pair_types`. -/
def contains : PairTypes → String × String → Except String Bool
  | .text _, _ => .error "'in <string>' requires string as left operand, not tuple"
  | .tuples ps, pair => .ok (pair ∈ ps)

end PairTypes

/-- `tuple(sorted((a, b)))`. -/
def sortedPair (a b : String) : String × String := if b < a then (b,a) else (a,b)

/-- `str(pair)`. -/
def pairText (pair : String × String) : String := "('" ++ pair.1 ++ "', '" ++ pair.2 ++ "')"

/-- `allowed`. -/
def allowed (types : Option PairTypes) (a b : String) : Except String Bool :=
  match types.filter PairTypes.truthy with
  | none => .ok true
  | some types => do
    if ← types.contains (sortedPair a b) then return true
    if ← types.contains (a,b) then return true
    types.contains (b,a)

/-- An entry of `pair_distances`. -/
structure PairStats where
  count : ℕ
  minAngstrom : ℚ
  maxAngstrom : ℚ
  meanAngstrom : ℚ
  deriving DecidableEq

def pairStats (vs : List ℚ) : PairStats :=
  ⟨vs.length,roundTo 4 (least vs),roundTo 4 (greatest vs),roundTo 4 (mean vs)⟩

/-- `min_dist`, `min_pair` and `pair_dists`; the least distance is infinite where there is none. -/
structure PairScan where
  minDist : Option ℚ
  minPair : Option (String × String)
  pairDists : List (String × List ℚ)

def PairScan.note (s : PairScan) (pair : String × String) (dist : ℚ) : PairScan where
  minDist := if s.minDist.any (· ≤ dist) then s.minDist else some dist
  minPair := if s.minDist.any (· ≤ dist) then s.minPair else some pair
  pairDists := appendTo (pairText pair) dist s.pairDists

structure PairReport where
  minimumDistance : Option ℚ
  minimumDistancePair : Option (String × String)
  pairDistances : List (String × PairStats)

/-- What ASE and spglib tell of a structure besides its neighbours, and the distances of its
atoms. -/
structure Analysed (V D S : Type) where
  geometry : Geometry V
  /-- The formulas, the cell and the periodicity. -/
  description : D
  symmetry : S
  /-- `norm(positions[i] - positions[j])`. -/
  distance : ℕ → ℕ → ℚ

/-- The report of `analyze`. -/
structure Analysis (D S : Type) where
  description : D
  natoms : ℕ
  pairs : Option PairReport
  bonds : BondAnalysis
  symmetry : S

namespace Analysed
variable {V D S : Type} (x : Analysed V D S)

def symbol (i : ℕ) : String := x.geometry.symbols.getD i ""

/-- The sorted species of two atoms. -/
def speciesPair (e : ℕ × ℕ) : String × String := sortedPair (x.symbol e.1) (x.symbol e.2)

/-- All pairs of atoms, the first before the second. -/
def atomPairs : List (ℕ × ℕ) := Geometry.pairs (List.range x.geometry.symbols.length)

/-- One round of the loops over the atoms. -/
def scanPair (types : Option PairTypes) (s : PairScan) (e : ℕ × ℕ) : Except String PairScan := do
  if ← allowed types (x.symbol e.1) (x.symbol e.2) then
    if x.distance e.1 e.2 ≤ 1 / 10 ^ 12 then return s
    else return s.note (x.speciesPair e) (x.distance e.1 e.2)
  else return s

def pairReport (types : Option PairTypes) : Except String PairReport := do
  let s ← x.atomPairs.foldlM (x.scanPair types) ⟨none,none,[]⟩
  return ⟨s.minDist.map (roundTo 4),s.minPair,s.pairDists.map fun e => (e.1,pairStats e.2)⟩

/-- `analyze`. -/
def analyze (types : Option PairTypes) : Except String (Analysis D S) := do
  let n := x.geometry.symbols.length
  let pairs ← if 2 ≤ n then some <$> x.pairReport types else pure none
  return ⟨x.description,n,pairs,x.geometry.coordinationAndBonds,x.symmetry⟩

end Analysed

section Filters

/-- The text that names some pairs. -/
def filterText (ps : List (String × String)) : String :=
  ",".intercalate (ps.map fun p => p.1 ++ "-" ++ p.2)

/-- A filter names a pair in either order. -/
def Names (ps : List (String × String)) (pair : String × String) : Prop :=
  ∃ p ∈ ps, sortedPair p.1 p.2 = pair

instance (ps : List (String × String)) (pair : String × String) : Decidable (Names ps pair) :=
  inferInstanceAs (Decidable (∃ p ∈ ps, _))

variable {V D S : Type} (x : Analysed V D S)

/-- The distances of the atoms of two species. -/
def Analysed.distancesOf (pair : String × String) : List ℚ :=
  (x.atomPairs.filter fun e => x.speciesPair e = pair).map fun e => x.distance e.1 e.2

/-- The report has the named pairs that occur, each with the numbers of its distances. -/
structure Selects (ps : List (String × String)) (report : PairReport) : Prop where
  named : ∀ pair, Names ps pair → x.distancesOf pair ≠ [] →
    report.pairDistances.lookup (pairText pair) = some (pairStats (x.distancesOf pair))
  only : ∀ e ∈ report.pairDistances, ∃ pair, e.1 = pairText pair ∧ Names ps pair ∧ x.distancesOf pair ≠ []

/-- The analysis with a filter gives the pairs the filter names. -/
def FilterSelects (ps : List (String × String)) (types : PairTypes) : Prop :=
  ∃ a report, x.analyze (some types) = .ok a ∧ a.pairs = some report ∧ Selects x ps report

end Filters

section Text
variable {V D S : Type} {x : Analysed V D S}

theorem filterText_ne {ps : List (String × String)} (h : ps ≠ []) : filterText ps ≠ "" := by
  intro hempty
  have hlist : (filterText ps).toList = [] := by rw [hempty]; rfl
  obtain ⟨p,rest,rfl⟩ := List.exists_cons_of_ne_nil h
  have hdash : '-' ∈ (filterText (p :: rest)).toList := by
    rw [filterText, String.toList_intercalate, List.map_cons, List.map_cons]
    cases rest <;> simp [List.intercalate]
  rw [hlist] at hdash
  cases hdash

theorem allowed_text {s : String} (h : s ≠ "") (a b : String) : allowed (some (.text s)) a b =
    .error "'in <string>' requires string as left operand, not tuple" := by
  have htruthy : (PairTypes.text s).truthy = true := by simp [PairTypes.truthy, h]
  rw [allowed, Option.filter_some, if_pos htruthy]
  rfl

theorem atomPairs_ne (h : 2 ≤ x.geometry.symbols.length) : x.atomPairs ≠ [] := by
  obtain ⟨n,hn⟩ := Nat.exists_eq_add_of_le h
  rw [Analysed.atomPairs, hn, Nat.add_comm, List.range_succ_eq_map, Geometry.pairs, List.range_succ_eq_map]
  exact List.cons_ne_nil _ _

/-- A filter given as a text stops the analysis at the first pair of atoms. -/
theorem analyze_text {s : String} (hs : s ≠ "") (hatoms : 2 ≤ x.geometry.symbols.length) :
    x.analyze (some (.text s)) = .error "'in <string>' requires string as left operand, not tuple" := by
  obtain ⟨e,rest,hpairs⟩ := List.exists_cons_of_ne_nil (atomPairs_ne hatoms)
  rw [Analysed.analyze, if_pos hatoms, Analysed.pairReport, hpairs, List.foldlM_cons, Analysed.scanPair,
    allowed_text hs]
  rfl

/-- No text selects pairs, of whatever structure. -/
theorem text_never_selects {ps : List (String × String)} (hps : ps ≠ [])
    (hatoms : 2 ≤ x.geometry.symbols.length) : ¬ FilterSelects x ps (.text (filterText ps)) := by
  rintro ⟨a,report,ha,-,-⟩
  rw [analyze_text (filterText_ne hps) hatoms] at ha
  cases ha

end Text

section Tuples
variable {V D S : Type} {x : Analysed V D S}

theorem lookup_appendTo {α : Type} (key : String) (v : α) (table : List (String × List α)) (k : String) :
    (appendTo key v table).lookup k =
      if k = key then some ((table.lookup key).getD [] ++ [v]) else table.lookup k := by
  induction table with
  | nil =>
    by_cases hk : k = key
    · simp [appendTo, hk]
    · rw [if_neg hk, appendTo, lookup_cons_of_ne hk]
  | cons e rest ih =>
    obtain ⟨k',vs⟩ := e
    rw [appendTo]
    by_cases hk' : k' = key
    · subst hk'
      rw [if_pos rfl]
      by_cases hk : k = k'
      · simp [hk]
      · rw [if_neg hk, lookup_cons_of_ne hk, lookup_cons_of_ne hk]
    · rw [if_neg hk']
      by_cases hk : k = k'
      · subst hk
        rw [if_neg hk', List.lookup_cons_self, List.lookup_cons_self]
      · rw [lookup_cons_of_ne hk, lookup_cons_of_ne hk, lookup_cons_of_ne (Ne.symm hk'), ih]

/-- The values of one key, in their order. -/
def valuesOf {α : Type} (k : String) (entries : List (String × α)) : List α :=
  (entries.filter (·.1 = k)).map (·.2)

/-- A table that is filled entry by entry has the values of each key. -/
theorem lookup_foldl_appendTo {α : Type} (entries : List (String × α)) (table : List (String × List α))
    (k : String) : ((entries.foldl (fun t e => appendTo e.1 e.2 t) table).lookup k).getD [] =
      (table.lookup k).getD [] ++ valuesOf k entries := by
  induction entries generalizing table with
  | nil => simp [valuesOf]
  | cons e entries ih =>
    rw [List.foldl_cons, ih, lookup_appendTo, valuesOf, valuesOf, List.filter_cons]
    by_cases hk : k = e.1
    · simp [hk]
    · simp [hk, Ne.symm hk]

theorem mem_foldl_appendTo {α : Type} (entries : List (String × α)) (table : List (String × List α)) :
    ∀ e ∈ entries.foldl (fun t e => appendTo e.1 e.2 t) table,
      (∃ f ∈ table, f.1 = e.1) ∨ ∃ f ∈ entries, f.1 = e.1 := by
  have hstep (key : String) (v : α) (table : List (String × List α)) :
      ∀ e ∈ appendTo key v table, (∃ f ∈ table, f.1 = e.1) ∨ e.1 = key := by
    induction table with
    | nil => simp [appendTo]
    | cons f rest ih =>
      intro e he
      rw [appendTo] at he
      split at he
      · rcases List.mem_cons.mp he with rfl | he
        · exact .inl ⟨f,List.mem_cons_self,rfl⟩
        · exact .inl ⟨e,List.mem_cons_of_mem _ he,rfl⟩
      · rcases List.mem_cons.mp he with rfl | he
        · exact .inl ⟨f,List.mem_cons_self,rfl⟩
        · refine (ih e he).imp_left ?_
          rintro ⟨f',hf',heq⟩
          exact ⟨f',List.mem_cons_of_mem _ hf',heq⟩
  induction entries generalizing table with
  | nil => exact fun e he => .inl ⟨e,he,rfl⟩
  | cons f entries ih =>
    intro e he
    rcases ih (appendTo f.1 f.2 table) e he with ⟨f',hf',heq⟩ | ⟨f',hf',heq⟩
    · rcases hstep f.1 f.2 table f' hf' with ⟨f'',hf'',heq'⟩ | hkey
      · exact .inl ⟨f'',hf'',heq'.trans heq⟩
      · exact .inr ⟨f,List.mem_cons_self,hkey.symm.trans heq⟩
    · exact .inr ⟨f',List.mem_cons_of_mem _ hf',heq⟩

/-- A named pair has a text in a tuple filter, in one order or the other. -/
theorem names_sortedPair_iff {ps : List (String × String)} {a b : String} :
    Names ps (sortedPair a b) ↔ sortedPair a b ∈ ps ∨ (a,b) ∈ ps ∨ (b,a) ∈ ps := by
  have hsorted (c d : String) : sortedPair c d = (c,d) ∨ sortedPair c d = (d,c) := by
    unfold sortedPair
    split
    · exact .inr rfl
    · exact .inl rfl
  constructor
  · rintro ⟨⟨c,d⟩,hp,heq⟩
    rcases hsorted c d with hc | hc <;> rcases hsorted a b with ha | ha <;> rw [hc, ha] at heq <;> cases heq
    · exact .inr (.inl hp)
    · exact .inr (.inr hp)
    · exact .inr (.inr hp)
    · exact .inr (.inl hp)
  · have hidem : sortedPair (sortedPair a b).1 (sortedPair a b).2 = sortedPair a b := by
      unfold sortedPair
      split <;> rename_i h
      · exact if_neg (lt_asymm h)
      · rfl
    have hswap : sortedPair b a = sortedPair a b := by
      unfold sortedPair
      rcases lt_trichotomy a b with h | h | h
      · rw [if_pos h, if_neg (lt_asymm h)]
      · subst h
        rfl
      · rw [if_neg (lt_asymm h), if_pos h]
    rintro (h | h | h)
    · exact ⟨_,h,hidem⟩
    · exact ⟨_,h,rfl⟩
    · exact ⟨_,h,hswap⟩

theorem allowed_tuples {ps : List (String × String)} (h : ps ≠ []) (a b : String) :
    allowed (some (.tuples ps)) a b = .ok (decide (Names ps (sortedPair a b))) := by
  have htruthy : (PairTypes.tuples ps).truthy = true := by simp [PairTypes.truthy, h]
  rw [allowed, Option.filter_some, if_pos htruthy]
  by_cases hsorted : sortedPair a b ∈ ps
  · simp [PairTypes.contains, names_sortedPair_iff, hsorted, bind, Except.bind, pure, Except.pure]
  · by_cases hab : (a,b) ∈ ps <;>
      simp [PairTypes.contains, names_sortedPair_iff, hsorted, hab, bind, Except.bind, pure, Except.pure]

theorem foldlM_scanPair {ps : List (String × String)} (h : ps ≠ []) (es : List (ℕ × ℕ))
    (hfar : ∀ e ∈ es, 1 / 10 ^ 12 < x.distance e.1 e.2) (s : PairScan) :
    ∃ s', es.foldlM (x.scanPair (some (.tuples ps))) s = .ok s' ∧ s'.pairDists =
      ((es.filter fun e => Names ps (x.speciesPair e)).map fun e =>
        (pairText (x.speciesPair e),x.distance e.1 e.2)).foldl (fun t e => appendTo e.1 e.2 t) s.pairDists := by
  induction es generalizing s with
  | nil => exact ⟨s,rfl,rfl⟩
  | cons e es ih =>
    rw [List.forall_mem_cons] at hfar
    have hstep : x.scanPair (some (.tuples ps)) s e = .ok (if Names ps (x.speciesPair e) then
        s.note (x.speciesPair e) (x.distance e.1 e.2) else s) := by
      rw [Analysed.scanPair, allowed_tuples h, if_neg hfar.1.not_ge]
      by_cases hnames : Names ps (x.speciesPair e)
      · rw [if_pos hnames, show decide (Names ps (sortedPair (x.symbol e.1) (x.symbol e.2))) = true from
          decide_eq_true hnames]
        rfl
      · rw [if_neg hnames, show decide (Names ps (sortedPair (x.symbol e.1) (x.symbol e.2))) = false from
          decide_eq_false hnames]
        rfl
    obtain ⟨s',hs',hdists⟩ := ih hfar.2 (if Names ps (x.speciesPair e) then
      s.note (x.speciesPair e) (x.distance e.1 e.2) else s)
    refine ⟨s',?_,?_⟩
    · rw [List.foldlM_cons, hstep]
      exact hs'
    · rw [hdists, List.filter_cons]
      by_cases hnames : Names ps (x.speciesPair e)
      · simp [hnames, PairScan.note]
      · simp [hnames]

/-- The texts of pairs of species differ where the pairs do. -/
theorem pairText_injective {p q : String × String} (hp : '\'' ∉ p.1.toList ∧ '\'' ∉ p.2.toList)
    (hq : '\'' ∉ q.1.toList ∧ '\'' ∉ q.2.toList) (h : pairText p = pairText q) : p = q := by
  have hlist : p.1.toList ++ '\'' :: (", '".toList ++ (p.2.toList ++ '\'' :: [')'])) =
      q.1.toList ++ '\'' :: (", '".toList ++ (q.2.toList ++ '\'' :: [')'])) := by
    have hchars := congrArg String.toList h
    simpa [pairText] using hchars
  obtain ⟨hfst,hrest⟩ := Python.append_cons_cancel hp.1 hq.1 hlist
  obtain ⟨hsnd,-⟩ := Python.append_cons_cancel hp.2 hq.2 (List.append_cancel_left hrest)
  exact Prod.ext (String.toList_injective hfst) (String.toList_injective hsnd)

/-- As a collection of tuples the filter selects its pairs, of atoms that are apart. -/
theorem tuples_select {ps : List (String × String)} (hps : ps ≠ [])
    (hatoms : 2 ≤ x.geometry.symbols.length) (hnames : ∀ i, '\'' ∉ (x.symbol i).toList)
    (hfar : ∀ e ∈ x.atomPairs, 1 / 10 ^ 12 < x.distance e.1 e.2) : FilterSelects x ps (.tuples ps) := by
  obtain ⟨s,hs,hdists⟩ := foldlM_scanPair (x := x) hps x.atomPairs hfar ⟨none,none,[]⟩
  have hplain (e : ℕ × ℕ) : '\'' ∉ (x.speciesPair e).1.toList ∧ '\'' ∉ (x.speciesPair e).2.toList := by
    unfold Analysed.speciesPair sortedPair
    split
    · exact ⟨hnames e.2,hnames e.1⟩
    · exact ⟨hnames e.1,hnames e.2⟩
  have hvalues (e : ℕ × ℕ) (he : Names ps (x.speciesPair e)) :
      (s.pairDists.lookup (pairText (x.speciesPair e))).getD [] = x.distancesOf (x.speciesPair e) := by
    rw [hdists, lookup_foldl_appendTo, List.lookup_nil, Option.getD_none, List.nil_append, valuesOf,
      List.filter_map, List.map_map, List.filter_filter, Analysed.distancesOf]
    refine congrArg _ (List.filter_congr fun f _ => ?_)
    rw [Bool.eq_iff_iff]
    simp only [Function.comp_apply, Bool.and_eq_true, decide_eq_true_eq]
    constructor
    · rintro ⟨htext,-⟩
      exact pairText_injective (hplain f) (hplain e) htext
    · intro heq
      rw [heq]
      exact ⟨rfl,he⟩
  have hlookup (e : ℕ × ℕ) (he : Names ps (x.speciesPair e)) (hne : x.distancesOf (x.speciesPair e) ≠ []) :
      s.pairDists.lookup (pairText (x.speciesPair e)) = some (x.distancesOf (x.speciesPair e)) := by
    have h := hvalues e he
    cases hfound : s.pairDists.lookup (pairText (x.speciesPair e)) with
    | none =>
      rw [hfound, Option.getD_none] at h
      exact absurd h.symm hne
    | some vs =>
      rw [hfound, Option.getD_some] at h
      rw [h]
  let report : PairReport := ⟨s.minDist.map (roundTo 4),s.minPair,s.pairDists.map fun e => (e.1,pairStats e.2)⟩
  refine ⟨⟨x.description,x.geometry.symbols.length,some report,x.geometry.coordinationAndBonds,x.symmetry⟩,
    report,?_,rfl,?_,?_⟩
  · rw [Analysed.analyze, if_pos hatoms, Analysed.pairReport, hs]
    rfl
  · intro pair hpair hne
    obtain ⟨e,he⟩ := List.exists_mem_of_ne_nil _ hne
    obtain ⟨e,he,-⟩ := List.mem_map.mp he
    obtain rfl : x.speciesPair e = pair := of_decide_eq_true (List.mem_filter.mp he).2
    have hnames : Names ps (x.speciesPair e) := hpair
    change (s.pairDists.map fun e => (e.1,pairStats e.2)).lookup _ = _
    rw [lookup_map_snd, hlookup e hnames hne, Option.map_some]
  · intro e he
    obtain ⟨f,hf,rfl⟩ := List.mem_map.mp he
    rw [hdists] at hf
    rcases mem_foldl_appendTo _ _ f hf with ⟨_,hnone,-⟩ | ⟨f',hf',hkey⟩
    · cases hnone
    · obtain ⟨p,hp,rfl⟩ := List.mem_map.mp hf'
      obtain ⟨hmem,hnames⟩ := List.mem_filter.mp hp
      refine ⟨x.speciesPair p,hkey.symm,of_decide_eq_true hnames,?_⟩
      exact List.ne_nil_of_mem (List.mem_map_of_mem (List.mem_filter.mpr ⟨hmem,decide_eq_true rfl⟩))

end Tuples

section Salt

/-- Sodium and chlorine, 2.8 Å apart. -/
def saltPair : Analysed Unit Unit Unit where
  geometry := ⟨["Na","Cl"],[83/50,51/50],fun _ _ => [],fun _ _ _ => (),fun _ => 0,fun _ _ => 0,""⟩
  description := ()
  symmetry := ()
  distance _ _ := 14 / 5

theorem salt_never_selects : ¬ FilterSelects saltPair [("Na","Cl")] (.text (filterText [("Na","Cl")])) :=
  text_never_selects (List.cons_ne_nil _ _) (by decide)

/-- The filter of the intent table for sodium chloride. -/
theorem salt_raises : filterText [("Na","Cl")] = "Na-Cl" ∧ saltPair.analyze (some (.text "Na-Cl")) =
    .error "'in <string>' requires string as left operand, not tuple" ∧
    ¬ FilterSelects saltPair [("Na","Cl")] (.text "Na-Cl") := by
  refine ⟨rfl,rfl,?_⟩
  rintro ⟨a,report,ha,-,-⟩
  cases ha

end Salt
end DftForge.Structure
