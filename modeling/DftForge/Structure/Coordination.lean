import DftForge.Library.Reversals
import DftForge.Qe.Recovery

/-! # Bonds and coordination numbers

`coordination_and_bonds`: the neighbour candidates are thinned to one instance of each bond,
the coordination numbers are counted again from the bonds, and the lengths and the angles are
listed by species. The neighbour list of ASE and the geometry of numpy are parameters.
-/
namespace DftForge.Structure
open DftForge.Library DftForge.Qe

/-- The lattice offset of a periodic image; tuples are compared from the left. -/
abbrev Offset := ℤ ×ₗ ℤ ×ₗ ℤ

/-- `(i, j, offset)`. -/
structure Instance where
  i : ℕ
  j : ℕ
  offset : Offset
  deriving DecidableEq

namespace Instance

/-- The instance seen from its other end. -/
def reversed (b : Instance) : Instance := ⟨b.j,b.i,-b.offset⟩

/-- `key`, by which a bond is recorded once. -/
def key (b : Instance) : Instance :=
  if b.i < b.j then ⟨b.i,b.j,b.offset⟩
  else if b.j < b.i then ⟨b.j,b.i,-b.offset⟩
  else ⟨b.i,b.i,max b.offset (-b.offset)⟩

theorem reversed_involutive : Function.Involutive reversed := fun b => by simp [reversed]

theorem key_of_lt {b : Instance} (h : b.i < b.j) : b.key = b := by
  rw [key,if_pos h]

theorem key_of_gt {b : Instance} (h : b.j < b.i) : b.key = b.reversed := by
  rw [key,if_neg h.not_gt,if_pos h]
  rfl

theorem key_of_eq {b : Instance} (h : b.i = b.j) : b.key = ⟨b.i,b.i,max b.offset (-b.offset)⟩ := by
  rw [key,if_neg h.not_lt,if_neg h.not_gt]

/-- The key is one of the two sights of a bond. -/
theorem key_eq_or (b : Instance) : b.key = b ∨ b.key = b.reversed := by
  rcases lt_trichotomy b.i b.j with h | h | h
  · exact .inl (key_of_lt h)
  · rw [key_of_eq h]
    obtain ⟨i,j,o⟩ := b
    obtain rfl : i = j := h
    rcases max_choice o (-o) with ho | ho
    · exact .inl (congrArg (Instance.mk i i) ho)
    · exact .inr (congrArg (Instance.mk i i) ho)
  · exact .inr (key_of_gt h)

@[simp] theorem key_reversed (b : Instance) : b.reversed.key = b.key := by
  rcases lt_trichotomy b.i b.j with h | h | h
  · rw [key_of_lt h,key_of_gt (b := b.reversed) h,reversed_involutive]
  · obtain ⟨i,j,o⟩ := b
    obtain rfl : i = j := h
    rw [key_of_eq rfl,key_of_eq rfl]
    simp [reversed,max_comm]
  · rw [key_of_gt h,key_of_lt (b := b.reversed) h]

/-- The key forgets from which end the bond was seen, and nothing else. -/
theorem key_eq_iff (a b : Instance) : b.key = a.key ↔ b = a ∨ b = a.reversed := by
  constructor
  · intro h
    have hb : b = a.key ∨ b = a.key.reversed := by
      rcases key_eq_or b with hb | hb
      · exact .inl (hb.symm.trans h)
      · exact .inr (by rw [← h,hb,reversed_involutive])
    rcases key_eq_or a with ha | ha <;> rw [ha] at hb
    · exact hb
    · rw [reversed_involutive a] at hb
      exact hb.symm
  · rintro (rfl | rfl)
    · rfl
    · exact key_reversed a

end Instance

structure Candidate extends Instance where
  d : ℚ
  deriving DecidableEq

/-- The candidate seen from its other end. -/
def Candidate.reversed (c : Candidate) : Candidate := ⟨c.toInstance.reversed,c.d⟩

theorem Candidate.reversed_involutive : Function.Involutive Candidate.reversed := fun c => by
  rw [reversed,reversed,Instance.reversed_involutive]

/-- A structure as numpy and ASE see it; `V` are the vectors of numpy. -/
structure Geometry (V : Type) where
  symbols : List String
  /-- `covalent_radii` of the atoms. -/
  radii : List ℚ
  /-- What `NeighborList`, with half the cutoff for each atom, lists for an atom. -/
  neighbors : ℚ → ℕ → List (ℕ × Offset)
  /-- The vector from an atom to an image of another. -/
  vec : ℕ → ℕ → Offset → V
  norm : V → ℚ
  /-- The angle between two vectors, in degrees. -/
  angle : V → V → ℚ
  /-- What `max` raises for no values. -/
  noMaximum : String

/-- `(key[0], key[1], d)`. -/
structure Bond where
  i : ℕ
  j : ℕ
  d : ℚ
  deriving DecidableEq

def Candidate.bond (c : Candidate) : Bond := ⟨c.key.i,c.key.j,c.d⟩

/-- `table.setdefault(key, []).append(v)`. -/
def appendTo {α : Type} (key : String) (v : α) : List (String × List α) → List (String × List α)
  | [] => [(key,[v])]
  | (k, vs) :: rest => if k = key then (k,vs ++ [v]) :: rest else (k,vs) :: appendTo key v rest

/-- `sorted(table.items())`. -/
def sortedItems {α : Type} (table : List (String × α)) : List (String × α) :=
  table.insertionSort fun a b => a.1 ≤ b.1

/-- `round(q, digits)`. -/
def roundTo (digits : ℕ) (q : ℚ) : ℚ := roundHalfEven (q * 10 ^ digits) / 10 ^ digits

def mean (vs : List ℚ) : ℚ := vs.sum / vs.length

/-- `min(vs)`, of some values. -/
def least (vs : List ℚ) : ℚ := vs.min?.getD 0

/-- `max(vs)`, of some values. -/
def greatest (vs : List ℚ) : ℚ := vs.max?.getD 0

structure CoordRange where
  min : ℚ
  max : ℚ
  mean : ℚ

/-- The entries of `bond_lengths` and, with two digits, of `bond_angles`. -/
structure Spread where
  count : ℕ
  min : ℚ
  mean : ℚ
  max : ℚ

def spread (digits : ℕ) (vs : List ℚ) : Spread :=
  ⟨vs.length,roundTo digits (least vs),roundTo digits (mean vs),roundTo digits (greatest vs)⟩

structure BondReport where
  coordination : List (String × CoordRange)
  bondLengths : List (String × Spread)
  bondAngles : List (String × Spread)

inductive BondAnalysis where
  | nothing
  | bondAnalysisError (text : String)
  | report (r : BondReport)

section Bonds

/-- The loop over the candidates: `seen` and `bonds`. -/
def noteBond (state : List (Instance) × List Bond) (c : Candidate) :
    List (Instance) × List Bond :=
  if c.key ∈ state.1 then state else (c.key :: state.1,state.2 ++ [c.bond])

def bondsOf (cs : List Candidate) : List Bond := (cs.foldl noteBond ([],[])).2

/-- `coord[i] += 1` and `coord[j] += 1`. -/
def countEnds (coord : List ℕ) (b : Bond) : List ℕ :=
  (coord.modify b.i (· + 1)).modify b.j (· + 1)

/-- `coord`, by the index of the atom. -/
def coordOf (n : ℕ) (bonds : List Bond) : List ℕ := bonds.foldl countEnds (List.replicate n 0)

/-- `"-".join(sorted((a, b)))`. -/
def pairName (a b : String) : String := if b < a then b ++ "-" ++ a else a ++ "-" ++ b

def bondByPair (symbols : List String) (bonds : List Bond) : List (String × List ℚ) :=
  bonds.foldl (fun table b => appendTo (pairName (symbols.getD b.i "") (symbols.getD b.j "")) b.d table) []

/-- The reported coordination, from the number of each atom. -/
def coordinationBySpecies (symbols : List String) (coord : List ℕ) : List (String × CoordRange) :=
  let numbers := (symbols.zip coord).foldl (fun table e => appendTo e.1 (e.2 : ℚ) table) []
  (sortedItems numbers).map fun e => (e.1,⟨least e.2,greatest e.2,mean e.2⟩)

def bondLengths (symbols : List String) (bonds : List Bond) : List (String × Spread) :=
  (sortedItems (bondByPair symbols bonds)).map fun e => (e.1,spread 4 e.2)

end Bonds

namespace Geometry
variable {V : Type} (g : Geometry V)

/-- `_neighbor_candidates`. -/
def neighborCandidates (pairCutoff : ℚ) : List Candidate :=
  (List.range g.symbols.length).flatMap fun i => (g.neighbors pairCutoff i).filterMap fun e =>
    let d := g.norm (g.vec i e.1 e.2)
    if 1 / 10 ^ 6 < d ∧ d ≤ pairCutoff then some ⟨⟨i,e.1,e.2⟩,d⟩ else none

/-- `_bond_cutoff`; nothing for no atoms. -/
def bondCutoff : Option ℚ :=
  (g.radii.map (2 * ·)).max?.map fun search =>
    (((g.neighborCandidates (2 * search)).map (·.d)).min?.map (5 / 4 * ·)).getD 0

/-- `neighbor_vectors[i]`. -/
def neighborVectors (cs : List Candidate) (i : ℕ) : List (V × String) :=
  (cs.filter (·.i = i)).map fun c => (g.vec c.i c.j c.offset,g.symbols.getD c.j "")

/-- The pairs of a list, the first before the second. -/
def pairs {α : Type} : List α → List (α × α)
  | [] => []
  | a :: as => as.map (Prod.mk a) ++ pairs as

def noteAngle (center : String) (table : List (String × List ℚ)) (e : (V × String) × V × String) :
    List (String × List ℚ) :=
  if g.norm e.1.1 < 1 / 10 ^ 9 ∨ g.norm e.2.1 < 1 / 10 ^ 9 then table
  else appendTo (e.1.2 ++ "-" ++ center ++ "-" ++ e.2.2) (g.angle e.1.1 e.2.1) table

def bondAngles (cs : List Candidate) : List (String × Spread) :=
  let table := (List.range g.symbols.length).foldl
    (fun table b => (pairs (g.neighborVectors cs b)).foldl (g.noteAngle (g.symbols.getD b "")) table) []
  (sortedItems table).map fun e => (e.1,spread 2 e.2)

/-- What is reported for the candidates. -/
def reportOf (cs : List Candidate) : BondReport :=
  ⟨coordinationBySpecies g.symbols (coordOf g.symbols.length (bondsOf cs)),
    bondLengths g.symbols (bondsOf cs),g.bondAngles cs⟩

/-- `coordination_and_bonds`. -/
def coordinationAndBonds : BondAnalysis :=
  match g.bondCutoff with
  | none => .bondAnalysisError g.noMaximum
  | some cutoff => if cutoff ≤ 0 then .nothing else .report (g.reportOf (g.neighborCandidates cutoff))

end Geometry

section Symmetric

/-- No candidate is listed twice, and each is listed from both of its ends; an atom is a candidate
for itself only at another image. -/
structure SymmetricCandidates (n : ℕ) (cs : List Candidate) : Prop where
  nodup : (cs.map Candidate.toInstance).Nodup
  symmetric : ∀ c ∈ cs, c.reversed ∈ cs
  image : ∀ c ∈ cs, c.i = c.j → c.offset ≠ 0
  bound : ∀ c ∈ cs, c.i < n

variable {n : ℕ} {cs : List Candidate}

/-- The bonds recorded are those of the candidates with a new key. -/
theorem foldl_noteBond (seen : List (Instance)) (bonds : List Bond) (cs : List Candidate) :
    (cs.foldl noteBond (seen,bonds)).2 =
      bonds ++ (firsts (fun c : Candidate => c.key) seen cs).map Candidate.bond := by
  induction cs generalizing seen bonds with
  | nil => simp [firsts]
  | cons c cs ih =>
    rw [List.foldl_cons,noteBond,firsts]
    split
    · exact ih seen bonds
    · rw [ih]
      simp [List.append_assoc]

theorem bondsOf_eq (cs : List Candidate) :
    bondsOf cs = (firsts (fun c : Candidate => c.key) [] cs).map Candidate.bond := foldl_noteBond [] [] cs

theorem SymmetricCandidates.reversal (h : SymmetricCandidates n cs) :
    Reversal (fun c : Candidate => c.key) Candidate.reversed cs where
  nodup := h.nodup.of_map
  involutive := Candidate.reversed_involutive
  closed := h.symmetric
  ne c hc heq := by
    have hi : c.i = c.j := congrArg (·.j) heq
    have ho : -c.offset = c.offset := congrArg (·.offset) heq
    exact h.image c hc hi (self_eq_neg.mp ho.symm)
  key_eq a ha b hb := by
    have hinj := List.inj_on_of_nodup_map h.nodup
    rw [Instance.key_eq_iff]
    constructor
    · rintro (he | he)
      · exact .inl (hinj hb ha he)
      · exact .inr (hinj hb (h.symmetric a ha) he)
    · rintro (rfl | rfl)
      · exact .inl rfl
      · exact .inr rfl

end Symmetric

section Counts
variable {n : ℕ} {cs : List Candidate} {k : ℕ}

/-- How often an atom is an end of the bond. -/
def Bond.endsAt (b : Bond) (k : ℕ) : ℕ := (if b.i = k then 1 else 0) + if b.j = k then 1 else 0

theorem countEnds_getElem? (coord : List ℕ) (b : Bond) :
    (countEnds coord b)[k]? = coord[k]?.map (· + b.endsAt k) := by
  rw [countEnds,List.getElem?_modify,List.getElem?_modify,Bond.endsAt]
  cases coord[k]? with
  | none => rfl
  | some v => by_cases hi : b.i = k <;> by_cases hj : b.j = k <;> simp [hi,hj,add_assoc]

theorem foldl_countEnds_getElem? (coord : List ℕ) (bonds : List Bond) :
    (bonds.foldl countEnds coord)[k]? = coord[k]?.map (· + (bonds.map (·.endsAt k)).sum) := by
  induction bonds generalizing coord with
  | nil => simp
  | cons b bonds ih =>
    rw [List.foldl_cons,ih,countEnds_getElem?,Option.map_map,List.map_cons,List.sum_cons]
    simp [Function.comp_def,add_assoc]

theorem sum_starts (cs : List Candidate) (k : ℕ) :
    (cs.map fun c => if c.i = k then 1 else 0).sum = cs.countP (·.i = k) := by
  induction cs with
  | nil => rfl
  | cons c cs ih =>
    rw [List.map_cons,List.sum_cons,ih,List.countP_cons,add_comm]
    simp

/-- A bond ends where its candidate starts and where the reversed one does. -/
theorem bond_endsAt (c : Candidate) (k : ℕ) :
    c.bond.endsAt k = (if c.i = k then 1 else 0) + if c.reversed.i = k then 1 else 0 := by
  rw [Bond.endsAt,Candidate.bond]
  rcases Instance.key_eq_or c.toInstance with h | h <;> rw [h]
  · rfl
  · exact Nat.add_comm ..

theorem sum_endsAt (h : SymmetricCandidates n cs) (k : ℕ) :
    ((bondsOf cs).map (·.endsAt k)).sum = cs.countP (·.i = k) := by
  rw [bondsOf_eq,List.map_map,← sum_starts,← h.reversal.sum]
  exact congrArg List.sum (List.map_congr_left fun c _ => bond_endsAt c k)

theorem coordOf_eq (h : SymmetricCandidates n cs) :
    coordOf n (bondsOf cs) = (List.range n).map fun i => cs.countP (·.i = i) := by
  refine List.ext_getElem? fun k => ?_
  rw [coordOf,foldl_countEnds_getElem?,sum_endsAt h,List.getElem?_map]
  by_cases hk : k < n <;> simp [hk]

/-- An entry more in a table is one more in all of its lists together. -/
theorem length_appendTo {α : Type} (key : String) (v : α) (table : List (String × List α)) :
    ((appendTo key v table).map (·.2.length)).sum = (table.map (·.2.length)).sum + 1 := by
  induction table with
  | nil => rfl
  | cons e rest ih =>
    rw [appendTo]
    split
    · simp only [List.map_cons,List.sum_cons,List.length_append,List.length_singleton]
      omega
    · rw [List.map_cons,List.sum_cons,ih,List.map_cons,List.sum_cons,add_assoc]

theorem length_bondByPair (symbols : List String) (bonds : List Bond) (table : List (String × List ℚ)) :
    ((bonds.foldl (fun table b =>
        appendTo (pairName (symbols.getD b.i "") (symbols.getD b.j "")) b.d table) table).map
      (·.2.length)).sum = (table.map (·.2.length)).sum + bonds.length := by
  induction bonds generalizing table with
  | nil => rfl
  | cons b bonds ih =>
    rw [List.foldl_cons,ih,length_appendTo,List.length_cons]
    omega

theorem count_bondLengths (symbols : List String) (bonds : List Bond) :
    ((bondLengths symbols bonds).map (·.2.count)).sum = bonds.length := by
  have hperm : (sortedItems (bondByPair symbols bonds)).Perm (bondByPair symbols bonds) :=
    List.perm_insertionSort _ _
  rw [bondLengths,List.map_map]
  refine (hperm.map _).sum_eq.trans ?_
  have h := length_bondByPair symbols bonds []
  rwa [List.map_nil,List.sum_nil,zero_add] at h

/-- The coordination numbers are the numbers of candidates, of each bond one instance is
recorded, and the counts of the pairs are half of the candidates. -/
theorem coordination_counts_candidates {V : Type} (g : Geometry V) (cs : List Candidate)
    (h : SymmetricCandidates g.symbols.length cs) :
    (∀ cutoff, g.bondCutoff = some cutoff → 0 < cutoff → g.neighborCandidates cutoff = cs →
      g.coordinationAndBonds = .report (g.reportOf cs)) ∧
    coordOf g.symbols.length (bondsOf cs) =
      (List.range g.symbols.length).map (fun i => cs.countP (·.i = i)) ∧
    (g.reportOf cs).coordination = coordinationBySpecies g.symbols
      ((List.range g.symbols.length).map fun i => cs.countP (·.i = i)) ∧
    (∃ kept : List Candidate, kept.Sublist cs ∧ bondsOf cs = kept.map Candidate.bond ∧
      ∀ c ∈ cs, (c ∈ kept ↔ c.reversed ∉ kept)) ∧
    2 * ((g.reportOf cs).bondLengths.map (·.2.count)).sum = cs.length := by
  have hcoord := coordOf_eq h
  refine ⟨fun cutoff hcutoff hpos hcs => ?_,hcoord,?_,?_,?_⟩
  · rw [Geometry.coordinationAndBonds,hcutoff]
    simp only [hpos.not_ge,if_false,hcs]
  · rw [Geometry.reportOf,hcoord]
  · exact ⟨firsts (fun c : Candidate => c.key) [] cs,firsts_sublist _ [] cs,bondsOf_eq cs,
      fun c hc => h.reversal.kept_iff hc⟩
  · rw [Geometry.reportOf,count_bondLengths,bondsOf_eq,List.length_map,h.reversal.length]

/-- A chain along the first axis whose first atom is also bonded to its own images. -/
def chain : List Candidate := [
  ⟨⟨0,1,toLex (0,toLex (0,0))⟩,2⟩,⟨⟨0,0,toLex (1,toLex (0,0))⟩,3⟩,⟨⟨0,0,toLex (-1,toLex (0,0))⟩,3⟩,
  ⟨⟨1,0,toLex (0,toLex (0,0))⟩,2⟩]

def chainGeometry : Geometry Unit where
  symbols := ["Na","Cl"]
  radii := [2,1]
  neighbors _ i := (chain.filter (·.i = i)).map fun c => (c.j,c.offset)
  vec _ _ _ := ()
  norm _ := 2
  angle _ _ := 0
  noMaximum := ""

theorem chain_symmetric : SymmetricCandidates 2 chain where
  nodup := by decide
  symmetric := by decide
  image := by decide
  bound := by decide

/-- The atom with two images has them both, though they are one bond. -/
theorem coordination_of_chain : coordOf 2 (bondsOf chain) = [3,1] ∧
    2 * ((chainGeometry.reportOf chain).bondLengths.map (·.2.count)).sum = 4 :=
  have h := coordination_counts_candidates chainGeometry chain chain_symmetric
  ⟨h.2.1.trans (by decide),h.2.2.2.2⟩

end Counts
end DftForge.Structure
