import DftForge.Structure.DeckReading

/-! # What a deck is read as

The structure that `_parse_qe_input` returns for a deck is the one that the deck denotes just
where the units make no difference and `K_POINTS` is not taken for atoms.
-/
namespace DftForge.Structure
open DftForge.Library DftForge.Runtime DftForge.Python
open DftForge.Qe (CellRow AtomRow Species PositionUnit)

section Symbols
variable (a : Ambient)

theorem Reads.anchor {p : Option Char → Option Char → Bool} (h : ∀ before, p before none = true) :
    Regex.Reads (.anchor p) [] [] [] := by
  intro before groups
  simp [Regex.run, h]

open Regex in
theorem validElement_reads {s : Species} (h : IsElement a.isSymbol s) :
    Reads a.validElement s.text [] [] := by
  obtain ⟨hfirst,hsecond,-⟩ := h
  have hend : Reads (Regex.chain [.anchor fun _ after => after = none]) [] [] [] :=
    (Reads.anchor fun _ => rfl).chain_last
  have hdigits :
      Reads (Regex.chain [opt (plus (Re.digit a.unicode)),.anchor fun _ after => after = none]) [] [] [] :=
    Reads.chain_skip (.opt_nil (.seq (.one nofun))) hend
  have hrest : Reads (Regex.chain [opt (.one Char.isLower),opt (plus (Re.digit a.unicode)),
      .anchor fun _ after => after = none]) s.second.toList [] [] := by
    cases hs : s.second with
    | none => exact Reads.chain_skip (.opt_nil (.one nofun)) hdigits
    | some c =>
      have hc : Reads (.one Char.isLower) [c] ([] ++ []) [] := .one (hsecond c hs)
      exact Reads.chain_cons hc.opt hdigits
  have hc : Reads (.one Char.isUpper) [s.first] (s.second.toList ++ []) [] := .one hfirst
  exact Reads.chain_cons hc hrest

theorem lower_second {s : Species} (h : ∀ c ∈ s.second, c.isLower = true) :
    lower s.second.toList = s.second.toList := by
  cases hs : s.second with
  | none => rfl
  | some c =>
    have hlower := h c hs
    have hrange : 97 ≤ c.toNat ∧ c.toNat ≤ 122 := by
      simpa [Char.isLower, UInt32.le_iff_toNat_le] using hlower
    have hc : c.toLower = c := by
      have hup : ¬ ('A'.val ≤ c.val ∧ c.val ≤ 'Z'.val) := by
        rintro ⟨-,hup⟩
        have hup : c.toNat ≤ 90 := UInt32.le_iff_toNat_le.mp hup
        omega
      rw [Char.toLower, dif_neg hup]
    rw [Option.toList_some, lower, List.flatMap_singleton, lowerChar, if_neg (by omega), if_neg (by omega),
      hc]

theorem normalizeElement_species {s : Species} (h : IsElement a.isSymbol s) :
    a.normalizeElement s.text = .ok s.text := by
  have hstrip : strip s.text = s.text := by
    have hline : (Line.mk 0 s.text [] 0).WellFormed := ⟨Qe.species_word s,nofun⟩
    have hbody := hline.strip_text
    simpa [Line.text, Line.body, blanks] using hbody
  have hmatch : Regex.run a.validElement ⟨[],s.text,[]⟩ ≠ [] := by
    intro hnil
    have hread := validElement_reads a h [] []
    rw [List.append_nil, hnil] at hread
    cases hread
  have hlower : lower (s.text.drop 1) = s.text.drop 1 := lower_second h.2.1
  simp only [Ambient.normalizeElement, hstrip]
  rw [if_neg hmatch, hlower, List.take_append_drop]
  rfl

end Symbols

section Reading
variable (a : Ambient)

/-- As many atoms as lines with a word and three numbers. -/
theorem length_of_fragmentAtoms {s : Fragment} {x : Atoms} (h : a.fragmentAtoms s = .ok x) :
    x.sites.length = (positionWords s.atomicPositionsLines).length := by
  unfold Ambient.fragmentAtoms at h
  obtain ⟨rows,-,h⟩ := bind_eq_ok.mp h
  obtain ⟨-,-,h⟩ := bind_eq_ok.mp h
  obtain ⟨coords,hcoords,h⟩ := bind_eq_ok.mp h
  obtain ⟨-,-,h⟩ := bind_eq_ok.mp h
  obtain ⟨-,-,h⟩ := bind_eq_ok.mp h
  obtain ⟨-,-,h⟩ := bind_eq_ok.mp h
  obtain ⟨normalized,hnormalized,h⟩ := bind_eq_ok.mp h
  obtain ⟨-,-,h⟩ := bind_eq_ok.mp h
  cases h
  rw [List.length_zipWith, List.length_map, length_of_mapM hcoords, length_of_mapM hnormalized,
    List.length_map,
    min_self]

/-- Rows of three numbers and lines of atoms are read as the atoms they describe. -/
theorem fragmentAtoms_eq (s : Fragment) {rows : List (List ℚ)} (atoms : List (Text × List ℚ))
    (hrows : ((s.cellParamsLines.take 3).mapM fun line => ((words line).take 3).mapM a.float) = .ok rows)
    (hlength : rows.length = 3) (hthree : ∀ row ∈ rows, row.length = 3) (hatoms : atoms ≠ [])
    (hsymbols : (positionWords s.atomicPositionsLines).map (·.headD []) = atoms.map (·.1))
    (hcoords : ((positionWords s.atomicPositionsLines).mapM fun ws => ((ws.drop 1).take 3).mapM a.float) =
      .ok (atoms.map (·.2)))
    (hknown : ∀ atom ∈ atoms, a.normalizeElement atom.1 = .ok atom.1 ∧ a.isSymbol atom.1 = true) :
    a.fragmentAtoms s = .ok ⟨atoms.map fun atom => ⟨atom.1,Matrix.vecMul (toVector atom.2) (toMatrix rows)⟩,
      toMatrix rows,fun _ => true⟩ := by
  have hrectangular : ¬ rectangular rows = false := by
    rw [Bool.not_eq_false, rectangular, List.all_eq_true]
    obtain ⟨first,rest,rfl⟩ := List.exists_cons_of_length_eq_add_one hlength
    intro row hrow
    simp [hthree row hrow, hthree first List.mem_cons_self]
  have hne : ¬ atoms.map (·.1) = [] := by simpa using hatoms
  have hshape : ¬ (rows ≠ [] ∧ rows.length ≠ 3) := fun h => h.2 hlength
  have hnil : ¬ rows = [] := by
    rintro rfl
    cases hlength
  have hnormalized : (atoms.map (·.1)).mapM a.normalizeElement = .ok ((atoms.map (·.1)).map id) := by
    refine mapM_ok fun symbol hsymbol => ?_
    obtain ⟨atom,hatom,rfl⟩ := List.mem_map.mp hsymbol
    exact (hknown atom hatom).1
  have hall : ¬ ((atoms.map (·.1)).all a.isSymbol = false ∨ rows.any (·.length ≠ 3) = true) := by
    rw [not_or, Bool.not_eq_false, List.all_eq_true]
    refine ⟨fun symbol hsymbol => ?_,by simpa using hthree⟩
    obtain ⟨atom,hatom,rfl⟩ := List.mem_map.mp hsymbol
    exact (hknown atom hatom).2
  unfold Ambient.fragmentAtoms
  rw [List.map_id] at hnormalized
  simp only [hrows, hsymbols, hcoords, hnormalized, raiseIf_neg hrectangular, raiseIf_neg hne,
    raiseIf_neg hshape,
    raiseIf_neg hnil, raiseIf_neg hall, bind, Except.bind]
  simp only [pure, Except.pure, List.map_map, List.zipWith_map, List.zipWith_self]
  rfl

end Reading

section Decks
variable {a : Ambient} (d : Deck a.isSymbol)

/-- What the numbers of the deck are taken for: vectors in Å, and positions along them. -/
def Deck.taken : Atoms :=
  ⟨d.atoms.map fun r => ⟨r.species.text,Matrix.vecMul (coordinates r) d.printedCell⟩,d.printedCell,
    fun _ => true⟩

/-- The lines that are taken for more atoms. -/
def Deck.extraWords : List (List Text) :=
  if d.beforeMesh = some .positions then d.meshWords.filter (4 ≤ ·.length) else []

theorem Deck.words_mesh : (d.meshLines.map strip).map words = d.meshWords := by
  rw [List.map_map, Deck.meshLines, List.map_cons, Deck.meshWords]
  simp only [Function.comp, words_strip, Deck.rows, List.map_map]
  refine congrArg (words (d.title .kPoints) :: ·) (List.map_congr_left fun r _ => ?_)
  exact (words_strip r.line.text).trans r.wellFormed.words_text

theorem Deck.words_kept {h : Heading} {k : CardName} (hk : heading k = some h) :
    (d.kept h k).map words = (d.rows k).map (·.words) := by
  rw [Deck.kept, if_pos hk, List.map_map]
  refine List.map_congr_left fun l hl => ?_
  rw [Function.comp, words_strip, (d.rows_wellFormed k l hl).words_text]

/-- The lines of the atoms, and those of `K_POINTS` that are long enough. -/
theorem Deck.positionWords_fold :
    positionWords (d.kept .positions .positions ++ d.meshKept .positions (d.beforeMesh.bind heading)) =
      d.atoms.map (fun r => r.line.words) ++ d.extraWords := by
  have hatoms : (d.atoms.map fun r => r.line.words).filter (4 ≤ ·.length) =
      d.atoms.map fun r => r.line.words := by
    refine List.filter_eq_self.mpr fun ws hws => ?_
    obtain ⟨r,-,rfl⟩ := List.mem_map.mp hws
    simp [Line.words, AtomRow.line]
  have hmesh : ((d.meshKept .positions (d.beforeMesh.bind heading)).map words).filter (4 ≤ ·.length) =
      d.extraWords := by
    rw [Deck.meshKept, Deck.extraWords]
    by_cases hbefore : d.beforeMesh = some .positions
    · rw [if_pos (by rw [hbefore]; rfl), if_pos hbefore, d.words_mesh]
    · have hclosed : ¬ d.beforeMesh.bind heading = some .positions := by
        intro hopen
        obtain ⟨last,hlast,hheading⟩ := Option.bind_eq_some_iff.mp hopen
        exact hbefore (by rw [hlast, heading_inj (k := .positions) rfl hheading])
      rw [if_neg hclosed, if_neg hbefore]
      rfl
  have hrows : (d.rows .positions).map (·.words) = d.atoms.map fun r => r.line.words := by
    rw [Deck.rows, List.map_map]
    rfl
  rw [positionWords, List.map_append, List.filter_append, hmesh, d.words_kept rfl, hrows, hatoms]

theorem toVector_three (x y z : ℚ) : toVector [x,y,z] = ![x,y,z] := by
  funext i
  fin_cases i <;> rfl

theorem Deck.toMatrix_vectors :
    toMatrix (d.vectors.map fun r => [r.x.value,r.y.value,r.z.value]) = d.printedCell := by
  ext i j
  fin_cases i <;> fin_cases j <;> rfl

theorem float_numeral (n : Numeral) : a.float n.text = .ok n.value := by
  rw [Ambient.float, readFloat_numeral]

/-- The three rows of the cell come first. -/
theorem Deck.read_rows (more : List Text) :
    ((d.kept .cell .cell ++ more).take 3).mapM (fun line => ((words line).take 3).mapM a.float) =
      .ok (d.vectors.map fun r => [r.x.value,r.y.value,r.z.value]) := by
  have hkept : (d.kept .cell .cell ++ more).take 3 = d.vectors.map fun r => strip r.line.text := rfl
  rw [hkept, List.mapM_map]
  refine mapM_ok fun r _ => ?_
  have hwords : words (strip r.line.text) = [r.x.text,r.y.text,r.z.text] :=
    (words_strip r.line.text).trans (Qe.cellRow_wellFormed r).words_text
  have hread : ([r.x.text,r.y.text,r.z.text].take 3).mapM a.float = .ok [r.x.value,r.y.value,r.z.value] := by
    simp [float_numeral, pure, Except.pure, bind, Except.bind]
  rw [Function.comp, hwords, hread]

/-- Without more atoms the numbers are taken as they are printed. -/
theorem Deck.parseQeInput_taken (hextra : d.extraWords = [])
    (hmasses : d.beforeMesh = some .species → MassesRead a.unicode (words (d.title .kPoints))) :
    a.parseQeInput d.text = .ok d.taken := by
  obtain ⟨current,kept,hfold⟩ := d.fold_reads a hmasses
  have hwords := d.positionWords_fold
  rw [hextra, List.append_nil] at hwords
  let atoms := d.atoms.map fun r => (r.species.text,[r.x.value,r.y.value,r.z.value])
  have hknown : ∀ atom ∈ atoms, a.normalizeElement atom.1 = .ok atom.1 ∧ a.isSymbol atom.1 = true := by
    refine List.forall_mem_map.mpr fun r hr => ?_
    exact ⟨normalizeElement_species a (d.elements r hr),(d.elements r hr).2.2⟩
  have hcoords : (d.atoms.map fun r => r.line.words).mapM (fun ws => ((ws.drop 1).take 3).mapM a.float) =
      .ok (atoms.map (·.2)) := by
    rw [List.mapM_map, List.map_map]
    refine mapM_ok fun r _ => ?_
    simp [Line.words, AtomRow.line, float_numeral, pure, Except.pure, bind, Except.bind]
  let s : Fragment := ⟨current,d.kept .cell .cell ++ d.meshKept .cell (d.beforeMesh.bind heading),
    d.kept .positions .positions ++ d.meshKept .positions (d.beforeMesh.bind heading),kept⟩
  have hatoms := fragmentAtoms_eq a s atoms (d.read_rows _) rfl (by simp [Deck.vectors])
    (by simpa [atoms] using d.atoms_ne)
    (by rw [hwords]; simp [atoms, Line.words, AtomRow.line]) (by rw [hwords]; exact hcoords) hknown
  rw [Ambient.parseQeInput, d.splitLines_text, hfold]
  refine hatoms.trans ?_
  rw [d.toMatrix_vectors]
  simp [Deck.taken, atoms, toVector_three, coordinates]

theorem Deck.extraWords_eq_nil : d.extraWords = [] ↔
    (d.beforeMesh = some .positions → ∀ ws ∈ d.meshWords, ws.length < 4) := by
  unfold Deck.extraWords
  split_ifs with hbefore
  · simp [hbefore, List.filter_eq_nil_iff]
  · simp [hbefore]

/-- The numbers of the deck are those of Å, and `K_POINTS` is passed over. -/
structure Deck.Readable : Prop where
  /-- The vectors are in Å, or vanish. -/
  cell : d.cellScale = 1 ∨ d.printedCell = 0
  /-- The positions are along the vectors, or their numbers give the same places either way. -/
  places : d.positionUnit = .crystal ∨
    ∀ r ∈ d.atoms, Matrix.vecMul (coordinates r) d.printedCell = d.place r
  /-- No line of `K_POINTS` is as long as that of an atom, if it comes after the atoms. -/
  afterPositions : d.beforeMesh = some .positions → ∀ ws ∈ d.meshWords, ws.length < 4
  /-- The title of `K_POINTS` is not read as a species, if it comes after the species. -/
  afterSpecies : d.beforeMesh = some .species → MassesRead a.unicode (words (d.title .kPoints))

theorem smul_eq_self {x : ℚ} {m : CellMatrix} : x • m = m ↔ x = 1 ∨ m = 0 := by
  constructor
  · intro h
    have hdiff : (x - 1) • m = 0 := by rw [sub_smul, one_smul, h, sub_self]
    exact (smul_eq_zero.mp hdiff).imp_left sub_eq_zero.mp
  · rintro (rfl | rfl)
    · exact one_smul ℚ m
    · exact smul_zero x

theorem Deck.taken_eq_denoted : d.taken = d.denoted ↔ (d.cellScale = 1 ∨ d.printedCell = 0) ∧
    (d.positionUnit = .crystal ∨ ∀ r ∈ d.atoms, Matrix.vecMul (coordinates r) d.printedCell = d.place r) := by
  have hcell : d.printedCell = d.cell ↔ d.cellScale = 1 ∨ d.printedCell = 0 := by
    rw [eq_comm, Deck.cell, smul_eq_self]
  rw [← hcell, Deck.taken, Deck.denoted, Atoms.mk.injEq]
  constructor
  · rintro ⟨hsites,hcell,-⟩
    refine ⟨hcell,.inr fun r hr => ?_⟩
    have hsite := List.map_inj_left.mp hsites r hr
    exact (Site.mk.inj hsite).2
  · rintro ⟨hcell,hplaces⟩
    refine ⟨List.map_congr_left fun r hr => ?_,hcell,rfl⟩
    obtain hcrystal | hplaces := hplaces
    · rw [Deck.place, hcrystal, ← hcell]
    · rw [hplaces r hr]

/-- The structure of the deck is returned just where its numbers are taken for what they are. -/
theorem Deck.parseQeInput_iff : a.parseQeInput d.text = .ok d.denoted ↔ d.Readable := by
  constructor
  · intro h
    have hmasses : d.beforeMesh = some .species → MassesRead a.unicode (words (d.title .kPoints)) := by
      intro hbefore
      by_contra hmasses
      obtain ⟨e,he⟩ := d.fold_fails a hbefore hmasses
      rw [Ambient.parseQeInput, d.splitLines_text, he] at h
      cases h
    have hextra : d.extraWords = [] := by
      obtain ⟨current,kept,hfold⟩ := d.fold_reads a hmasses
      rw [Ambient.parseQeInput, d.splitLines_text, hfold] at h
      have hlength := length_of_fragmentAtoms a h
      rw [d.positionWords_fold, Deck.denoted, List.length_append, List.length_map, List.length_map] at hlength
      exact List.eq_nil_of_length_eq_zero (by omega)
    have htaken : d.taken = d.denoted := Except.ok.inj ((d.parseQeInput_taken hextra hmasses).symm.trans h)
    obtain ⟨hcell,hplaces⟩ := d.taken_eq_denoted.mp htaken
    exact ⟨hcell,hplaces,d.extraWords_eq_nil.mp hextra,hmasses⟩
  · intro h
    rw [d.parseQeInput_taken (d.extraWords_eq_nil.mpr h.afterPositions) h.afterSpecies]
    exact congrArg Except.ok (d.taken_eq_denoted.mpr ⟨h.cell,h.places⟩)

end Decks

section Silicon

local instance tenDigits : NeZero 10 := ⟨Nat.succ_ne_zero 9⟩

theorem single_ne_nil (d : Digit) : [d] ≠ [] := List.cons_ne_nil _ _

/-- A number with one digit before the point. -/
def pointed (whole : Digit) (fraction : List Digit) : Numeral :=
    ⟨false,⟨[whole],some fraction,single_ne_nil whole⟩,none⟩

def digitNumeral (d : Digit) : Numeral := ⟨false,⟨[d],none,single_ne_nil d⟩,none⟩

theorem silicon_first : 'S'.isAlpha = true := rfl

theorem silicon_second : ∀ c ∈ some 'i', c.isAlpha = true := by
  intro c hc
  rw [← Option.some.inj hc]
  rfl

def siliconSpecies : Species := ⟨'S',some 'i',silicon_first,silicon_second⟩

def siliconAtom (x : Numeral) : AtomRow := ⟨0,siliconSpecies,0,x,0,x,0,x,[],0⟩

/-- The table of the elements with silicon. -/
def siliconTable : Ambient where
  unicode := {}
  isSymbol symbol := symbol = "Si".toList
  repr := String.ofList
  noFloat := String.ofList
  noArray := ""
  noAtoms := ""

def inParentheses : Brackets where
  opening := [' ','(']
  closing := [')']
  opening_ne := List.cons_ne_nil _ _
  opening_form := List.forall_mem_cons.mpr ⟨.inl rfl,List.forall_mem_singleton.mpr (.inr (.inl rfl))⟩
  closing_form := List.forall_mem_singleton.mpr ⟨rfl,rfl⟩

/-- Silicon with its vectors in Bohr, without namelists. -/
def siliconInBohr : Deck siliconTable.isSymbol where
  namelists := ⟨[],none,[],nofun⟩
  order := [.species,.positions,.cell,.kPoints]
  species := [⟨0,siliconSpecies,0,⟨false,⟨[2,8],some [0,8,6],List.cons_ne_nil _ _⟩,
    none⟩,0,"Si_r.upf".toList,0,
    isWordText_of_all (List.cons_ne_nil _ _) rfl⟩]
  positionsBrackets := inParentheses
  positionUnit := .crystal
  atoms := [siliconAtom (pointed 0 [0]),siliconAtom (pointed 0 [2,5])]
  cellBrackets := inParentheses
  cellUnit := .bohr
  a₁ := ⟨0,pointed 5 [4,3],0,pointed 0 [0],0,pointed 0 [0],0⟩
  a₂ := ⟨0,pointed 2 [7,1,5],0,pointed 4 [6,9,7],0,pointed 0 [0],0⟩
  a₃ := ⟨0,pointed 2 [7,1,5],0,pointed 2 [3,4,8,5],0,pointed 4 [2,8,8],0⟩
  meshMode := " automatic".toList
  mesh := [⟨0,digitNumeral 4,[(0,digitNumeral 4),(0,digitNumeral 4),(0,digitNumeral 1),(0,digitNumeral 1),
    (0,digitNumeral 1)],0⟩]
  gap _ := []
  order_perm := .refl _
  atoms_ne := List.cons_ne_nil _ _
  elements := by
    have hsilicon : IsElement siliconTable.isSymbol siliconSpecies :=
      ⟨rfl,fun _ hc => by rw [← Option.some.inj hc]; rfl,rfl⟩
    exact List.forall_mem_cons.mpr ⟨hsilicon,List.forall_mem_singleton.mpr hsilicon⟩
  mode_unbroken := unbroken_of_all rfl
  alat_cell := nofun
  alat_positions := nofun

/-- The vectors are taken for vectors in Å, and the cell for one of nearly seven times its size. -/
theorem siliconInBohr_misread : siliconInBohr.text = ("ATOMIC_SPECIES\nSi 28.086 Si_r.upf\n" ++
      "ATOMIC_POSITIONS (crystal)\nSi 0.0 0.0 0.0\nSi 0.25 0.25 0.25\n" ++
      "CELL_PARAMETERS (bohr)\n5.43 0.0 0.0\n2.715 4.697 0.0\n2.715 2.3485 4.288\n" ++
      "K_POINTS automatic\n4 4 4 1 1 1\n").toList ∧
    siliconTable.parseQeInput siliconInBohr.text = .ok siliconInBohr.taken ∧
    siliconInBohr.taken.cell 0 0 = 543 / 100 ∧
    siliconInBohr.denoted.cell 0 0 = 543 / 100 * bohrLength ∧
    siliconTable.parseQeInput siliconInBohr.text ≠ .ok siliconInBohr.denoted := by
  have htaken : siliconTable.parseQeInput siliconInBohr.text = .ok siliconInBohr.taken :=
    siliconInBohr.parseQeInput_taken rfl nofun
  have hread : siliconInBohr.taken.cell 0 0 = 543 / 100 := by decide +kernel
  have hdenoted : siliconInBohr.denoted.cell 0 0 = 543 / 100 * bohrLength := by decide +kernel
  refine ⟨by decide +kernel,htaken,hread,hdenoted,fun h => ?_⟩
  rw [htaken] at h
  have hcell := congrArg (fun x : Atoms => x.cell 0 0) (Except.ok.inj h)
  simp only [hread, hdenoted, bohrLength] at hcell
  norm_num at hcell

end Silicon
end DftForge.Structure
