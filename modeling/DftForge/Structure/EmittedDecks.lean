import DftForge.Compiler.SamePhysics
import DftForge.Structure.DeckRoundTrip

/-! # The inputs that the compiler writes

The text of `compile_t1` and of `compile_scf` for a structure without a Bravais lattice is a
deck, in units of the lattice parameter and along the vectors. It denotes the structure up to
the printed digits, and is read with the lattice parameter for 1 Å.
-/
namespace DftForge.Structure
open DftForge.Library DftForge.Runtime DftForge.Python DftForge.Compiler
open DftForge.Compiler.QECompiler (T1Args ScfArgs)
open DftForge.Catalog (bohrPerAng)
open DftForge.Qe (CellRow AtomRow Species PositionUnit)

section Joined

/-- Lines joined by breaks, where the last is empty. -/
theorem intercalate_append_nil (lines : List Text) :
    List.intercalate ['\n'] (lines ++ [[]]) = breakText lines := by
  induction lines with
  | nil => rfl
  | cons l lines ih =>
    rw [breakText, List.flatMap_cons, ← breakText, ← ih]
    cases lines with
    | nil => simp [List.intercalate]
    | cons l' lines => simp [List.intercalate]

theorem content_toList {i : Input} {lines : List Text}
    (h : (i.namelists.flatMap Namelist.lines ++ i.cards.flatMap Card.lines).map String.toList =
      lines ++ [[]]) :
    i.content.toList = breakText lines := by
  rw [Input.content, String.toList_intercalate, h]
  exact intercalate_append_nil lines

theorem exists_forall₂ {α β : Type} {R : α → β → Prop} (xs : List α) (h : ∀ x ∈ xs, ∃ y, R x y) :
    ∃ ys, List.Forall₂ R xs ys := by
  induction xs with
  | nil => exact ⟨[],.nil⟩
  | cons x xs ih =>
    rw [List.forall_mem_cons] at h
    obtain ⟨y,hy⟩ := h.1
    obtain ⟨ys,hys⟩ := ih h.2
    exact ⟨y :: ys,.cons hy hys⟩

theorem map_eq_of_forall₂ {α β γ : Type} {R : α → β → Prop} {f : α → γ} {g : β → γ}
    {xs : List α} {ys : List β}
    (h : List.Forall₂ R xs ys) (hR : ∀ x y, R x y → f x = g y) : xs.map f = ys.map g := by
  induction h with
  | nil => rfl
  | cons hxy _ ih => rw [List.map_cons, List.map_cons, hR _ _ hxy, ih]

theorem forall_of_forall₂ {α β : Type} {R : α → β → Prop} {p : β → Prop} {xs : List α} {ys : List β}
    (h : List.Forall₂ R xs ys) (hR : ∀ x y, R x y → p y) : ∀ y ∈ ys, p y := by
  induction h with
  | nil => exact nofun
  | cons hxy _ ih => exact List.forall_mem_cons.mpr ⟨hR _ _ hxy,ih⟩

end Joined

section Namelists

/-- The names that the compiler gives to entries. -/
def entryNames : List String := ["calculation","prefix","outdir","pseudo_dir","nstep","forc_conv_thr","ibrav",
  "nat","ntyp","ecutwfc","ecutrho","occupations","smearing","degauss","input_dft","conv_thr","mixing_beta",
  "ion_dynamics","cell_dynamics","press","press_conv_thr","restart_mode","nbnd"]

def cardTitles : List String := ["CELL_PARAMETERS","ATOMIC_POSITIONS","ATOMIC_SPECIES"]

/-- No name of an entry starts as a title does, nor a title as a name. -/
theorem entryNames_untitled : ∀ name ∈ entryNames, ∀ title ∈ cardTitles,
    ¬ title.toList <+: upper name.toList ∧ ¬ upper name.toList <+: title.toList := by
  decide +kernel

theorem entryNames_other : ∀ name ∈ entryNames,
    ¬ "celldm(1)".toList <+: name.toList ∧ ¬ name.toList <+: "celldm(1)".toList := by
  decide +kernel

theorem entryNames_word : ∀ name ∈ entryNames, name.toList ≠ [] ∧
    name.toList.all (fun c => !isSpace c) = true ∧
    name.toList.all (fun c => !isLineBreak c) = true := by
  decide +kernel

theorem not_prefix_of_prefix {s t u : Text} (hs : s <+: u) (hst : ¬ t <+: s ∧ ¬ s <+: t) : ¬ t <+: u :=
  fun ht => (List.prefix_or_prefix_of_prefix hs ht).elim hst.2 hst.1

/-- Lines of the namelists that print a list of lines. -/
def PrintsLines (ls : List NamelistLine) (lines : List String) : Prop :=
  ls.map (·.text) = lines.map String.toList

theorem exists_entryLine {name value : String} (hname : name ∈ entryNames) (hvalue : Unbroken value.toList) :
    ∃ l : NamelistLine, l.text = ("  " ++ name ++ " = " ++ value).toList := by
  obtain ⟨hne,hsolid,hunbroken⟩ := entryNames_word name hname
  have htext : ("  " ++ name ++ " = " ++ value).toList =
      ' ' :: ' ' :: (name.toList ++ (" = ".toList ++ value.toList)) := by
    simp
  have hstrip : name.toList <+: strip ("  " ++ name ++ " = " ++ value).toList := by
    rw [htext]
    exact prefix_strip (isWordText_of_all hne hsolid) _
  refine ⟨⟨("  " ++ name ++ " = " ++ value).toList,?_,fun title htitle => ?_,?_⟩,rfl⟩
  · rw [htext]
    refine List.forall_mem_cons.mpr ⟨rfl,List.forall_mem_cons.mpr ⟨rfl,?_⟩⟩
    exact List.forall_mem_append.mpr ⟨unbroken_of_all hunbroken,
      List.forall_mem_append.mpr ⟨unbroken_of_all rfl,hvalue⟩⟩
  · exact not_prefix_of_prefix (upper_mono hstrip) (entryNames_untitled name hname title htitle)
  · exact not_prefix_of_prefix hstrip (entryNames_other name hname)

/-- The lines that do not depend on the input. -/
def fixedLines : List String := ["&CONTROL","&SYSTEM","&ELECTRONS","&IONS","&CELL","/",""]

theorem exists_fixedLine : ∀ line ∈ fixedLines, ∃ l : NamelistLine, l.text = line.toList := by
  have hfixed : ∀ line ∈ fixedLines, line.toList.all (fun c => !isLineBreak c) = true ∧
      (∀ title ∈ cardTitles, ¬ title.toList <+: upper (strip line.toList)) ∧
      ¬ "celldm(1)".toList <+: strip line.toList := by
    decide +kernel
  intro line hline
  obtain ⟨hunbroken,htitles,hother⟩ := hfixed line hline
  exact ⟨⟨line.toList,unbroken_of_all hunbroken,htitles,hother⟩,rfl⟩

theorem celldmLine_eq {celldm : Numeral} {text : String} (h : celldm.text = text.toList) :
    celldmLine celldm = ("  " ++ "celldm(1)" ++ " = " ++ text).toList := by
  rw [String.toList_append, ← h]
  rfl

/-- A list of entries that the compiler names and that stay on their lines. -/
def PlainEntries (entries : List (String × Compiler.Value)) : Prop :=
  ∀ e ∈ entries, e.1 ∈ entryNames ∧ Unbroken e.2.print.toList

theorem exists_lines (lines : List String) (h : ∀ line ∈ lines, ∃ l : NamelistLine, l.text = line.toList) :
    ∃ ls, PrintsLines ls lines := by
  obtain ⟨ls,hls⟩ := exists_forall₂ _ h
  exact ⟨ls,(map_eq_of_forall₂ hls fun _ _ h => h.symm).symm⟩

theorem exists_entryLines (entries : List (String × Compiler.Value)) (h : PlainEntries entries) :
    ∃ ls, PrintsLines ls (entries.map fun e => "  " ++ e.1 ++ " = " ++ e.2.print) :=
  exists_lines _ (List.forall_mem_map.mpr fun e he => exists_entryLine (h e he).1 (h e he).2)

theorem PrintsLines.append {ls ls' : List NamelistLine} {lines lines' : List String}
    (h : PrintsLines ls lines)
    (h' : PrintsLines ls' lines') : PrintsLines (ls ++ ls') (lines ++ lines') := by
  rw [PrintsLines, List.map_append, List.map_append, h, h']

/-- A namelist whose name is one of the five. -/
def PlainNamelist (n : Namelist) : Prop := "&" ++ n.name ∈ fixedLines ∧ PlainEntries n.entries

theorem exists_namelistLines {n : Namelist} (h : PlainNamelist n) : ∃ ls, PrintsLines ls n.lines := by
  obtain ⟨head,hhead⟩ := exists_lines ["&" ++ n.name]
    (List.forall_mem_singleton.mpr (exists_fixedLine _ h.1))
  obtain ⟨entries,hentries⟩ := exists_entryLines _ h.2
  obtain ⟨ending,hending⟩ := exists_lines ["/",""]
    fun line hline => exists_fixedLine line (by revert line; decide)
  exact ⟨head ++ (entries ++ ending),hhead.append (hentries.append hending)⟩

theorem exists_namelistsLines {ns : List Namelist} (h : ∀ n ∈ ns, PlainNamelist n) :
    ∃ ls, PrintsLines ls (ns.flatMap Namelist.lines) := by
  induction ns with
  | nil => exact ⟨[],rfl⟩
  | cons n ns ih =>
    rw [List.forall_mem_cons] at h
    obtain ⟨ls,hls⟩ := exists_namelistLines h.1
    obtain ⟨ls',hls'⟩ := ih h.2
    exact ⟨ls ++ ls',hls.append hls'⟩

end Namelists

section Shape
variable {F : Type} (c : QECompiler F)

/-- The rows of the positions, along the vectors. -/
def positionRows (atoms : Compiler.Atoms F) : List String :=
  (atoms.symbols.zip atoms.scaledPositions).map fun p => "  " ++ p.1 ++ "  " ++ c.vecText p.2

/-- The vectors in units of the lattice parameter. -/
def alatVectors (atoms : Compiler.Atoms F) (alat : F) : List (Vec F) :=
  let alatAng := c.f.div alat (c.f.lit bohrPerAng)
  atoms.cell.map fun v => (c.f.div v.1 alatAng,c.f.div v.2.1 alatAng,c.f.div v.2.2 alatAng)

/-- The names of the entries of a list are those of the compiler. -/
def Named (entries : List (String × Compiler.Value)) : Prop := ∀ e ∈ entries, e.1 ∈ entryNames

/-- The shape of an input for a structure without a Bravais lattice. -/
structure Emitted (db : Profile F) (atoms : Compiler.Atoms F) (alat : F) (i : Input) : Prop where
  namelists : ∃ control wfc rho rest more, i.namelists = ⟨"CONTROL",control⟩ ::
    ⟨"SYSTEM",c.systemEntries db atoms alat wfc rho ++ rest⟩ :: more ∧ Named control ∧ Named rest ∧
    ∀ n ∈ more, "&" ++ n.name ∈ fixedLines ∧ Named n.entries
  cards : ∃ species mesh, i.cards = [⟨"ATOMIC_SPECIES",species⟩,
      ⟨"ATOMIC_POSITIONS (crystal)",positionRows c atoms⟩,
      ⟨"CELL_PARAMETERS (alat=1.0)",(alatVectors c atoms alat).map fun v => "  " ++ c.vecText v⟩,mesh] ∧
    (mesh.title = "K_POINTS automatic" ∨ mesh.title = "K_POINTS crystal")

variable {c} {material : String} {i : Input} {db : Profile F} {atoms : Compiler.Atoms F} {alat : F}

/-- Names that are written out. -/
theorem named_of_all {entries : List (String × Compiler.Value)}
    (h : (entries.map Prod.fst).all (· ∈ entryNames) = true) :
    Named entries := fun e he => by
  simpa using List.all_eq_true.mp h e.1 (List.mem_map_of_mem he)

theorem Named.append {entries entries' : List (String × Compiler.Value)} (h : Named entries) (h' : Named entries') :
    Named (entries ++ entries') := List.forall_mem_append.mpr ⟨h,h'⟩

theorem named_override (db : Profile F) : Named (QECompiler.overrideEntries db) := by
  unfold QECompiler.overrideEntries
  split
  · split_ifs
    · exact nofun
    · exact named_of_all rfl
  · exact nofun

theorem control_fixed : "&" ++ "CONTROL" ∈ fixedLines := by decide

theorem ibrav_named : "ibrav" ∈ entryNames := by decide

theorem electrons_fixed : "&" ++ "ELECTRONS" ∈ fixedLines := by decide

theorem ions_fixed : "&" ++ "IONS" ∈ fixedLines := by decide

theorem cell_fixed : "&" ++ "CELL" ∈ fixedLines := by decide

theorem compileT1_emitted {o : T1Args F} (h : c.compileT1 material o = some i)
    (hresolve : c.resolve material o.atoms = some (db,atoms,alat)) (hibrav : db.ibrav = 0) :
    Emitted c db atoms alat i := by
  simp only [QECompiler.compileT1, hresolve, Option.bind_eq_bind, Option.bind_some, Option.bind_eq_some_iff,
    Option.pure_def, Option.some.injEq] at h
  obtain ⟨wfc,-,rho,-,-,-,conv,-,species,-,row,-,rfl⟩ := h
  constructor
  · refine ⟨_,wfc,rho,QECompiler.overrideEntries db,_,rfl,named_of_all rfl,named_override db,?_⟩
    have hinner : ∀ n ∈ [Namelist.mk "ELECTRONS" [("conv_thr",.bare conv),("mixing_beta",.bare "0.7")],
        ⟨"IONS",[("ion_dynamics",.text "bfgs")]⟩], "&" ++ n.name ∈ fixedLines ∧ Named n.entries :=
      List.forall_mem_cons.mpr ⟨⟨electrons_fixed,named_of_all rfl⟩,
        List.forall_mem_singleton.mpr ⟨ions_fixed,named_of_all rfl⟩⟩
    refine List.forall_mem_append.mpr ⟨hinner,?_⟩
    split_ifs
    · exact List.forall_mem_singleton.mpr ⟨cell_fixed,named_of_all rfl⟩
    · exact List.forall_mem_nil _
  · refine ⟨species,⟨"K_POINTS automatic",[row]⟩,?_,.inl rfl⟩
    rw [if_pos hibrav]
    simp [positionRows, alatVectors]

theorem kpointsCard_title {o : ScfArgs F} {mesh : Card} (h : c.kpointsCard o db atoms = some mesh) :
    mesh.title = "K_POINTS automatic" ∨ mesh.title = "K_POINTS crystal" := by
  unfold QECompiler.kpointsCard at h
  split_ifs at h
  · obtain ⟨points,-,rfl⟩ := Option.map_eq_some_iff.mp h
    exact .inr rfl
  all_goals
    simp only [Option.bind_eq_bind, Option.bind_eq_some_iff, Option.pure_def, Option.some.injEq] at h
    obtain ⟨-,-,-,-,rfl⟩ := h
    exact .inl rfl

theorem compileScf_emitted {o : ScfArgs F} (h : c.compileScf material o = some i)
    (hresolve : c.resolve material o.atoms = some (db,atoms,alat)) (hibrav : db.ibrav = 0) :
    Emitted c db atoms alat i := by
  simp only [QECompiler.compileScf, hresolve, Option.bind_eq_bind, Option.bind_some, Option.bind_eq_some_iff,
    Option.pure_def, Option.some.injEq] at h
  obtain ⟨wfc,-,rho,-,-,-,nbnd,-,conv,-,species,-,mesh,hmesh,rfl⟩ := h
  constructor
  · refine ⟨_,wfc,rho,[("nbnd",.bare (c.shown nbnd))],_,rfl,
      Named.append (named_of_all rfl) ?_,named_of_all rfl,?_⟩
    · split_ifs
      · exact named_of_all rfl
      · exact List.forall_mem_nil _
    · exact List.forall_mem_singleton.mpr ⟨electrons_fixed,named_of_all rfl⟩
  · refine ⟨species,mesh,?_,kpointsCard_title hmesh⟩
    rw [if_pos hibrav]
    simp [positionRows, alatVectors]

end Shape

section Numbers
variable {F : Type} (value : F → ℚ)

/-- The number is the value, up to half a unit of the last decimal. -/
def Rounds (decimals : ℕ) (n : Numeral) (x : F) : Prop := |n.value - value x| ≤ 1 / (2 * 10 ^ decimals)

/-- Floating point numbers print as numbers in fixed format, rounded. -/
structure PrintsFixed (f : Qe.Floats F) : Prop where
  six : ∀ x, ∃ n : Numeral, n.text = (f.format ".6f" x).toList ∧ Rounds value 6 n x
  eight : ∀ x, ∃ n : Numeral, n.text = (f.format ".8f" x).toList ∧ Rounds value 8 n x

/-- The values are written on their lines, and the rows that come from outside are rows of a
species or of numbers. -/
structure Printable (i : Input) : Prop where
  values : ∀ n ∈ i.namelists, ∀ e ∈ n.entries, Unbroken e.2.print.toList
  species : ∀ card ∈ i.cards, card.title = "ATOMIC_SPECIES" →
    ∀ row ∈ card.rows, ∃ r : SpeciesRow, r.line.text = row.toList
  mesh : ∀ card ∈ i.cards, card.title = "K_POINTS automatic" ∨ card.title = "K_POINTS crystal" →
    ∀ row ∈ card.rows, ∃ r : MeshRow, r.line.text = row.toList

/-- A row of an atom prints its symbol and its position. -/
def PrintsAtom (p : String × Vec F) (r : AtomRow) : Prop := r.species.text = p.1.toList ∧
  Rounds value 8 r.x p.2.1 ∧ Rounds value 8 r.y p.2.2.1 ∧ Rounds value 8 r.z p.2.2.2

/-- A row of the cell prints a vector. -/
def PrintsVector (v : Vec F) (r : CellRow) : Prop :=
  Rounds value 8 r.x v.1 ∧ Rounds value 8 r.y v.2.1 ∧ Rounds value 8 r.z v.2.2

/-- The atoms and the vectors of a structure can be read in a deck. -/
structure Readable (c : QECompiler F) (isSymbol : Text → Bool) (atoms : Compiler.Atoms F) (alat : F)
    (celldm : Numeral) : Prop where
  symbols : ∀ s ∈ atoms.symbols, ∃ e : Species, IsElement isSymbol e ∧ e.text = s.toList
  atoms_ne : atoms.symbols.zip atoms.scaledPositions ≠ []
  cell : atoms.cell.length = 3
  celldm_text : celldm.text = (c.f.format ".6f" alat).toList
  celldm_pos : 0 < celldm.value

/-- The text is a deck that denotes the structure, up to the printed decimals. The importer takes its
vectors for vectors in Å: what it reads is the structure just where the lattice parameter is 1 Å, or the
vectors print as zero. -/
def ReadUnscaled (c : QECompiler F) (a : Ambient) (atoms : Compiler.Atoms F) (alat : F) (celldm : Numeral)
    (i : Input) : Prop :=
  ∃ d : Deck a.isSymbol, i.content.toList = d.text ∧
    List.Forall₂ (PrintsAtom value) (atoms.symbols.zip atoms.scaledPositions) d.atoms ∧
    List.Forall₂ (PrintsVector value) (alatVectors c atoms alat) d.vectors ∧
    d.denoted.cell = (celldm.value * bohrLength) • d.printedCell ∧
    a.parseQeInput i.content.toList = .ok d.taken ∧
    (a.parseQeInput i.content.toList = .ok d.denoted ↔ celldm.value * bohrLength = 1 ∨ d.printedCell = 0)

variable {value} {c : QECompiler F} (hprints : PrintsFixed value c.f)
include hprints

theorem exists_atomRow {isSymbol : Text → Bool} {p : String × Vec F}
    (hsymbol : ∃ s : Species, IsElement isSymbol s ∧ s.text = p.1.toList) :
    ∃ r : AtomRow, (PrintsAtom value p r ∧ IsElement isSymbol r.species) ∧
      r.line.text = ("  " ++ p.1 ++ "  " ++ c.vecText p.2).toList := by
  obtain ⟨s,hs,hsymbol⟩ := hsymbol
  obtain ⟨x,hx,hroundX⟩ := hprints.eight p.2.1
  obtain ⟨y,hy,hroundY⟩ := hprints.eight p.2.2.1
  obtain ⟨z,hz,hroundZ⟩ := hprints.eight p.2.2.2
  refine ⟨⟨2,s,1,x,1,y,1,z,[],0⟩,⟨⟨hsymbol,hroundX,hroundY,hroundZ⟩,hs⟩,?_⟩
  simp [AtomRow.line, Line.text, Line.body, Line.spaced, blanks, hsymbol, hx, hy, hz, QECompiler.vecText]

theorem exists_cellRow (v : Vec F) :
    ∃ r : CellRow, PrintsVector value v r ∧ r.line.text = ("  " ++ c.vecText v).toList := by
  obtain ⟨x,hx,hroundX⟩ := hprints.eight v.1
  obtain ⟨y,hy,hroundY⟩ := hprints.eight v.2.1
  obtain ⟨z,hz,hroundZ⟩ := hprints.eight v.2.2
  refine ⟨⟨2,x,1,y,1,z,0⟩,⟨hroundX,hroundY,hroundZ⟩,?_⟩
  simp [CellRow.line, Line.text, Line.body, Line.spaced, blanks, hx, hy, hz, QECompiler.vecText]

omit hprints in
/-- The lines of the namelists, with the one of the lattice parameter. -/
theorem exists_namelists {i : Input} {db : Profile F} {atoms : Compiler.Atoms F} {alat : F}
    (hi : Emitted c db atoms alat i) (hvalues : ∀ n ∈ i.namelists, ∀ e ∈ n.entries, Unbroken e.2.print.toList)
    {celldm : Numeral} (hcelldm : celldm.text = (c.f.format ".6f" alat).toList) (hpos : 0 < celldm.value) :
    ∃ ns : Namelists, ns.celldm = some celldm ∧
      (i.namelists.flatMap Namelist.lines).map String.toList = ns.lines := by
  obtain ⟨control,wfc,rho,rest,more,hlists,hcontrol,hrest,hmore⟩ := hi.namelists
  rw [hlists, List.forall_mem_cons, List.forall_mem_cons] at hvalues
  obtain ⟨hcontrolValues,hsystemValues,hmoreValues⟩ := hvalues
  have hsystem : c.systemEntries db atoms alat wfc rho ++ rest = ("ibrav",.bare (toString db.ibrav)) ::
      ("celldm(1)",.bare (c.f.format ".6f" alat)) ::
        ((c.systemEntries db atoms alat wfc rho).drop 2 ++ rest) := rfl
  rw [hsystem, List.forall_mem_cons, List.forall_mem_cons] at hsystemValues
  have htail : Named ((c.systemEntries db atoms alat wfc rho).drop 2 ++ rest) :=
    Named.append (named_of_all rfl) hrest
  obtain ⟨first,hfirst⟩ := exists_namelistLines (n := ⟨"CONTROL",control⟩)
    ⟨control_fixed,fun e he => ⟨hcontrol e he,hcontrolValues e he⟩⟩
  obtain ⟨head,hhead⟩ := exists_lines ["&SYSTEM"]
    (List.forall_mem_singleton.mpr (exists_fixedLine _ (by decide)))
  obtain ⟨ibrav,hibrav⟩ := exists_entryLines [("ibrav",.bare (toString db.ibrav))]
    (List.forall_mem_singleton.mpr ⟨ibrav_named,hsystemValues.1⟩)
  obtain ⟨tail,htail⟩ := exists_entryLines _ fun e he => ⟨htail e he,hsystemValues.2.2 e he⟩
  obtain ⟨ending,hending⟩ := exists_lines ["/",""]
    fun line hline => exists_fixedLine line (by revert line; decide)
  obtain ⟨others,hothers⟩ := exists_namelistsLines fun n hn =>
    ⟨(hmore n hn).1,fun e he => ⟨(hmore n hn).2 e he,hmoreValues n hn e he⟩⟩
  have hbefore := hfirst.append (hhead.append hibrav)
  have hafter := htail.append (hending.append hothers)
  have hline := celldmLine_eq hcelldm
  have hcelldmPos : ∀ n ∈ some celldm, 0 < n.value := by
    intro n hn
    rw [← Option.some.inj hn]
    exact hpos
  refine ⟨⟨first ++ (head ++ ibrav),some celldm,tail ++ (ending ++ others),hcelldmPos⟩,rfl,?_⟩
  rw [Namelists.lines, hbefore, hafter, hlists, hsystem, Option.map_some, hline]
  generalize (c.systemEntries db atoms alat wfc rho).drop 2 ++ rest = entries
  simp [Namelist.lines, Compiler.Value.print]

omit hprints in
/-- A card with an empty line after it. -/
theorem lines_eq (card : Card) (b : Block) (htitle : card.title.toList = b.title)
    (hrows : card.rows.map String.toList = b.rows.map Line.text) (hgap : b.gap = [0]) :
    card.lines.map String.toList = b.lines := by
  rw [Card.lines, Block.lines, List.map_append, List.map_cons, htitle, hrows, hgap]
  rfl

omit hprints in
/-- The last card, without the break after the empty line. -/
theorem lines_eq_last (card : Card) (b : Block) (htitle : card.title.toList = b.title)
    (hrows : card.rows.map String.toList = b.rows.map Line.text) (hgap : b.gap = []) :
    card.lines.map String.toList = b.lines ++ [[]] := by
  rw [Card.lines, Block.lines, List.map_append, List.map_cons, htitle, hrows, hgap]
  simp

omit hprints in
theorem exists_meshMode {title : String} (h : title = "K_POINTS automatic" ∨ title = "K_POINTS crystal") :
    ∃ mode, Unbroken mode ∧ title.toList = "K_POINTS".toList ++ mode := by
  obtain rfl | rfl := h
  · exact ⟨" automatic".toList,unbroken_of_all rfl,rfl⟩
  · exact ⟨" crystal".toList,unbroken_of_all rfl,rfl⟩

/-- `(alat=1.0)`. -/
def inAlat : Brackets where
  opening := [' ','(']
  closing := ['=','1','.','0',')']
  opening_ne := inParentheses.opening_ne
  opening_form := inParentheses.opening_form
  closing_form := List.forall_mem_cons.mpr ⟨⟨rfl,rfl⟩,
    List.forall_mem_cons.mpr ⟨⟨rfl,rfl⟩,List.forall_mem_cons.mpr
    ⟨⟨rfl,rfl⟩,List.forall_mem_cons.mpr ⟨⟨rfl,rfl⟩,List.forall_mem_singleton.mpr ⟨rfl,rfl⟩⟩⟩⟩⟩

/-- The text of an input for a structure without a Bravais lattice is a deck that denotes the
structure, up to the printed decimals. -/
theorem emitted_deck {isSymbol : Text → Bool} {i : Input} {db : Profile F} {atoms : Compiler.Atoms F}
    {alat : F}
    (hi : Emitted c db atoms alat i) (hprintable : Printable i)
    (hsymbols : ∀ s ∈ atoms.symbols, ∃ e : Species, IsElement isSymbol e ∧ e.text = s.toList)
    (hatoms : atoms.symbols.zip atoms.scaledPositions ≠ []) (hcell : atoms.cell.length = 3)
    {celldm : Numeral} (hcelldm : celldm.text = (c.f.format ".6f" alat).toList) (hpos : 0 < celldm.value) :
    ∃ d : Deck isSymbol, i.content.toList = d.text ∧ d.order = [.species,.positions,.cell,.kPoints] ∧
      d.positionUnit = .crystal ∧ d.cellUnit = .alat ∧ d.namelists.celldm = some celldm ∧
      List.Forall₂ (PrintsAtom value) (atoms.symbols.zip atoms.scaledPositions) d.atoms ∧
      List.Forall₂ (PrintsVector value) (alatVectors c atoms alat) d.vectors := by
  obtain ⟨species,mesh,hcards,hmesh⟩ := hi.cards
  obtain ⟨ns,hns,hlists⟩ := exists_namelists hi hprintable.values hcelldm hpos
  have hmem (card : Card) (h : card ∈ [⟨"ATOMIC_SPECIES",species⟩,
      ⟨"ATOMIC_POSITIONS (crystal)",positionRows c atoms⟩,
      ⟨"CELL_PARAMETERS (alat=1.0)",(alatVectors c atoms alat).map fun v => "  " ++ c.vecText v⟩,mesh]) :
      card ∈ i.cards := hcards ▸ h
  obtain ⟨speciesRows,hspecies⟩ := exists_forall₂ species
    (hprintable.species ⟨"ATOMIC_SPECIES",species⟩ (hmem _ (by simp)) rfl)
  obtain ⟨meshRows,hmeshRows⟩ := exists_forall₂ mesh.rows (hprintable.mesh mesh (hmem _ (by simp)) hmesh)
  obtain ⟨atomRows,hatomRows⟩ := exists_forall₂ (atoms.symbols.zip atoms.scaledPositions)
    fun p hp => exists_atomRow hprints (hsymbols p.1 (List.of_mem_zip hp).1)
  obtain ⟨cellRows,hcellRows⟩ := exists_forall₂ (alatVectors c atoms alat)
    fun v _ => exists_cellRow hprints v
  have hthree : cellRows.length = 3 := by rw [← hcellRows.length_eq, alatVectors, List.length_map, hcell]
  obtain ⟨a₁,a₂,a₃,rfl⟩ := List.length_eq_three.mp hthree
  obtain ⟨mode,hmode,htitle⟩ := exists_meshMode hmesh
  have hspeciesText : species.map String.toList = (speciesRows.map SpeciesRow.line).map Line.text := by
    rw [List.map_map]
    exact map_eq_of_forall₂ hspecies fun _ _ h => h.symm
  have hmeshText : mesh.rows.map String.toList = (meshRows.map MeshRow.line).map Line.text := by
    rw [List.map_map]
    exact map_eq_of_forall₂ hmeshRows fun _ _ h => h.symm
  have hatomText : (positionRows c atoms).map String.toList = (atomRows.map AtomRow.line).map Line.text := by
    rw [positionRows, List.map_map, List.map_map]
    exact map_eq_of_forall₂ hatomRows fun _ _ h => h.2.symm
  have hcellText : ((alatVectors c atoms alat).map fun v => "  " ++ c.vecText v).map String.toList =
      ([a₁,a₂,a₃].map CellRow.line).map Line.text := by
    rw [List.map_map, List.map_map]
    exact map_eq_of_forall₂ hcellRows fun _ _ h => h.2.symm
  have hne : atomRows ≠ [] := by
    rintro rfl
    exact hatoms (List.forall₂_nil_right_iff.mp hatomRows)
  have helements := forall_of_forall₂ hatomRows fun _ r h => h.1.2
  let d : Deck isSymbol := {
    namelists := ns
    order := [.species,.positions,.cell,.kPoints]
    species := speciesRows
    positionsBrackets := inParentheses
    positionUnit := .crystal
    atoms := atomRows
    cellBrackets := inAlat
    cellUnit := .alat
    a₁, a₂, a₃
    meshMode := mode
    mesh := meshRows
    gap := fun k => if k = .kPoints then [] else [0]
    order_perm := .refl _
    atoms_ne := hne
    elements := helements
    mode_unbroken := hmode
    alat_cell := fun _ => by rw [hns]; rfl
    alat_positions := fun h => by cases h }
  have hlines : (i.namelists.flatMap Namelist.lines ++ i.cards.flatMap Card.lines).map String.toList =
      d.lines ++ [[]] := by
    have hpositionsTitle : "ATOMIC_POSITIONS (crystal)".toList = d.title .positions := rfl
    have hcellTitle : "CELL_PARAMETERS (alat=1.0)".toList = d.title .cell := rfl
    have hspeciesLines := lines_eq ⟨"ATOMIC_SPECIES",species⟩ (d.block .species) rfl hspeciesText rfl
    have hatomLines := lines_eq ⟨"ATOMIC_POSITIONS (crystal)",positionRows c atoms⟩
      (d.block .positions) hpositionsTitle hatomText rfl
    have hcellLines := lines_eq ⟨"CELL_PARAMETERS (alat=1.0)",
      (alatVectors c atoms alat).map fun v => "  " ++ c.vecText v⟩ (d.block .cell) hcellTitle hcellText rfl
    have hmeshLines := lines_eq_last mesh (d.block .kPoints) htitle hmeshText rfl
    have hd : d.lines = ns.lines ++ ((d.block .species).lines ++ ((d.block .positions).lines ++
        ((d.block .cell).lines ++ ((d.block .kPoints).lines ++ [])))) := rfl
    rw [List.map_append, hlists, hcards, hd]
    simp only [List.flatMap_cons, List.flatMap_nil, List.map_append, hspeciesLines, hatomLines,
      hcellLines, hmeshLines, List.append_nil, List.append_assoc]
  refine ⟨d,content_toList hlines,rfl,rfl,rfl,hns,?_,?_⟩
  · exact hatomRows.imp fun _ _ h => h.1.1
  · exact hcellRows.imp fun _ _ h => h.1

section Importing
variable {a : Ambient} {i : Input} {db : Profile F} {atoms : Compiler.Atoms F} {alat : F} {celldm : Numeral}
  {material : String}

theorem emitted_read (hi : Emitted c db atoms alat i) (hprintable : Printable i)
    (hatoms : Readable c a.isSymbol atoms alat celldm) : ReadUnscaled value c a atoms alat celldm i := by
  obtain ⟨d,htext,horder,hpositions,hunit,hns,hatomRows,hcellRows⟩ :=
    emitted_deck hprints hi hprintable hatoms.symbols hatoms.atoms_ne hatoms.cell hatoms.celldm_text
      hatoms.celldm_pos
  have hbefore : d.beforeMesh = some .cell := by
    rw [Deck.beforeMesh, horder]
    rfl
  have hscale : d.cellScale = celldm.value * bohrLength := by
    rw [Deck.cellScale, hunit, Deck.lattice, hns]
    rfl
  have htaken : a.parseQeInput i.content.toList = .ok d.taken := by
    rw [htext]
    refine d.parseQeInput_taken (d.extraWords_eq_nil.mpr fun h => ?_) fun h => ?_
    · rw [hbefore] at h
      cases h
    · rw [hbefore] at h
      cases h
  refine ⟨d,htext,hatomRows,hcellRows,?_,htaken,?_⟩
  · rw [Deck.denoted, Deck.cell, hscale]
  · rw [htaken, Except.ok.injEq, d.taken_eq_denoted, hscale]
    exact and_iff_left (.inl hpositions)

/-- The importer on the inputs of relaxations. -/
theorem compileT1_read {o : T1Args F} (h : c.compileT1 material o = some i)
    (hresolve : c.resolve material o.atoms = some (db,atoms,alat)) (hibrav : db.ibrav = 0)
    (hprintable : Printable i) (hatoms : Readable c a.isSymbol atoms alat celldm) :
    ReadUnscaled value c a atoms alat celldm i :=
  emitted_read hprints (compileT1_emitted h hresolve hibrav) hprintable hatoms

/-- The importer on the inputs of scf and nscf calculations. -/
theorem compileScf_read {o : ScfArgs F} (h : c.compileScf material o = some i)
    (hresolve : c.resolve material o.atoms = some (db,atoms,alat)) (hibrav : db.ibrav = 0)
    (hprintable : Printable i) (hatoms : Readable c a.isSymbol atoms alat celldm) :
    ReadUnscaled value c a atoms alat celldm i :=
  emitted_read hprints (compileScf_emitted h hresolve hibrav) hprintable hatoms

end Importing
end Numbers
end DftForge.Structure
