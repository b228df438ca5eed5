import DftForge.Hpc.ScriptTemplate

/-! # The rows of a template

A template is a first line, rows that are directives of the scheduler or plain text, and the run
command. When is the rendered text the template with the values filled in, without the directives
that have no value?
-/
namespace DftForge.Hpc
open DftForge.Runtime DftForge.Python

/-- A row of a template; a directive has its value at the end. -/
inductive Row where
  | directive (front : Text) (value : List Piece)
  | plain (pieces : List Piece)
  deriving DecidableEq

namespace Row

def pieces : Row → List Piece
  | .directive front value => .text front :: value
  | .plain pieces => pieces

section Filled
variable (v : Text → Option Text)

/-- The row in the script, with its break. -/
def text (row : Row) : Text := fill v row.pieces ++ ['\n']

/-- Nothing but blanks where the value of a directive should stand. -/
def emptied : Row → Bool
  | .directive _ value => (fill v value).all fun c => isSpace c && !isLineBreak c
  | .plain _ => false

end Filled

/-- The line is the directive of the row with no value. -/
def bare (line : Text) : Row → Bool
  | .directive front _ => strip line = strip front
  | .plain _ => false

/-- The directive of the row with no value is one that is taken out. -/
def removable : Row → Bool
  | .directive front _ => isEmptyDirective front
  | .plain _ => false

/-- The row is plain, or its directive is a comment on one line. -/
def marked : Row → Bool
  | .directive front _ => front.head? = some '#' && front.all fun c => !isLineBreak c
  | .plain _ => true

end Row

/-- The first line. -/
def shebang : Row := .plain [.text ['#','!','/','b','i','n','/','b','a','s','h']]

/-- The last row. -/
def commandRow : Row := .plain [.hole "run_command".toList]

structure Template where
  body : List Row
  marked : ∀ row ∈ body, row.marked = true

namespace Template
variable (v : Text → Option Text) (t : Template)

def rows : List Row := shebang :: (t.body ++ [commandRow])

def pieces : List Piece := t.rows.flatMap fun row => row.pieces ++ [.text ['\n']]

/-- The rows that are to be written: all but the directives that have no value. -/
def written : List Row := t.rows.filter fun row => !row.emptied v

/-- These rows with their values. -/
def script : Text := (t.written v).flatMap (Row.text v)

/-- The line is a directive of the template with no value. -/
def isBare (line : Text) : Bool := t.rows.any (Row.bare line)

/-- The row is written as it stands: its breaks are those of a script, and none of its lines is
a directive with no value. -/
def Clean (row : Row) : Prop :=
  (∀ c ∈ row.text v, isLineBreak c = true → c = '\n') ∧
    ∀ line ∈ splitLines (row.text v), isEmptyDirective line = false ∧ t.isBare line = false

def isClean (row : Row) : Bool :=
  ((row.text v).all fun c => !isLineBreak c || c = '\n') &&
    (splitLines (row.text v)).all fun line => !isEmptyDirective line && !t.isBare line

theorem isClean_iff (row : Row) : t.isClean v row = true ↔ t.Clean v row := by
  rw [isClean,Clean,Bool.and_eq_true,List.all_eq_true,List.all_eq_true]
  refine and_congr (forall₂_congr fun c _ => ?_) (forall₂_congr fun line _ => ?_)
  · cases isLineBreak c <;> simp
  · cases isEmptyDirective line <;> cases t.isBare line <;> decide

instance (row : Row) : Decidable (t.Clean v row) := decidable_of_iff _ (t.isClean_iff v row)

/-- The row has no value, and is taken out. -/
def Dropped (row : Row) : Prop := row.emptied v = true ∧ isEmptyDirective (row.text v) = true

/-- The values fit the template. -/
structure Fits : Prop where
  rows : ∀ row ∈ t.rows, t.Clean v row ∨ Dropped v row
  ends : ∃ c, (fill v commandRow.pieces).getLast? = some c ∧ isSpace c = false

end Template

section Filtering
variable {v : Text → Option Text} {t : Template} {row : Row} {line : Text}

theorem fill_template : fill v t.pieces = t.rows.flatMap (Row.text v) := by
  rw [Template.pieces,fill,List.flatMap_assoc]
  congr 1
  funext row
  rw [List.flatMap_append]
  rfl

theorem splitLines_rows (rows : List Row) :
    splitLines (rows.flatMap (Row.text v)) = rows.flatMap fun row => splitLines (row.text v) := by
  induction rows with
  | nil => rfl
  | cons row rows ih =>
    rw [List.flatMap_cons,List.flatMap_cons,← ih,Row.text,List.append_assoc,List.singleton_append,
      splitLines_append]

/-- The lines that are kept. -/
def keptLines (v : Text → Option Text) (rows : List Row) : List Text :=
  (rows.flatMap fun row => splitLines (row.text v)).filter fun line => !isEmptyDirective line

theorem written_eq : withoutEmptyDirectives (fill v t.pieces) =
    strip (List.intercalate ['\n'] (keptLines v t.rows)) ++ ['\n'] := by
  rw [withoutEmptyDirectives,fill_template,splitLines_rows,keptLines]

theorem isEmptyDirective_congr {l l' : Text} (h : strip l = strip l') :
    isEmptyDirective l = isEmptyDirective l' := by rw [isEmptyDirective,h,isEmptyDirective]

theorem bare_congr {l l' : Text} (h : strip l = strip l') (row : Row) : row.bare l = row.bare l' := by
  cases row with
  | directive front value => rw [Row.bare,h,Row.bare]
  | plain pieces => rfl

theorem isBare_congr {l l' : Text} (h : strip l = strip l') : t.isBare l = t.isBare l' := by
  have heq : Row.bare l = Row.bare l' := funext (bare_congr h)
  rw [Template.isBare,heq,Template.isBare]

theorem shebang_text : shebang.text v = "#!/bin/bash\n".toList := rfl

theorem shebang_lines : splitLines (shebang.text v) = [['#','!','/','b','i','n','/','b','a','s','h']] := by
  rw [shebang_text]
  decide

theorem keptLines_shebang : keptLines v t.rows =
    ['#','!','/','b','i','n','/','b','a','s','h'] :: keptLines v (t.body ++ [commandRow]) := by
  rw [Template.rows,keptLines,List.flatMap_cons,shebang_lines,List.filter_append]
  have hkept : isEmptyDirective ['#','!','/','b','i','n','/','b','a','s','h'] = false := by decide +kernel
  simp [hkept,keptLines]

/-- A row with no value is one line, and this line is bare. -/
theorem emptied_text (hrow : row ∈ t.rows) (h : row.emptied v = true) : ∃ line,
    row.text v = line ++ ['\n'] ∧ splitLines (row.text v) = [line] ∧ t.isBare line = true ∧
      line.head? = some '#' := by
  cases row with
  | plain pieces => cases h
  | directive front value =>
    have hmem : Row.directive front value ∈ t.body := by
      simpa [Template.rows,shebang,commandRow] using hrow
    have hmarked := t.marked _ hmem
    rw [Row.marked,Bool.and_eq_true,decide_eq_true_eq,List.all_eq_true] at hmarked
    obtain ⟨hhead,hfront⟩ := hmarked
    rw [Row.emptied,List.all_eq_true] at h
    have hblank : ∀ c ∈ fill v value, isSpace c = true ∧ isLineBreak c = false := fun c hc => by
      simpa using h c hc
    have hline : ∀ c ∈ front ++ fill v value, isLineBreak c = false :=
      List.forall_mem_append.mpr ⟨fun c hc => by simpa using hfront c hc,fun c hc => (hblank c hc).2⟩
    refine ⟨front ++ fill v value,rfl,?_,?_,?_⟩
    · exact splitLines_line hline
    · refine List.any_eq_true.mpr ⟨_,hrow,decide_eq_true ?_⟩
      exact strip_append_spaces (fun c hc => (hblank c hc).1) front
    · rw [List.head?_append,hhead,Option.some_or]

theorem keptLines_no_break (rows : List Row) : ∀ l ∈ keptLines v rows, ∀ c ∈ l, isLineBreak c = false := by
  intro l hl
  obtain ⟨row,-,hrow⟩ := List.mem_flatMap.mp (List.mem_filter.mp hl).1
  exact splitLines_no_break _ l hrow

/-- The kept lines begin with the first line, so that nothing is stripped in front. -/
theorem written_joined : ∃ joined : Text,
    joined ++ ['\n'] = (keptLines v t.rows).flatMap (fun l => l ++ ['\n']) ∧
      withoutEmptyDirectives (fill v t.pieces) = rstrip joined ++ ['\n'] := by
  refine ⟨List.intercalate ['\n'] (keptLines v t.rows),?_,?_⟩
  · exact intercalate_newline (by rw [keptLines_shebang]; exact List.cons_ne_nil _ _)
  · rw [written_eq,strip_eq]
    congr 2
    rw [keptLines_shebang]
    cases keptLines v (t.body ++ [commandRow]) with
    | nil => rfl
    | cons l rest =>
      rw [List.intercalate_cons_cons]
      rfl

theorem dropped_iff : Template.Dropped v row ↔ row.emptied v = true ∧ row.removable = true := by
  refine and_congr_right fun h => ?_
  cases row with
  | plain pieces => cases h
  | directive front value =>
    rw [Row.emptied,List.all_eq_true] at h
    have hblank : ∀ c ∈ fill v value ++ ['\n'], isSpace c = true := by
      refine List.forall_mem_append.mpr ⟨fun c hc => ?_,List.forall_mem_singleton.mpr rfl⟩
      exact (Bool.and_eq_true_iff.mp (h c hc)).1
    have hstrip : strip (front ++ (fill v value ++ ['\n'])) = strip front := strip_append_spaces hblank front
    have htext : (Row.directive front value).text v = front ++ (fill v value ++ ['\n']) :=
      List.append_assoc _ _ _
    rw [htext,isEmptyDirective_congr hstrip,Row.removable]

end Filtering

section Sufficient
variable {v : Text → Option Text} {t : Template} {row : Row}

theorem not_emptied_of_clean (hrow : row ∈ t.rows) (h : t.Clean v row) : row.emptied v = false := by
  rw [← Bool.not_eq_true]
  intro hempty
  obtain ⟨line,-,hlines,hbare,-⟩ := emptied_text hrow hempty
  have hline := (h.2 line (by rw [hlines]; exact List.mem_singleton_self _)).2
  rw [hbare] at hline
  cases hline

theorem dropped_lines (hrow : row ∈ t.rows) (h : Template.Dropped v row) :
    ((splitLines (row.text v)).filter fun line => !isEmptyDirective line) = [] := by
  obtain ⟨hempty,hdirective⟩ := h
  obtain ⟨line,htext,hlines,-,-⟩ := emptied_text hrow hempty
  have hspace : ∀ c ∈ ['\n'], isSpace c = true := List.forall_mem_singleton.mpr rfl
  have hline : isEmptyDirective line = true := by
    rw [← hdirective,htext]
    exact isEmptyDirective_congr (strip_append_spaces hspace line).symm
  rw [hlines,List.filter_singleton,hline]
  rfl

/-- Where all rows without a value are taken out, the lines that are kept are lines of the others. -/
theorem keptLines_of_dropped {rows : List Row} (hrows : ∀ row ∈ rows, row ∈ t.rows)
    (h : ∀ row ∈ rows, row.emptied v = true → Template.Dropped v row) :
    keptLines v rows = ((rows.filter fun row => !row.emptied v).flatMap fun row =>
      splitLines (row.text v)).filter fun line => !isEmptyDirective line := by
  induction rows with
  | nil => rfl
  | cons row rows ih =>
    rw [List.forall_mem_cons] at h hrows
    have hrest := ih hrows.2 h.2
    rw [keptLines,List.flatMap_cons,List.filter_append,← keptLines,hrest,List.filter_cons]
    cases hempty : row.emptied v with
    | true =>
      rw [dropped_lines hrows.1 (h.1 hempty)]
      rfl
    | false =>
      rw [Bool.not_false,if_pos rfl,List.flatMap_cons,List.filter_append]

theorem keptLines_written (h : ∀ row ∈ t.rows, row.emptied v = true → Template.Dropped v row) :
    keptLines v t.rows = ((t.written v).flatMap fun row => splitLines (row.text v)).filter
      fun line => !isEmptyDirective line := keptLines_of_dropped (fun _ hrow => hrow) h

theorem joined_kept {rows : List Row} (h : ∀ row ∈ rows, ∀ c ∈ row.text v, isLineBreak c = true → c = '\n') :
    ((rows.flatMap fun row => splitLines (row.text v)).flatMap fun l => l ++ ['\n']) =
      rows.flatMap (Row.text v) := by
  rw [List.flatMap_assoc]
  exact List.flatMap_congr fun row hrow =>
    splitLines_joined fun c hc => h row hrow c (List.mem_append_left _ hc)

theorem emptied_command : commandRow.emptied v = false := rfl

/-- The script ends with the run command. -/
theorem script_command :
    ∃ front : Text, t.script v = front ++ ['\n'] ++ (fill v commandRow.pieces ++ ['\n']) := by
  have hlast : t.script v =
      ((shebang :: t.body).filter fun row => !row.emptied v).flatMap (Row.text v) ++ commandRow.text v := by
    rw [Template.script,Template.written,Template.rows,← List.cons_append,List.filter_append,
      List.flatMap_append,List.filter_singleton,emptied_command]
    simp
  have hfirst : (shebang :: t.body).filter (fun row => !row.emptied v) =
      shebang :: t.body.filter (fun row => !row.emptied v) := rfl
  have hne : (shebang :: t.body).filter (fun row => !row.emptied v) ≠ [] := by
    rw [hfirst]
    exact List.cons_ne_nil _ _
  obtain ⟨rows,row,hrows⟩ := (List.eq_nil_or_concat' _).resolve_left hne
  refine ⟨rows.flatMap (Row.text v) ++ fill v row.pieces,?_⟩
  rw [hlast,hrows,List.flatMap_append,List.flatMap_singleton,Row.text,Row.text]
  simp

theorem written_of_fits (h : t.Fits v) : withoutEmptyDirectives (fill v t.pieces) = t.script v ∧
    ∀ line ∈ splitLines (withoutEmptyDirectives (fill v t.pieces)),
      isEmptyDirective line = false ∧ t.isBare line = false := by
  obtain ⟨joined,hjoined,hwritten⟩ := written_joined (v := v) (t := t)
  have hclean : ∀ row ∈ t.written v, t.Clean v row := by
    intro row hrow
    obtain ⟨hmem,hkept⟩ := List.mem_filter.mp hrow
    refine (h.rows row hmem).resolve_right fun hdropped => ?_
    rw [hdropped.1] at hkept
    cases hkept
  have hdropped : ∀ row ∈ t.rows, row.emptied v = true → Template.Dropped v row := by
    intro row hrow hempty
    refine (h.rows row hrow).resolve_left fun hclean => ?_
    rw [not_emptied_of_clean hrow hclean] at hempty
    cases hempty
  have hall : (((t.written v).flatMap fun row => splitLines (row.text v)).filter fun line =>
      !isEmptyDirective line) = (t.written v).flatMap fun row => splitLines (row.text v) := by
    refine List.filter_eq_self.mpr fun line hline => ?_
    obtain ⟨row,hrow,hmem⟩ := List.mem_flatMap.mp hline
    rw [((hclean row hrow).2 line hmem).1]
    rfl
  have hscript : joined ++ ['\n'] = t.script v := by
    rw [hjoined,keptLines_written hdropped,hall]
    exact joined_kept fun row hrow => (hclean row hrow).1
  have hends : rstrip joined = joined := by
    obtain ⟨front,hfront⟩ := script_command (v := v) (t := t)
    rw [← hscript,← List.append_assoc] at hfront
    have hcommand := List.append_cancel_right hfront
    obtain ⟨c,hc,hspace⟩ := h.ends
    refine rstrip_eq_self fun d hd => ?_
    rw [hcommand,List.getLast?_append,hc] at hd
    obtain rfl := Option.some.inj hd
    exact hspace
  have htext : withoutEmptyDirectives (fill v t.pieces) = t.script v := by
    rw [hwritten,hends,hscript]
  refine ⟨htext,fun line hline => ?_⟩
  rw [htext,Template.script,splitLines_rows] at hline
  obtain ⟨row,hrow,hmem⟩ := List.mem_flatMap.mp hline
  exact (hclean row hrow).2 line hmem

end Sufficient

section Necessary
variable {v : Text → Option Text} {t : Template} {row : Row}

/-- After a line there is white space only, or more that is not. -/
theorem after_line {lines : List Text} {joined front line : Text}
    (h : joined ++ ['\n'] = front ++ (line ++ ['\n'] ++ lines.flatMap fun l => l ++ ['\n'])) :
    ∃ s : Text, joined = front ++ (line ++ s) ∧
      ((∀ c ∈ s, isSpace c = true) ∨ ∃ m, s = '\n' :: m ∧ rstrip m ≠ []) := by
  obtain rfl | ⟨before,last,rfl⟩ := List.eq_nil_or_concat' lines
  · refine ⟨[],?_,.inl fun c hc => absurd hc List.not_mem_nil⟩
    rw [List.flatMap_nil,List.append_nil,← List.append_assoc] at h
    rw [List.append_nil]
    exact List.append_cancel_right h
  · have hsplit : joined ++ ['\n'] =
        front ++ (line ++ '\n' :: (before.flatMap (fun l => l ++ ['\n']) ++ last)) ++ ['\n'] := by
      rw [h,List.flatMap_append,List.flatMap_singleton]
      simp
    refine ⟨'\n' :: (before.flatMap (fun l => l ++ ['\n']) ++ last),List.append_cancel_right hsplit,?_⟩
    by_cases hrest : rstrip (before.flatMap (fun l => l ++ ['\n']) ++ last) = []
    · exact .inl (List.forall_mem_cons.mpr ⟨rfl,rstrip_eq_nil_iff.mp hrest⟩)
    · exact .inr ⟨_,rfl,hrest⟩

/-- A kept line that is not blank is a line of the text, but for white space at its end. -/
theorem line_of_kept {lines : List Text} {joined : Text}
    (hjoined : joined ++ ['\n'] = lines.flatMap fun l => l ++ ['\n'])
    (hlines : ∀ l ∈ lines, ∀ c ∈ l, isLineBreak c = false) {line : Text} (hline : line ∈ lines)
    (hne : rstrip line ≠ []) : ∃ l ∈ splitLines (rstrip joined ++ ['\n']), strip l = strip line := by
  obtain ⟨before,after,rfl⟩ := List.append_of_mem hline
  have hbefore : ∀ l ∈ before, ∀ c ∈ l, isLineBreak c = false := fun l hl =>
    hlines l (List.mem_append_left _ hl)
  have hunbroken : ∀ c ∈ line, isLineBreak c = false :=
    hlines line (List.mem_append_right _ List.mem_cons_self)
  rw [List.flatMap_append,List.flatMap_cons] at hjoined
  obtain ⟨s,rfl,hspaces | ⟨m,rfl,hm⟩⟩ := after_line hjoined
  · have hstrip : rstrip (line ++ s) = rstrip line := rstrip_spaces hspaces line
    obtain ⟨w,-,hw⟩ := rstrip_prefix line
    have hleft : ∀ c ∈ rstrip line, isLineBreak c = false := fun c hc =>
      hunbroken c (by rw [hw]; exact List.mem_append_left _ hc)
    refine ⟨rstrip line,?_,strip_rstrip line⟩
    rw [rstrip_append (by rwa [hstrip]),hstrip,List.append_assoc,splitLines_lines hbefore,
      splitLines_line hleft]
    exact List.mem_append_right _ List.mem_cons_self
  · have hstrip : rstrip (line ++ '\n' :: m) = line ++ '\n' :: rstrip m := by
      have h := rstrip_append hm (line ++ ['\n'])
      rwa [List.append_assoc,List.append_assoc,List.singleton_append,List.singleton_append] at h
    refine ⟨line,?_,rfl⟩
    rw [rstrip_append (by rw [hstrip]; simp),hstrip,List.append_assoc,splitLines_lines hbefore,
      List.append_assoc,List.cons_append,splitLines_line hunbroken]
    exact List.mem_append_right _ List.mem_cons_self

/-- A filter that leaves out no character leaves out no line. -/
theorem kept_of_length {lines : List Text} {p : Text → Bool}
    (h : (lines.flatMap fun l => l ++ ['\n']).length ≤
      ((lines.filter p).flatMap fun l => l ++ ['\n']).length) :
    ∀ l ∈ lines, p l = true := by
  induction lines with
  | nil => exact fun l hl => absurd hl List.not_mem_nil
  | cons l lines ih =>
    have hle (ls : List Text) : ((ls.filter p).flatMap fun l => l ++ ['\n']).length ≤
        (ls.flatMap fun l => l ++ ['\n']).length := (List.filter_sublist.flatMap _).length_le
    have hrest := hle lines
    by_cases hl : p l = true
    · rw [List.filter_cons_of_pos hl] at h
      simp only [List.flatMap_cons,List.length_append] at h
      exact List.forall_mem_cons.mpr ⟨hl,ih (by omega)⟩
    · rw [List.filter_cons_of_neg hl] at h
      simp only [List.flatMap_cons,List.length_append,List.length_singleton] at h
      omega

/-- The only breaks of the rendered text are those between its lines. -/
theorem break_of_written {c : Char} (hc : c ∈ withoutEmptyDirectives (fill v t.pieces))
    (hbreak : isLineBreak c = true) : c = '\n' := by
  obtain ⟨joined,hjoined,hwritten⟩ := written_joined (v := v) (t := t)
  have hmem : c ∈ joined ++ ['\n'] := by
    rw [hwritten] at hc
    obtain ⟨w,-,hw⟩ := rstrip_prefix joined
    refine (List.mem_append.mp hc).elim (fun h => ?_) (List.mem_append_right _)
    exact List.mem_append_left _ (by rw [hw]; exact List.mem_append_left _ h)
  rw [hjoined] at hmem
  obtain ⟨l,hl,hcl⟩ := List.mem_flatMap.mp hmem
  refine (List.mem_append.mp hcl).elim (fun h => ?_) List.mem_singleton.mp
  rw [keptLines_no_break _ l hl c h] at hbreak
  cases hbreak

/-- A row without a value that is not taken out leaves a bare line. -/
theorem dropped_of_written
    (hbare : ∀ line ∈ splitLines (withoutEmptyDirectives (fill v t.pieces)), t.isBare line = false)
    (hrow : row ∈ t.rows) (hempty : row.emptied v = true) : Template.Dropped v row := by
  obtain ⟨joined,hjoined,hwritten⟩ := written_joined (v := v) (t := t)
  obtain ⟨line,hline,hlines,hisBare,hhead⟩ := emptied_text hrow hempty
  have hspace : ∀ c ∈ ['\n'], isSpace c = true := List.forall_mem_singleton.mpr rfl
  have hdirective : isEmptyDirective (row.text v) = isEmptyDirective line := by
    rw [hline]
    exact isEmptyDirective_congr (strip_append_spaces hspace line)
  refine ⟨hempty,?_⟩
  rw [hdirective]
  by_contra hkept
  have hmem : line ∈ keptLines v t.rows := by
    refine List.mem_filter.mpr ⟨List.mem_flatMap.mpr ⟨row,hrow,?_⟩,?_⟩
    · rw [hlines]
      exact List.mem_singleton_self _
    · rw [Bool.eq_false_of_not_eq_true hkept]
      rfl
  have hne : rstrip line ≠ [] := by
    intro hnil
    have hmark := rstrip_eq_nil_iff.mp hnil '#' (List.mem_of_head? hhead)
    cases hmark
  obtain ⟨l,hl,hstrip⟩ := line_of_kept hjoined (keptLines_no_break _) hmem hne
  have hfalse := hbare l (by rw [hwritten]; exact hl)
  rw [isBare_congr hstrip,hisBare] at hfalse
  cases hfalse

theorem fits_of_written (htext : withoutEmptyDirectives (fill v t.pieces) = t.script v)
    (hbare : ∀ line ∈ splitLines (withoutEmptyDirectives (fill v t.pieces)), t.isBare line = false) :
    t.Fits v := by
  obtain ⟨joined,hjoined,hwritten⟩ := written_joined (v := v) (t := t)
  have hscript : rstrip joined ++ ['\n'] = t.script v := by rw [← hwritten,htext]
  have hdropped : ∀ row ∈ t.rows, row.emptied v = true → Template.Dropped v row :=
    fun row hrow => dropped_of_written hbare hrow
  have hbreaks : ∀ row ∈ t.written v, ∀ c ∈ row.text v, isLineBreak c = true → c = '\n' := by
    intro row hrow c hc
    refine break_of_written (v := v) (t := t) ?_
    rw [htext]
    exact List.mem_flatMap.mpr ⟨row,hrow,hc⟩
  -- a line that is taken out makes the text shorter than the script
  have hok : ∀ line ∈ (t.written v).flatMap fun row => splitLines (row.text v),
      (!isEmptyDirective line) = true := by
    refine kept_of_length ?_
    have hlength : ((t.written v).flatMap fun row => splitLines (row.text v)).flatMap (fun l => l ++ ['\n']) =
        t.script v := joined_kept hbreaks
    rw [hlength,← keptLines_written hdropped,← hjoined,← hscript,List.length_append,
      List.length_append]
    exact Nat.add_le_add_right (length_rstrip_le joined) _
  refine ⟨fun row hrow => ?_,?_⟩
  · cases hempty : row.emptied v with
    | true => exact .inr (hdropped row hrow hempty)
    | false =>
      have hkept : row ∈ t.written v := List.mem_filter.mpr ⟨hrow,by rw [hempty]; rfl⟩
      refine .inl ⟨hbreaks row hkept,fun line hline => ?_⟩
      have hstands : line ∈ (t.written v).flatMap fun row => splitLines (row.text v) :=
        List.mem_flatMap.mpr ⟨row,hkept,hline⟩
      refine ⟨by simpa using hok line hstands,hbare line ?_⟩
      rw [htext,Template.script,splitLines_rows]
      exact hstands
  · obtain ⟨front,hfront⟩ := script_command (v := v) (t := t)
    rw [← hscript,← List.append_assoc] at hfront
    have hcommand := List.append_cancel_right hfront
    have hlast := getLast?_rstrip joined
    rw [hcommand] at hlast
    cases hc : (fill v commandRow.pieces).getLast? with
    | none =>
      rw [List.getLast?_eq_none_iff.mp hc,List.append_nil,List.getLast?_concat] at hlast
      cases hlast '\n' rfl
    | some c =>
      rw [List.getLast?_append,hc] at hlast
      exact ⟨c,rfl,hlast c rfl⟩

/-- The rendered text is the script, with no directive that has no value, exactly for values that
fit the template. -/
theorem written_iff : (withoutEmptyDirectives (fill v t.pieces) = t.script v ∧
    ∀ line ∈ splitLines (withoutEmptyDirectives (fill v t.pieces)),
      isEmptyDirective line = false ∧ t.isBare line = false) ↔ t.Fits v :=
  ⟨fun h => fits_of_written h.1 fun line hline => (h.2 line hline).2,written_of_fits⟩

end Necessary
end DftForge.Hpc
