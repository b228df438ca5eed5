import DftForge.Web.EnvLines
import DftForge.Library.Lookups

/-! # Settings after a restart

The value that a saved setting has when the file is read again. The first line that assigns
it decides, and an indented line is kept where the writer looks for the assignment.
-/
namespace DftForge.Web.EnvFile
open DftForge.Library DftForge.Library.Regex DftForge.Runtime DftForge.Python DftForge.Structure Re

def indented (line : Text) : Bool := line.head?.any isSpace

/-- What the reader makes of a value that the writer wrote. -/
def stored (v : Text) : Text := stripQuotes (strip v)

/-- The value that the lines give a key. -/
def setting (lines : List Text) (k : Text) : Option Text := (lines.filterMap readEntry).lookup k

/-- The line assigns the key. -/
def Assigns (k line : Text) : Prop := (readEntry line).map Prod.fst = some k

instance (k line : Text) : Decidable (Assigns k line) := inferInstanceAs (Decidable (_ = _))

section Lines
variable {k x v line : Text}

theorem keyOf_of_indented (h : indented line = true) : keyOf line = none := by
  by_contra hne
  obtain ⟨k,hk⟩ := Option.ne_none_iff_exists'.mp hne
  obtain ⟨w,t,rfl,hheader⟩ := header_of_keyOf hk
  obtain ⟨hhead,v,rfl⟩ := hheader.ends
  cases v with
  | nil => exact absurd h (by simp [indented,isSpace])
  | cons c v =>
    have hc : isSpace c = true := by simpa [indented] using h
    rw [hhead c rfl] at hc
    cases hc

theorem readEntry_of_keyOf (hline : Unbroken line) (h : keyOf line = some k) :
    ∃ x, readEntry line = some (k,x) := by
  obtain ⟨w,t,rfl,hheader⟩ := header_of_keyOf h
  exact ⟨_,readEntry_of_header hline (strip_header hheader) hheader⟩

theorem keyOf_of_readEntry (hline : Unbroken line) (hleft : indented line = false)
    (h : readEntry line = some (k,x)) : keyOf line = some k := by
  obtain ⟨w,t,hstrip,hheader,-⟩ := header_of_readEntry hline h
  have hdrop : line.dropWhile isSpace = line := by
    cases line with
    | nil => rfl
    | cons c line =>
      have hc : isSpace c = false := by simpa [indented] using hleft
      exact List.dropWhile_cons_of_neg (by rw [hc]; exact Bool.false_ne_true)
  obtain ⟨s,-,hs⟩ := rstrip_prefix line
  rw [strip_eq,hdrop] at hstrip
  rw [hstrip,List.append_assoc] at hs
  rw [hs]
  exact keyOf_append hheader _

theorem header_of_name (hk : IsName k) : Header (k ++ ['=']) k := ⟨[],[],.inl rfl,hk,List.forall_mem_nil _,rfl⟩

theorem entryText_eq (k v : Text) : entryText k v = (k ++ ['=']) ++ v := by
  rw [entryText,List.append_assoc,List.singleton_append]

theorem keyOf_entryText (hk : IsName k) (v : Text) : keyOf (entryText k v) = some k := by
  rw [entryText_eq]
  exact keyOf_append (header_of_name hk) v

theorem IsName.unbroken (hk : IsName k) : Unbroken k := by
  intro c hc
  rw [← Bool.not_eq_true]
  intro hbreak
  have hspace := isSpace_of_isLineBreak hbreak
  rw [isSpace_of_isWord (hk.all_isWord c hc)] at hspace
  cases hspace

theorem unbroken_entryText (hk : IsName k) (hv : Unbroken v) : Unbroken (entryText k v) := by
  intro c hc
  obtain hc | hc := List.mem_append.mp hc
  · exact hk.unbroken c hc
  · obtain rfl | hc := List.mem_cons.mp hc
    · decide
    · exact hv c hc

theorem readEntry_entryText (hk : IsName k) (hv : Unbroken v) :
    readEntry (entryText k v) = some (k,stored v) := by
  have hstrip : strip (entryText k v) = (k ++ ['=']) ++ rstrip v := by
    rw [entryText_eq]
    exact strip_header (header_of_name hk)
  rw [readEntry_of_header (unbroken_entryText hk hv) hstrip (header_of_name hk),strip_rstrip]
  rfl

end Lines

/-- Settings under distinct names. -/
structure Named (values : Settings) : Prop where
  names : ∀ kv ∈ values, IsName kv.1
  nodup : (values.map Prod.fst).Nodup

section Rewriting
variable {values : Settings} {lines : List Text} {line k v x : Text}

theorem rewrite_of_none (h : keyOf line = none) : rewrite values line = line := by rw [rewrite,h]

theorem rewrite_of_unsaved (h : keyOf line = some k) (hk : values.lookup k = none) :
    rewrite values line = line := by
  rw [rewrite,h]
  dsimp only
  rw [hk,Option.elim_none]

theorem rewrite_of_saved (h : keyOf line = some k) (hk : values.lookup k = some v) :
    rewrite values line = entryText k v := by
  rw [rewrite,h]
  dsimp only
  rw [hk,Option.elim_some]

/-- A line that is read under another key is read under another key afterwards. -/
theorem rewrite_cases (hv : ∀ kv ∈ values, IsName kv.1 ∧ Unbroken kv.2) (hline : Unbroken line) :
    (indented line = true ∧ rewrite values line = line) ∨
    (∃ k v, readEntry line = some (k,v) ∧ values.lookup k = none ∧ rewrite values line = line) ∨
    (∃ k x v, indented line = false ∧ readEntry line = some (k,x) ∧ values.lookup k = some v ∧
      readEntry (rewrite values line) = some (k,stored v)) ∨
    (readEntry line = none ∧ rewrite values line = line) := by
  cases hleft : indented line with
  | true => exact .inl ⟨rfl,rewrite_of_none (keyOf_of_indented hleft)⟩
  | false =>
    right
    cases hread : readEntry line with
    | none =>
      right
      right
      refine ⟨rfl,rewrite_of_none ?_⟩
      by_contra hne
      obtain ⟨k,hk⟩ := Option.ne_none_iff_exists'.mp hne
      obtain ⟨x,hx⟩ := readEntry_of_keyOf hline hk
      rw [hread] at hx
      cases hx
    | some e =>
      obtain ⟨k,x⟩ := e
      have hkey := keyOf_of_readEntry hline hleft hread
      cases hk : values.lookup k with
      | none => exact .inl ⟨k,x,rfl,hk,rewrite_of_unsaved hkey hk⟩
      | some v =>
        have hmem := hv _ (mem_of_lookup hk)
        refine .inr (.inl ⟨k,x,v,rfl,rfl,hk,?_⟩)
        rw [rewrite_of_saved hkey hk]
        exact readEntry_entryText hmem.1 hmem.2

theorem setting_cons_none (h : readEntry line = none) : setting (line :: lines) k = setting lines k := by
  rw [setting,List.filterMap_cons_none h,setting]

theorem setting_cons_self (h : readEntry line = some (k,x)) : setting (line :: lines) k = some x := by
  rw [setting,List.filterMap_cons_some h,List.lookup_cons_self]

theorem setting_cons_of_ne {k' : Text} (h : readEntry line = some (k',x)) (hne : k ≠ k') :
    setting (line :: lines) k = setting lines k := by
  rw [setting,List.filterMap_cons_some h,lookup_cons_of_ne hne,setting]

theorem not_assigns_of_none (h : readEntry line = none) : ¬Assigns k line := by
  rw [Assigns,h]
  exact nofun

theorem assigns_self (h : readEntry line = some (k,x)) : Assigns k line := by
  rw [Assigns,h]
  rfl

theorem not_assigns_of_ne {k' : Text} (h : readEntry line = some (k',x)) (hne : k ≠ k') :
    ¬Assigns k line := by
  rw [Assigns,h]
  exact fun heq => hne (Option.some.inj heq).symm

/-- What a line that assigns a saved key gives it afterwards. -/
def afterwards (v line : Text) : Text :=
  if indented line then ((readEntry line).map Prod.snd).getD [] else stored v

theorem setting_rewrite_saved (hv : ∀ kv ∈ values, IsName kv.1 ∧ Unbroken kv.2)
    (hk : values.lookup k = some v) (hlines : ∀ l ∈ lines, Unbroken l) :
    setting (lines.map (rewrite values)) k = (lines.find? fun l => Assigns k l).map (afterwards v) := by
  induction lines with
  | nil => rfl
  | cons line lines ih =>
    rw [List.forall_mem_cons] at hlines
    have hrest := ih hlines.2
    have hskip (h : ¬Assigns k line) : ((line :: lines).find? fun l => Assigns k l) =
        lines.find? fun l => Assigns k l := List.find?_cons_of_neg (by simpa using h)
    have hfirst (h : Assigns k line) : ((line :: lines).find? fun l => Assigns k l) = some line :=
      List.find?_cons_of_pos (by simpa using h)
    rw [List.map_cons]
    obtain ⟨hleft,hsame⟩ | ⟨k',x,hread,hnone,hsame⟩ | ⟨k',x,w,hleft,hread,hw,hnew⟩ | ⟨hread,hsame⟩ :=
      rewrite_cases hv hlines.1
    · rw [hsame]
      cases hread : readEntry line with
      | none => rw [setting_cons_none hread,hskip (not_assigns_of_none hread),hrest]
      | some e =>
        obtain ⟨k',x⟩ := e
        by_cases hne : k = k'
        · subst hne
          rw [setting_cons_self hread,hfirst (assigns_self hread),Option.map_some,afterwards,if_pos hleft,
            hread]
          rfl
        · rw [setting_cons_of_ne hread hne,hskip (not_assigns_of_ne hread hne),hrest]
    · have hne : k ≠ k' := by
        rintro rfl
        rw [hk] at hnone
        cases hnone
      rw [hsame,setting_cons_of_ne hread hne,hskip (not_assigns_of_ne hread hne),hrest]
    · by_cases hne : k = k'
      · subst hne
        obtain rfl := Option.some.inj (hk.symm.trans hw)
        rw [setting_cons_self hnew,hfirst (assigns_self hread),Option.map_some,afterwards,hleft]
        rfl
      · rw [setting_cons_of_ne hnew hne,hskip (not_assigns_of_ne hread hne),hrest]
    · rw [hsame,setting_cons_none hread,hskip (not_assigns_of_none hread),hrest]

theorem setting_rewrite_other (hv : ∀ kv ∈ values, IsName kv.1 ∧ Unbroken kv.2)
    (hk : values.lookup k = none) (hlines : ∀ l ∈ lines, Unbroken l) :
    setting (lines.map (rewrite values)) k = setting lines k := by
  induction lines with
  | nil => rfl
  | cons line lines ih =>
    rw [List.forall_mem_cons] at hlines
    have hrest := ih hlines.2
    rw [List.map_cons]
    have hkept (h : rewrite values line = line) :
        setting (rewrite values line :: lines.map (rewrite values)) k = setting (line :: lines) k := by
      rw [h,← List.singleton_append,← List.singleton_append (l := lines)]
      simp only [setting,List.filterMap_append,List.lookup_append]
      exact congrArg _ hrest
    obtain ⟨-,hsame⟩ | ⟨_,_,_,-,hsame⟩ | ⟨k',x,w,-,hread,hw,hnew⟩ | ⟨-,hsame⟩ := rewrite_cases hv hlines.1
    · exact hkept hsame
    · exact hkept hsame
    · have hne : k ≠ k' := by
        rintro rfl
        rw [hk] at hw
        cases hw
      rw [setting_cons_of_ne hnew hne,setting_cons_of_ne hread hne,hrest]
    · exact hkept hsame

/-- The line begins with an assignment that the writer sees. -/
def seen (lines : List Text) (k : Text) : Bool := lines.any fun line => keyOf line = some k

theorem setting_appended (hv : ∀ kv ∈ values, IsName kv.1 ∧ Unbroken kv.2) (lines : List Text) (k : Text) :
    setting ((values.filter fun kv => !seen lines kv.1).map fun kv => entryText kv.1 kv.2) k =
      if seen lines k then none else (values.lookup k).map stored := by
  have hread : ((values.filter fun kv => !seen lines kv.1).map fun kv => entryText kv.1 kv.2).filterMap
      readEntry = (values.filter fun kv => !seen lines kv.1).map fun kv => (kv.1,stored kv.2) := by
    rw [List.filterMap_map,← List.filterMap_eq_map]
    refine List.filterMap_congr fun kv hkv => ?_
    have hmem := hv kv (List.mem_filter.mp hkv).1
    exact readEntry_entryText hmem.1 hmem.2
  rw [setting,hread,lookup_map_snd,lookup_filter_key fun k => !seen lines k]
  cases seen lines k <;> rfl

theorem setting_rewritten (hv : ∀ kv ∈ values, IsName kv.1 ∧ Unbroken kv.2) (lines : List Text) (k : Text) :
    setting (rewritten values lines) k = (setting (lines.map (rewrite values)) k).or
      (if seen lines k then none else (values.lookup k).map stored) := by
  rw [← setting_appended hv,rewritten,setting,List.filterMap_append,List.lookup_append]
  rfl

theorem seen_iff (hlines : ∀ l ∈ lines, Unbroken l) :
    seen lines k = true → ∃ l ∈ lines, Assigns k l := by
  intro h
  obtain ⟨l,hl,hkey⟩ := List.any_eq_true.mp h
  obtain ⟨x,hx⟩ := readEntry_of_keyOf (hlines l hl) (of_decide_eq_true hkey)
  exact ⟨l,hl,assigns_self hx⟩

/-- A saved key afterwards: the first line that assigned it decides, if it is indented. -/
theorem setting_saved (hv : ∀ kv ∈ values, IsName kv.1 ∧ Unbroken kv.2) (hk : values.lookup k = some v)
    (hlines : ∀ l ∈ lines, Unbroken l) :
    setting (rewritten values lines) k =
      some ((lines.find? fun l => Assigns k l).elim (stored v) (afterwards v)) := by
  rw [setting_rewritten hv,setting_rewrite_saved hv hk hlines,hk]
  cases hfind : lines.find? fun l => Assigns k l with
  | some l => rfl
  | none =>
    have hunseen : seen lines k = false := by
      by_contra hseen
      obtain ⟨l,hl,hassigns⟩ := seen_iff hlines (Bool.eq_true_of_not_eq_false hseen)
      have hnot := List.find?_eq_none.mp hfind l hl
      exact hnot (decide_eq_true hassigns)
    rw [hunseen]
    rfl

theorem setting_other (hv : ∀ kv ∈ values, IsName kv.1 ∧ Unbroken kv.2) (hk : values.lookup k = none)
    (hlines : ∀ l ∈ lines, Unbroken l) : setting (rewritten values lines) k = setting lines k := by
  rw [setting_rewritten hv,setting_rewrite_other hv hk hlines,hk]
  simp

end Rewriting

section Loading
variable {entries env env' : Settings} {k x : Text}

/-- The entries that count have no null character. -/
def Loadable (env entries : Settings) : Prop :=
  ∀ k x, env.lookup k = none → entries.lookup k = some x → Char.ofNat 0 ∉ x

/-- A setting that is there already is not replaced, and the first new one counts. -/
theorem load_eq_some (h : entries.foldlM setDefault env = some env') :
    Loadable env entries ∧ ∀ k, env'.lookup k = (env.lookup k).or (entries.lookup k) := by
  induction entries generalizing env with
  | nil =>
    obtain rfl := Option.some.inj h
    refine ⟨fun _ _ _ hx => (nomatch hx),fun k => ?_⟩
    rw [List.lookup_nil,Option.or_none]
  | cons e entries ih =>
    obtain ⟨k',x'⟩ := e
    rw [List.foldlM_cons] at h
    by_cases hset : (env.lookup k').isSome
    · have hstep : setDefault env (k',x') = some env := if_pos hset
      rw [hstep] at h
      obtain ⟨hload,hlookup⟩ := ih h
      obtain ⟨y,hy⟩ := Option.isSome_iff_exists.mp hset
      constructor
      · intro k x hk hx
        have hne : k ≠ k' := by
          rintro rfl
          rw [hy] at hk
          cases hk
        rw [lookup_cons_of_ne hne] at hx
        exact hload k x hk hx
      · intro k
        rw [hlookup]
        by_cases hne : k = k'
        · rw [hne,hy,Option.some_or,Option.some_or]
        · rw [lookup_cons_of_ne hne]
    · have hnew : env.lookup k' = none := Option.not_isSome_iff_eq_none.mp hset
      by_cases hnull : Char.ofNat 0 ∈ x'
      · have hstep : setDefault env (k',x') = none := by
          rw [setDefault,if_neg hset,if_pos hnull]
        rw [hstep] at h
        cases h
      · have hstep : setDefault env (k',x') = some (env ++ [(k',x')]) := by
          rw [setDefault,if_neg hset,if_neg hnull]
        rw [hstep] at h
        obtain ⟨hload,hlookup⟩ := ih h
        constructor
        · intro k x hk hx
          by_cases hne : k = k'
          · subst hne
            rw [List.lookup_cons_self] at hx
            exact Option.some.inj hx ▸ hnull
          · rw [lookup_cons_of_ne hne] at hx
            refine hload k x ?_ hx
            rw [List.lookup_append,hk,Option.none_or,lookup_cons_of_ne hne]
            rfl
        · intro k
          rw [hlookup,List.lookup_append,Option.or_assoc]
          by_cases hne : k = k'
          · subst hne
            rw [List.lookup_cons_self,List.lookup_cons_self,Option.some_or]
          · rw [lookup_cons_of_ne hne,lookup_cons_of_ne hne,List.lookup_nil,Option.none_or]

theorem exists_load (h : Loadable env entries) : ∃ env', entries.foldlM setDefault env = some env' := by
  induction entries generalizing env with
  | nil => exact ⟨env,rfl⟩
  | cons e entries ih =>
    obtain ⟨k',x'⟩ := e
    rw [List.foldlM_cons]
    by_cases hset : (env.lookup k').isSome
    · have hstep : setDefault env (k',x') = some env := if_pos hset
      rw [hstep]
      refine ih fun k x hk hx => h k x hk ?_
      have hne : k ≠ k' := by
        rintro rfl
        rw [hk] at hset
        cases hset
      rwa [lookup_cons_of_ne hne]
    · have hnew : env.lookup k' = none := Option.not_isSome_iff_eq_none.mp hset
      have hnull : Char.ofNat 0 ∉ x' := h k' x' hnew List.lookup_cons_self
      have hstep : setDefault env (k',x') = some (env ++ [(k',x')]) := by
        rw [setDefault,if_neg hset,if_neg hnull]
      rw [hstep]
      refine ih fun k x hk hx => ?_
      rw [List.lookup_append,Option.or_eq_none_iff] at hk
      have hne : k ≠ k' := by
        rintro rfl
        rw [List.lookup_cons_self] at hk
        cases hk.2
      exact h k x hk.1 (by rwa [lookup_cons_of_ne hne])

end Loading

section Texts
variable {values : Settings} {lines : List Text} {line k v x : Text}

section Idempotent

theorem keyOf_rewrite (h : keyOf line = some k) (hnames : ∀ kv ∈ values, IsName kv.1) :
    keyOf (rewrite values line) = some k := by
  cases hk : values.lookup k with
  | none => rw [rewrite_of_unsaved h hk,h]
  | some v =>
    rw [rewrite_of_saved h hk]
    exact keyOf_entryText (hnames _ (mem_of_lookup hk)) v

theorem rewrite_entryText (hnamed : Named values) (kv : Text × Text) (hkv : kv ∈ values) :
    rewrite values (entryText kv.1 kv.2) = entryText kv.1 kv.2 :=
  rewrite_of_saved (keyOf_entryText (hnamed.names kv hkv) kv.2) (lookup_of_mem hnamed.nodup hkv)

theorem rewrite_rewrite (hnamed : Named values) (line : Text) :
    rewrite values (rewrite values line) = rewrite values line := by
  cases h : keyOf line with
  | none => rw [rewrite_of_none h,rewrite_of_none h]
  | some k =>
    cases hk : values.lookup k with
    | none => rw [rewrite_of_unsaved h hk,rewrite_of_unsaved h hk]
    | some v =>
      rw [rewrite_of_saved h hk]
      exact rewrite_entryText hnamed (k,v) (mem_of_lookup hk)

/-- After an update every saved key is seen. -/
theorem seen_rewritten (hnamed : Named values) (lines : List Text) {kv : Text × Text} (hkv : kv ∈ values) :
    seen (rewritten values lines) kv.1 = true := by
  rw [seen,rewritten,List.any_append,Bool.or_eq_true]
  cases hseen : seen lines kv.1 with
  | true =>
    left
    obtain ⟨l,hl,hkey⟩ := List.any_eq_true.mp hseen
    refine List.any_eq_true.mpr ⟨rewrite values l,List.mem_map_of_mem hl,?_⟩
    exact decide_eq_true (keyOf_rewrite (of_decide_eq_true hkey) hnamed.names)
  | false =>
    right
    have hmem : kv ∈ values.filter fun kv => !seen lines kv.1 := by
      rw [List.mem_filter,hseen]
      exact ⟨hkv,rfl⟩
    refine List.any_eq_true.mpr ⟨entryText kv.1 kv.2,List.mem_map_of_mem hmem,?_⟩
    exact decide_eq_true (keyOf_entryText (hnamed.names kv hkv) kv.2)

theorem rewritten_rewritten (hnamed : Named values) (lines : List Text) :
    rewritten values (rewritten values lines) = rewritten values lines := by
  have hsame : ∀ l ∈ rewritten values lines, rewrite values l = l := by
    rw [rewritten,List.forall_mem_append,List.forall_mem_map,List.forall_mem_map]
    exact ⟨fun line _ => rewrite_rewrite hnamed line,
      fun kv hkv => rewrite_entryText hnamed kv (List.mem_filter.mp hkv).1⟩
  have hall : (values.filter fun kv => !seen (rewritten values lines) kv.1) = [] := by
    rw [List.filter_eq_nil_iff]
    intro kv hkv
    rw [seen_rewritten hnamed lines hkv]
    exact Bool.false_ne_true
  calc rewritten values (rewritten values lines)
      = (rewritten values lines).map (rewrite values) ++
        (values.filter fun kv => !seen (rewritten values lines) kv.1).map fun kv => entryText kv.1 kv.2 := rfl
    _ = rewritten values lines := by
      rw [hall,List.map_nil,List.append_nil,List.map_congr_left hsame,List.map_id']

end Idempotent

theorem rewritten_ne_nil (hne : values ≠ []) (lines : List Text) : rewritten values lines ≠ [] := by
  cases lines with
  | cons line lines => exact List.cons_ne_nil _ _
  | nil =>
    obtain ⟨kv,rest,rfl⟩ := List.exists_cons_of_ne_nil hne
    exact List.cons_ne_nil _ _

theorem unbroken_rewritten (hv : ∀ kv ∈ values, IsName kv.1 ∧ Unbroken kv.2)
    (hlines : ∀ l ∈ lines, Unbroken l) : ∀ l ∈ rewritten values lines, Unbroken l := by
  rw [rewritten,List.forall_mem_append,List.forall_mem_map,List.forall_mem_map]
  constructor
  · intro line hline
    unfold rewrite
    cases keyOf line with
    | none => exact hlines line hline
    | some k =>
      dsimp only
      cases hk : values.lookup k with
      | none => exact hlines line hline
      | some v =>
        have hmem := hv _ (mem_of_lookup hk)
        exact unbroken_entryText hmem.1 hmem.2
  · intro kv hkv
    have hmem := hv kv (List.mem_filter.mp hkv).1
    exact unbroken_entryText hmem.1 hmem.2

/-- The lines of the new file are those that were written. -/
theorem splitLines_payload (hne : values ≠ []) (hv : ∀ kv ∈ values, IsName kv.1 ∧ Unbroken kv.2)
    (hlines : ∀ l ∈ lines, Unbroken l) :
    splitLines (['\n'].intercalate (rewritten values lines) ++ ['\n']) = rewritten values lines := by
  rw [intercalate_newline (rewritten_ne_nil hne lines)]
  exact splitLines_breakText (unbroken_rewritten hv hlines)

/-- What is read of a line stands in it. -/
theorem mem_of_readEntry (hline : Unbroken line) (h : readEntry line = some (k,x)) : ∀ c ∈ x, c ∈ line := by
  obtain ⟨w,t,hstrip,-,rfl⟩ := header_of_readEntry hline h
  have hdrop {p : Char → Bool} {t : Text} {c : Char} (hc : c ∈ t.dropWhile p) : c ∈ t :=
    (List.dropWhile_suffix p).subset hc
  have hrstrip {p : Char → Bool} {t : Text} {c : Char} (hc : c ∈ rstripOf p t) : c ∈ t :=
    List.mem_reverse.mp (hdrop (List.mem_reverse.mp hc))
  intro c hc
  have ht : c ∈ t := mem_of_mem_strip (hdrop (hrstrip hc))
  exact mem_of_mem_strip (by rw [hstrip]; exact List.mem_append_right w ht)

theorem unbroken_setting (hlines : ∀ l ∈ lines, Unbroken l) (h : setting lines k = some x) : Unbroken x := by
  obtain ⟨line,hline,hread⟩ := List.mem_filterMap.mp (mem_of_lookup h)
  exact fun c hc => hlines line hline c (mem_of_readEntry (hlines line hline) hread c hc)

end Texts

section Requests
variable {values : Settings} {key : String}

theorem isName_of_all {k : Text} (h : (k.head?.any isNameStart && k.all isWord) = true) : IsName k := by
  rw [Bool.and_eq_true,List.all_eq_true] at h
  cases k with
  | nil => exact absurd h.1 Bool.false_ne_true
  | cons c cs => exact ⟨c,cs,rfl,h.1,fun x hx => h.2 x (List.mem_cons_of_mem c hx)⟩

theorem named_of_sublist {keys : List Text} (hsub : (values.map Prod.fst).Sublist keys)
    (hnames : (keys.all fun k => k.head?.any isNameStart && k.all isWord) = true) (hnodup : keys.Nodup) :
    Named values :=
  ⟨fun _ hkv => isName_of_all (List.all_eq_true.mp hnames _ (hsub.subset (List.mem_map_of_mem hkv))),
    hsub.nodup hnodup⟩

theorem keys_given (key : String) (v : Option Text) : ((given key v).map Prod.fst).Sublist [key.toList] := by
  cases v with
  | none => exact List.nil_sublist _
  | some v => exact List.Sublist.refl _

def llmKeys : List Text :=
  ["DFT_FORGE_LLM_PROVIDER".toList] ++ ["DFT_FORGE_LLM_VENDOR".toList] ++ ["DFT_FORGE_LLM_BASE_URL".toList] ++
    ["DFT_FORGE_LLM_MODEL".toList] ++ ["DFT_FORGE_LLM_API_KEY".toList]

def computeKeys : List Text :=
  ["DFT_FORGE_EXECUTOR".toList,"DFT_FORGE_QE_BIN".toList,"DFT_FORGE_SSH_HOST".toList,
    "DFT_FORGE_SCHEDULER".toList,"DFT_FORGE_REMOTE_WORKDIR".toList,"DFT_FORGE_REMOTE_QE_BIN".toList,
    "DFT_FORGE_WALLTIME".toList] ++ ["DFT_FORGE_SSH_KEY".toList]

theorem Accepted.named (h : Accepted values) : Named values := by
  obtain ⟨-,⟨req,hreq⟩ | ⟨active,req,hreq⟩⟩ := h
  · refine @named_of_sublist values llmKeys ?_ (by decide +kernel) (by decide +kernel)
    unfold configUpdates at hreq
    split_ifs at hreq
    obtain rfl := Except.ok.inj hreq
    simp only [List.map_append]
    exact (((((keys_given _ _).append (keys_given _ _)).append (keys_given _ _)).append
      (keys_given _ _)).append (keys_given _ _))
  · refine @named_of_sublist values computeKeys ?_ (by decide +kernel) (by decide +kernel)
    unfold computeUpdates at hreq
    dsimp only at hreq
    split_ifs at hreq
    obtain rfl := Except.ok.inj hreq
    rw [List.map_append]
    exact (List.Sublist.refl _).append (keys_given _ _)

end Requests

section Restart

/-- The lines of the file, none if there is no file. -/
def linesOf (file : Option Text) : List Text := file.elim [] splitLines

/-- After the update the saved values and the other settings are read, and the same update again
leaves the file as it is. -/
def Survives (values : Settings) (file : Option Text) : Prop :=
  ∃ text env, updateEnvFile values file = .ok text ∧ loadEnvFile (some text) [] = some env ∧
    (∀ kv ∈ values, env.lookup kv.1 = some kv.2) ∧
    (∀ old, loadEnvFile file [] = some old → ∀ k, values.lookup k = none → env.lookup k = old.lookup k) ∧
    updateEnvFile values (some text) = .ok text

/-- The first line that assigns the key gives it the value already if it is indented, and else
the value has no blanks or quotes at its ends. -/
def ReadsBack (lines : List Text) (kv : Text × Text) : Prop :=
  (lines.find? fun l => Assigns kv.1 l).elim (stored kv.2 = kv.2) fun l =>
    if indented l then readEntry l = some kv else stored kv.2 = kv.2

structure Kept (values : Settings) (file : Option Text) : Prop where
  unbroken : ∀ kv ∈ values, Unbroken kv.2
  no_null : ∀ kv ∈ values, Char.ofNat 0 ∉ kv.2
  reads : ∀ kv ∈ values, ReadsBack (linesOf file) kv
  others : ∀ k x, values.lookup k = none → setting (linesOf file) k = some x → Char.ofNat 0 ∉ x

variable {values : Settings} {file : Option Text} {lines : List Text}

def payload (values : Settings) (file : Option Text) : Text :=
  ['\n'].intercalate (rewritten values (linesOf file)) ++ ['\n']

theorem updateEnvFile_eq (hnew : ∀ kv ∈ values, '\n' ∉ kv.2 ∧ '\r' ∉ kv.2) (file : Option Text) :
    updateEnvFile values file = .ok (payload values file) := by
  have hfind : (values.find? fun kv => '\n' ∈ kv.2 ∨ '\r' ∈ kv.2) = none := by
    rw [List.find?_eq_none]
    intro kv hkv
    simpa using hnew kv hkv
  rw [updateEnvFile,hfind]
  rfl

theorem linesOf_unbroken (file : Option Text) : ∀ l ∈ linesOf file, Unbroken l := by
  cases file with
  | none => exact nofun
  | some text => exact splitLines_no_break text

theorem readsBack_iff {kv : Text × Text} :
    (lines.find? fun l => Assigns kv.1 l).elim (stored kv.2) (afterwards kv.2) = kv.2 ↔
      ReadsBack lines kv := by
  unfold ReadsBack
  cases hfind : lines.find? fun l => Assigns kv.1 l with
  | none => rfl
  | some l =>
    have hdecided := List.find?_some hfind
    have hassigns : Assigns kv.1 l := of_decide_eq_true hdecided
    obtain ⟨⟨k,x⟩,hread,hk⟩ := Option.map_eq_some_iff.mp hassigns
    obtain rfl : k = kv.1 := hk
    simp only [Option.elim_some,afterwards,hread]
    split_ifs
    · constructor
      · intro hx
        exact congrArg some (Prod.ext rfl hx)
      · intro hkv
        exact congrArg Prod.snd (Option.some.inj hkv)
    · rfl

theorem load_setting {env : Settings} (h : loadEnvFile file [] = some env) (k : Text) :
    env.lookup k = setting (linesOf file) k := by
  rw [(load_eq_some h).2 k,List.lookup_nil,Option.none_or]
  rfl

theorem survives_of_kept (hne : values ≠ []) (hnamed : Named values)
    (hnew : ∀ kv ∈ values, '\n' ∉ kv.2 ∧ '\r' ∉ kv.2) (h : Kept values file) : Survives values file := by
  have hv : ∀ kv ∈ values, IsName kv.1 ∧ Unbroken kv.2 :=
    fun kv hkv => ⟨hnamed.names kv hkv,h.unbroken kv hkv⟩
  have hlines : linesOf (some (payload values file)) = rewritten values (linesOf file) :=
    splitLines_payload hne hv (linesOf_unbroken file)
  have hsaved : ∀ kv ∈ values, setting (rewritten values (linesOf file)) kv.1 = some kv.2 := by
    intro kv hkv
    rw [setting_saved hv (lookup_of_mem hnamed.nodup hkv) (linesOf_unbroken file)]
    exact congrArg some (readsBack_iff.mpr (h.reads kv hkv))
  have hother : ∀ k, values.lookup k = none →
      setting (rewritten values (linesOf file)) k = setting (linesOf file) k :=
    fun k hk => setting_other hv hk (linesOf_unbroken file)
  have hload : Loadable [] ((rewritten values (linesOf file)).filterMap readEntry) := by
    intro k x _ hx
    cases hk : values.lookup k with
    | none => exact h.others k x hk ((hother k hk).symm.trans hx)
    | some v =>
      have hmem := mem_of_lookup hk
      obtain rfl := Option.some.inj ((hsaved _ hmem).symm.trans hx)
      exact h.no_null _ hmem
  obtain ⟨env,henv⟩ := exists_load hload
  have hloaded : loadEnvFile (some (payload values file)) [] = some env := by
    rw [← hlines] at henv
    exact henv
  refine ⟨_,env,updateEnvFile_eq hnew file,hloaded,fun kv hkv => ?_,fun old hold k hk => ?_,?_⟩
  · rw [load_setting hloaded,hlines]
    exact hsaved kv hkv
  · rw [load_setting hloaded,load_setting hold,hlines]
    exact hother k hk
  · rw [updateEnvFile_eq hnew,payload,hlines,rewritten_rewritten hnamed]
    rfl

theorem kept_of_survives (hne : values ≠ []) (hnamed : Named values)
    (hnew : ∀ kv ∈ values, '\n' ∉ kv.2 ∧ '\r' ∉ kv.2) (h : Survives values file) : Kept values file := by
  obtain ⟨text,env,htext,henv,hsaved,-,-⟩ := h
  obtain rfl := Except.ok.inj ((updateEnvFile_eq hnew file).symm.trans htext)
  have hload := (load_eq_some henv).1
  have hsetting : ∀ kv ∈ values, setting (linesOf (some (payload values file))) kv.1 = some kv.2 :=
    fun kv hkv => (load_setting henv kv.1).symm.trans (hsaved kv hkv)
  have hunbroken : ∀ kv ∈ values, Unbroken kv.2 :=
    fun kv hkv => unbroken_setting (linesOf_unbroken _) (hsetting kv hkv)
  have hv : ∀ kv ∈ values, IsName kv.1 ∧ Unbroken kv.2 := fun kv hkv => ⟨hnamed.names kv hkv,hunbroken kv hkv⟩
  have hlines : linesOf (some (payload values file)) = rewritten values (linesOf file) :=
    splitLines_payload hne hv (linesOf_unbroken file)
  refine ⟨hunbroken,fun kv hkv => hload kv.1 kv.2 rfl (hsetting kv hkv),fun kv hkv => ?_,fun k x hk hx => ?_⟩
  · have hafter := hsetting kv hkv
    rw [hlines,setting_saved hv (lookup_of_mem hnamed.nodup hkv) (linesOf_unbroken file)] at hafter
    exact readsBack_iff.mp (Option.some.inj hafter)
  · refine hload k x rfl ?_
    have hafter := (setting_other hv hk (linesOf_unbroken file)).trans hx
    rw [← hlines] at hafter
    exact hafter

/-- The settings of a request survive a restart exactly when they are kept. -/
theorem settings_survive_iff (h : Accepted values) (hnew : ∀ kv ∈ values, '\n' ∉ kv.2 ∧ '\r' ∉ kv.2)
    (file : Option Text) : Survives values file ↔ Kept values file :=
  ⟨kept_of_survives h.1 h.named hnew,survives_of_kept h.1 h.named hnew⟩

end Restart

section Files

def modelKey : Text := "DFT_FORGE_LLM_MODEL".toList

/-- What `save_config` stores of a request with this model. -/
def modelSettings (model : Text) : Settings := [(modelKey,model)]

theorem accepted_model {model : Text} (h : strip model = model) : Accepted (modelSettings model) := by
  have hupdates : configUpdates { model := some model } = .ok [(modelKey,strip model)] := by
    rw [configUpdates,if_neg (by rintro ⟨p,hp,-⟩; cases hp),if_neg (by rintro ⟨v,hv,-⟩; cases hv)]
    rfl
  rw [h] at hupdates
  exact ⟨List.cons_ne_nil _ _,.inl ⟨_,hupdates⟩⟩

def newModel : Text := ['n','e','w']

theorem newModel_plain : ∀ kv ∈ modelSettings newModel, '\n' ∉ kv.2 ∧ '\r' ∉ kv.2 :=
  List.forall_mem_singleton.mpr (by decide)

/-- A file with another setting. -/
def otherFile : Text := ['A','=','1']

theorem settings_survive_other : Survives (modelSettings newModel) (some otherFile) := by
  refine (settings_survive_iff (accepted_model (by decide)) newModel_plain _).mpr ⟨?_,?_,?_,?_⟩
  · exact List.forall_mem_singleton.mpr (unbroken_of_all (by decide))
  · exact List.forall_mem_singleton.mpr (by decide)
  · have hfind : ((linesOf (some otherFile)).find? fun l => Assigns modelKey l) = none := by decide +kernel
    refine List.forall_mem_singleton.mpr ?_
    rw [ReadsBack,hfind,Option.elim_none]
    decide
  · have hentries : (linesOf (some otherFile)).filterMap readEntry = [(['A'],['1'])] := by decide +kernel
    intro k x _ hx
    rw [setting,hentries] at hx
    obtain ⟨-,rfl⟩ := Prod.mk.inj (List.mem_singleton.mp (mem_of_lookup hx))
    decide

/-- A file in which the model is set on an indented line. -/
def indentedFile : Text := "  export DFT_FORGE_LLM_MODEL=old".toList

/-- The reader finds the old model, the writer does not. -/
theorem indented_model_kept : Accepted (modelSettings newModel) ∧
    (∀ kv ∈ modelSettings newModel, '\n' ∉ kv.2 ∧ '\r' ∉ kv.2) ∧
    ¬Survives (modelSettings newModel) (some indentedFile) := by
  have haccepted := @accepted_model newModel (by decide)
  refine ⟨haccepted,newModel_plain,fun h => ?_⟩
  have hkept := (kept_of_survives haccepted.1 haccepted.named newModel_plain h).reads _ List.mem_cons_self
  have hfind : ((linesOf (some indentedFile)).find? fun l => Assigns modelKey l) = some indentedFile := by
    decide +kernel
  rw [ReadsBack,hfind,Option.elim_some,if_pos (by decide +kernel)] at hkept
  have hread : readEntry indentedFile = some (modelKey,"old".toList) := by decide +kernel
  rw [hread] at hkept
  exact absurd (congrArg Prod.snd (Option.some.inj hkept)) (by decide)

end Files

end DftForge.Web.EnvFile
