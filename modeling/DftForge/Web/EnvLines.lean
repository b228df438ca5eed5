import DftForge.Web.EnvFile

/-! # Assignments in the lines of the environment file

An assignment begins with an optional `export`, a name and an equality sign, in one way at
most. The writer sees those that begin a line and the reader those that begin the stripped
line, so they differ on the lines that are indented.
-/
namespace DftForge.Web.EnvFile
open DftForge.Library DftForge.Library.Regex DftForge.Runtime DftForge.Python DftForge.Structure Re

def IsName (k : Text) : Prop := ∃ c cs, k = c :: cs ∧ isNameStart c = true ∧ ∀ x ∈ cs, isWord x = true

def Spaces (t : Text) : Prop := ∀ c ∈ t, isSpace c = true

/-- What stands before the name. -/
def Lead (pre : Text) : Prop := pre = [] ∨ ∃ sp, sp ≠ [] ∧ Spaces sp ∧ pre = "export".toList ++ sp

/-- The text of an assignment up to its equality sign. -/
def Header (h k : Text) : Prop :=
  ∃ pre ws, Lead pre ∧ IsName k ∧ Spaces ws ∧ h = pre ++ (k ++ (ws ++ ['=']))

section Characters
variable {c : Char} {k t : Text}

theorem isWord_of_isNameStart (h : isNameStart c = true) : isWord c = true := by
  simp only [isNameStart,isWord,Char.isAlphanum,Bool.or_eq_true] at h ⊢
  tauto

theorem isSpace_of_isWord (h : isWord c = true) : isSpace c = false := by
  have hrange : (65 ≤ c.toNat ∧ c.toNat ≤ 90 ∨ 97 ≤ c.toNat ∧ c.toNat ≤ 122) ∨
      48 ≤ c.toNat ∧ c.toNat ≤ 57 ∨ c.toNat = 95 := by
    simp only [isWord,Char.isAlphanum,Bool.or_eq_true,decide_eq_true_eq] at h
    obtain (h | h) | rfl := h
    · left
      simpa [Char.isAlpha,Char.isUpper,Char.isLower,UInt32.le_iff_toNat_le] using h
    · right
      left
      simpa [Char.isDigit,UInt32.le_iff_toNat_le] using h
    · exact .inr (.inr rfl)
  unfold isSpace
  simp only [Bool.or_eq_false_iff,Bool.and_eq_false_iff,decide_eq_false_iff_not]
  omega

theorem IsName.all_isWord (h : IsName k) : ∀ c ∈ k, isWord c = true := by
  obtain ⟨c,cs,rfl,hc,hcs⟩ := h
  exact List.forall_mem_cons.mpr ⟨isWord_of_isNameStart hc,hcs⟩

theorem IsName.ne_nil (h : IsName k) : k ≠ [] := by
  obtain ⟨c,cs,rfl,-,-⟩ := h
  exact List.cons_ne_nil c cs

end Characters

section Headers
variable {w k t : Text}

/-- No name begins with a character that ends one. -/
theorem IsName.head (hk : IsName k) : ∀ c ∈ (k ++ t).head?, isNameStart c = true := by
  obtain ⟨c,cs,rfl,hc,-⟩ := hk
  intro x hx
  rwa [← Option.some.inj hx]

theorem head_after_name {ws : Text} (hws : Spaces ws) : ∀ c ∈ (ws ++ '=' :: t).head?, isWord c = false := by
  intro c hc
  cases ws with
  | nil =>
    rw [← Option.some.inj hc]
    decide
  | cons d ws =>
    rw [← Option.some.inj hc]
    by_contra hword
    have hspace := isSpace_of_isWord (Bool.not_eq_false _ ▸ hword)
    rw [hws d List.mem_cons_self] at hspace
    cases hspace

theorem spells_name {gs : List (ℕ × Text)} (h : Spells name w gs) : IsName w ∧ gs = [(1,w)] := by
  obtain ⟨hs,hseq,rfl⟩ := spells_group h
  obtain ⟨u,v,us,vs,hu,hv,rfl,rfl⟩ := spells_seq hseq
  obtain ⟨c,hc,rfl,rfl⟩ := spells_one hu
  obtain ⟨hall,rfl⟩ := spells_many_one hv
  exact ⟨⟨c,v,rfl,hc,hall⟩,rfl⟩

theorem spells_export {gs : List (ℕ × Text)} (h : Spells (.seq (lit "export") (.plus space)) w gs) :
    ∃ sp, sp ≠ [] ∧ Spaces sp ∧ w = "export".toList ++ sp ∧ gs = [] := by
  obtain ⟨u,v,us,vs,hu,hv,rfl,rfl⟩ := spells_seq h
  obtain ⟨rfl,rfl⟩ := spells_chain_ones _ hu
  obtain ⟨hne,hall,rfl⟩ := spells_plus_one hv
  exact ⟨v,hne,hall,rfl,rfl⟩

/-- The name, blanks and the equality sign. -/
theorem spells_named {gs : List (ℕ × Text)}
    (h : Spells (.seq name (.seq (.many space) (.one (· = '=')))) w gs) :
    ∃ k ws, IsName k ∧ Spaces ws ∧ w = k ++ (ws ++ ['=']) ∧ gs = [(1,k)] := by
  obtain ⟨k,v,ks,vs,hk,hv,rfl,rfl⟩ := spells_seq h
  obtain ⟨hname,rfl⟩ := spells_name hk
  obtain ⟨ws,e,_,_,hws,he,rfl,rfl⟩ := spells_seq hv
  obtain ⟨hall,rfl⟩ := spells_many_one hws
  obtain ⟨x,hx,rfl,rfl⟩ := spells_one he
  obtain rfl := of_decide_eq_true hx
  exact ⟨k,ws,hname,hall,rfl,rfl⟩

theorem header_of_spells {gs : List (ℕ × Text)} (h : Spells assignment w gs) :
    ∃ k, Header w k ∧ gs = [(1,k)] := by
  obtain ⟨pre,rest,ps,rs,hpre,hrest,rfl,rfl⟩ := spells_seq h
  obtain ⟨k,ws,hk,hws,rfl,rfl⟩ := spells_named hrest
  obtain hexport | ⟨rfl,rfl⟩ := spells_opt hpre
  · obtain ⟨sp,hne,hsp,rfl,rfl⟩ := spells_export hexport
    exact ⟨k,⟨_,ws,.inr ⟨sp,hne,hsp,rfl⟩,hk,hws,rfl⟩,rfl⟩
  · exact ⟨k,⟨[],ws,.inl rfl,hk,hws,rfl⟩,rfl⟩

theorem reads_named {ws : Text} (hk : IsName k) (hws : Spaces ws) :
    Reads (.seq name (.seq (.many space) (.one (· = '=')))) (k ++ (ws ++ ['='])) t [(1,k)] := by
  have hname : Reads name k (ws ++ ['='] ++ t) [(1,k)] := by
    obtain ⟨c,cs,rfl,hc,hcs⟩ := hk
    have hstop : ∀ x ∈ (ws ++ ['='] ++ t).head?, isWord x = false := by
      rw [List.append_assoc]
      exact head_after_name hws
    exact .group 1 (.seq (.one hc) (.many_one hcs hstop))
  have hmark : ∀ x ∈ (['='] ++ t).head?, isSpace x = false := by
    intro x hx
    rw [← Option.some.inj hx]
    decide
  exact hname.seq (.seq (.many_one hws hmark) (.one (by decide)))

/-- Without `export` before it a name is not read as one. -/
theorem fails_export {ws : Text} (hk : IsName k) (hws : Spaces ws) :
    Fails (.seq (.seq (lit "export") (.plus space)) (.seq name (.seq (.many space) (.one (· = '=')))))
      (k ++ (ws ++ ['=']) ++ t) := by
  intro before groups
  by_contra hne
  obtain ⟨d,hd⟩ := List.exists_mem_of_ne_nil _ hne
  obtain ⟨w,gs,hw,htext,-⟩ := passed_of_mem_run hd
  obtain ⟨u,v,us,vs,hu,hv,rfl,rfl⟩ := spells_seq hw
  obtain ⟨sp,hspne,hsp,rfl,rfl⟩ := spells_export hu
  obtain ⟨k',ws',hk',-,rfl,rfl⟩ := spells_named hv
  simp only [List.append_assoc] at htext
  have hexport : ∀ c ∈ "export".toList, isWord c = true := by simp [isWord]
  have hafter : ∀ c ∈ (sp ++ (k' ++ (ws' ++ (['='] ++ d.after)))).head?, isWord c = false := by
    obtain ⟨c,cs,rfl⟩ := List.exists_cons_of_ne_nil hspne
    intro x hx
    rw [← Option.some.inj hx]
    by_contra hword
    have hspace := isSpace_of_isWord (Bool.not_eq_false _ ▸ hword)
    rw [hsp c List.mem_cons_self] at hspace
    cases hspace
  obtain ⟨-,hrest⟩ := span_injective hk.all_isWord hexport (head_after_name hws) hafter htext
  have hmark : ∀ c ∈ (['='] ++ t).head?, isSpace c = false := by
    intro x hx
    rw [← Option.some.inj hx]
    decide
  have hname : ∀ c ∈ (k' ++ (ws' ++ (['='] ++ d.after))).head?, isSpace c = false :=
    fun c hc => isSpace_of_isWord (isWord_of_isNameStart (hk'.head c hc))
  obtain ⟨-,hlast⟩ := span_injective hws hsp hmark hname hrest
  have hstart := hk'.head (t := ws' ++ (['='] ++ d.after)) '=' (by rw [← hlast]; rfl)
  exact absurd hstart (by decide)

theorem reads_assignment (h : Header w k) : Reads assignment w t [(1,k)] := by
  obtain ⟨pre,ws,hpre,hk,hws,rfl⟩ := h
  obtain rfl | ⟨sp,hne,hsp,rfl⟩ := hpre
  · exact .opt_seq_of_fails (fails_export hk hws) (reads_named hk hws)
  · have hname : ∀ c ∈ (k ++ (ws ++ ['=']) ++ t).head?, isSpace c = false := by
      intro c hc
      rw [List.append_assoc] at hc
      exact isSpace_of_isWord (isWord_of_isNameStart (hk.head c hc))
    have hexport : Reads (.seq (lit "export") (.plus space)) ("export".toList ++ sp)
        (k ++ (ws ++ ['=']) ++ t) [] :=
      .seq (.chain_ones _) (.plus_one hne hsp hname)
    exact .seq (.opt hexport) (reads_named hk hws)

end Headers

section Keys
variable {w k t line : Text}

theorem keyOf_append (h : Header w k) (t : Text) : keyOf (w ++ t) = some k := by
  have hrun := reads_assignment (t := t) h [] []
  rw [keyOf,matchStart,hrun]
  rfl

theorem header_of_keyOf (h : keyOf line = some k) : ∃ w t, line = w ++ t ∧ Header w k := by
  simp only [keyOf,matchStart,Option.map_map,Option.map_eq_some_iff] at h
  obtain ⟨d,hd,hgroup⟩ := h
  obtain ⟨w,gs,hw,hline,hgroups⟩ := passed_of_mem_run (List.mem_of_mem_head? hd)
  obtain ⟨key,hheader,rfl⟩ := header_of_spells hw
  have hkey : key = k := by
    rw [← hgroup]
    simp [Match.group,Match.group?,hgroups]
  exact ⟨w,d.after,hline,hkey ▸ hheader⟩

/-- The first character of a header is no space, and the last one is the equality sign. -/
theorem Header.ends (h : Header w k) : (∀ c ∈ w.head?, isSpace c = false) ∧ ∃ v, w = v ++ ['='] := by
  obtain ⟨pre,ws,hpre,hk,-,rfl⟩ := h
  constructor
  · obtain rfl | ⟨sp,-,-,rfl⟩ := hpre
    · intro c hc
      exact isSpace_of_isWord (isWord_of_isNameStart (hk.head c hc))
    · intro c hc
      have he : c = 'e' := (Option.some.inj hc).symm
      rw [he]
      decide
  · exact ⟨pre ++ (k ++ ws),by simp only [List.append_assoc]⟩

theorem Header.not_skipped (h : Header w k) : ¬(w ++ t = [] ∨ (w ++ t).head? = some '#') := by
  obtain ⟨pre,ws,hpre,hk,-,rfl⟩ := h
  have hfirst : ∀ c ∈ (pre ++ (k ++ (ws ++ ['='])) ++ t).head?, isWord c = true := by
    obtain rfl | ⟨sp,-,-,rfl⟩ := hpre
    · intro c hc
      rw [List.nil_append,List.append_assoc] at hc
      exact isWord_of_isNameStart (hk.head c hc)
    · intro c hc
      rw [← Option.some.inj hc]
      decide
  rintro (hnil | hcomment)
  · simp at hnil
  · exact absurd (hfirst '#' hcomment) (by decide)

theorem dropWhile_header (h : Header w k) : (w ++ t).dropWhile isSpace = w ++ t := by
  obtain ⟨hhead,v,rfl⟩ := h.ends
  cases v with
  | nil => rfl
  | cons c v => exact List.dropWhile_cons_of_neg (by rw [hhead c rfl]; exact Bool.false_ne_true)

theorem rstrip_header (h : Header w k) : rstrip (w ++ t) = w ++ rstrip t := by
  by_cases hne : rstrip t = []
  · have hspaces : Spaces t := by
      rw [rstrip,rstripOf,List.reverse_eq_nil_iff,List.dropWhile_eq_nil_iff] at hne
      exact fun c hc => hne c (List.mem_reverse.mpr hc)
    obtain ⟨-,v,rfl⟩ := h.ends
    have hmark : IsWordText ['='] := ⟨List.cons_ne_nil _ _,List.forall_mem_singleton.mpr (by decide)⟩
    rw [rstrip_spaces hspaces,hne,List.append_nil,rstrip_word hmark]
  · exact rstrip_append hne w

/-- A line that begins with an assignment keeps it when it is stripped. -/
theorem strip_header (h : Header w k) : strip (w ++ t) = w ++ rstrip t := by
  rw [strip_eq,dropWhile_header h,rstrip_header h]

end Keys

section Entries
variable {w k t line x : Text}

theorem unbroken_strip (h : Unbroken line) : Unbroken (strip line) := fun c hc => h c (mem_of_mem_strip hc)

theorem reads_remainder (h : Unbroken t) :
    Reads remainder t [] [(2,t.dropWhile isSpace)] := by
  have hhead : ∀ c ∈ (t.dropWhile isSpace ++ []).head?, isSpace c = false := by
    intro c hc
    rw [List.append_nil] at hc
    have hnot := List.head?_dropWhile_not isSpace t
    rw [Option.mem_def.mp hc] at hnot
    simpa using hnot
  have hall : ∀ c ∈ t.dropWhile isSpace, decide (c ≠ '\n') = true := by
    intro c hc
    have hbreak := h c ((List.dropWhile_suffix isSpace).subset hc)
    refine decide_eq_true ?_
    rintro rfl
    revert hbreak
    decide
  have hvalue : Reads (.seq (.group 2 (.many dot)) lineEnd) (t.dropWhile isSpace) []
      [(2,t.dropWhile isSpace)] := by
    have hdot : Reads (.group 2 (.many dot)) (t.dropWhile isSpace) [] [(2,t.dropWhile isSpace)] :=
      .group 2 (.many_one hall nofun)
    have hend : Reads lineEnd ([] : Text) [] [] := .anchor fun _ => rfl
    have hseq := @Reads.seq _ _ _ _ [] _ _ _ hdot hend
    rwa [List.append_nil] at hseq
  have hspaces : Reads (.many space) (t.takeWhile isSpace) (t.dropWhile isSpace ++ []) [] :=
    .many_one (fun c hc => List.mem_takeWhile_imp hc) hhead
  have hseq := hspaces.seq hvalue
  rwa [List.takeWhile_append_dropWhile] at hseq

/-- A line whose stripped text is an assignment is read as one. -/
theorem readEntry_of_header (hline : Unbroken line) (hstrip : strip line = w ++ t) (h : Header w k) :
    readEntry line = some (k,stripQuotes (strip t)) := by
  have ht : Unbroken t := by
    intro c hc
    exact unbroken_strip hline c (by rw [hstrip]; exact List.mem_append_right w hc)
  have hread := (reads_assignment (t := t ++ []) h).seq (reads_remainder ht) [] []
  have hne : ¬(strip line = [] ∨ (strip line).head? = some '#') := by
    rw [hstrip]
    exact h.not_skipped
  rw [readEntry,if_neg hne,hstrip,matchStart]
  rw [List.append_nil] at hread
  rw [hread]
  exact congrArg some (Prod.ext rfl (congrArg stripQuotes (strip_dropWhile t)))

theorem header_of_readEntry (hline : Unbroken line) (h : readEntry line = some (k,x)) :
    ∃ w t, strip line = w ++ t ∧ Header w k ∧ x = stripQuotes (strip t) := by
  have hmatch : ∃ key, keyOf (strip line) = some key := by
    by_contra hnone
    have hfails : (Regex.run assignment ⟨[],strip line,[]⟩) = [] := by
      by_contra hne
      obtain ⟨d,rest,hd⟩ := List.exists_cons_of_ne_nil hne
      exact hnone ⟨_,by rw [keyOf,matchStart,hd]; rfl⟩
    rw [readEntry,matchStart,run_seq,hfails] at h
    split_ifs at h
    cases h
  obtain ⟨key,hkey⟩ := hmatch
  obtain ⟨w,t,hstrip,hheader⟩ := header_of_keyOf hkey
  have hread := readEntry_of_header hline hstrip hheader
  obtain ⟨rfl,rfl⟩ := Prod.mk.inj (Option.some.inj (hread.symm.trans h))
  exact ⟨w,t,hstrip,hheader,rfl⟩

end Entries

end DftForge.Web.EnvFile
