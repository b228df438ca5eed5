import Mathlib.Data.List.Basic

/-! # The words of a shell command

How a POSIX shell divides a command into words and operators. Outside of quotes only plain
characters, blanks, `$?` and a few operators are read: a command with anything else there is
refused, so nothing of a command that is read is expanded.
-/
namespace DftForge.Library.Shell

inductive Part where
  | char (c : Char)
  /-- `$?`. -/
  | exitStatus
  deriving DecidableEq

abbrev Word := List Part

def literal (t : List Char) : Word := t.map .char

inductive Join where
  | pipe
  | and
  | semi
  deriving DecidableEq

inductive Direction where
  | out (fd : ℕ)
  | append (fd : ℕ)
  | hereDoc
  deriving DecidableEq

inductive Token where
  | word (w : Word)
  | redirect (d : Direction)
  | join (j : Join)
  deriving DecidableEq

/-- The characters that `shlex.quote` leaves alone: none of them is special to a shell. -/
def isPlain (c : Char) : Bool := c.isAlphanum || c ∈ "_@%+=:,./-".toList

/-- A word that is being read, and whether nothing of it was quoted. -/
structure Draft where
  parts : Word
  bare : Bool

inductive Mode where
  | blank
  | word (d : Draft)
  | single (parts : Word)
  | double (parts : Word)
  | dollar (d : Draft)
  | ampersand
  | greater (fd : ℕ)
  | less
  /-- The lines after the first, which nothing has read yet. -/
  | after (rest : List Char)

/-- The tokens read so far, the last first. -/
structure Lexer where
  mode : Mode
  tokens : List Token

namespace Lexer

/-- The number of a descriptor: a word of digits, none of them quoted, before a redirection. -/
def Draft.fd (d : Draft) : Option ℕ :=
  if d.bare ∧ d.parts ≠ [] then
    d.parts.foldlM (fun n part => match part with
      | .char c => if c.isDigit then some (10 * n + (c.toNat - '0'.toNat)) else none
      | .exitStatus => none) 0
  else none

def operator (tokens : List Token) (c : Char) : Option Lexer :=
  match c with
  | ' ' => some ⟨.blank,tokens⟩
  | '\n' => some ⟨.after [],tokens⟩
  | ';' => some ⟨.blank,.join .semi :: tokens⟩
  | '|' => some ⟨.blank,.join .pipe :: tokens⟩
  | '&' => some ⟨.ampersand,tokens⟩
  | '>' => some ⟨.greater 1,tokens⟩
  | '<' => some ⟨.less,tokens⟩
  | _ => none

/-- One character outside of quotes, in a word or where one may begin. -/
def unquoted (d : Draft) (tokens : List Token) (close : List Token) (c : Char) : Option Lexer :=
  if isPlain c then some ⟨.word ⟨d.parts ++ [.char c],d.bare⟩,tokens⟩
  else match c with
  | '\'' => some ⟨.single d.parts,tokens⟩
  | '"' => some ⟨.double d.parts,tokens⟩
  | '$' => some ⟨.dollar d,tokens⟩
  | c => operator close c

def step : Lexer → Char → Option Lexer
  | ⟨.blank,tokens⟩, c => unquoted ⟨[],true⟩ tokens tokens c
  | ⟨.word d,tokens⟩, c =>
    match Draft.fd d, c with
    | some fd, '>' => some ⟨.greater fd,tokens⟩
    | _, c => unquoted d tokens (.word d.parts :: tokens) c
  | ⟨.single parts,tokens⟩, c =>
    if c = '\'' then some ⟨.word ⟨parts,false⟩,tokens⟩ else some ⟨.single (parts ++ [.char c]),tokens⟩
  | ⟨.double parts,tokens⟩, c =>
    if c = '"' then some ⟨.word ⟨parts,false⟩,tokens⟩
    else if c ∈ ['$','`','\\'] then none
    else some ⟨.double (parts ++ [.char c]),tokens⟩
  | ⟨.dollar d,tokens⟩, c =>
    if c = '?' then some ⟨.word ⟨d.parts ++ [.exitStatus],false⟩,tokens⟩ else none
  | ⟨.ampersand,tokens⟩, c => if c = '&' then some ⟨.blank,.join .and :: tokens⟩ else none
  | ⟨.greater fd,tokens⟩, c =>
    if c = '>' then some ⟨.blank,.redirect (.append fd) :: tokens⟩
    else unquoted ⟨[],true⟩ (.redirect (.out fd) :: tokens) (.redirect (.out fd) :: tokens) c
  | ⟨.less,tokens⟩, c => if c = '<' then some ⟨.blank,.redirect .hereDoc :: tokens⟩ else none
  | ⟨.after rest,tokens⟩, c => some ⟨.after (c :: rest),tokens⟩

/-- The tokens of the first line, and the lines after it where there are any. -/
def finish : Lexer → Option (List Token × Option (List Char))
  | ⟨.blank,tokens⟩ => some (tokens.reverse,none)
  | ⟨.word d,tokens⟩ => some ((.word d.parts :: tokens).reverse,none)
  | ⟨.after rest,tokens⟩ => some (tokens.reverse,some rest.reverse)
  | _ => none

end Lexer

def tokenize (t : List Char) : Option (List Token × Option (List Char)) :=
  (t.foldlM Lexer.step ⟨.blank,[]⟩).bind Lexer.finish

structure Simple where
  words : List Word
  redirects : List (Direction × Word) := []
  deriving DecidableEq

/-- The simple commands of a line and the operators between them. -/
abbrev Line := Simple × List (Join × Simple)

def parse : List Token → Option Line
  | [] => some (⟨[],[]⟩,[])
  | .word w :: ts => (parse ts).map fun l => (⟨w :: l.1.words,l.1.redirects⟩,l.2)
  | .redirect d :: .word w :: ts => (parse ts).map fun l => (⟨l.1.words,(d,w) :: l.1.redirects⟩,l.2)
  | .redirect _ :: _ => none
  | .join j :: ts => (parse ts).bind fun l => if l.1.words = [] then none else some (⟨[],[]⟩,(j,l.1) :: l.2)

/-- What a shell makes of the first line of a text. -/
def readLine (t : List Char) : Option (Line × Option (List Char)) :=
  (tokenize t).bind fun r => (parse r.1).bind fun l => if l.1.words = [] then none else some (l,r.2)

/-- The quotes that `shlex.quote` puts for one in the text. -/
def escape (c : Char) : List Char := if c = '\'' then "'\"'\"'".toList else [c]

/-- `shlex.quote`. -/
def quote (s : List Char) : List Char :=
  if s = [] then "''".toList
  else if s.all isPlain then s
  else '\'' :: (s.flatMap escape ++ ['\''])

/-- The text of a here-document before the line that ends it, and what follows that line. -/
def hereDoc (delimiter : List Char) (rest : List Char) : List Char × List (List Char) :=
  let lines := rest.splitOn '\n'
  ((lines.takeWhile (· ≠ delimiter)).flatMap (· ++ ['\n']),(lines.dropWhile (· ≠ delimiter)).tail)

section Quotes
variable (tokens : List Token) (d : Draft) {s : List Char} (t : List Char)
open Lexer

theorem quote_of_plain (hnil : s ≠ []) (hs : ∀ c ∈ s, isPlain c = true) : quote s = s := by
  rw [quote,if_neg hnil,if_pos (List.all_eq_true.mpr hs)]

theorem step_plain {c : Char} (hc : isPlain c = true) :
    step ⟨.word d,tokens⟩ c = some ⟨.word ⟨d.parts ++ [.char c],d.bare⟩,tokens⟩ := by
  have hne : c ≠ '>' := by
    rintro rfl
    exact absurd hc (by decide)
  rw [step]
  · exact if_pos hc
  · intro fd _
    exact hne

theorem foldlM_plain (hs : ∀ c ∈ s, isPlain c = true) :
    s.foldlM step ⟨.word d,tokens⟩ = some ⟨.word ⟨d.parts ++ literal s,d.bare⟩,tokens⟩ := by
  induction s generalizing d with
  | nil => simp [literal]
  | cons c s ih =>
    rw [List.forall_mem_cons] at hs
    rw [List.foldlM_cons,step_plain tokens d hs.1]
    refine (ih _ hs.2).trans ?_
    simp [literal]

theorem foldlM_escape (c : Char) (parts : Word) :
    (escape c).foldlM step ⟨.single parts,tokens⟩ = some ⟨.single (parts ++ [.char c]),tokens⟩ := by
  by_cases hc : c = '\''
  · subst hc
    rfl
  · rw [escape,if_neg hc,List.foldlM_cons,step,if_neg hc]
    rfl

theorem foldlM_escaped (s : List Char) (parts : Word) :
    (s.flatMap escape).foldlM step ⟨.single parts,tokens⟩ = some ⟨.single (parts ++ literal s),tokens⟩ := by
  induction s generalizing parts with
  | nil => simp [literal]
  | cons c s ih =>
    rw [List.flatMap_cons,List.foldlM_append,foldlM_escape]
    refine (ih _).trans ?_
    simp [literal]

/-- A quoted text is read as one word, which says the text. -/
theorem foldlM_quote (s : List Char) : ∃ bare, (quote s).foldlM step ⟨.blank,tokens⟩ =
    some ⟨.word ⟨literal s,bare⟩,tokens⟩ := by
  unfold quote
  split_ifs with hnil hplain
  · subst hnil
    exact ⟨false,rfl⟩
  · obtain ⟨c,s,rfl⟩ := List.exists_cons_of_ne_nil hnil
    rw [List.all_eq_true,List.forall_mem_cons] at hplain
    refine ⟨true,?_⟩
    have hfirst : step ⟨.blank,tokens⟩ c = some ⟨.word ⟨[.char c],true⟩,tokens⟩ := if_pos hplain.1
    rw [List.foldlM_cons,hfirst]
    exact foldlM_plain tokens ⟨[.char c],true⟩ hplain.2
  · refine ⟨false,?_⟩
    have hopen : step ⟨.blank,tokens⟩ '\'' = some ⟨.single [],tokens⟩ := rfl
    rw [List.foldlM_cons,hopen]
    refine List.foldlM_append.trans ?_
    change ((s.flatMap escape).foldlM step ⟨.single [],tokens⟩).bind _ = _
    rw [foldlM_escaped]
    rfl

/-- The characters that end a word. -/
def closers : List Char := [' ',';','\n']

theorem step_close {c : Char} (hc : c ∈ closers) :
    step ⟨.word d,tokens⟩ c = operator (.word d.parts :: tokens) c := by
  simp only [closers,List.mem_cons,List.not_mem_nil,or_false] at hc
  obtain rfl | rfl | rfl := hc <;> cases hfd : Draft.fd d <;>
    simp [step,hfd,unquoted,isPlain,operator]

end Quotes

/-- Reading a text takes one state of the lexer to another. -/
def Reads (s : Lexer) (t : List Char) (s' : Lexer) : Prop := t.foldlM Lexer.step s = some s'

section Reads
variable {s s' s'' : Lexer} {t t' a : List Char} {tokens : List Token}

theorem Reads.append (h : Reads s t s') (h' : Reads s' t' s'') : Reads s (t ++ t') s'' := by
  rw [Reads,List.foldlM_append,h]
  exact h'

theorem Reads.plain {parts : Word} {bare : Bool} (ht : ∀ c ∈ t, isPlain c = true) :
    Reads ⟨.word ⟨parts,bare⟩,tokens⟩ t ⟨.word ⟨parts ++ literal t,bare⟩,tokens⟩ := foldlM_plain tokens _ ht

/-- What ends a word is read apart from it. -/
theorem Reads.close {d : Draft} {c : Char} (hc : c ∈ closers)
    (h : (Lexer.operator (.word d.parts :: tokens) c).bind (t.foldlM Lexer.step) = some s') :
    Reads ⟨.word d,tokens⟩ (c :: t) s' := by
  rw [Reads,List.foldlM_cons,step_close tokens d hc]
  exact h

/-- A quoted argument between two texts. -/
theorem Reads.arg (h : Reads s t ⟨.blank,tokens⟩)
    (h' : ∀ bare, Reads ⟨.word ⟨literal a,bare⟩,tokens⟩ t' s') : Reads s (t ++ quote a ++ t') s' := by
  obtain ⟨bare,ha⟩ := foldlM_quote tokens a
  exact (h.append ha).append (h' bare)

theorem Reads.tokenize (h : Reads ⟨.blank,[]⟩ t s) : tokenize t = s.finish := by
  rw [Shell.tokenize,h]
  rfl

theorem Reads.tokenize_last (h : Reads ⟨.blank,[]⟩ t ⟨.blank,tokens⟩) :
    Shell.tokenize (t ++ quote a) = some ((.word (literal a) :: tokens).reverse,none) := by
  obtain ⟨bare,ha⟩ := foldlM_quote tokens a
  exact (h.append ha).tokenize

/-- After the first line the lexer only collects. -/
theorem Reads.rest (rest : List Char) :
    Reads ⟨.after rest,tokens⟩ t ⟨.after (t.reverse ++ rest),tokens⟩ := by
  induction t generalizing rest with
  | nil => rfl
  | cons c t ih =>
    have ht := ih (c :: rest)
    rw [Reads,List.foldlM_cons,List.reverse_cons,List.append_assoc]
    exact ht

/-- The text after the first line stays as it is. -/
theorem Reads.tokenize_rest (h : Reads ⟨.blank,[]⟩ t ⟨.after [],tokens⟩) :
    Shell.tokenize (t ++ t') = some (tokens.reverse,some t') := by
  rw [(h.append (.rest [])).tokenize,Lexer.finish,List.append_nil,List.reverse_reverse]

end Reads
end DftForge.Library.Shell
