import DftForge.Runtime.JsonColumns

/-! # The evidence ledger

`record_run` adds a row, with its lists as JSON, and `get_runs` reads the rows back, the newest
first. Rows are never changed.
-/
namespace DftForge.Qe
open DftForge.Library DftForge.Runtime

structure LedgerRunRecord where
  taskId : String
  taskType : String
  attempt : ℤ
  success : Bool
  inputHash : String
  walltimeSec : ℚ
  verifierPassed : Bool
  failureReasons : List String
  recoveryActions : List String
  failureKind : String
  evidencePath : String
  outputFiles : List String

/-- A row of `runs`. -/
structure LedgerRow where
  id : ℕ
  taskId : String
  taskType : String
  attempt : ℤ
  success : ℤ
  inputHash : String
  walltimeSec : ℚ
  verifierPassed : ℤ
  failureReasons : String
  recoveryActions : String
  failureKind : String
  evidencePath : String
  outputFiles : String
  timestamp : String

/-- A row as `get_runs` returns it. -/
structure LedgerRun where
  id : ℕ
  taskId : String
  taskType : String
  attempt : ℤ
  success : ℤ
  inputHash : String
  walltimeSec : ℚ
  verifierPassed : ℤ
  failureReasons : Json
  recoveryActions : Json
  failureKind : String
  evidencePath : String
  outputFiles : Json
  timestamp : String

structure EvidenceLedger where
  /-- The rows by their ids. -/
  rows : List LedgerRow := []
  /-- The largest id there has been, `AUTOINCREMENT`. -/
  sequence : ℕ := 0

def textList (texts : List String) : Json := .arr (texts.map .str)

def flag (b : Bool) : ℤ := if b then 1 else 0

section Ledger
variable (nums : JsonText.Numerals ℚ)

def ledgerRow (id : ℕ) (now : String) (r : LedgerRunRecord) : LedgerRow where
  id
  taskId := r.taskId
  taskType := r.taskType
  attempt := r.attempt
  success := flag r.success
  inputHash := r.inputHash
  walltimeSec := r.walltimeSec
  verifierPassed := flag r.verifierPassed
  failureReasons := dumps nums (textList r.failureReasons)
  recoveryActions := dumps nums (textList r.recoveryActions)
  failureKind := r.failureKind
  evidencePath := r.evidencePath
  outputFiles := dumps nums (textList r.outputFiles)
  timestamp := now

/-- `json.loads(text or "[]")`. -/
def loadsOrEmpty (text : String) : Option Json := loads nums (if text = "" then "[]" else text)

def LedgerRow.load (row : LedgerRow) : Option LedgerRun := do
  let failureReasons ← loadsOrEmpty nums row.failureReasons
  let recoveryActions ← loadsOrEmpty nums row.recoveryActions
  let outputFiles ← loadsOrEmpty nums row.outputFiles
  some ⟨row.id,row.taskId,row.taskType,row.attempt,row.success,row.inputHash,row.walltimeSec,row.verifierPassed,
    failureReasons,recoveryActions,row.failureKind,row.evidencePath,outputFiles,row.timestamp⟩

/-- `LIMIT`, which a negative number takes off. -/
def sqlLimit {α : Type*} (limit : ℤ) (rows : List α) : List α := if limit < 0 then rows else rows.take limit.toNat

namespace EvidenceLedger
variable (ledger : EvidenceLedger)

/-- `record_run` at a time. -/
def recordRun (now : String) (r : LedgerRunRecord) : EvidenceLedger where
  rows := ledger.rows ++ [ledgerRow nums (ledger.sequence + 1) now r]
  sequence := ledger.sequence + 1

/-- `WHERE task_id = ?`, if a task is given. -/
def ofTask (taskId : Option String) (row : LedgerRow) : Bool := taskId.all (row.taskId = ·)

/-- `get_runs`; nothing where it raises. -/
def getRuns (taskId : Option String) (limit : ℤ) : Option (List LedgerRun) :=
  (sqlLimit limit (((ledger.rows.filter (ofTask taskId)).mergeSort fun a b => decide (b.id ≤ a.id)))).mapM
    (LedgerRow.load nums)

/-- The rows that `get_failure_patterns` counts. -/
def failures (taskId : Option String) : List LedgerRow :=
  ledger.rows.filter fun row => row.success = 0 && row.failureKind ≠ "" && ofTask taskId row

/-- An answer of `get_failure_patterns`. The order of equal counts is left open by SQLite. -/
def FailurePatterns (taskId : Option String) (patterns : List (String × ℕ)) : Prop :=
  patterns.Perm (((ledger.failures taskId).map LedgerRow.failureKind).dedup.map fun kind =>
    (kind,((ledger.failures taskId).map LedgerRow.failureKind).count kind)) ∧
  patterns.Pairwise fun a b => b.2 ≤ a.2

end EvidenceLedger

/-- The ledger after some runs were recorded, each with its time. -/
def recorded (history : List (String × LedgerRunRecord)) : EvidenceLedger :=
  history.foldl (fun ledger e => ledger.recordRun nums e.1 e.2) {}

end Ledger

section History
variable {nums : JsonText.Numerals ℚ}

/-- What `get_runs` says of a recorded run. -/
def ledgerRun (id : ℕ) (now : String) (r : LedgerRunRecord) : LedgerRun where
  id
  taskId := r.taskId
  taskType := r.taskType
  attempt := r.attempt
  success := flag r.success
  inputHash := r.inputHash
  walltimeSec := r.walltimeSec
  verifierPassed := flag r.verifierPassed
  failureReasons := textList r.failureReasons
  recoveryActions := textList r.recoveryActions
  failureKind := r.failureKind
  evidencePath := r.evidencePath
  outputFiles := textList r.outputFiles
  timestamp := now

theorem isJson_textList (texts : List String) : IsJson nums (textList texts) := by
  show JsonText.AllWellFormed nums (itemValues (texts.map Json.str))
  induction texts with
  | nil => trivial
  | cons text texts ih => exact ⟨trivial,ih⟩

theorem dumps_ne_empty {v : Json} (hv : IsJson nums v) : dumps nums v ≠ "" := by
  intro h
  have hloads := loads_dumps nums hv
  rw [h] at hloads
  cases hloads

theorem loadsOrEmpty_dumps (texts : List String) :
    loadsOrEmpty nums (dumps nums (textList texts)) = some (textList texts) := by
  rw [loadsOrEmpty,if_neg (dumps_ne_empty (isJson_textList texts)),loads_dumps nums (isJson_textList texts)]

theorem load_ledgerRow (id : ℕ) (now : String) (r : LedgerRunRecord) :
    (ledgerRow nums id now r).load nums = some (ledgerRun id now r) := by
  simp only [LedgerRow.load,ledgerRow,loadsOrEmpty_dumps,Option.bind_eq_bind,Option.bind_some]
  rfl

/-- The ids are the numbers of the runs. -/
theorem recorded_rows (history : List (String × LedgerRunRecord)) : (recorded nums history).sequence = history.length ∧
    (recorded nums history).rows = history.zipIdx.map fun e => ledgerRow nums (e.2 + 1) e.1.1 e.1.2 := by
  induction history using List.reverseRecOn with
  | nil => exact ⟨rfl,rfl⟩
  | append_singleton history e ih =>
    obtain ⟨hsequence,hrows⟩ := ih
    rw [recorded,List.foldl_append,List.foldl_cons,List.foldl_nil,← recorded]
    refine ⟨?_,?_⟩
    · rw [EvidenceLedger.recordRun,hsequence,List.length_append,List.length_singleton]
    · rw [EvidenceLedger.recordRun,hrows,hsequence,List.zipIdx_append,List.map_append]
      simp

theorem recorded_sorted (history : List (String × LedgerRunRecord)) :
    (recorded nums history).rows.Pairwise (fun a b => a.id < b.id) ∧
      ∀ row ∈ (recorded nums history).rows, row.id ≤ (recorded nums history).sequence := by
  induction history using List.reverseRecOn with
  | nil => exact ⟨List.Pairwise.nil,fun row hrow => absurd hrow List.not_mem_nil⟩
  | append_singleton history e ih =>
    obtain ⟨hsorted,hbound⟩ := ih
    rw [recorded,List.foldl_append,List.foldl_cons,List.foldl_nil,← recorded]
    refine ⟨List.pairwise_append.mpr ⟨hsorted,List.pairwise_singleton _ _,fun a ha b hb => ?_⟩,fun row hrow => ?_⟩
    · rw [List.mem_singleton.mp hb]
      exact Nat.lt_succ_of_le (hbound a ha)
    · rcases List.mem_append.mp hrow with hrow | hrow
      · exact Nat.le_succ_of_le (hbound row hrow)
      · rw [List.mem_singleton.mp hrow]
        exact Nat.le_refl _

/-- Rows by growing ids, sorted the other way, are reversed. -/
theorem mergeSort_rows {rows : List LedgerRow} (hsorted : rows.Pairwise fun a b => a.id < b.id) :
    rows.mergeSort (fun a b => decide (b.id ≤ a.id)) = rows.reverse := by
  have hmerged : (rows.mergeSort fun a b => decide (b.id ≤ a.id)).Pairwise fun a b => b.id ≤ a.id := by
    refine (List.pairwise_mergeSort ?_ ?_ rows).imp fun h => of_decide_eq_true h
    · intro a b c hab hbc
      simp only [decide_eq_true_eq] at hab hbc ⊢
      omega
    · intro a b
      simp only [Bool.or_eq_true,decide_eq_true_eq]
      omega
  have hperm := List.mergeSort_perm rows fun a b => decide (b.id ≤ a.id)
  refine List.Perm.eq_of_pairwise (fun a b ha hb hab hba => ?_) hmerged ?_ (hperm.trans (List.reverse_perm rows).symm)
  · have hids : (rows.map LedgerRow.id).Nodup := (List.pairwise_map.mpr hsorted).imp Nat.ne_of_lt
    exact List.inj_on_of_nodup_map hids (hperm.mem_iff.mp ha) (List.mem_reverse.mp hb) (Nat.le_antisymm hba hab)
  · exact List.pairwise_reverse.mpr (hsorted.imp Nat.le_of_lt)

theorem mapM_load (runs : List ((String × LedgerRunRecord) × ℕ)) :
    (runs.map fun e => ledgerRow nums (e.2 + 1) e.1.1 e.1.2).mapM (LedgerRow.load nums) =
      some (runs.map fun e => ledgerRun (e.2 + 1) e.1.1 e.1.2) := by
  induction runs with
  | nil => rfl
  | cons e runs ih =>
    rw [List.map_cons,List.mapM_cons,load_ledgerRow,ih]
    rfl

theorem sqlLimit_map {α β : Type*} (limit : ℤ) (f : α → β) (rows : List α) :
    sqlLimit limit (rows.map f) = (sqlLimit limit rows).map f := by
  unfold sqlLimit
  split_ifs
  · rfl
  · exact List.map_take.symm

/-- After any history of recorded runs, a query tells of the task's runs as they were recorded, the
newest first, up to the limit, each under its number in the history. -/
theorem getRuns_recorded (history : List (String × LedgerRunRecord)) (taskId : Option String) (limit : ℤ) :
    (recorded nums history).getRuns nums taskId limit =
      some ((sqlLimit limit (history.zipIdx.filter fun e => taskId.all (e.1.2.taskId = ·)).reverse).map
        fun e => ledgerRun (e.2 + 1) e.1.1 e.1.2) := by
  have hsorted : ((recorded nums history).rows.filter (EvidenceLedger.ofTask taskId)).Pairwise fun a b => a.id < b.id :=
    (recorded_sorted history).1.filter _
  rw [EvidenceLedger.getRuns,mergeSort_rows hsorted,(recorded_rows history).2,List.filter_map,← List.map_reverse,
    sqlLimit_map,mapM_load]
  rfl

theorem failureKinds_recorded (history : List (String × LedgerRunRecord)) (taskId : Option String) :
    ((recorded nums history).failures taskId).map LedgerRow.failureKind =
      ((history.map Prod.snd).filter fun r => !r.success && r.failureKind ≠ "" && taskId.all (r.taskId = ·)).map
        LedgerRunRecord.failureKind := by
  rw [EvidenceLedger.failures,(recorded_rows history).2,List.filter_map,List.map_map]
  have hsame : history.map Prod.snd = history.zipIdx.map fun e => e.1.2 := by
    conv_lhs => rw [← List.zipIdx_map_fst 0 history,List.map_map]
    rfl
  rw [hsame,List.filter_map,List.map_map]
  refine congrArg _ (List.filter_congr fun e _ => ?_)
  have hflag (b : Bool) : decide (flag b = 0) = !b := by cases b <;> rfl
  show (decide (flag e.1.2.success = 0) && _ && _) = _
  rw [hflag]
  rfl

/-- Every failed run of a task that has a kind is counted once, under its kind. -/
theorem failure_patterns_recorded (history : List (String × LedgerRunRecord)) (taskId : Option String)
    (patterns : List (String × ℕ)) (h : (recorded nums history).FailurePatterns taskId patterns) :
    let failed := (history.map Prod.snd).filter fun r => !r.success && r.failureKind ≠ "" && taskId.all (r.taskId = ·)
    (patterns.map Prod.fst).Nodup ∧ (patterns.map Prod.snd).sum = failed.length ∧
      ∀ kind n, (kind,n) ∈ patterns ↔ 0 < n ∧ n = (failed.filter fun r => r.failureKind = kind).length := by
  intro failed
  obtain ⟨hperm,-⟩ := h
  rw [failureKinds_recorded] at hperm
  set kinds := failed.map LedgerRunRecord.failureKind with hkinds
  have hfst : (patterns.map Prod.fst).Perm kinds.dedup := by
    have hmap := hperm.map Prod.fst
    rwa [List.map_map,show Prod.fst ∘ (fun kind => (kind,kinds.count kind)) = id from rfl,List.map_id] at hmap
  have hsnd : (patterns.map Prod.snd).Perm (kinds.dedup.map kinds.count) := by
    have hmap := hperm.map Prod.snd
    rwa [List.map_map] at hmap
  have hcount (kind : String) : (failed.filter fun r => r.failureKind = kind).length = kinds.count kind := by
    rw [hkinds,List.count_eq_countP,List.countP_map,List.countP_eq_length_filter]
    rfl
  refine ⟨hfst.nodup_iff.mpr (List.nodup_dedup kinds),?_,fun kind n => ?_⟩
  · rw [hsnd.sum_eq,List.sum_map_count_dedup_eq_length,hkinds,List.length_map]
  · rw [hperm.mem_iff,List.mem_map,hcount]
    constructor
    · rintro ⟨kind',hkind',heq⟩
      obtain ⟨rfl,rfl⟩ := Prod.mk.inj heq
      exact ⟨List.count_pos_iff.mpr (List.mem_dedup.mp hkind'),rfl⟩
    · rintro ⟨hpos,rfl⟩
      exact ⟨kind,List.mem_dedup.mpr (List.count_pos_iff.mp hpos),rfl⟩

def failedRun (attempt : ℤ) (failureKind : String) : LedgerRunRecord where
  taskId := "T1_Si_vcrelax"
  taskType := "T1"
  attempt
  success := false
  inputHash := "abc123"
  walltimeSec := 5
  verifierPassed := false
  failureReasons := ["not converged"]
  recoveryActions := []
  failureKind
  evidencePath := ""
  outputFiles := []

def ledgerHistory : List (String × LedgerRunRecord) :=
  [("2026-01-01",failedRun 1 "scf"),("2026-01-02",failedRun 2 "walltime"),("2026-01-03",failedRun 3 "scf"),
    ("2026-01-04",failedRun 4 ""),("2026-01-05",{ failedRun 5 "scf" with success := true })]

theorem failure_patterns_sample :
    let failed := (ledgerHistory.map Prod.snd).filter fun r =>
      !r.success && r.failureKind ≠ "" && (some "T1_Si_vcrelax").all (r.taskId = ·)
    ∀ kind n, (kind,n) ∈ [("scf",2),("walltime",1)] ↔ 0 < n ∧ n = (failed.filter fun r => r.failureKind = kind).length :=
  (@failure_patterns_recorded sampleNumbers ledgerHistory (some "T1_Si_vcrelax") [("scf",2),("walltime",1)]
    ⟨by decide,by decide⟩).2.2

end History

end DftForge.Qe
