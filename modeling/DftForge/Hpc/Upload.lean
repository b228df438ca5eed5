import DftForge.Library.Base64
import DftForge.Library.Fallible
import DftForge.Hpc.RemoteTool

/-! # The upload of a directory

`SSHExecutor._upload_dir`: the tar stream of the directory goes to the remote archive as
base64 text, one chunk with each command, and is decoded and unpacked there. Every
character of the archive is kept with where it comes from.
-/
namespace DftForge.Hpc.Upload
open DftForge.Library DftForge.Runtime DftForge.Python DftForge.Hpc

/-- `b64[i:i + _B64_CHUNK]` for `i` in `range(0, len(b64), _B64_CHUNK)`. -/
def chunks (b64 : Text) : List Text :=
  (List.range ((b64.length + (b64Chunk - 1)) / b64Chunk)).map fun i =>
    (b64.drop (i * b64Chunk)).take b64Chunk

/-- The local directory, and what `tar -C local_dir -chf - .` does with it. -/
structure LocalDir where
  path : Text
  isDir : Bool
  returncode : ℤ
  stdout : List UInt8
  stderr : Text

namespace LocalDir

def b64 (dir : LocalDir) : Text := Base64.encode dir.stdout

/-- What a run knows of it: the length of the text, or the error. -/
def packed (dir : LocalDir) : Except Text ℕ :=
  if dir.isDir = false then .error ("local dir not found: ".toList ++ dir.path)
  else if dir.returncode ≠ 0 then .error ("local tar failed: ".toList ++ dir.stderr.take 200)
  else .ok dir.b64.length

end LocalDir

/-- Where a character of the archive comes from: from before this upload, or from a chunk
of it. -/
inductive Origin where
  | leftOver
  | chunk (i : ℕ)
  deriving DecidableEq

abbrev Archive := List (Origin × Char)

/-- The answer of the runner to a command, or what it raises. -/
abbrev Reply := Except Text CommandResult

def Reply.Ok (reply : Reply) : Prop := ∃ res, reply = .ok res ∧ res.ok = true

/-- The command that appends a chunk. One that is answered without success may have
written a part of the chunk, or all of it. -/
structure Append where
  reply : Reply
  /-- How many characters of the chunk have arrived. -/
  written : ℕ
  ok_written : reply.Ok → b64Chunk ≤ written

/-- The remote side during one upload. -/
structure Remote where
  /-- The text of the archive before the upload, empty when there is no file. -/
  leftOver : Text
  prepare : Reply
  removed : Bool
  ok_removed : prepare.Ok → removed = true
  append : ℕ → Append
  unpack : Reply

/-- `base64 -d` of the remote side, which reads what `base64.b64encode` writes. -/
structure Decoder where
  decode : Text → List UInt8
  decode_encode : ∀ bytes, decode (Base64.encode bytes) = bytes

def ofChunk (i : ℕ) (text : Text) : Archive := text.map fun c => (.chunk i,c)

/-- The archive after `mkdir -p` and `rm -f`. -/
def Remote.prepared (remote : Remote) : Archive :=
  if remote.removed then [] else remote.leftOver.map fun c => (.leftOver,c)

/-- The loop over the chunks from number `i` on. The answers are not looked at. -/
def appendChunks (remote : Remote) : ℕ → List Text → Archive → Except Text Archive
  | _, [], archive => .ok archive
  | i, chunk :: rest, archive => do
    let _ ← (remote.append i).reply
    appendChunks remote (i + 1) rest (archive ++ ofChunk i (chunk.take (remote.append i).written))

/-- `_upload_dir`; what it returns is the archive that the last command decodes. -/
def uploadDir (dir : LocalDir) (remote : Remote) : Except Text Archive := do
  let _ ← dir.packed
  let _ ← remote.prepare
  let archive ← appendChunks remote 0 (chunks dir.b64) remote.prepared
  let res ← remote.unpack
  if res.ok then .ok archive else .error ("remote untar failed: ".toList ++ (strip res.stderr).take 200)

/-- The archive of this upload: each chunk once, in order. -/
def ownArchive (i : ℕ) (texts : List Text) : Archive :=
  (texts.zipIdx i).flatMap fun entry => ofChunk entry.2 entry.1

/-- An upload that returns has decoded its own chunks, and so its own tar stream. -/
def Complete (d : Decoder) (dir : LocalDir) (remote : Remote) : Prop :=
  ∀ archive, uploadDir dir remote = .ok archive →
    archive = ownArchive 0 (chunks dir.b64) ∧ d.decode (archive.map (·.2)) = dir.stdout

/-- Everything `_upload_dir` looks at is fine: the directory, the local `tar` and the answer to
the last command; and the runner raises nothing. -/
def Answered (dir : LocalDir) (remote : Remote) : Prop :=
  dir.isDir = true ∧ dir.returncode = 0 ∧ (∃ res, remote.prepare = .ok res) ∧
    (∀ i < (chunks dir.b64).length, ∃ res, (remote.append i).reply = .ok res) ∧ remote.unpack.Ok

/-- The old archive is gone, and every chunk has arrived as a whole. -/
def Arrived (dir : LocalDir) (remote : Remote) : Prop :=
  remote.prepared = [] ∧
    ∀ i (hi : i < (chunks dir.b64).length), (chunks dir.b64)[i].length ≤ (remote.append i).written

section Chunks

theorem flatten_slices {α : Type*} (l : List α) (size k : ℕ) :
    ((List.range k).map fun i => (l.drop (i * size)).take size).flatten = l.take (k * size) := by
  induction k with
  | zero => simp
  | succ k ih =>
    rw [List.range_succ,List.map_append,List.flatten_append,ih,Nat.succ_mul,List.take_add]
    simp

theorem flatten_chunks (b64 : Text) : (chunks b64).flatten = b64 := by
  rw [chunks,flatten_slices]
  apply List.take_of_length_le
  rw [b64Chunk]
  omega

theorem map_ownArchive (i : ℕ) (texts : List Text) : (ownArchive i texts).map (·.2) = texts.flatten := by
  induction texts generalizing i with
  | nil => rfl
  | cons chunk rest ih =>
    have hrest := ih (i + 1)
    rw [ownArchive] at hrest ⊢
    rw [List.zipIdx_cons,List.flatMap_cons,List.map_append,hrest,List.flatten_cons]
    simp [ofChunk]

theorem leftOver_notMem_ownArchive (i : ℕ) (texts : List Text) (c : Char) :
    (Origin.leftOver,c) ∉ ownArchive i texts := by
  simp [ownArchive,ofChunk]

end Chunks

section Uploads
variable {dir : LocalDir} {remote : Remote}

/-- What the appends leave of the chunks from number `i` on. -/
def arrived (remote : Remote) (i : ℕ) (texts : List Text) : Archive :=
  (texts.zipIdx i).flatMap fun entry => ofChunk entry.2 (entry.1.take (remote.append entry.2).written)

theorem arrived_cons (i : ℕ) (chunk : Text) (rest : List Text) :
    arrived remote i (chunk :: rest) =
      ofChunk i (chunk.take (remote.append i).written) ++ arrived remote (i + 1) rest := by
  rw [arrived,List.zipIdx_cons,List.flatMap_cons]
  rfl

theorem ownArchive_cons (i : ℕ) (chunk : Text) (rest : List Text) :
    ownArchive i (chunk :: rest) = ofChunk i chunk ++ ownArchive (i + 1) rest := by
  rw [ownArchive,List.zipIdx_cons,List.flatMap_cons]
  rfl

/-- The loop goes on whatever the answers say, unless the runner raises. -/
theorem appendChunks_eq_ok (i : ℕ) (texts : List Text) (archive archive' : Archive) :
    appendChunks remote i texts archive = .ok archive' ↔
      (∀ k < texts.length, ∃ res, (remote.append (i + k)).reply = .ok res) ∧
        archive' = archive ++ arrived remote i texts := by
  induction texts generalizing i archive with
  | nil =>
    simp [appendChunks,arrived,eq_comm]
  | cons chunk rest ih =>
    rw [appendChunks,bind_eq_ok,arrived_cons,← List.append_assoc]
    simp only [ih]
    constructor
    · rintro ⟨res,hres,hrest,heq⟩
      refine ⟨fun k hk => ?_,heq⟩
      cases k with
      | zero => exact ⟨res,hres⟩
      | succ k =>
        rw [show i + (k + 1) = i + 1 + k by omega]
        exact hrest k (by simpa using hk)
    · rintro ⟨hall,heq⟩
      obtain ⟨res,hres⟩ := hall 0 (by simp)
      refine ⟨res,hres,fun k hk => ?_,heq⟩
      rw [show i + 1 + k = i + (k + 1) by omega]
      exact hall (k + 1) (by simpa using hk)

theorem packed_eq_ok : (∃ length, dir.packed = .ok length) ↔ dir.isDir = true ∧ dir.returncode = 0 := by
  rw [LocalDir.packed]
  cases dir.isDir <;> by_cases hcode : dir.returncode = 0 <;> simp [hcode]

/-- The commands of an upload before the last. -/
theorem uploadCommands_packed {length : ℕ} (h : dir.packed = .ok length) :
    uploadCommands dir.packed = 1 + (chunks dir.b64).length := by
  rw [LocalDir.packed] at h ⊢
  split_ifs at h ⊢
  rw [uploadCommands,chunks,List.length_map,List.length_range,b64Chunk]
  omega

/-- An upload returns when all it looks at is fine, and leaves what has arrived. -/
theorem uploadDir_eq_ok (archive : Archive) :
    uploadDir dir remote = .ok archive ↔
      Answered dir remote ∧ archive = remote.prepared ++ arrived remote 0 (chunks dir.b64) := by
  rw [uploadDir,Answered,← and_assoc,← packed_eq_ok]
  simp only [bind_eq_ok,appendChunks_eq_ok,Nat.zero_add,Reply.Ok]
  constructor
  · rintro ⟨length,hpacked,res,hprepare,arch,⟨happends,rfl⟩,last,hunpack,hend⟩
    split_ifs at hend with hok
    cases hend
    exact ⟨⟨⟨length,hpacked⟩,⟨res,hprepare⟩,happends,last,hunpack,hok⟩,rfl⟩
  · rintro ⟨⟨⟨length,hpacked⟩,⟨res,hprepare⟩,happends,last,hunpack,hok⟩,rfl⟩
    exact ⟨length,hpacked,res,hprepare,_,⟨happends,rfl⟩,last,hunpack,by rw [if_pos hok]⟩

/-- An upload whose commands are all answered comes to what a run makes of the answer to
the last of them. -/
theorem uploadDir_answered {res₀ res : CommandResult} (hprepare : remote.prepare = .ok res₀)
    (happends : ∀ i < (chunks dir.b64).length, ∃ res, (remote.append i).reply = .ok res)
    (hunpack : remote.unpack = .ok res) :
    (uploadDir dir remote).map (fun _ => ()) = Hpc.uploadDir dir.packed res := by
  have hloop : appendChunks remote 0 (chunks dir.b64) remote.prepared =
      .ok (remote.prepared ++ arrived remote 0 (chunks dir.b64)) :=
    (appendChunks_eq_ok 0 _ _ _).mpr ⟨by simpa using happends,rfl⟩
  rw [uploadDir,hprepare,hunpack,hloop]
  cases hpacked : dir.packed with
  | error message => rfl
  | ok length => by_cases hok : res.ok = true <;> simp [Hpc.uploadDir,bind,Except.bind,Except.map,hok]

theorem length_arrived_le (i : ℕ) (texts : List Text) :
    (arrived remote i texts).length ≤ (ownArchive i texts).length := by
  induction texts generalizing i with
  | nil => exact Nat.le_refl 0
  | cons chunk rest ih =>
    have hrest := ih (i + 1)
    rw [arrived_cons,ownArchive_cons,List.length_append,List.length_append]
    simp only [ofChunk,List.length_map,List.length_take]
    omega

/-- The archive is that of this upload exactly when every chunk has arrived whole. -/
theorem arrived_eq_own_iff (i : ℕ) (texts : List Text) :
    arrived remote i texts = ownArchive i texts ↔
      ∀ k (hk : k < texts.length), texts[k].length ≤ (remote.append (i + k)).written := by
  induction texts generalizing i with
  | nil =>
    refine iff_of_true rfl fun k hk => ?_
    simp at hk
  | cons chunk rest ih =>
    rw [arrived_cons,ownArchive_cons]
    constructor
    · intro heq k hk
      have hrest : (arrived remote (i + 1) rest).length ≤ (ownArchive (i + 1) rest).length :=
        length_arrived_le (i + 1) rest
      have hlength := congrArg List.length heq
      simp only [ofChunk,List.length_append,List.length_map,List.length_take] at hlength
      have hchunk : chunk.length ≤ (remote.append i).written := by omega
      rw [List.take_of_length_le hchunk,List.append_cancel_left_eq,ih] at heq
      cases k with
      | zero => exact hchunk
      | succ k =>
        rw [show i + (k + 1) = i + 1 + k by omega]
        exact heq k (by simpa using hk)
    · intro hall
      have hchunk : chunk.length ≤ (remote.append i).written := hall 0 (by simp)
      rw [List.take_of_length_le hchunk,List.append_cancel_left_eq,ih]
      intro k hk
      rw [show i + 1 + k = i + (k + 1) by omega]
      exact hall (k + 1) (by simpa using hk)

theorem prepared_eq_nil : remote.prepared = [] ↔ remote.removed = true ∨ remote.leftOver = [] := by
  rw [Remote.prepared]
  split_ifs with hremoved
  · simp [hremoved]
  · simp [hremoved]

theorem prepared_arrived_eq_own_iff (texts : List Text) :
    remote.prepared ++ arrived remote 0 texts = ownArchive 0 texts ↔
      remote.prepared = [] ∧ arrived remote 0 texts = ownArchive 0 texts := by
  constructor
  · intro heq
    have hprepared : remote.prepared = [] := by
      refine List.eq_nil_iff_forall_not_mem.mpr fun entry hentry => ?_
      have hown : entry ∈ ownArchive 0 texts := heq ▸ List.mem_append_left _ hentry
      rw [Remote.prepared] at hentry
      split_ifs at hentry
      · simp at hentry
      · obtain ⟨c,-,rfl⟩ := List.mem_map.mp hentry
        exact leftOver_notMem_ownArchive 0 texts c hown
    rw [hprepared,List.nil_append] at heq
    exact ⟨hprepared,heq⟩
  · rintro ⟨hprepared,heq⟩
    rw [hprepared,heq,List.nil_append]

/-- Commands that are all answered with success leave nothing to chance. -/
theorem arrived_of_ok (hprepare : remote.prepare.Ok)
    (happends : ∀ i < (chunks dir.b64).length, (remote.append i).reply.Ok) : Arrived dir remote := by
  refine ⟨prepared_eq_nil.mpr (.inl (remote.ok_removed hprepare)),fun i hi => ?_⟩
  refine Nat.le_trans ?_ ((remote.append i).ok_written (happends i hi))
  simp [chunks]

variable (d : Decoder)

/-- An upload is complete or fails exactly when, should all it looks at be fine, the old
archive is gone and every chunk has arrived. -/
theorem upload_complete_iff (dir : LocalDir) (remote : Remote) :
    Complete d dir remote ↔ (Answered dir remote → Arrived dir remote) := by
  have hown : d.decode ((ownArchive 0 (chunks dir.b64)).map (·.2)) = dir.stdout := by
    rw [map_ownArchive,flatten_chunks]
    exact d.decode_encode dir.stdout
  have harrived : arrived remote 0 (chunks dir.b64) = ownArchive 0 (chunks dir.b64) ↔ _ :=
    arrived_eq_own_iff 0 (chunks dir.b64)
  simp only [Nat.zero_add] at harrived
  have hsame : remote.prepared ++ arrived remote 0 (chunks dir.b64) = ownArchive 0 (chunks dir.b64) ↔ _ :=
    prepared_arrived_eq_own_iff (chunks dir.b64)
  rw [harrived] at hsame
  constructor
  · intro hcomplete hanswered
    exact hsame.mp (hcomplete _ ((uploadDir_eq_ok _).mpr ⟨hanswered,rfl⟩)).1
  · intro h archive hreturn
    obtain ⟨hanswered,rfl⟩ := (uploadDir_eq_ok _).mp hreturn
    have heq := hsame.mpr (h hanswered)
    exact ⟨heq,by rw [heq]; exact hown⟩

def base64Decoder : Decoder := ⟨Base64.decode,Base64.decode_encode⟩

/-- The archive of an upload that failed before, and a first command that times out. -/
def repeatedUpload : Remote where
  leftOver := "b2xk".toList
  prepare := .ok (sshTimedOut "120.0".toList)
  removed := false
  ok_removed := by
    rintro ⟨res,hres,hok⟩
    cases hres
    cases hok
  append _ := ⟨.ok { exitCode := 0 },b64Chunk,fun _ => Nat.le_refl _⟩
  unpack := .ok { exitCode := 0 }

def newDir : LocalDir :=
  { path := "w".toList, isDir := true, returncode := 0, stdout := [110,101,119], stderr := [] }

/-- The old stream is unpacked before the new one. -/
theorem leftOver_unpacked : ¬Complete base64Decoder newDir repeatedUpload := by
  intro h
  have hreturn : uploadDir newDir repeatedUpload =
      .ok (repeatedUpload.prepared ++ ofChunk 0 "bmV3".toList) := by decide +kernel
  have hdecoded := (h _ hreturn).2
  revert hdecoded
  decide +kernel

end Uploads

end DftForge.Hpc.Upload
