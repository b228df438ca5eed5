import DftForge.Library.Fallible
import DftForge.Python.Paths
import DftForge.Web.EnvFile

/-! # The files of a session

Each session of the web interface has a directory of its own. Session ids and the paths of artifacts
come from the client, and the directories may hold symbolic links.
-/
namespace DftForge.Web
open DftForge.Library DftForge.Library.RealPaths DftForge.Python EnvFile
variable {F : Type}

def isIdChar (c : Char) : Bool := c.isAlphanum || c = '_' || c = '-'

/-- `_SAFE_SESSION_ID`; its `$` also stands before a line feed at the end. -/
def safeSessionId (id : Text) : Bool :=
  let token := if id.getLast? = some '\n' then id.dropLast else id
  0 < token.length && token.length ≤ 64 && token.all isIdChar

inductive Refusal where
  | http (error : HttpError)
  /-- A loop of links raises. -/
  | raised

section Files
variable (d : Disk F) (workdir : Path FileName)

/-- `_session_dir`. -/
def sessionDir (id : Text) : Except Refusal (List FileName) :=
  if safeSessionId id then
    match d.resolve workdir, d.resolve (workdir.join (pathOf id)) with
    | some root, some session =>
      if session.dropLast = root then .ok session else .error (.http ⟨400,"Invalid session id".toList⟩)
    | _, _ => .error .raised
  else .error (.http ⟨400,"Invalid session id".toList⟩)

/-- `_inside_session`. -/
def insideSession (session : List FileName) (value : Text) : Except Refusal (List FileName) :=
  let dir : Path FileName := ⟨true,Tree.names session⟩
  match d.resolve (dir.join (pathOf value)), d.resolve dir with
  | some resolved, some root =>
    if root <+: resolved then .ok resolved else .error (.http ⟨400,"Artifact path escapes the session".toList⟩)
  | _, _ => .error .raised

/-- The content of a resolved path, if it is a file. -/
def fileResponse (path : List FileName) : Except Refusal F :=
  match d.stat ⟨true,Tree.names path⟩ with
  | some (.file content) =>
    if d.isSymlink path then .error (.http ⟨404,"Artifact not found".toList⟩) else .ok content
  | _ => .error (.http ⟨404,"Artifact not found".toList⟩)

/-- `download_session_artifact`: the content that is sent. -/
def downloadSessionArtifact (id value : Text) : Except Refusal F := do
  let session ← sessionDir d workdir id
  let path ← insideSession d session value
  fileResponse d path

/-- What `_session_artifacts` lists. -/
def Listed (session rest : List FileName) : Prop :=
  (∃ content, d.tree.entry (session ++ rest) = some (.file content)) ∧
    ∀ n ∈ rest.getLast?, n.1 ≠ "session.json".toList

variable {d workdir}

theorem safe_chars {id : Text} (h : safeSessionId id = true) : id ≠ [] ∧ ∀ c ∈ id, isIdChar c = true ∨ c = '\n' := by
  unfold safeSessionId at h
  simp only [Bool.and_eq_true,decide_eq_true_eq,List.all_eq_true] at h
  obtain ⟨⟨hlength,_⟩,hall⟩ := h
  split_ifs at hlength hall with hlast
  · obtain ⟨token,rfl⟩ := List.getLast?_eq_some_iff.mp hlast
    rw [List.dropLast_concat] at hall
    refine ⟨by simp,fun c hc => ?_⟩
    rcases List.mem_append.mp hc with hc | hc
    · exact Or.inl (hall c hc)
    · exact Or.inr (List.mem_singleton.mp hc)
  · exact ⟨List.ne_nil_of_length_pos hlength,fun c hc => Or.inl (hall c hc)⟩

theorem isFileName_of_safe {id : Text} (h : safeSessionId id = true) : IsFileName id := by
  obtain ⟨hne,hchars⟩ := safe_chars h
  have hnot {c : Char} (hc : (isIdChar c || c = '\n') = false) : c ∉ id := by
    intro hmem
    rcases hchars c hmem with h | h <;> simp [h] at hc
  have hdot : '.' ∉ id := hnot (by decide)
  refine ⟨hne,?_,?_,hnot (by decide)⟩
  · rintro rfl
    exact hdot List.mem_cons_self
  · rintro rfl
    exact hdot List.mem_cons_self

theorem sessionDir_spec {id : Text} {session : List FileName} (h : sessionDir d workdir id = .ok session) :
    safeSessionId id = true ∧ d.resolve (workdir.join (pathOf id)) = some session ∧
      d.resolve workdir = some session.dropLast := by
  unfold sessionDir at h
  split_ifs at h with hsafe
  split at h
  · next root place hroot hplace =>
    split_ifs at h with hparent
    obtain rfl := Except.ok.inj h
    exact ⟨hsafe,hplace,by rw [hroot,hparent]⟩
  · cases h

theorem insideSession_spec {session path : List FileName} {value : Text} (hsession : d.tree.Clear session)
    (h : insideSession d session value = .ok path) : session <+: path ∧ d.tree.Clear path := by
  unfold insideSession at h
  dsimp only at h
  rw [d.resolve_place hsession] at h
  split at h
  · next resolved root hresolved hroot =>
    obtain rfl := Option.some.inj hroot
    split_ifs at h with hinitial
    obtain rfl := Except.ok.inj h
    exact ⟨hinitial,d.resolve_clear hresolved⟩
  · cases h

theorem insideSession_relative {session rest : List FileName} (hclear : d.tree.Clear (session ++ rest)) :
    insideSession d session (relativeText rest) = .ok (session ++ rest) := by
  have hdir := d.resolve_place (hclear.initial (List.prefix_append _ _))
  unfold insideSession
  rw [pathOf_relativeText]
  dsimp only
  rw [d.resolve_join hdir hclear,hdir]
  exact if_pos (List.prefix_append _ _)

theorem fileResponse_eq_ok {path : List FileName} {content : F} (hclear : d.tree.Clear path) :
    fileResponse d path = .ok content ↔ d.tree.entry path = some (.file content) := by
  unfold fileResponse Disk.isSymlink
  rw [d.stat_place hclear]
  cases he : d.tree.entry path with
  | none => simp
  | some e => cases e <;> simp [Entry.isLink]

/-- Whatever the client asks for and whatever links lie about, a download is a file of the session's own directory, which
lies directly under the working directory; and every file that is listed can be downloaded by its path. -/
theorem session_files_confined {id : Text} {session : List FileName} (hdir : sessionDir d workdir id = .ok session) :
    (∃ n : FileName, n.1 = id ∧ d.resolve workdir = some session.dropLast ∧
      (d.isSymlink (session.dropLast ++ [n]) = false → session = session.dropLast ++ [n])) ∧
    (∀ value content, downloadSessionArtifact d workdir id value = .ok content →
      ∃ rest, d.tree.entry (session ++ rest) = some (.file content)) ∧
    ∀ rest, Listed d session rest → ∃ content, d.tree.entry (session ++ rest) = some (.file content) ∧
      downloadSessionArtifact d workdir id (relativeText rest) = .ok content := by
  obtain ⟨hsafe,hplace,hroot⟩ := sessionDir_spec hdir
  have hclear := d.resolve_clear hplace
  refine ⟨⟨⟨id,isFileName_of_safe hsafe⟩,rfl,hroot,fun hlink => ?_⟩,fun value content hdownload => ?_,fun rest hlisted => ?_⟩
  · have hown : d.tree.Clear (session.dropLast ++ [⟨id,isFileName_of_safe hsafe⟩]) := by
      refine (hclear.initial (List.dropLast_prefix session)).concat fun e he => ?_
      unfold Disk.isSymlink at hlink
      rw [he] at hlink
      exact hlink
    have hjoin := d.resolve_join hroot hown
    rw [← pathOf_name,hplace] at hjoin
    exact Option.some.inj hjoin
  · obtain ⟨session',hdir',hdownload⟩ := bind_eq_ok.mp hdownload
    obtain rfl := Except.ok.inj (hdir.symm.trans hdir')
    obtain ⟨path,hpath,hdownload⟩ := bind_eq_ok.mp hdownload
    obtain ⟨⟨rest,rfl⟩,hreached⟩ := insideSession_spec hclear hpath
    exact ⟨rest,(fileResponse_eq_ok hreached).mp hdownload⟩
  · obtain ⟨⟨content,hentry⟩,_⟩ := hlisted
    have hreached := Tree.clear_of_entry hentry rfl
    exact ⟨content,hentry,bind_eq_ok.mpr ⟨session,hdir,bind_eq_ok.mpr ⟨session ++ rest,insideSession_relative hreached,
      (fileResponse_eq_ok hreached).mpr hentry⟩⟩⟩

end Files

section Stop
variable (d : Disk F)

theorem isFileName_graphs : IsFileName "graphs".toList := by decide

def graphsDir (session : List FileName) : List FileName := session ++ [⟨_,isFileName_graphs⟩]

/-- The keys of the cached engines that `cancel_graphs_under` cancels; a loop of links ends it, and `cancel_session` drops
the exception. -/
def cancelGraphsUnder (base : List FileName) : List Text → List Text
  | [] => []
  | key :: rest =>
    match d.resolve (pathOf key) with
    | none => []
    | some workdir => if base <+: workdir then key :: cancelGraphsUnder base rest else cancelGraphsUnder base rest

variable {d} {workdir : Path FileName}

theorem graphsDir_prefix_iff {a b root : List FileName} (ha : a.dropLast = root) (hb : b.dropLast = root) (hroot : root ≠ []) :
    a <+: graphsDir b ↔ a = b := by
  have hparent {c : List FileName} (hc : c.dropLast = root) : ∃ n, c = root ++ [n] := by
    have hne : c ≠ [] := by
      rintro rfl
      exact hroot hc.symm
    exact ⟨c.getLast hne,by rw [← hc,List.dropLast_append_getLast hne]⟩
  obtain ⟨m,rfl⟩ := hparent ha
  obtain ⟨n,rfl⟩ := hparent hb
  constructor
  · intro hinitial
    unfold graphsDir at hinitial
    rw [List.append_assoc,List.prefix_append_right_inj,List.cons_append,List.cons_prefix_cons] at hinitial
    rw [hinitial.1]
  · intro heq
    rw [heq]
    exact List.prefix_append _ _

/-- A stop cancels the engine of its own session and of no other. -/
theorem stop_cancels_own {sessions : List (Text × List FileName)} {id : Text} {session : List FileName}
    (hid : sessionDir d workdir id = .ok session) (hroot : session.dropLast ≠ [])
    (hsessions : ∀ s ∈ sessions, sessionDir d workdir s.1 = .ok s.2 ∧ d.isSymlink (graphsDir s.2) = false) :
    cancelGraphsUnder d session (sessions.map fun s => placeText (graphsDir s.2)) =
      (sessions.filter fun s => s.2 = session).map fun s => placeText (graphsDir s.2) := by
  obtain ⟨_,_,hworkdir⟩ := sessionDir_spec hid
  induction sessions with
  | nil => rfl
  | cons s rest ih =>
    obtain ⟨hdir,hlink⟩ := hsessions s List.mem_cons_self
    obtain ⟨_,hplace,hworkdir'⟩ := sessionDir_spec hdir
    have hparent : s.2.dropLast = session.dropLast := Option.some.inj (hworkdir'.symm.trans hworkdir)
    have hclear : d.tree.Clear (graphsDir s.2) := by
      refine (d.resolve_clear hplace).concat fun e he => ?_
      unfold Disk.isSymlink at hlink
      unfold graphsDir at hlink
      rw [he] at hlink
      exact hlink
    have hinitial := graphsDir_prefix_iff rfl hparent hroot
    rw [List.map_cons,cancelGraphsUnder,pathOf_placeText,d.resolve_place hclear]
    dsimp only
    rw [ih fun s' hs' => hsessions s' (List.mem_cons_of_mem s hs')]
    by_cases heq : s.2 = session
    · rw [if_pos (hinitial.mpr heq.symm),List.filter_cons_of_pos (by simpa using heq),List.map_cons]
    · rw [if_neg fun h => heq (hinitial.mp h).symm,List.filter_cons_of_neg (by simpa using heq)]

end Stop

section Sample

theorem isFileName_work : IsFileName "work".toList := by decide

theorem isFileName_session : IsFileName "s1".toList := by decide

theorem isFileName_log : IsFileName "run.log".toList := by decide

theorem isFileName_out : IsFileName "out".toList := by decide

def workName : FileName := ⟨_,isFileName_work⟩

def sessionName : FileName := ⟨_,isFileName_session⟩

def logName : FileName := ⟨_,isFileName_log⟩

def outName : FileName := ⟨_,isFileName_out⟩

/-- `/work/s1/run.log`, beside a link to the directory above. -/
def sampleTree : Tree FileName Text :=
  ((((Tree.bare.put [] workName .dir rfl (ne_dir rfl)).put [workName] sessionName .dir rfl (ne_dir rfl)).put [workName,sessionName] logName
    (.file "done".toList) rfl (ne_dir rfl)).put [workName,sessionName] outName (.link ⟨false,[.up]⟩) rfl (ne_dir rfl))

def sampleDisk : Disk Text := ⟨sampleTree,[],Tree.clear_nil,rfl,40⟩

def sampleWorkdir : Path FileName := ⟨true,Tree.names [workName]⟩

theorem sample_session : sessionDir sampleDisk sampleWorkdir "s1".toList = .ok [workName,sessionName] := by
  have hdir : sampleDisk.tree.entry [workName] = some .dir := rfl
  have hdir' : sampleDisk.tree.entry [workName,sessionName] = some .dir := rfl
  have hwork : sampleDisk.resolve sampleWorkdir = some [workName] := Disk.resolve_place (Tree.clear_of_entry hdir rfl)
  have hsession : sampleDisk.resolve (sampleWorkdir.join (pathOf sessionName.1)) = some [workName,sessionName] := by
    rw [pathOf_name]
    exact Disk.resolve_place (Tree.clear_of_entry hdir' rfl)
  have hsafe : safeSessionId "s1".toList = true := by decide
  have hname : sessionName.1 = "s1".toList := rfl
  rw [hname] at hsession
  rw [sessionDir,if_pos hsafe,hwork,hsession]
  rfl

/-- What is downloaded lies in the session, and its log is. -/
theorem sample_files_confined : (∀ value content, downloadSessionArtifact sampleDisk sampleWorkdir "s1".toList value = .ok content →
      ∃ rest, sampleDisk.tree.entry ([workName,sessionName] ++ rest) = some (.file content)) ∧
    ∃ content, downloadSessionArtifact sampleDisk sampleWorkdir "s1".toList "run.log".toList = .ok content := by
  obtain ⟨_,hdownloads,hlisted⟩ := session_files_confined sample_session
  have hlog : Listed sampleDisk [workName,sessionName] [logName] := by
    refine ⟨⟨"done".toList,rfl⟩,fun n hn => ?_⟩
    obtain rfl := Option.some.inj hn
    decide
  obtain ⟨content,_,hcontent⟩ := hlisted [logName] hlog
  exact ⟨hdownloads,content,hcontent⟩

theorem sample_stop : cancelGraphsUnder sampleDisk [workName,sessionName] [placeText (graphsDir [workName,sessionName])] =
    [placeText (graphsDir [workName,sessionName])] := by
  have hsessions : ∀ s ∈ [("s1".toList,[workName,sessionName])], sessionDir sampleDisk sampleWorkdir s.1 = .ok s.2 ∧
      sampleDisk.isSymlink (graphsDir s.2) = false := by
    intro s hs
    rw [List.mem_singleton.mp hs]
    exact ⟨sample_session,rfl⟩
  simpa using stop_cancels_own sample_session (List.cons_ne_nil _ _) hsessions

end Sample

end DftForge.Web
