import Sheprd.Lib.Exec
import Sheprd.Lib.Text
import Sheprd.Lib.Tree

namespace Sheprd.Client.Upload

open Lib Lib.Exec Lib.Text

def lineLimit : ℕ := 4096

def pathLimit : ℕ := 256

def chunk : ℕ := 65536

def u64Max : ℕ := 2 ^ 64 - 1

inductive Error where
  | pathLimit
  | name
  | open_ (error : String)
  | metadata (error : String)
  | notFile
  | sizeOverflow
  | cancelled
  | timeout
  | response
  | sourceChanged
  | exit
  | cleanupPath
  | io (error : String)
  | cleanup (source cleanup : Error)

structure StagedUpload where
  directory : String
  file : Option String

section Paths

def isPlain (name : List Char) : Bool :=
  name != [] && name != ".".toList && name != "..".toList

def hasControl (text : String) : Bool := text.toList.any isControl

def rsplitOnce (mark : Char) (text : List Char) : Option (List Char × List Char) :=
  (splitOnce mark text.reverse).map fun (back, front) => (front.reverse, back.reverse)

def directoryMark : List Char := "herdr-upload.".toList

def isDirectoryName (name : List Char) : Bool :=
  directoryMark.isPrefixOf name &&
    (name.drop directoryMark.length).length == 12 &&
    (name.drop directoryMark.length).all Char.isAlphanum

def validDirectory (dir : String) : Bool :=
  dir.toList.head? == some '/' &&
    !(lineLimit < dir.utf8ByteSize || hasControl dir) &&
    (splitOn ['/'] dir.toList.tail).all isPlain &&
    (splitOn ['/'] dir.toList).getLast?.any isDirectoryName

def uploadedDirectory (path : String) : Option String :=
  if lineLimit < path.utf8ByteSize || hasControl path then none
  else
    match rsplitOnce '/' path.toList with
    | none => none
    | some (dir, name) =>
      if validDirectory (.ofList dir) && isPlain name then some (.ofList dir) else none

def StagedUpload.validate (staged : StagedUpload) : Bool :=
  validDirectory staged.directory &&
    staged.file.all fun file => uploadedDirectory file == some staged.directory

def cleanupPath (path : String) : Except Error StagedUpload :=
  if lineLimit < path.utf8ByteSize then .error .cleanupPath
  else
    match rsplitOnce '/' path.toList with
    | none => .error .cleanupPath
    | some (dir, _) =>
      let staged : StagedUpload := ⟨.ofList dir, some path⟩
      if staged.validate then .ok staged else .error .cleanupPath

def cleanupPaths (paths : List String) : Except Error (List StagedUpload) :=
  if pathLimit < paths.length then .error .pathLimit else paths.mapM cleanupPath

def fileName (path : OsStr) : Option OsStr :=
  match (components path).getLast? with
  | some (.normal name) => some name
  | _ => none

def decode (bytes : List UInt8) : Option String := String.fromUTF8? ⟨bytes.toArray⟩

end Paths

section Environment

structure Stop where
  cancelled : Bool
  idle : Bool

inductive Read where
  | closed
  | byte (byte : UInt8)
  | again
  | failed (error : String)

inductive Write where
  | took (count : ℕ)
  | again
  | failed (error : String)

inductive Wait where
  | running
  | exited (success : Bool)
  | failed (error : String)

structure Remote where
  reads : List Read
  writes : List Write
  shutdown : Option String
  waits : List Wait

inductive SourceRead where
  | chunk (bytes : List UInt8)
  | again
  | failed (error : String)

structure Input where
  path : OsStr
  opened : Except String Unit
  metadata : Except String (Bool × ℕ)
  reads : List SourceRead

structure Source where
  name : String
  len : ℕ
  reads : List SourceRead

inductive Order where
  | receive (name : String) (len : ℕ)
  | cleanup
  deriving DecidableEq

structure Connection where
  order : Order
  lines : List String
  written : List UInt8
  finished : Bool

structure Record where
  owned : List StagedUpload
  sent : ℕ
  past : List Connection
  now : Option Connection
  progress : List (ℕ × ℕ)

namespace Record

def empty : Record := ⟨[], 0, [], none, []⟩

def connections (record : Record) : List Connection := record.past ++ record.now.toList

def opens (order : Order) (record : Record) : Record :=
  { record with past := record.connections, now := some ⟨order, [], [], false⟩ }

def onNow (f : Connection → Connection) (record : Record) : Record :=
  { record with now := record.now.map f }

def hears (line : String) : Record → Record :=
  onNow fun now => { now with lines := now.lines ++ [line] }

def writes (bytes : List UInt8) : Record → Record :=
  onNow fun now => { now with written := now.written ++ bytes }

def finishes : Record → Record := onNow fun now => { now with finished := true }

def reports (sent total : ℕ) (record : Record) : Record :=
  { record with progress := record.progress ++ [(sent, total)] }

def counts (total count : ℕ) (record : Record) : Record :=
  { record with sent := record.sent + count }.reports (record.sent + count) total

def owns (dir : String) (record : Record) : Record :=
  { record with owned := record.owned ++ [⟨dir, none⟩] }

def ownsFile (file : String) (record : Record) : Record :=
  { record with owned := record.owned.modifyLast fun staged => { staged with file := some file } }

end Record

structure World where
  checks : List Stop
  remotes : List (Except String Remote)
  remote : Remote
  record : Record

abbrev Uploading := Exec Error World

def recording (f : Record → Record) : Uploading Unit :=
  modify fun w => { w with record := f w.record }

def check (cancellable : Bool) : Uploading Unit := do
  let w ← get
  match w.checks with
  | [] => pure ()
  | stop :: checks =>
    set { w with checks := checks }
    refuse ((cancellable && stop.cancelled) = true) .cancelled
    refuse (stop.idle = true) .timeout

def setReads (reads : List Read) : Uploading Unit :=
  modify fun w => { w with remote := { w.remote with reads := reads } }

def setWrites (writes : List Write) : Uploading Unit :=
  modify fun w => { w with remote := { w.remote with writes := writes } }

def setWaits (waits : List Wait) : Uploading Unit :=
  modify fun w => { w with remote := { w.remote with waits := waits } }

end Environment

def spawn (order : Order) : Uploading Unit := do
  let w ← get
  match w.remotes with
  | [] => throw (.io "spawn")
  | .error error :: remotes =>
    set { w with remotes := remotes }
    throw (.io error)
  | .ok remote :: remotes =>
    set { w with remotes := remotes, remote := remote, record := w.record.opens order }

def readLine : List Read → List UInt8 → Uploading String
  | [], _ => do
    check true
    throw .response
  | read :: reads, bytes => do
    check true
    setReads reads
    match read with
    | .closed => throw .response
    | .byte byte =>
      if byte = 10 then require (decode bytes) .response
      else if lineLimit ≤ bytes.length then throw .response
      else readLine reads (bytes ++ [byte])
    | .again => readLine reads bytes
    | .failed error => throw (.io error)

def line : Uploading String := do
  let w ← get
  let text ← readLine w.remote.reads []
  recording (Record.hears text)
  pure text

def writeWith (cancellable : Bool) (written : ℕ → Record → Record) :
    List Write → List UInt8 → Uploading Unit
  | _, [] => pure ()
  | [], _ :: _ => do
    check cancellable
    throw (.io "write")
  | write :: writes, byte :: bytes => do
    check cancellable
    setWrites writes
    match write with
    | .took count =>
      let count := min count (bytes.length + 1)
      if count = 0 then throw (.io "write zero")
      else
        recording fun record => written count (record.writes ((byte :: bytes).take count))
        writeWith cancellable written writes ((byte :: bytes).drop count)
    | .again => writeWith cancellable written writes (byte :: bytes)
    | .failed error => throw (.io error)

def writeBytes (cancellable : Bool) (bytes : List UInt8) (written : ℕ → Record → Record) :
    Uploading Unit := do
  let w ← get
  writeWith cancellable written w.remote.writes bytes

def copy (total : ℕ) : List SourceRead → ℕ → Uploading Unit
  | [], remaining => do
    check true
    refuse (remaining ≠ 0) .sourceChanged
  | read :: reads, remaining => do
    check true
    let size := min remaining chunk
    match read with
    | .chunk bytes =>
      -- One extra byte detects growth without ever streaming beyond the length.
      let buffer := bytes.take (max size 1)
      if buffer = [] then refuse (remaining ≠ 0) .sourceChanged
      else if remaining = 0 then throw .sourceChanged
      else
        check true
        writeBytes true buffer (Record.counts total)
        copy total reads (remaining - buffer.length)
    | .again => copy total reads remaining
    | .failed error => throw (.io error)

def shutdown : Uploading Unit := do
  let w ← get
  match w.remote.shutdown with
  | none => pure ()
  | some error => throw (.io error)

def readEnd (waiting : Bool) : Uploading Bool := do
  let w ← get
  match w.remote.reads with
  | [] => pure true
  | read :: reads =>
    setReads reads
    match read with
    | .closed => pure true
    | .byte _ => throw .response
    | .again => pure waiting
    | .failed error => throw (.io error)

def readUnless (eof waiting : Bool) : Uploading Bool :=
  if eof then pure true else readEnd waiting

def finishWith (cancellable : Bool) : List Wait → Bool → Uploading Unit
  | [], _ => throw .timeout
  | wait :: waits, eof => do
    check cancellable
    let eof ← readUnless eof false
    setWaits waits
    match wait with
    | .failed error => throw (.io error)
    | .running => finishWith cancellable waits eof
    | .exited success =>
      refuse (success = false) .exit
      -- The child has exited: an end of the stream held open elsewhere is no reason to wait.
      let _ ← readUnless eof true

def finish (cancellable : Bool) : Uploading Unit := do
  let w ← get
  finishWith cancellable w.remote.waits false
  recording Record.finishes

def ready : String := "herdr-upload-ready:1"

def created : String := "herdr-upload-created:1"

def complete : String := "herdr-upload-complete:1"

def accept : List UInt8 := ascii "accept\n"

def Input.name (input : Input) : Option String :=
  ((fileName input.path).bind decode).filter fun name => !name.isEmpty && !hasControl name

def prepareOne (input : Input) : Uploading Source := do
  check true
  let name ← require input.name .name
  lift .open_ input.opened
  check true
  let (isFile, len) ← lift .metadata input.metadata
  refuse (isFile = false) .notFile
  pure ⟨name, len, input.reads⟩

def totalSize (sizes : List ℕ) : Except Error ℕ :=
  sizes.foldlM (fun total size =>
    if total + size ≤ u64Max then .ok (total + size) else .error .sizeOverflow) 0

def prepareAll : List Input → List Source → Uploading (List Source)
  | [], sources => pure sources
  | input :: inputs, sources => do
    let source ← prepareOne input
    prepareAll inputs (sources ++ [source])

def prepare (inputs : List Input) : Uploading (List Source × ℕ) := do
  let sources ← prepareAll inputs []
  check true
  let total ← lift id (totalSize (sources.map Source.len))
  pure (sources, total)

def uploadOne (total : ℕ) (source : Source) : Uploading String := do
  check true
  spawn (.receive source.name source.len)
  let greeting ← line
  refuse (greeting ≠ ready) .response
  let dir ← line
  refuse (validDirectory dir = false) .response
  let remote := dir ++ "/" ++ source.name
  recording (Record.owns dir)
  refuse (lineLimit < remote.utf8ByteSize) .response
  writeBytes true accept fun _ record => record
  let answer ← line
  refuse (answer ≠ created) .response
  let file ← line
  refuse (file ≠ remote) .response
  -- Until both lines arrive, rollback may only remove the empty directory.
  recording (Record.ownsFile remote)
  copy total source.reads source.len
  check true
  shutdown
  let answer ← line
  refuse (answer ≠ complete) .response
  let file ← line
  refuse (file ≠ remote) .response
  finish true
  pure remote

def uploadAll (total : ℕ) : List Source → List String → Uploading (List String)
  | [], paths => do
    check true
    pure paths
  | source :: sources, paths => do
    let remote ← uploadOne total source
    uploadAll total sources (paths ++ [remote])

def StagedUpload.lines (staged : StagedUpload) : List UInt8 :=
  (staged.directory ++ "\n" ++ staged.file.getD "" ++ "\n").toUTF8.data.toList

def writeStaged : List StagedUpload → Uploading Unit
  | [] => pure ()
  | staged :: owned => do
    writeBytes false staged.lines fun _ record => record
    writeStaged owned

def cleanup (owned : List StagedUpload) : Uploading Unit := do
  refuse (owned.all StagedUpload.validate = false) .cleanupPath
  if owned = [] then pure ()
  else
    spawn .cleanup
    writeStaged owned
    shutdown
    finish false

def upload (inputs : List Input) : Uploading (List String) := do
  let (sources, total) ← prepare inputs
  recording (Record.reports 0 total)
  let result ← attempt (uploadAll total sources [])
  match result with
  | .ok paths => pure paths
  | .error source =>
    let w ← get
    if w.record.owned = [] then throw source
    else
      let result ← attempt (cleanup w.record.owned)
      match result with
      | .ok () => throw source
      | .error error => throw (.cleanup source error)

def uploadFiles (inputs : List Input) : Uploading (List String) := do
  refuse (pathLimit < inputs.length) .pathLimit
  upload inputs

end Sheprd.Client.Upload

namespace Sheprd.Client.Upload

open Lib Lib.Text

variable {bytes : List UInt8} {text dir name : String}

lemma bytes_of_decode (h : decode bytes = some text) :
    bytes = text.toList.flatMap String.utf8EncodeChar := by
  rw [decode, String.fromUTF8?] at h
  split at h
  · have hbytes : text.toByteArray = ⟨bytes.toArray⟩ := by
      rw [← Option.some.inj h]
      rfl
    have hdata := congrArg (fun array => array.data.toList) (String.utf8Encode_toList (b := text))
    rw [hbytes] at hdata
    simpa [List.utf8Encode] using hdata.symm
  · cases h

structure IsName (name : String) : Prop where
  plain : isPlain name.toList = true
  separators : '/' ∉ name.toList
  controls : hasControl name = false

lemma normal_of_fileName {path : OsStr} (h : fileName path = some bytes) :
    bytes ≠ ascii "." ∧ bytes ≠ ascii ".." ∧ slash ∉ bytes := by
  rw [fileName] at h
  split at h
  · rename_i name hlast
    obtain rfl := Option.some.inj h
    have hmem := List.mem_of_getLast? hlast
    rw [components] at hmem
    rcases List.mem_append.mp hmem with hmem | hmem
    · split at hmem
      · simp at hmem
      · split at hmem <;> simp at hmem
    · obtain ⟨part, hpart, hof⟩ := List.mem_filterMap.mp hmem
      rw [Component.ofPart] at hof
      split at hof
      · cases hof
      · rename_i hplain
        split at hof
        · cases hof
        · rename_i hdots
          obtain rfl := Component.normal.inj (Option.some.inj hof)
          exact ⟨fun hdot => hplain (.inr hdot), hdots, not_mem_of_mem_splitOn hpart⟩
  · cases h

lemma isName_of_fileName {path : OsStr} (h : fileName path = some bytes)
    (hdecode : decode bytes = some name) (hempty : name.isEmpty = false)
    (hcontrols : hasControl name = false) : IsName name := by
  obtain ⟨hdot, hdots, hslash⟩ := normal_of_fileName h
  have hbytes := bytes_of_decode hdecode
  refine ⟨?_, fun hmem => hslash ?_, hcontrols⟩
  · simp only [isPlain, Bool.and_eq_true, bne_iff_ne]
    refine ⟨⟨fun hnil => ?_, fun heq => hdot ?_⟩, fun heq => hdots ?_⟩
    · rw [String.toList_eq_nil_iff] at hnil
      rw [hnil] at hempty
      cases hempty
    · rw [hbytes, heq]
      rfl
    · rw [hbytes, heq]
      rfl
  · rw [hbytes]
    exact List.mem_flatMap.mpr ⟨'/', hmem, by decide⟩

lemma rsplitOnce_append {mark : Char} {front back : List Char} (h : mark ∉ back) :
    rsplitOnce mark (front ++ mark :: back) = some (front, back) := by
  have hreverse : (front ++ mark :: back).reverse = back.reverse ++ mark :: front.reverse := by
    simp
  rw [rsplitOnce, hreverse, splitOnce_append (by simpa using h)]
  simp

lemma toList_join (dir name : String) : (dir ++ "/" ++ name).toList = dir.toList ++ '/' :: name.toList := by
  simp [String.toList_append]

lemma hasControl_join (hdir : hasControl dir = false) (hname : hasControl name = false) :
    hasControl (dir ++ "/" ++ name) = false := by
  rw [hasControl] at hdir hname ⊢
  rw [toList_join, List.any_append, List.any_cons, hdir, hname]
  rfl

lemma hasControl_of_validDirectory (h : validDirectory dir = true) : hasControl dir = false := by
  simp only [validDirectory, Bool.and_eq_true, Bool.not_eq_true', Bool.or_eq_false_iff] at h
  exact h.1.1.2.2

lemma uploadedDirectory_join (hdir : validDirectory dir = true) (hname : IsName name)
    (hsize : (dir ++ "/" ++ name).utf8ByteSize ≤ lineLimit) :
    uploadedDirectory (dir ++ "/" ++ name) = some dir := by
  have hcontrol := hasControl_join (hasControl_of_validDirectory hdir) hname.controls
  rw [uploadedDirectory, if_neg (by simpa [hcontrol] using hsize), toList_join,
    rsplitOnce_append hname.separators]
  simp [hdir, hname.plain]

lemma validate_join (hdir : validDirectory dir = true) (hname : IsName name)
    (hsize : (dir ++ "/" ++ name).utf8ByteSize ≤ lineLimit) :
    StagedUpload.validate ⟨dir, some (dir ++ "/" ++ name)⟩ = true := by
  simp [StagedUpload.validate, hdir, uploadedDirectory_join hdir hname hsize]

lemma cleanupPath_join (hdir : validDirectory dir = true) (hname : IsName name)
    (hsize : (dir ++ "/" ++ name).utf8ByteSize ≤ lineLimit) :
    cleanupPath (dir ++ "/" ++ name) = .ok ⟨dir, some (dir ++ "/" ++ name)⟩ := by
  rw [cleanupPath, if_neg (Nat.not_lt.mpr hsize), toList_join, rsplitOnce_append hname.separators]
  simp [validate_join hdir hname hsize]

end Sheprd.Client.Upload
