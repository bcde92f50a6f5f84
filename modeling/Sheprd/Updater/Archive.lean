import Sheprd.Lib.Confined
import Sheprd.Updater.Apply

namespace Sheprd.Updater.Archive

open Sheprd.Lib Sheprd.Lib.Exec Sheprd.Lib.Sys

def LIMIT : ℕ := 1024 * 1024 * 1024

def LEGACY : OsStr := ascii "Herdr.app"

def ROOTS : List OsStr := [LEGACY, ascii CURRENT]

inductive Error where
  | io (error : IoError)
  | cancelled
  | archiveEntryLimit
  | archivePath
  | linuxPayload
  | outsideBundle
  | expandedArchiveLimit
  | missingLinkTarget
  | archiveSymlink
  | directoryData
  | payloadNotExecutable
  | archiveEntryType
  | trailingArchiveData
  | archiveSymlinkParent
  | symlinkEscape
  | emptyArchive
  -- A subtraction below zero, which ends the program.
  | underflow

inductive Kind where
  | file
  | directory
  | symlink
  | other
  deriving DecidableEq

structure Entry where
  path : Except IoError OsStr
  kind : Kind
  linkName : Except IoError (Option OsStr)
  size : ℕ
  perm : Except IoError ℕ
  reads : List (List UInt8)

structure TarGz where
  entries : List (Except IoError Entry)
  trailing : List (List UInt8)
  limit : ℕ

structure HashOrder where
  visit : List (List OsStr) → List (List OsStr)
  perm : ∀ set, (visit set).Perm set

def safePath (path : OsStr) : Bool :=
  !path.isEmpty && decide (path.length ≤ 4096) && (components path).all Component.isNormal

def linkDepth : List Component → ℕ → Option ℕ
  | [], depth => some depth
  | .normal _ :: rest, depth => linkDepth rest (depth + 1)
  | .curDir :: rest, depth => linkDepth rest depth
  | .parentDir :: rest, depth => if depth > 1 then linkDepth rest (depth - 1) else none
  | .rootDir :: _, _ => none

def safeLink (path target : OsStr) : Option Bool :=
  if target.isEmpty || decide (target.length > 4096) then some false
  else
    match (components path).length with
    | 0 => none
    | depth + 1 => some ((linkDepth (components target) depth).any fun depth => decide (depth ≥ 1))

def names (path : OsStr) : List OsStr := (components path).filterMap Component.name?

def parents (path : List OsStr) : List (List OsStr) := path.dropLast.inits.filter (· ≠ [])

def limited : ℕ → List (List UInt8) → List (List UInt8)
  | _, [] => []
  | left, read :: reads =>
      let chunk := read.take left
      if chunk = [] then [] else chunk :: limited (left - chunk.length) reads

structure Progress where
  index : ℕ
  seen : List (List OsStr)
  distributionDirectories : List (List OsStr)
  links : List (List OsStr × OsStr)
  bundleRoot : Option OsStr
  expanded : ℕ

def Progress.start : Progress where
  index := 0
  seen := []
  distributionDirectories := []
  links := []
  bundleRoot := none
  expanded := 0

def checkedAdd (a b : ℕ) : Option ℕ := if a + b < 2 ^ 64 then some (a + b) else none

section

variable (faults : ℕ → Option Failure) (maxLinks : ℕ) (root : Place)

def check : Exec Error Sys Unit := mapErr (fun _ => .cancelled) (call faults)

def os {α : Type} (m : Exec IoError Sys α) : Exec Error Sys α := mapErr .io m

def copy (file : Spot) : List (List UInt8) → Exec Error Sys Unit
  | [] => do
      check faults
      os (call faults)
  | chunk :: chunks => do
      check faults
      os (call faults)
      os (write faults file chunk)
      copy file chunks

def bundleOf (path : List OsStr) (bundleRoot : Option OsStr) : Exec Error Sys OsStr := do
  let name ← require (ROOTS.find? fun name => path.head? = some name) .outsideBundle
  refuse (bundleRoot.any fun root => decide (root ≠ name)) .outsideBundle
  return name

def extractFile (mode : Mode) (path : List OsStr) (entry : Entry) : Exec Error Sys Unit := do
  os (createDirAll faults maxLinks root 0o700 path.dropLast)
  let perm ← lift .io entry.perm
  let executable := decide (perm &&& 0o111 ≠ 0)
  refuse (mode = .linux ∧ executable = false) .payloadNotExecutable
  let file ← os (createNew faults maxLinks root (if executable then 0o700 else 0o600) path)
  copy faults file (limited entry.size entry.reads)
  os (chmod faults file (if executable then 0o755 else 0o644))
  os (call faults)

def payloadRoot (mode : Mode) (name source : OsStr) (kind : Kind) (bundleRoot : Option OsStr) :
    Exec Error Sys (Option OsStr) :=
  match mode with
  | .linux => do
      refuse (components source ≠ components name ∨ kind ≠ .file) .linuxPayload
      return bundleRoot
  | .mac => do
      let bundle ← bundleOf (names source) bundleRoot
      return some bundle

def storeEntry (mode : Mode) (source : OsStr) (entry : Entry) (p : Progress) : Exec Error Sys Progress := do
  let path := names source
  if entry.kind = .symlink ∧ mode = .mac then
    let link ← lift .io entry.linkName
    let target ← require link .missingLinkTarget
    let safe ← require (safeLink source target) .underflow
    refuse (!safe || decide (entry.size ≠ 0)) .archiveSymlink
    return { p with links := p.links ++ [(path, target)] }
  else if entry.kind = .directory ∧ mode = .mac then
    refuse (entry.size ≠ 0) .directoryData
    os (createDirAll faults maxLinks root 0o700 path)
    return { p with distributionDirectories := p.distributionDirectories.insert path }
  else if entry.kind = .file then
    extractFile faults maxLinks root mode path entry
    return p
  else throw .archiveEntryType

def extractEntry (mode : Mode) (name : OsStr) (p : Progress) (entry : Entry) :
    Exec Error Sys Progress := do
  let source ← lift .io entry.path
  let path := names source
  refuse (!safePath source || decide (path ∈ p.seen)) .archivePath
  let bundleRoot ← payloadRoot mode name source entry.kind p.bundleRoot
  let expanded ← require ((checkedAdd p.expanded entry.size).filter (· ≤ LIMIT)) .expandedArchiveLimit
  storeEntry faults maxLinks root mode source entry
    { p with
      seen := path :: p.seen
      distributionDirectories := parents path ∪ p.distributionDirectories
      bundleRoot
      expanded }

def extractEntries (mode : Mode) (name : OsStr) (p : Progress) :
    List (Except IoError Entry) → Exec Error Sys Progress
  | [] => pure p
  | entry :: entries => do
      check faults
      refuse (p.index ≥ 20000) .archiveEntryLimit
      let entry ← lift .io entry
      let p ← extractEntry faults maxLinks root mode name p entry
      extractEntries mode name { p with index := p.index + 1 } entries

def checkTrailing : List (List UInt8) → Exec Error Sys Unit
  | [] => do
      check faults
      os (call faults)
  | bytes :: more => do
      check faults
      os (call faults)
      refuse (bytes.any (· ≠ 0)) .trailingArchiveData
      checkTrailing more

def shareDirectories : List (List OsStr) → Exec Error Sys Unit
  | [] => pure ()
  | path :: paths => do
      check faults
      os (createDirAll faults maxLinks root 0o700 path)
      os (setPermissions faults maxLinks root 0o755 (path.map .normal))
      shareDirectories paths

def makeLinks : List (List OsStr × OsStr) → Exec Error Sys Unit
  | [] => pure ()
  | (path, target) :: links => do
      os (createDirAll faults maxLinks root 0o700 path.dropLast)
      os (symlink faults maxLinks root target path)
      makeLinks links

def checkLinks (bundleRoot : Option OsStr) : List (List OsStr × OsStr) → Exec Error Sys Unit
  | [] => pure ()
  | (path, _) :: links => do
      let found ← os (canonicalize faults maxLinks root (path.map .normal))
      let bundle ← require bundleRoot .emptyArchive
      let bundle ← os (canonicalize faults maxLinks root [.normal bundle])
      refuse (!bundle.place.isPrefixOf found.place) .symlinkEscape
      checkLinks bundleRoot links

def candidateOf (mode : Mode) (name : OsStr) (bundleRoot : Option OsStr) :
    Exec Error Sys (List Component) :=
  match mode with
  | .mac => do
      let bundle ← require bundleRoot .emptyArchive
      return [.normal bundle]
  | .linux => return components name

def extract (order : HashOrder) (archive : TarGz) (mode : Mode) (name : OsStr) :
    Exec Error Sys (List Component) := do
  os (call faults)
  os (call faults)
  let p ← extractEntries faults maxLinks root mode name .start archive.entries
  checkTrailing faults archive.trailing
  refuse (archive.limit = 0) .expandedArchiveLimit
  let linkPaths := p.links.map Prod.fst
  refuse (p.seen.any fun path => (parents path).any fun parent => decide (parent ∈ linkPaths))
    .archiveSymlinkParent
  shareDirectories faults maxLinks root (order.visit p.distributionDirectories)
  makeLinks faults maxLinks root p.links
  checkLinks faults maxLinks root p.bundleRoot p.links
  let candidate ← candidateOf mode name p.bundleRoot
  refuse p.seen.isEmpty .emptyArchive
  let there ← os (exists_ faults maxLinks root candidate)
  refuse (!there) .emptyArchive
  return candidate

end

end Sheprd.Updater.Archive
