import Sheprd.Lib.Files

namespace Sheprd.Updater

open Sheprd.Lib Sheprd.Lib.Exec

inductive Mode where
  | linux
  | mac
  deriving DecidableEq

def CURRENT : String := "Sheprd.app"

inductive Error (Path : Type) where
  | io (error : IoError)
  | recoveryExists
  | recoveryChanged
  | missingDestinationParent
  | replacementRollback (source rollback : IoError) (backup : Path)
  | replacementCleanup (source : IoError) (cleanup : Error Path) (backup : Path)
  | restartRecovery (source : Error Path) (recovery : IoError) (backup : Path)

def Error.namesBackup {Path : Type} : Error Path → Bool
  | replacementRollback .. | replacementCleanup .. | restartRecovery .. => true
  | _ => false

inductive Call where
  | backupExists
  | original
  | setAside
  | install
  | rollback
  | current
  | saved
  | cleanup
  | link
  | legacy
  | unlink
  | moveBack
  | restore
  | openParent
  | syncParent

section

variable {Path Contents : Type} [DecidableEq Path] (faults : Call → Option ℕ)

def removeLegacyLink (legacy : Path) : Exec IoError (Disk Path Contents) Unit := do
  match ← attempt (Files.symlinkMetadata (faults .legacy) legacy) with
  | .ok meta_ =>
      if meta_.isSymlink then Files.removeFile (faults .unlink) legacy else throw .alreadyExists
  | .error .notFound => pure ()
  | .error error => throw error

def isFile (e : Entry Contents) : Bool :=
  match e with
  | .file .. => true
  | _ => false

def removeFailedLinuxBackup (destination backup : Path) (original : Entry Contents) :
    Exec (Error Path) (Disk Path Contents) Unit := do
  let current ← mapErr .io (Files.symlinkMetadata (faults .current) destination)
  let saved ← mapErr .io (Files.symlinkMetadata (faults .saved) backup)
  refuse (!isFile original || !current.sameFile original || !saved.sameFile original) .recoveryChanged
  mapErr .io (Files.removeFile (faults .cleanup) backup)

def linkLegacy (legacy : Path) : Exec (Error Path) (Disk Path Contents) Unit :=
  mapErr .io (Files.symlink (faults .link) CURRENT legacy)

def setAside (mode : Mode) (destination backup : Path) : Exec (Error Path) (Disk Path Contents) Unit :=
  match mode with
  | .linux => mapErr .io (Files.hardLink (faults .setAside) destination backup)
  | .mac => mapErr .io (Files.rename (faults .setAside) destination backup)

def undoSetAside (mode : Mode) (destination backup : Path) (original : Entry Contents)
    (error : IoError) : Exec (Error Path) (Disk Path Contents) Unit := do
  if mode = .mac then
    match ← attempt (Files.rename (faults .rollback) backup destination) with
    | .error rollback => throw (.replacementRollback error rollback backup)
    | .ok () => pure ()
  else
    match ← attempt (removeFailedLinuxBackup faults destination backup original) with
    | .error cleanup => throw (.replacementCleanup error cleanup backup)
    | .ok () => pure ()
  throw (.io error)

def undoInstall (moved : Bool) (destination target candidate backup : Path) (error : Error Path) :
    Exec (Error Path) (Disk Path Contents) Unit := do
  let undo : Exec IoError (Disk Path Contents) Unit := do
    when moved (removeLegacyLink faults destination)
    Files.rename (faults .moveBack) target candidate
    Files.rename (faults .restore) backup destination
  match ← attempt undo with
  | .error recovery => throw (.restartRecovery error recovery backup)
  | .ok () => throw error

def syncParent (parent : Option Path) : Exec (Error Path) (Disk Path Contents) Unit := do
  let _ ← require parent .missingDestinationParent
  mapErr .io (Files.sync (faults .openParent))
  mapErr .io (Files.sync (faults .syncParent))

def replace (parent : Option Path) (destination target candidate backup : Path) (mode : Mode)
    (launch : Except (Error Path) Unit) : Exec (Error Path) (Disk Path Contents) Unit := do
  let moved := decide (target ≠ destination)
  if ← mapErr .io (Files.tryExists (faults .backupExists) backup) then throw .recoveryExists
  let original ← mapErr .io (Files.symlinkMetadata (faults .original) destination)
  setAside faults mode destination backup
  match ← attempt (Files.rename (faults .install) candidate target) with
  | .error error => undoSetAside faults mode destination backup original error
  | .ok () =>
      let start : Exec (Error Path) (Disk Path Contents) Unit := do
        when moved (linkLegacy faults destination)
        lift id launch
      match ← attempt start with
      | .error error => undoInstall faults moved destination target candidate backup error
      | .ok () => syncParent faults parent

end

end Sheprd.Updater
