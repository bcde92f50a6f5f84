import Sheprd.Lib.Files

namespace Sheprd.Lib

abbrev OsStr := List UInt8

def ascii (s : String) : OsStr := s.toList.map fun c => UInt8.ofNat c.toNat

inductive Component where
  | rootDir
  | curDir
  | parentDir
  | normal (name : OsStr)
  deriving DecidableEq

namespace Component

def isNormal : Component → Bool
  | normal _ => true
  | _ => false

def name? : Component → Option OsStr
  | normal name => some name
  | _ => none

def ofPart (part : OsStr) : Option Component :=
  if part = [] ∨ part = ascii "." then none
  else if part = ascii ".." then some parentDir
  else some (normal part)

end Component

def slash : UInt8 := 47

def components (path : OsStr) : List Component :=
  let parts := path.splitOn slash
  (if path.head? = some slash then [.rootDir]
    else if parts.head? = some (ascii ".") then [.curDir] else []) ++
    parts.filterMap Component.ofPart

lemma not_mem_of_mem_splitOn {α : Type} [DecidableEq α] {mark : α} {text part : List α}
    (h : part ∈ text.splitOn mark) : mark ∉ part := by
  induction text generalizing part with
  | nil =>
    obtain rfl : part = [] := by simpa [List.splitOn] using h
    exact List.not_mem_nil
  | cons c text ih =>
    rw [List.splitOn, List.splitOnP_cons_eq_if_modifyHead] at h
    split at h
    · rcases List.mem_cons.mp h with rfl | h
      · exact List.not_mem_nil
      · exact ih h
    · rename_i hc
      cases hparts : text.splitOnP (· == mark) with
      | nil =>
        rw [hparts] at h
        cases h
      | cons first parts =>
        rw [hparts, List.modifyHead_cons] at h
        rcases List.mem_cons.mp h with rfl | h
        · have hfirst : mark ∉ first := ih (by simp [List.splitOn, hparts])
          have hne : mark ≠ c := fun heq => hc (by simp [heq])
          simp [hne, hfirst]
        · exact ih (by simp [List.splitOn, hparts, h])

inductive Node where
  | directory (perm : ℕ)
  | file (perm : ℕ) (data : List UInt8)
  | link (target : OsStr)

abbrev Place := List OsStr

abbrev Tree := Place → Option Node

def ELOOP : ℕ := 62

structure Spot where
  place : Place
  linked : Bool

namespace Tree

def through (tree : Tree) (follow : Place → List Component → Except IoError Spot) :
    Place → List Component → Except IoError Spot
  | at_, [] => .ok ⟨at_, false⟩
  | _, .rootDir :: rest => through tree follow [] rest
  | at_, .curDir :: rest => through tree follow at_ rest
  | at_, .parentDir :: rest => through tree follow at_.dropLast rest
  | at_, .normal name :: rest =>
      match tree (at_ ++ [name]) with
      | none => .error .notFound
      | some (.directory _) => through tree follow (at_ ++ [name]) rest
      | some (.file ..) => if rest = [] then .ok ⟨at_ ++ [name], false⟩ else .error .wrongKind
      | some (.link target) =>
          (follow at_ (components target ++ rest)).map fun spot => { spot with linked := true }

def walk (tree : Tree) : ℕ → Place → List Component → Except IoError Spot
  | 0 => through tree fun _ _ => .error (.fault ELOOP)
  | links + 1 => through tree (walk tree links)

def isDirectory (tree : Tree) (place : Place) : Bool :=
  match tree place with
  | some (.directory _) => true
  | _ => false

end Tree

structure Failure where
  error : IoError
  done : ℕ

structure Sys where
  tree : Tree
  calls : ℕ
  changes : List Spot
  written : ℕ

namespace Sys

def start (tree : Tree) : Sys where
  tree := tree
  calls := 0
  changes := []
  written := 0

def change (s : Sys) (spot : Spot) (node : Node) : Sys :=
  { s with tree := Function.update s.tree spot.place (some node), changes := spot :: s.changes }

open Exec

section

variable (faults : ℕ → Option Failure) (links : ℕ)

def call : Exec IoError Sys Unit := do
  let s ← get
  set { s with calls := s.calls + 1 }
  match faults s.calls with
  | some failure => throw failure.error
  | none => pure ()

def create (dir : Place) (names : List OsStr) (node : Node) : Exec IoError Sys Spot := do
  call faults
  let name ← require names.getLast? .alreadyExists
  let s ← get
  let parent ← lift id (s.tree.walk links dir (names.dropLast.map .normal))
  refuse (!s.tree.isDirectory parent.place) .wrongKind
  refuse (s.tree (parent.place ++ [name])).isSome .alreadyExists
  let spot := { parent with place := parent.place ++ [name] }
  set (s.change spot node)
  return spot

def mkdir (dir : Place) (perm : ℕ) (names : List OsStr) : Exec IoError Sys Unit := do
  let _ ← create faults links dir names (.directory perm)

def createNew (dir : Place) (perm : ℕ) (names : List OsStr) : Exec IoError Sys Spot :=
  create faults links dir names (.file perm [])

def symlink (dir : Place) (target : OsStr) (names : List OsStr) : Exec IoError Sys Unit := do
  let _ ← create faults links dir names (.link target)

def canonicalize (dir : Place) (path : List Component) : Exec IoError Sys Spot := do
  call faults
  lift id ((← get).tree.walk links dir path)

def exists_ (dir : Place) (path : List Component) : Exec IoError Sys Bool := do
  return (← attempt (canonicalize faults links dir path)).isOk

def isDir (dir : Place) (path : List Component) : Exec IoError Sys Bool := do
  match ← attempt (canonicalize faults links dir path) with
  | .ok spot => return (← get).tree.isDirectory spot.place
  | .error _ => return false

def write (file : Spot) (bytes : List UInt8) : Exec IoError Sys Unit := do
  let s ← get
  let failure := faults s.calls
  let put := (failure.map fun f => bytes.take f.done).getD bytes
  match s.tree file.place with
  | some (.file perm data) =>
      set { s.change file (.file perm (data ++ put)) with
        calls := s.calls + 1, written := s.written + put.length }
  | _ => throw .notFound
  match failure with
  | some failure => throw failure.error
  | none => pure ()

def chmod (spot : Spot) (perm : ℕ) : Exec IoError Sys Unit := do
  call faults
  let s ← get
  match s.tree spot.place with
  | some (.directory _) => set (s.change spot (.directory perm))
  | some (.file _ data) => set (s.change spot (.file perm data))
  | _ => throw .notFound

def setPermissions (dir : Place) (perm : ℕ) (path : List Component) : Exec IoError Sys Unit := do
  let spot ← lift id ((← get).tree.walk links dir path)
  chmod faults spot perm

def mkdirOrIs (dir : Place) (perm : ℕ) (names : List OsStr) : Exec IoError Sys Unit := do
  match ← attempt (mkdir faults links dir perm names) with
  | .ok () => pure ()
  | .error error =>
      if ← isDir faults links dir (names.map .normal) then pure () else throw error

def createDirAllRev (dir : Place) (perm : ℕ) : List OsStr → Exec IoError Sys Unit
  | [] => mkdirOrIs faults links dir perm []
  | name :: above => do
      match ← attempt (mkdir faults links dir perm (name :: above).reverse) with
      | .ok () => pure ()
      | .error .notFound =>
          createDirAllRev dir perm above
          mkdirOrIs faults links dir perm (name :: above).reverse
      | .error error =>
          if ← isDir faults links dir ((name :: above).reverse.map .normal) then pure ()
          else throw error

def createDirAll (dir : Place) (perm : ℕ) (names : List OsStr) : Exec IoError Sys Unit :=
  createDirAllRev faults links dir perm names.reverse

end

end Sys

end Sheprd.Lib
