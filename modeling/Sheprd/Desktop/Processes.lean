import Sheprd.Lib.Dict
import Sheprd.Lib.Visits

namespace Sheprd.Desktop.Processes

open Sheprd.Lib

structure Identity where
  pid : ℕ
  started : ℕ
  deriving DecidableEq

structure Entry (F : Type) where
  identity : Identity
  parent : Option ℕ
  name : String
  command : String
  cpu : Option F
  memory : ℕ

structure Row (F : Type) where
  entry : Entry F
  depth : ℕ
  foreground : Bool

structure Listing (F : Type) where
  rows : List (Row F)
  hidden : ℕ
  cpu : F
  memory : ℕ

variable {F : Type}

def Entry.pid (entry : Entry F) : ℕ := entry.identity.pid

def Listing.root (listing : Listing F) : Option Identity :=
  listing.rows.head?.map fun row => row.entry.identity

def Listing.contains (listing : Listing F) (identity : Identity) : Bool :=
  listing.rows.any fun row => row.entry.identity = identity

def newestFirst (a b : Entry F) : Prop :=
  b.identity.started < a.identity.started ∨
    b.identity.started = a.identity.started ∧ b.identity.pid ≤ a.identity.pid

instance : DecidableRel (newestFirst (F := F)) := fun _ _ => inferInstanceAs (Decidable (_ ∨ _))

section Walk

variable [Zero F] [Add F]

def Listing.add (foreground : List ℕ) (limit : ℕ) (listing : Listing F) (visit : Entry F × ℕ) :
    Listing F :=
  let listing := { listing with
    cpu := listing.cpu + visit.1.cpu.getD 0
    memory := min (listing.memory + visit.1.memory) (2 ^ 64 - 1) }
  if listing.rows.length = limit then { listing with hidden := listing.hidden + 1 }
  else
    { listing with
      rows := listing.rows ++ [⟨visit.1, visit.2, foreground.contains visit.1.pid⟩] }

def walk (foreground : List ℕ) (limit : ℕ) :
    ℕ → Dict ℕ (List (Entry F)) → List (Entry F × ℕ) → Listing F → Option (Listing F)
  | 0, _, _, _ => none
  | _ + 1, _, [], listing => some listing
  | turns + 1, children, (entry, depth) :: stack, listing =>
    let below := (children.lookup entry.pid).getD []
    walk foreground limit turns (children.erase entry.pid)
      ((below.map (·, depth + 1)).reverse ++ stack) (listing.add foreground limit (entry, depth))

def listing (order : List (Entry F) → List (Entry F)) (entries : List (Entry F)) (root : ℕ)
    (foreground : List ℕ) (limit : ℕ) : Option (Listing F) := do
  let byPid := Dict.collect Entry.pid id entries
  let rootEntry ← byPid.lookup root
  let values := order ((byPid.erase root).entries.map Sigma.snd)
  let children := (Dict.group Entry.parent values).mapValues (List.insertionSort newestFirst)
  walk foreground limit (entries.length + 1) children [(rootEntry, 0)] ⟨[], 0, 0, 0⟩

end Walk

inductive Refusal where
  | exited
  | root
  | elsewhere
  | rootExited

abbrev Table := Dict ℕ (Option ℕ × ℕ)

def climb (table : Table) (root : ℕ) : ℕ → Option ℕ → Except Refusal Unit
  | 0, _ => .error .elsewhere
  | _ + 1, none => .error .elsewhere
  | turns + 1, some pid =>
    if pid = root then .ok ()
    else climb table root turns ((table.lookup pid).bind fun process => process.1)

def check (table : Table) (root victim : Identity) : Except Refusal Unit :=
  if victim.pid = root.pid then .error .root
  else if (table.lookup root.pid).map (fun process => process.2) ≠ some root.started then
    .error .rootExited
  else
    match table.lookup victim.pid with
    | none => .error .exited
    | some (parent, started) =>
      if started ≠ victim.started then .error .exited
      else climb table root.pid table.entries.length parent

def table (entries : List (Entry F)) : Table :=
  Dict.collect Entry.pid (fun entry => (entry.parent, entry.identity.started)) entries

inductive Chain (entries : List (Entry F)) (root : ℕ) : Entry F → ℕ → Prop where
  | root {entry : Entry F} : entry ∈ entries → entry.pid = root → Chain entries root entry 0
  | child {entry parent : Entry F} {depth : ℕ} : Chain entries root parent depth →
      entry ∈ entries → entry.pid ≠ root → entry.parent = some parent.pid →
      Chain entries root entry (depth + 1)

def below (entries : List (Entry F)) (root : ℕ) (entry : Entry F) : List (Entry F) :=
  ((entries.filter fun child => child.pid ≠ root ∧ child.parent = some entry.pid).insertionSort
    newestFirst).reverse

end Sheprd.Desktop.Processes
