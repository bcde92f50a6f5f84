import Sheprd.Lib.Dict
import Sheprd.Lib.JsonText

namespace Sheprd.Review.Viewing

open Lib

def maxCheckouts : ℕ := 64
def maxFiles : ℕ := 4096
def maxFieldBytes : ℕ := 1024
def maxFileBytes : ℕ := (maxFiles + 2 * maxCheckouts) * (2 * maxFieldBytes + 64)

abbrev Counts := Option UInt32 × Option UInt32

structure Mark where
  path : String
  added : Option UInt32
  removed : Option UInt32
  deriving DecidableEq

structure Checkout where
  place : String
  branch : String
  files : List Mark

def fits (field : String) : Bool := field ≠ "" && field.utf8ByteSize ≤ maxFieldBytes

namespace Checkout

def is (checkout : Checkout) (place branch : String) : Bool := checkout.place = place && checkout.branch = branch

def valid (checkout : Checkout) : Bool :=
  fits checkout.place && fits checkout.branch && checkout.files ≠ [] &&
    checkout.files.all fun mark => fits mark.path

end Checkout

section Saving

def countOf : Option Value → Option (Option UInt32)
  | none => some none
  | some .null => some none
  | some value => value.asNat.bind fun n => if n < 2 ^ 32 then some (some (.ofNat n)) else none

def countValue : Option UInt32 → Value
  | none => .null
  | some n => .number n.toNat.repr

def textOf (value : Value) (key : String) : Option String := (value.get key).bind Value.asStr

def Mark.toValue (mark : Mark) : Value :=
  .object [("path", .string mark.path), ("added", countValue mark.added), ("removed", countValue mark.removed)]

def Mark.ofValue (value : Value) : Option Mark := do
  let path ← textOf value "path"
  let added ← countOf (value.get "added")
  let removed ← countOf (value.get "removed")
  return { path, added, removed }

def Checkout.toValue (checkout : Checkout) : Value :=
  .object [("place", .string checkout.place), ("branch", .string checkout.branch),
    ("files", .array (checkout.files.map Mark.toValue))]

def Checkout.ofValue (value : Value) : Option Checkout := do
  let place ← textOf value "place"
  let branch ← textOf value "branch"
  let files ← (value.get "files").bind Value.asArray
  let files ← files.mapM Mark.ofValue
  return { place, branch, files }

def savedValue (checkouts : List Checkout) : Value :=
  .object [("checkouts", .array (checkouts.map Checkout.toValue))]

def savedOf (value : Value) : Option (List Checkout) := do
  let checkouts ← (value.get "checkouts").bind Value.asArray
  checkouts.mapM Checkout.ofValue

def total (checkouts : List Checkout) : ℕ := (checkouts.map fun checkout => checkout.files.length).sum

inductive Error where
  | json
  | invalidViewed

def parse (json : Json) (text : List Char) : Except Error (List Checkout) :=
  match (json.read text).bind savedOf with
  | none => .error .json
  | some checkouts =>
      if maxCheckouts < checkouts.length ∨ maxFiles < total checkouts ∨ ¬ checkouts.all Checkout.valid then
        .error .invalidViewed
      else .ok checkouts

def savedText (json : Json) (checkouts : List Checkout) : List Char := json.print (savedValue checkouts) ++ ['\n']

end Saving

def get (checkouts : List Checkout) (place branch : String) : Dict String Counts :=
  match checkouts.find? (·.is place branch) with
  | some checkout => Dict.collect Mark.path (fun mark => (mark.added, mark.removed)) checkout.files
  | none => ∅

def marksOf (files : Dict String Counts) : List Mark :=
  let marks := (files.entries.map fun entry => (⟨entry.1, entry.2.1, entry.2.2⟩ : Mark)).filter fun mark =>
    fits mark.path
  (marks.mergeSort fun a b => decide (a.path ≤ b.path)).take maxFiles

def evict : List Checkout → List Checkout
  | [] => []
  | checkout :: rest =>
      if maxCheckouts < rest.length + 1 ∨ maxFiles < total (checkout :: rest) then evict rest
      else checkout :: rest

def set (checkouts : List Checkout) (place branch : String) (files : Dict String Counts) : List Checkout × Bool :=
  if !fits place || !fits branch then (checkouts, false)
  else
    let marks := marksOf files
    let old := checkouts.find? (·.is place branch)
    if old.any (·.files = marks) || (old.isNone && marks = []) then (checkouts, false)
    else
      let others := checkouts.eraseP (·.is place branch)
      (evict (if marks = [] then others else others ++ [{ place, branch, files := marks }]), true)

def mark (checkouts : List Checkout) (place branch path : String) (counts : Counts) : List Checkout × Bool :=
  set checkouts place branch ((get checkouts place branch).insert path counts)

def unmark (checkouts : List Checkout) (place branch : String) (marks : List (String × Counts)) :
    List Checkout × Bool :=
  set checkouts place branch
    (marks.foldl (fun files (path, counts) =>
      if files.lookup path = some counts then files.erase path else files) (get checkouts place branch))

inductive Op where
  | mark (place branch path : String) (counts : Counts)
  | unmark (place branch : String) (marks : List (String × Counts))

def apply (checkouts : List Checkout) : Op → List Checkout
  | .mark place branch path counts => (mark checkouts place branch path counts).1
  | .unmark place branch marks => (unmark checkouts place branch marks).1

def run (ops : List Op) : List Checkout := ops.foldl apply []

end Sheprd.Review.Viewing
