import Sheprd.Lib.Text

namespace Sheprd.Review

open Lib

def maxLineChars : ℕ := 16384

def maxFileLines : ℕ := 250000

def u32Max : ℕ := 2 ^ 32 - 1

def saturatingAdd (a b : ℕ) : ℕ := min (a + b) u32Max

inductive Kind where
  | hunk
  | context
  | added
  | removed
  -- Git's remarks, such as a missing final newline.
  | remark
  deriving DecidableEq

inductive Status where
  | modified
  | added
  | deleted
  | renamed
  | untracked
  deriving DecidableEq

structure Line where
  kind : Kind
  old : Option ℕ
  new : Option ℕ
  text : String

inductive SplitRow where
  | across (line : ℕ)
  | sides (left right : Option ℕ)
  deriving DecidableEq

structure Lines where
  lines : List Line := []
  hunks : List ℕ := []
  split : List SplitRow := []
  partners : List ℕ := []
  truncated : Bool := false
  bounded : lines.length ≤ maxFileLines := by exact Nat.zero_le _

def unsafeChar (c : Char) : Bool :=
  let n := c.toNat
  Text.isControl c || n = 0x061c || n = 0x200e || n = 0x200f || (0x202a ≤ n && n ≤ 0x202e) ||
    (0x2066 ≤ n && n ≤ 0x2069) || n = 0x2028 || n = 0x2029

def cleanFrom : ℕ → List Char → List Char
  | _, [] => []
  | kept, c :: rest =>
      if maxLineChars ≤ kept then ['…']
      else if c = '\t' then [' ', ' ', ' ', ' '] ++ cleanFrom (kept + 1) rest
      else if unsafeChar c then cleanFrom kept rest
      else c :: cleanFrom (kept + 1) rest

def pushClean (text : List Char) : String :=
  .ofList (cleanFrom 0 ((Text.stripSuffix ['\r'] text).getD text))

structure Pending where
  split : List SplitRow := []
  removed : List ℕ := []
  added : List ℕ := []

namespace Pending

def flush (pending : Pending) : List SplitRow :=
  pending.split ++ (List.range (max pending.removed.length pending.added.length)).map fun index =>
    .sides pending.removed[index]? pending.added[index]?

def line (pending : Pending) (kind : Kind) (index : ℕ) : Pending :=
  match kind with
  | .removed =>
      if pending.added ≠ [] then { split := pending.flush, removed := [index] }
      else { pending with removed := pending.removed ++ [index] }
  | .added => { pending with added := pending.added ++ [index] }
  | .context => { split := pending.flush ++ [.sides (some index) (some index)] }
  | .hunk => { split := pending.flush ++ [.across index] }
  | .remark => { split := pending.flush ++ [.across index] }

end Pending

def pending (lines : List Line) : Pending :=
  lines.zipIdx.foldl (fun pending (line, index) => pending.line line.kind index) {}

def splitRows (lines : List Line) : List SplitRow := (pending lines).flush

namespace Lines

def size (lines : Lines) : ℕ := (lines.lines.map fun line => line.text.utf8ByteSize).sum

def push (lines : Lines) (kind : Kind) (old new : Option ℕ) (text : List Char) : Bool × Lines :=
  if h : maxFileLines ≤ lines.lines.length ∨ u32Max / 2 ≤ lines.size then
    (false, { lines with truncated := true })
  else
    (true, { lines with
      hunks := if kind = .hunk then lines.hunks ++ [lines.lines.length] else lines.hunks
      lines := lines.lines ++ [{ kind, old, new, text := pushClean text }]
      bounded := by
        rw [List.length_append]
        exact not_le.mp (not_or.mp h).1 })

def pairUp (partners : List ℕ) (row : SplitRow) : List ℕ :=
  match row with
  | .sides (some left) (some right) =>
      if left ≠ right then (partners.set left (min right u32Max)).set right (min left u32Max)
      else partners
  | _ => partners

def finish (lines : Lines) : Lines :=
  let split := splitRows lines.lines
  { lines with
    split
    partners := split.foldl pairUp (List.replicate lines.lines.length u32Max) }

def partner (lines : Lines) (line : ℕ) : Option ℕ := lines.partners[line]?.filter (· ≠ u32Max)

end Lines

end Sheprd.Review
