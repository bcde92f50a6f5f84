import Sheprd.Review.Lines

namespace Sheprd.Review

open Lib

abbrev Chars := List Char

inductive Unreadable where
  | change
  | file
  | notFile
  | tooLarge

inductive Body where
  | pending
  | loaded (lines : Lines)
  | binary
  | large
  | failed (reason : Unreadable)

def strip (front text : Chars) : Option Chars :=
  if front.isPrefixOf text then some (text.drop front.length) else none

def rfind (pattern : Chars) : Chars → Option Chars
  | [] => none
  | c :: rest =>
      match rfind pattern rest with
      | some found => some found
      | none => if pattern.isPrefixOf (c :: rest) then some (c :: rest) else none

section Names

variable (repair : List UInt8 → Chars)

def fromUtf8Lossy (bytes : List UInt8) : Chars :=
  match String.fromUTF8? ⟨bytes.toArray⟩ with
  | some text => text.toList
  | none => repair bytes

def octal (byte : UInt8) : Bool := 48 ≤ byte && byte ≤ 55

def escaped (byte : UInt8) : UInt8 :=
  if byte = 97 then 7
  else if byte = 98 then 8
  else if byte = 116 then 9
  else if byte = 110 then 10
  else if byte = 118 then 11
  else if byte = 102 then 12
  else if byte = 114 then 13
  else byte

def unquoteBytes : List UInt8 → List UInt8
  | [] => []
  | [first] => [first]
  | [first, escape] => if first = 92 then [escaped escape] else first :: unquoteBytes [escape]
  | [first, escape, second] =>
      if first = 92 then escaped escape :: unquoteBytes [second] else first :: unquoteBytes [escape, second]
  | first :: escape :: second :: third :: rest =>
      if first = 92 then
        if 48 ≤ escape ∧ escape ≤ 51 ∧ octal second ∧ octal third then
          ((escape - 48) <<< 6 ||| (second - 48) <<< 3 ||| (third - 48)) :: unquoteBytes rest
        else escaped escape :: unquoteBytes (second :: third :: rest)
      else first :: unquoteBytes (escape :: second :: third :: rest)

def unquote (quoted : Chars) : Chars :=
  fromUtf8Lossy repair (unquoteBytes (quoted.flatMap String.utf8EncodeChar))

def path (text lead : Chars) : Chars :=
  let text := Text.trimEndMatches '\r' text
  let name := match (Text.stripPrefix ['"'] text).bind (Text.stripSuffix ['"']) with
    | some quoted => unquote repair quoted
    | none => (Text.stripSuffix ['\t'] text).getD text
  (strip lead name).getD name

def headerName (header : Chars) : Chars :=
  let at' := if header.getLast? = some '"' then rfind [' ', '"', 'b', '/'] header
    else rfind [' ', 'b', '/'] header
  path repair ((at'.map (List.drop 1)).getD header) ['b', '/']

end Names

def parseU32 (text : Chars) : Option ℕ := (Text.decimal text).filter fun n => decide (n < 2 ^ 32)

def hunkMark : Chars := ['@', '@', ' ']

def hunkStart (part : Option Chars) (sign : Char) : Option ℕ := do
  let digits ← Text.stripPrefix [sign] (← part)
  parseU32 (← (Text.splitOn [','] digits).head?)

def hunkStarts (header : Chars) : Option (ℕ × ℕ) := do
  let parts := Text.splitOn [' '] (← strip hunkMark header)
  return (← hunkStart parts[0]? '-', ← hunkStart parts[1]? '+')

structure Parsed where
  path : Chars
  oldPath : Option Chars
  status : Status
  body : Body

structure Open where
  path : Chars
  oldPath : Option Chars := none
  status : Status := .modified
  lines : Lines := {}
  binary : Bool := false
  hunk : Option (ℕ × ℕ) := none

def content (old new : ℕ) (raw : Chars) : Option (Kind × Option ℕ × Option ℕ × Chars) :=
  match raw with
  | ' ' :: text => some (.context, some old, some new, text)
  | '+' :: text => some (.added, none, some new, text)
  | '-' :: text => some (.removed, some old, none, text)
  | '\\' :: _ => some (.remark, none, none, raw)
  | _ => none

def advanced (old new : ℕ) (oldNumber newNumber : Option ℕ) : ℕ × ℕ :=
  (if oldNumber.isSome then saturatingAdd old 1 else old,
    if newNumber.isSome then saturatingAdd new 1 else new)

namespace Open

def close (file : Open) : Parsed where
  path := file.path
  oldPath := file.oldPath
  status := file.status
  body := if file.binary then .binary else .loaded file.lines.finish

def header (repair : List UInt8 → Chars) (file : Open) (raw : Chars) : Open :=
  match strip ['+', '+', '+', ' '] raw with
  | some name =>
      if name ≠ "/dev/null".toList then { file with path := Review.path repair name ['b', '/'] } else file
  | none =>
      if "new file mode".toList.isPrefixOf raw ∨ "copy from".toList.isPrefixOf raw then
        { file with status := .added }
      else if "deleted file mode".toList.isPrefixOf raw then { file with status := .deleted }
      else
        match strip "rename from ".toList raw with
        | some from' => { file with status := .renamed, oldPath := some (Review.path repair from' []) }
        | none =>
            if "Binary files".toList.isPrefixOf raw ∨ raw = "GIT binary patch".toList then
              { file with binary := true }
            else file

def line (repair : List UInt8 → Chars) (file : Open) (raw : Chars) : Open :=
  if hunkMark.isPrefixOf raw then
    { file with hunk := hunkStarts raw, lines := (file.lines.push .hunk none none raw).2 }
  else
    match file.hunk with
    | none => file.header repair raw
    | some (old, new) =>
        match content old new raw with
        | none => file
        | some (kind, oldNumber, newNumber, text) =>
            let (pushed, lines) := file.lines.push kind oldNumber newNumber text
            { file with lines, hunk := if pushed then advanced old new oldNumber newNumber else (old, new) }

end Open

def fileMark : Chars := "diff --git ".toList

def parseLine (repair : List UInt8 → Chars) (state : List Parsed × Option Open) (raw : Chars) :
    List Parsed × Option Open :=
  match strip fileMark raw with
  | some header => (state.1 ++ (state.2.map Open.close).toList, some { path := headerName repair header })
  | none => (state.1, state.2.map fun file => file.line repair raw)

def rawLines (text : Chars) : List Chars :=
  (Text.splitOn ['\n'] text).map fun raw => (Text.stripSuffix ['\r'] raw).getD raw

def parse (repair : List UInt8 → Chars) (text : Chars) : List Parsed :=
  let state := (rawLines text).foldl (parseLine repair) ([], none)
  state.1 ++ (state.2.map Open.close).toList

structure FileDiff where
  path : String
  gitPath : Chars
  oldPath : Option String := none
  status : Status
  body : Body := .pending

namespace FileDiff

def new (path : Chars) (status : Status) : FileDiff where
  path := pushClean path
  gitPath := path
  status := status

def lines (file : FileDiff) : Option Lines :=
  match file.body with
  | .loaded lines => some lines
  | _ => none

end FileDiff

inductive RowId where
  | header (file : ℕ)
  | line (file line : ℕ)

def RowId.file : RowId → ℕ
  | header file => file
  | line file _ => file

inductive Side where
  | added
  | removed
  | unchanged
  deriving DecidableEq

inductive Anchor where
  | file (path : String)
  | line (path : String) (side : Side) (number : ℕ) (code : String) (before : Option String)
  deriving DecidableEq

def Anchor.path : Anchor → String
  | file path => path
  | line path _ _ _ _ => path

structure Diff where
  files : List FileDiff
  before : String

namespace Diff

def parse (repair : List UInt8 → Chars) (text : Chars) : Diff where
  files := (Review.parse repair text).map fun parsed =>
    { FileDiff.new parsed.path parsed.status with
      oldPath := parsed.oldPath.map pushClean, body := parsed.body }
  before := ""

def sideOf (line : Line) : Option (Side × ℕ) :=
  match line.kind with
  | .added => line.new.map fun number => (.added, number)
  | .removed => line.old.map fun number => (.removed, number)
  | .context => line.new.map fun number => (.unchanged, number)
  | _ => none

def anchor (diff : Diff) (row : RowId) : Option Anchor := do
  let file ← diff.files[row.file]?
  match row with
  | .header _ => some (.file file.path)
  | .line _ line =>
      let lines ← file.lines
      let found ← lines.lines[line]?
      let (side, number) ← sideOf found
      some (.line file.path side number found.text (if side = .removed then some diff.before else none))

def paths (diff : Diff) : String → Option ℕ :=
  diff.files.zipIdx.foldl (fun paths (file, index) path =>
    if path = file.path then (paths path).or (some index) else paths path) fun _ => none

def onSide (side : Side) (number : ℕ) (line : Line) : Bool :=
  match side with
  | .added => line.kind = .added && line.new = some number
  | .removed => line.kind = .removed && line.old = some number
  | .unchanged => line.kind = .context && line.new = some number

def rowOf (diff : Diff) (paths : String → Option ℕ) (anchor : Anchor) : Option RowId := do
  let file ← paths anchor.path
  match anchor with
  | .file _ => some (.header file)
  | .line _ side number _ _ =>
      let entry ← diff.files[file]?
      let lines ← entry.lines
      let line ← lines.lines.findIdx? (onSide side number)
      if diff.anchor (.line file line) = some anchor then some (.line file line) else none

end Diff

end Sheprd.Review
