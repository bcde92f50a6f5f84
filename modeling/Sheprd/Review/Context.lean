import Sheprd.Review.Diff

namespace Sheprd.Review

open Lib

def expandLines : ℕ := 200

def maxContextBytes : ℕ := 64 * 1024 * 1024

structure Gap where
  header : ℕ
  start : ℕ
  stop : ℕ
  shift : ℤ

namespace Gap

def len (gap : Gap) : ℕ := gap.stop - gap.start

def next (gap : Gap) : ℕ := max (gap.stop - expandLines) gap.start

def old (gap : Gap) (number : ℕ) : ℕ :=
  let before := number + gap.shift
  if 0 ≤ before ∧ before ≤ u32Max then before.toNat else 0

end Gap

def splitOnceText (pattern : Chars) : Chars → Option (Chars × Chars)
  | [] => none
  | c :: rest =>
      if pattern.isPrefixOf (c :: rest) then some ([], (c :: rest).drop pattern.length)
      else (splitOnceText pattern rest).map fun (front, back) => (c :: front, back)

def grownRange (part : Chars) (sign : Char) : Option (ℕ × ℕ) := do
  let part ← Text.stripPrefix [sign] part
  let (start, length) := (Text.splitOnce ',' part).getD (part, ['1'])
  return (← parseU32 start, ← parseU32 length)

def grownHeader (header : Chars) (added : ℕ) : Option Chars := do
  let rest ← strip hunkMark header
  let (ranges, tail) := (splitOnceText [' ', '@', '@'] rest).getD (rest, [])
  let parts := Text.splitOn [' '] ranges
  let (old, oldLength) ← grownRange (← parts[0]?) '-'
  let (new, newLength) ← grownRange (← parts[1]?) '+'
  return hunkMark ++ '-' :: (old - added).repr.toList ++ ',' :: (saturatingAdd oldLength added).repr.toList ++
    ' ' :: '+' :: (new - added).repr.toList ++ ',' :: (saturatingAdd newLength added).repr.toList ++
    [' ', '@', '@'] ++ tail

section Read

variable (repair : List UInt8 → Chars)

def readUntil : List UInt8 → List (List UInt8)
  | [] => []
  | byte :: rest =>
      if byte = 10 then [byte] :: readUntil rest
      else
        match readUntil rest with
        | [] => [[byte]]
        | line :: lines => (byte :: line) :: lines

def trimLine (line : Chars) : Chars := (line.reverse.dropWhile fun c => c = '\n' || c = '\r').reverse

def fileLines (bytes : List UInt8) : List Chars :=
  (readUntil (bytes.take maxContextBytes)).map fun line => trimLine (fromUtf8Lossy repair line)

def readFrom (start stop number : ℕ) : List Chars → List Chars
  | [] => []
  | line :: rest =>
      if number + 1 < stop then
        (if start ≤ number + 1 then [line] else []) ++ readFrom start stop (number + 1) rest
      else []

def readLinesOf (disk : Option (List UInt8)) (start stop : ℕ) : Option (List Chars) :=
  disk.map fun bytes => readFrom start stop 0 (fileLines repair bytes)

end Read

namespace Lines

def gap (lines : Lines) (header : ℕ) : Option Gap := do
  let line ← lines.lines[header]?.filter (·.kind = .hunk)
  let (oldStart, newStart) ← hunkStarts line.text.toList
  if oldStart = 0 ∨ newStart = 0 then none
  else
    let shown := ((lines.lines.take header).filterMap Line.new).max?.getD 0
    let start := saturatingAdd shown 1
    if start < newStart then some { header, start, stop := newStart, shift := oldStart - newStart } else none

def copy (lines : Lines) (line : Line) : Lines := (lines.push line.kind line.old line.new line.text.toList).2

def pushContext (first oldFirst : ℕ) (lines : Lines) (entry : Chars × ℕ) : Lines :=
  (lines.push .context (some (saturatingAdd oldFirst entry.2)) (some (saturatingAdd first entry.2)) entry.1).2

def withContext (lines : Lines) (header first oldFirst : ℕ) (added : List Chars) : Lines :=
  let grown := (lines.lines.take header).foldl copy {}
  let text := (lines.lines[header]?.map fun line => line.text.toList).getD []
  let grown := (grown.push .hunk none none ((grownHeader text (min added.length u32Max)).getD text)).2
  let grown := added.zipIdx.foldl (pushContext first oldFirst) grown
  let grown := (lines.lines.drop (header + 1)).foldl copy grown
  { grown with truncated := grown.truncated || lines.truncated }.finish

end Lines

structure Expansion where
  header : ℕ
  disk : Option (List UInt8)

def expand (repair : List UInt8 → Chars) (lines : Lines) (step : Expansion) : Lines :=
  match lines.gap step.header with
  | none => lines
  | some gap =>
      match readLinesOf repair step.disk gap.next gap.stop with
      | none => lines
      | some [] => lines
      | some (text :: texts) => lines.withContext step.header gap.next (gap.old gap.next) (text :: texts)

end Sheprd.Review
