import Sheprd.Lib.Text

namespace Sheprd.Ansi

open Sheprd.Lib

def maxText : ℕ := 256 * 1024

inductive Color where
  | default
  | named (index : UInt8)
  | rgb (r g b : UInt8)
  deriving DecidableEq

structure Style where
  fg : Color := .default
  bg : Color := .default
  bold : Bool := false
  dim : Bool := false
  italic : Bool := false
  underline : Bool := false
  reverse : Bool := false
  hidden : Bool := false
  strike : Bool := false
  deriving DecidableEq

structure Screen where
  lines : List (List (Style × String))
  columns : ℕ

structure Line where
  runs : List (Style × String)
  width : ℕ
  style : Style

def named (index : ℕ) : Color := .named (if index < 256 then UInt8.ofNat index else 7)

def level (value : UInt8) : UInt8 := if value = 0 then 0 else 55 + value * 40

def palette (index : UInt8) : Color :=
  if index ≤ 15 then .named index
  else if index ≤ 231 then
    let index := index - 16
    .rgb (level (index / 36)) (level (index / 6 % 6)) (level (index % 6))
  else
    let gray := 8 + (index - 232) * 10
    .rgb gray gray gray

def byte : List ℕ → UInt8 × List ℕ
  | [] => (0, [])
  | value :: codes => (if value < 256 then UInt8.ofNat value else 255, codes)

def extended : List ℕ → Color × List ℕ
  | 5 :: codes =>
      let (index, codes) := byte codes
      (palette index, codes)
  | 2 :: codes =>
      let (r, codes) := byte codes
      let (g, codes) := byte codes
      let (b, codes) := byte codes
      (.rgb r g b, codes)
  | _ :: codes => (.default, codes)
  | [] => (.default, [])

def mark (style : Style) : ℕ → Style
  | 0 => {}
  | 1 => { style with bold := true }
  | 2 => { style with dim := true }
  | 3 => { style with italic := true }
  | 4 => { style with underline := true }
  | 7 => { style with reverse := true }
  | 8 => { style with hidden := true }
  | 9 => { style with strike := true }
  | 21 | 22 => { style with bold := false, dim := false }
  | 23 => { style with italic := false }
  | 24 => { style with underline := false }
  | 27 => { style with reverse := false }
  | 28 => { style with hidden := false }
  | 29 => { style with strike := false }
  | 39 => { style with fg := .default }
  | 49 => { style with bg := .default }
  | code =>
      if 30 ≤ code ∧ code ≤ 37 then { style with fg := named (code - 30) }
      else if 90 ≤ code ∧ code ≤ 97 then { style with fg := named (code - 90 + 8) }
      else if 40 ≤ code ∧ code ≤ 47 then { style with bg := named (code - 40) }
      else if 100 ≤ code ∧ code ≤ 107 then { style with bg := named (code - 100 + 8) }
      else style

def applyCodes : ℕ → List ℕ → Style → Style
  | 0, _, style => style
  | _ + 1, [], style => style
  | fuel + 1, code :: codes, style =>
      if code = 38 then
        let (color, codes) := extended codes
        applyCodes fuel codes { style with fg := color }
      else if code = 48 then
        let (color, codes) := extended codes
        applyCodes fuel codes { style with bg := color }
      else applyCodes fuel codes (mark style code)

def parseU16 (text : List Char) : Option ℕ := (Text.decimal text).filter fun n => decide (n < 2 ^ 16)

def apply (style : Style) (parameters : List Char) : Style :=
  let codes := (Text.splitOn [';', ':'] parameters).map fun code => (parseU16 code).getD 0
  if parameters = [] then {} else applyCodes codes.length codes style

def Line.push (line : Line) (c : Char) : Line :=
  { line with
    width := line.width + 1
    runs :=
      match line.runs.getLast? with
      | some (last, text) =>
          if last = line.style then line.runs.dropLast ++ [(last, text.push c)]
          else line.runs ++ [(line.style, .singleton c)]
      | none => [(line.style, .singleton c)] }

def skipTitle : Char → List Char → List Char
  | _, [] => []
  | previous, c :: chars =>
      if c = '\x07' ∨ (previous = '\x1b' ∧ c = '\\') then chars else skipTitle c chars

def readParameters : List Char → List Char → List Char × Option Char × List Char
  | parameters, [] => (parameters, none, [])
  | parameters, c :: chars =>
      if '\x40' ≤ c ∧ c ≤ '\x7e' then (parameters, some c, chars)
      else if (String.ofList parameters).utf8ByteSize < 64 then readParameters (parameters ++ [c]) chars
      else readParameters parameters chars

def runsFrom : ℕ → List Char → Line → Line
  | 0, _, line => line
  | _ + 1, [], line => line
  | fuel + 1, '\x1b' :: chars, line =>
      match chars with
      | [] => line
      | ']' :: _ => runsFrom fuel (skipTitle '\x00' chars) line
      | '[' :: chars =>
          let (parameters, stop, chars) := readParameters [] chars
          runsFrom fuel chars
            (if stop = some 'm' then { line with style := apply line.style parameters } else line)
      | '(' :: chars | ')' :: chars | '*' :: chars | '+' :: chars => runsFrom fuel (chars.drop 1) line
      | _ :: chars => runsFrom fuel chars line
  | fuel + 1, c :: chars, line =>
      let c := if c = '\t' then ' ' else c
      runsFrom fuel chars (if Text.isControl c then line else line.push c)

def runs (line : List Char) (style : Style) : Line := runsFrom line.length line ⟨[], 0, style⟩

def parseLine (read : Screen × Style) (line : List Char) : Screen × Style :=
  let (screen, style) := read
  let line := runs (Text.trimEndMatches '\r' line) style
  ({ lines := screen.lines ++ [line.runs], columns := max screen.columns line.width }, line.style)

def parse (text : String) : Screen :=
  ((Text.splitOn ['\n'] (text.toList.take maxText)).foldl parseLine (⟨[], 0⟩, {})).1

end Sheprd.Ansi
