import Sheprd.Lib.Shell
import Sheprd.Lib.Text

namespace Sheprd.Automation

open Sheprd.Lib Sheprd.Lib.Shell

abbrev Chars := List Char

def dateToken : Chars := ['{', 'd', 'a', 't', 'e', '}']
def timeToken : Chars := ['{', 't', 'i', 'm', 'e', '}']
def logTailName : Chars := ['l', 'o', 'g', '_', 't', 'a', 'i', 'l']
def runIdName : Chars := ['r', 'u', 'n', '_', 'i', 'd']
def variableStart : Chars := ['H', 'E', 'R', 'D', 'R', '_']

def parseUsize (text : Chars) : Option ℕ :=
  let digits := match text with
    | '+' :: digits => digits
    | digits => digits
  if digits = [] ∨ ¬digits.all Char.isDigit then none
  else
    let n := digits.foldl (fun n c => n * 10 + (c.toNat - '0'.toNat)) 0
    if n < 2 ^ 64 then some n else none

structure Values where
  date : Chars
  time : Chars
  logTails : List (Option Chars)
  runIds : List (Option Chars)

def checkedPred : ℕ → Option ℕ
  | 0 => none
  | n + 1 => some n

namespace Values

def list (v : Values) (name : Chars) : Option (List (Option Chars)) :=
  if name = logTailName then some v.logTails
  else if name = runIdName then some v.runIds
  else none

def value (v : Values) (token : Chars) : Option Chars :=
  if token = dateToken then some v.date
  else if token = timeToken then some v.time
  else do
    let inner ← (Text.stripPrefix ['{'] token).bind (Text.stripSuffix ['}'])
    let (name, number) ← Text.splitOnce ':' inner
    let index ← (parseUsize number).bind checkedPred
    let list ← v.list name
    list[index]?.join

end Values

def variableName (token : Chars) : Chars :=
  let inner := Text.trimEndMatches '}' (token.dropWhile (· = '{'))
  variableStart ++ inner.map fun c => if c = ':' then '_' else c.toUpper

inductive Context where
  | double
  | paren
  | backtick
  deriving DecidableEq

structure Quoting where
  contexts : List Context := []
  single : Bool := false

namespace Quoting

def top (q : Quoting) : Option Context := q.contexts.head?

def push (q : Quoting) (context : Context) : Quoting := { q with contexts := context :: q.contexts }

def pop (q : Quoting) : Quoting := { q with contexts := q.contexts.tail }

def reference (q : Quoting) (name : Chars) : Chars :=
  if q.single then ['\'', '"', '$'] ++ name ++ ['"', '\'']
  else if q.top = some .double then ['$', '{'] ++ name ++ ['}']
  else ['"', '$'] ++ name ++ ['"']

def read (q : Quoting) : Chars → Quoting × ℕ
  | [] => (q, 0)
  | c :: rest =>
      if q.single then ({ q with single := c != '\'' }, 1)
      else if c = '\\' then (q, 1 + (rest.take 1).length)
      else if c = '"' then (if q.top = some .double then q.pop else q.push .double, 1)
      else if c = '\'' ∧ q.top ≠ some .double then ({ q with single := true }, 1)
      else if c = '$' ∧ rest.head? = some '(' then (q.push .paren, 2)
      else if c = '(' ∧ q.top = some .paren then (q.push .paren, 1)
      else if c = ')' ∧ q.top = some .paren then (q.pop, 1)
      else if c = '`' then (if q.top = some .backtick then q.pop else q.push .backtick, 1)
      else (q, 1)

lemma ite_pos {p : Prop} [Decidable p] {a b : Quoting × ℕ} (ha : 0 < a.2) (hb : 0 < b.2) :
    0 < (if p then a else b).2 := by
  split
  · exact ha
  · exact hb

lemma read_pos (q : Quoting) (c : Char) (rest : Chars) : 0 < (q.read (c :: rest)).2 := by
  simp only [read]
  refine ite_pos Nat.one_pos (ite_pos (Nat.add_pos_left Nat.one_pos _) ?_)
  refine ite_pos Nat.one_pos (ite_pos Nat.one_pos (ite_pos Nat.two_pos ?_))
  exact ite_pos Nat.one_pos (ite_pos Nat.one_pos (ite_pos Nat.one_pos Nat.one_pos))

end Quoting

inductive Piece where
  | copied (text : Chars)
  | clock (token value : Chars)
  | reference (token text : Chars)

namespace Piece

def source : Piece → Chars
  | copied text => text
  | clock token _ => token
  | reference token _ => token

def output : Piece → Chars
  | copied text => text
  | clock _ value => value
  | reference _ text => text

end Piece

def sources (pieces : List Piece) : Chars := pieces.flatMap Piece.source

def outputs (pieces : List Piece) : Chars := pieces.flatMap Piece.output

inductive Part where
  | copied (text : Chars)
  | filled (token value : Chars)

def Part.output : Part → Chars
  | copied text => text
  | filled _ value => value

structure Filling where
  filled : Chars := []
  env : List (Chars × Chars) := []
  quoting : Quoting := {}
  pieces : List Piece := []

namespace Filling

def push (f : Filling) (piece : Piece) : Filling :=
  { f with
    filled := f.filled ++ piece.output
    pieces := f.pieces ++ [piece] }

def bind (f : Filling) (name value : Chars) : Filling :=
  if f.env.any fun known => known.1 = name then f else { f with env := f.env ++ [(name, value)] }

def fillToken (f : Filling) (token value : Chars) : Filling :=
  if token = dateToken ∨ token = timeToken then f.push (.clock token value)
  else
    let name := variableName token
    (f.push (.reference token (f.quoting.reference name))).bind name value

def copy (f : Filling) (rest : Chars) : Filling :=
  let step := f.quoting.read rest
  { f.push (.copied (rest.take step.2)) with quoting := step.1 }

end Filling

namespace Values

def tokenAt (v : Values) (rest : Chars) : Option (Chars × Chars) :=
  if rest.head? = some '{' then do
    let close ← rest.findIdx? (· = '}')
    let token := rest.take (close + 1)
    let value ← v.value token
    some (token, value)
  else none

lemma tokenAt_length {v : Values} {rest token value : Chars}
    (h : v.tokenAt rest = some (token, value)) : 0 < token.length ∧ token.length ≤ rest.length := by
  rw [tokenAt] at h
  split at h
  · obtain ⟨close, hc, h⟩ := Option.bind_eq_some_iff.mp h
    obtain ⟨value, -, h⟩ := Option.bind_eq_some_iff.mp h
    obtain ⟨rfl, -⟩ := Prod.mk.inj (Option.some.inj h)
    have hl := (List.findIdx?_eq_some_iff_findIdx_eq.mp hc).1
    rw [List.length_take]
    omega
  · exact absurd h (by simp)

set_option linter.unusedVariables false in
def replace (v : Values) (rest : Chars) : List Part :=
  match ho : rest.findIdx? (· = '{') with
  | none => [.copied rest]
  | some opening =>
      let tail := rest.drop opening
      match tail.findIdx? (· = '}') with
      | none => [.copied (rest.take opening), .copied tail]
      | some close =>
          let token := tail.take (close + 1)
          .copied (rest.take opening) ::
            (match v.value token with
              | some value => .filled token value
              | none => .copied token) :: replace v (tail.drop (close + 1))
termination_by rest.length
decreasing_by
  have := (List.findIdx?_eq_some_iff_findIdx_eq.mp ho).1
  rw [List.length_drop, List.length_drop]
  omega

def fill (v : Values) (text : Chars) : Chars := (v.replace text).flatMap Part.output

set_option linter.unusedVariables false in
def fillFrom (v : Values) (f : Filling) (rest : Chars) : Filling :=
  match rest with
  | [] => f
  | c :: tail =>
      match h : v.tokenAt (c :: tail) with
      | some (token, value) => fillFrom v (f.fillToken token value) ((c :: tail).drop token.length)
      | none => fillFrom v (f.copy (c :: tail)) ((c :: tail).drop (f.quoting.read (c :: tail)).2)
termination_by rest.length
decreasing_by
  · have := tokenAt_length h
    rw [List.length_drop]
    omega
  · have := f.quoting.read_pos c tail
    rw [List.length_drop, List.length_cons]
    omega

def fillShell (v : Values) (text : Chars) : Filling := v.fillFrom {} text

end Values

end Sheprd.Automation
