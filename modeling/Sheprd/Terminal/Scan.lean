import Sheprd.Lib.Transducer

namespace Sheprd.Terminal

open Sheprd.Lib

def maxOscBytes : ℕ := 8 * 1024

def esc : UInt8 := 0x1b
def bel : UInt8 := 0x07
def can : UInt8 := 0x18
def sub : UInt8 := 0x1a
def backslash : UInt8 := 0x5c

def win32InputMode : ℕ := 9001
def paramCap : ℕ := 100000

structure Csi where
  started : Bool := false
  isPrivate : Bool := false
  invalid : Bool := false
  param : ℕ := 0
  matched : Bool := false
  capped : param ≤ paramCap := by exact Nat.zero_le _

namespace Csi

def endParam (csi : Csi) : Csi :=
  { csi with
    matched := csi.matched || csi.param == win32InputMode
    param := 0
    capped := Nat.zero_le _ }

def pushDigit (csi : Csi) (digit : ℕ) : Csi :=
  { csi with
    started := true
    param := min (csi.param * 10 + digit) paramCap
    capped := Nat.min_le_right _ _ }

end Csi

inductive State where
  | ground
  | escape
  | csi (csi : Csi)
  | osc
  | oscEscape
  | overflow
  | overflowEscape

structure Scanner where
  state : State := .ground
  win32Input : Bool := false
  osc : List UInt8 := []

inductive Forward where
  | text (bytes : List UInt8)
  | osc (string : List UInt8)

def Forward.bytes : Forward → List UInt8
  | .text bytes => bytes
  | .osc string => string

def Forward.osc? : Forward → Option (List UInt8)
  | .text _ => none
  | .osc string => some string

def csiByte (csi : Csi) (byte : UInt8) (win32Input : Bool) : State × Bool :=
  if byte = esc then (.escape, win32Input)
  else if byte = can ∨ byte = sub then (.ground, win32Input)
  else if 0x30 ≤ byte ∧ byte ≤ 0x39 then (.csi (csi.pushDigit (byte - 0x30).toNat), win32Input)
  else if byte = 0x3b ∨ byte = 0x3a then (.csi { csi with started := true }.endParam, win32Input)
  else if 0x3c ≤ byte ∧ byte ≤ 0x3f then
    if !csi.started && !csi.isPrivate && byte == 0x3f then
      (.csi { csi with isPrivate := true, started := true }, win32Input)
    else (.csi { csi with invalid := true, started := true }, win32Input)
  else if 0x20 ≤ byte ∧ byte ≤ 0x2f then (.csi { csi with invalid := true }, win32Input)
  else if 0x40 ≤ byte ∧ byte ≤ 0x7e then
    let csi := csi.endParam
    if csi.isPrivate && !csi.invalid && csi.matched then
      if byte = 0x68 then (.ground, true)
      else if byte = 0x6c then (.ground, false)
      else (.ground, win32Input)
    else (.ground, win32Input)
  else (.csi csi, win32Input)

structure Feed where
  scanner : Scanner
  run : ℕ := 0
  index : ℕ := 0
  forwarded : List Forward := []

namespace Scanner

def holding (s : Scanner) : Bool :=
  match s.state with
  | .osc | .oscEscape | .overflow | .overflowEscape => true
  | _ => false

def control (byte : UInt8) : Bool :=
  byte ≤ 0x17 || byte == 0x19 || (0x1c ≤ byte && byte ≤ 0x1f) || byte == 0x7f

end Scanner

namespace Feed

def forward (f : Feed) (call : Forward) : Feed := { f with forwarded := f.forwarded ++ [call] }

def enter (f : Feed) (state : State) : Feed :=
  { f with scanner := { f.scanner with state := state } }

def advance (f : Feed) : Feed := { f with index := f.index + 1 }

def endOsc (f : Feed) (next : ℕ) : Feed :=
  { f with
    run := next
    scanner := { f.scanner with osc := [], state := .ground } }

def pushOsc (f : Feed) (byte : UInt8) : Feed :=
  { f with scanner := { f.scanner with osc := f.scanner.osc ++ [byte] } }

def forwardOsc (f : Feed) : Feed := f.forward (.osc f.scanner.osc)

def escape (bytes : List UInt8) (f : Feed) (byte : UInt8) : Feed :=
  if byte = 0x5b then f.enter (.csi {})
  else if byte = 0x5d then
    let f := if f.run < f.index then f.forward (.text ((bytes.take f.index).drop f.run)) else f
    { f with
      run := f.index + 1
      scanner := { f.scanner with osc := [byte], state := .osc } }
  else if byte = 0x63 then
    { f with scanner := { f.scanner with win32Input := false, state := .ground } }
  else if byte = esc then f.enter .escape
  else if Scanner.control byte then f.enter .escape
  else f.enter .ground

def turn (bytes : List UInt8) (f : Feed) (byte : UInt8) : Feed :=
  match f.scanner.state with
  | .ground => (if byte = esc then f.enter .escape else f).advance
  | .escape => (escape bytes f byte).advance
  | .csi csi =>
      let next := csiByte csi byte f.scanner.win32Input
      advance { f with scanner := { f.scanner with state := next.1, win32Input := next.2 } }
  | .osc =>
      if byte = bel ∨ byte = can ∨ byte = sub then
        ((f.pushOsc byte).forwardOsc.endOsc (f.index + 1)).advance
      else if byte = esc then (f.enter .oscEscape).advance
      else if maxOscBytes ≤ f.scanner.osc.length then
        -- The ESC that began this string was passed on; a backslash makes it a harmless ST.
        let f := f.forward (.text [backslash])
        advance { f with scanner := { f.scanner with osc := [], state := .overflow } }
      else (f.pushOsc byte).advance
  | .oscEscape =>
      let f := f.pushOsc esc
      if byte = backslash then ((f.pushOsc byte).forwardOsc.endOsc (f.index + 1)).advance
      else (f.forwardOsc.endOsc f.index).enter .escape
  | .overflow =>
      if byte = esc then (f.enter .overflowEscape).advance
      else if byte = bel ∨ byte = can ∨ byte = sub then (f.endOsc (f.index + 1)).advance
      else f.advance
  | .overflowEscape =>
      if byte = backslash then (f.endOsc (f.index + 1)).advance
      else ((f.forward (.text [esc])).endOsc f.index).enter .escape

def left (bytes : List UInt8) (f : Feed) : ℕ :=
  2 * (bytes.length - f.index) + (if f.scanner.holding then 1 else 0)

@[simp]
lemma advance_index (f : Feed) : f.advance.index = f.index + 1 := rfl

lemma left_of_advanced {bytes : List UInt8} {f g : Feed} (h : f.index < bytes.length)
    (hg : g.index = f.index + 1) : g.left bytes < f.left bytes := by
  have h1 : (if g.scanner.holding then 1 else 0) ≤ 1 := by split <;> decide
  have h2 : 2 * (bytes.length - g.index) + 2 = 2 * (bytes.length - f.index) := by omega
  calc g.left bytes ≤ 2 * (bytes.length - g.index) + 1 := Nat.add_le_add_left h1 _
    _ < 2 * (bytes.length - f.index) := by omega
    _ ≤ f.left bytes := Nat.le_add_right _ _

lemma left_of_released {bytes : List UInt8} {f g : Feed} (hf : f.scanner.holding = true)
    (hg : g.scanner.holding = false) (hi : g.index = f.index) : g.left bytes < f.left bytes := by
  rw [left, left, hf, hg, hi]
  exact Nat.lt_succ_self _

lemma escape_index (bytes : List UInt8) (f : Feed) (byte : UInt8) :
    (escape bytes f byte).index = f.index := by
  simp only [escape]
  split_ifs <;> rfl

lemma turn_moves (bytes : List UInt8) (f : Feed) (byte : UInt8) :
    (turn bytes f byte).index = f.index + 1 ∨
      (turn bytes f byte).index = f.index ∧ f.scanner.holding = true ∧
        (turn bytes f byte).scanner.holding = false := by
  cases hs : f.scanner.state with
  | ground =>
    left
    simp only [turn, hs]
    split <;> rfl
  | escape =>
    left
    simp only [turn, hs, advance_index, escape_index]
  | csi csi =>
    left
    simp only [turn, hs]
    rfl
  | osc =>
    left
    simp only [turn, hs]
    split_ifs <;> rfl
  | oscEscape =>
    simp only [turn, hs]
    split
    · exact .inl rfl
    · exact .inr ⟨rfl, by rw [Scanner.holding, hs], rfl⟩
  | overflow =>
    left
    simp only [turn, hs]
    split_ifs <;> rfl
  | overflowEscape =>
    simp only [turn, hs]
    split
    · exact .inl rfl
    · exact .inr ⟨rfl, by rw [Scanner.holding, hs], rfl⟩

lemma left_turn {bytes : List UInt8} {f : Feed} (h : f.index < bytes.length) (byte : UInt8) :
    (turn bytes f byte).left bytes < f.left bytes := by
  obtain hi | ⟨hi, hf, hg⟩ := turn_moves bytes f byte
  · exact left_of_advanced h hi
  · exact left_of_released hf hg hi

def loop (bytes : List UInt8) (f : Feed) : Feed :=
  if h : f.index < bytes.length then loop bytes (turn bytes f bytes[f.index]) else f
termination_by f.left bytes
decreasing_by exact left_turn h _

end Feed

namespace Scanner

def feed (s : Scanner) (bytes : List UInt8) : Scanner × List Forward :=
  let f := Feed.loop bytes { scanner := s }
  let rest := if !f.scanner.holding && f.run < bytes.length then [.text (bytes.drop f.run)] else []
  (f.scanner, f.forwarded ++ rest)

end Scanner

end Sheprd.Terminal
