import Sheprd.Terminal.Fragmentation

namespace Sheprd.Terminal

open Sheprd.Lib

inductive Token where
  | byte (byte : UInt8)
  | osc (body terminator : List UInt8)

namespace Token

def bytes : Token → List UInt8
  | byte b => [b]
  | osc body terminator => body ++ terminator

def Oversized : Token → Prop
  | byte _ => False
  | osc body _ => maxOscBytes < body.length

instance : DecidablePred Oversized
  | byte _ => inferInstanceAs (Decidable False)
  | osc body _ => inferInstanceAs (Decidable (maxOscBytes < body.length))

def passed (token : Token) : List UInt8 := if token.Oversized then [backslash] else token.bytes

end Token

inductive Place where
  | ground
  | escape
  | csi
  | osc (body : List UInt8)
  | oscEscape (body : List UInt8)

namespace Place

def escapeByte (byte : UInt8) : Place × List Token :=
  if byte = 0x5b then (.csi, [.byte byte])
  else if byte = 0x5d then (.osc [byte], [])
  else if byte = esc ∨ Scanner.control byte then (.escape, [.byte byte])
  else (.ground, [.byte byte])

def readByte (place : Place) (byte : UInt8) : Place × List Token :=
  match place with
  | .ground => (if byte = esc then .escape else .ground, [.byte byte])
  | .escape => escapeByte byte
  | .csi =>
      (if byte = esc then .escape
        else if byte = can ∨ byte = sub ∨ 0x40 ≤ byte ∧ byte ≤ 0x7e then .ground
        else .csi,
        [.byte byte])
  | .osc body =>
      if byte = bel ∨ byte = can ∨ byte = sub then (.ground, [.osc body [byte]])
      else if byte = esc then (.oscEscape body, [])
      else (.osc (body ++ [byte]), [])
  | .oscEscape body =>
      if byte = backslash then (.ground, [.osc body [esc, byte]])
      else ((escapeByte byte).1, .osc body [] :: .byte esc :: (escapeByte byte).2)

def reader : Transducer Place UInt8 Token := ⟨readByte⟩

def pending : Place → List UInt8
  | .osc body => body
  | .oscEscape body => body ++ [esc]
  | _ => []

def Oversized : Place → Prop
  | .osc body | .oscEscape body => maxOscBytes < body.length
  | _ => False

instance : DecidablePred Oversized
  | .osc body | .oscEscape body => inferInstanceAs (Decidable (maxOscBytes < body.length))
  | .ground | .escape | .csi => inferInstanceAs (Decidable False)

def begun (place : Place) : List UInt8 := if place.Oversized then [backslash] else []

lemma readByte_bytes (place : Place) (byte : UInt8) :
    place.pending ++ [byte] =
      (place.readByte byte).2.flatMap Token.bytes ++ (place.readByte byte).1.pending := by
  cases place with
  | ground =>
    simp only [readByte]
    split_ifs <;> simp [pending, Token.bytes]
  | escape =>
    simp only [readByte, escapeByte]
    split_ifs <;> simp_all [pending, Token.bytes]
  | csi =>
    simp only [readByte]
    split_ifs <;> simp [pending, Token.bytes]
  | osc body =>
    simp only [readByte]
    split_ifs <;> simp_all [pending, Token.bytes]
  | oscEscape body =>
    simp only [readByte, escapeByte]
    split_ifs <;> simp_all [pending, Token.bytes]

lemma run_bytes (place : Place) (stream : List UInt8) :
    place.pending ++ stream =
      (reader.run place stream).2.flatMap Token.bytes ++ (reader.run place stream).1.pending := by
  induction stream generalizing place with
  | nil => simp
  | cons byte stream ih =>
    rw [Transducer.run_cons, List.flatMap_append, List.append_assoc, ← ih, ← List.append_assoc]
    change _ = (place.readByte byte).2.flatMap Token.bytes ++ (place.readByte byte).1.pending ++ stream
    rw [← readByte_bytes, List.append_assoc]
    rfl

end Place

namespace Scanner

def held (s : Scanner) : List UInt8 :=
  match s.state with
  | .osc => s.osc
  | .oscEscape => s.osc ++ [esc]
  | _ => []

structure Follows (s : Scanner) (place : Place) : Prop where
  state : match s.state with
    | .ground => place = .ground
    | .escape => place = .escape
    | .csi _ => place = .csi
    | .osc => place = .osc s.osc ∧ s.osc.length ≤ maxOscBytes
    | .oscEscape => place = .oscEscape s.osc ∧ s.osc.length ≤ maxOscBytes
    | .overflow => ∃ body, place = .osc body ∧ maxOscBytes < body.length
    | .overflowEscape => ∃ body, place = .oscEscape body ∧ maxOscBytes < body.length
  room : s.osc.length ≤ maxOscBytes

end Scanner

namespace Scanner

lemma csi_goes {byte : UInt8} (low : 0x20 ≤ byte) (high : byte ≤ 0x3f) :
    ¬ (byte = can ∨ byte = sub ∨ 0x40 ≤ byte ∧ byte ≤ 0x7e) := by
  rintro (rfl | rfl | ⟨final, -⟩)
  · exact absurd low (by decide)
  · exact absurd low (by decide)
  · exact absurd (UInt8.le_trans final high) (by decide)

lemma csiByte_place (csi : Csi) (byte : UInt8) (win32Input : Bool) :
    match (csiByte csi byte win32Input).1 with
    | .ground => (Place.csi.readByte byte).1 = .ground
    | .escape => (Place.csi.readByte byte).1 = .escape
    | .csi _ => (Place.csi.readByte byte).1 = .csi
    | _ => False := by
  simp only [csiByte, Place.readByte]
  by_cases h1 : byte = esc
  · simp [h1]
  by_cases h2 : byte = can ∨ byte = sub
  · have ends : byte = can ∨ byte = sub ∨ 0x40 ≤ byte ∧ byte ≤ 0x7e := by
      rw [← or_assoc]
      exact .inl h2
    simp [h1, h2, ends]
  by_cases h3 : 0x30 ≤ byte ∧ byte ≤ 0x39
  · have goes := csi_goes (UInt8.le_trans (b := 0x30) (by decide) h3.1)
      (UInt8.le_trans (b := 0x39) h3.2 (by decide))
    simp only [h1, h2, if_pos h3, goes, if_false]
  by_cases h4 : byte = 0x3b ∨ byte = 0x3a
  · have goes : ¬ (byte = can ∨ byte = sub ∨ 0x40 ≤ byte ∧ byte ≤ 0x7e) := by
      obtain rfl | rfl := h4
      · exact csi_goes (by decide) (by decide)
      · exact csi_goes (by decide) (by decide)
    simp only [h1, h2, h3, if_pos h4, goes, if_false]
  by_cases h5 : 0x3c ≤ byte ∧ byte ≤ 0x3f
  · have goes := csi_goes (UInt8.le_trans (b := 0x3c) (by decide) h5.1) h5.2
    simp only [h1, h2, h3, h4, if_pos h5, goes, if_false]
    split_ifs <;> trivial
  by_cases h6 : 0x20 ≤ byte ∧ byte ≤ 0x2f
  · have goes := csi_goes h6.1 (UInt8.le_trans (b := 0x2f) h6.2 (by decide))
    simp only [h1, h2, h3, h4, h5, if_pos h6, goes, if_false]
  by_cases h7 : 0x40 ≤ byte ∧ byte ≤ 0x7e
  · have ends : byte = can ∨ byte = sub ∨ 0x40 ≤ byte ∧ byte ≤ 0x7e := .inr (.inr h7)
    simp only [h1, h2, h3, h4, h5, h6, if_pos h7, if_pos ends, if_false]
    split_ifs <;> trivial
  · have goes : ¬ (byte = can ∨ byte = sub ∨ 0x40 ≤ byte ∧ byte ≤ 0x7e) := by
      rw [← or_assoc]
      exact not_or.mpr ⟨h2, h7⟩
    simp only [h1, h2, h3, h4, h5, h6, if_neg h7, if_neg goes, if_false]

structure Accounts (s : Scanner) (place : Place) (next : Scanner × List Letter)
    (read : Place × List Token) : Prop where
  follows : next.1.Follows read.1
  passed : place.begun ++ next.2.flatMap Letter.bytes = read.2.flatMap Token.passed ++ read.1.begun
  bounded : ∀ string, .osc string ∈ next.2 → string.length ≤ maxOscBytes + 2

lemma escapeByte_accounts (s : Scanner) (room : s.osc.length ≤ maxOscBytes) (byte : UInt8) :
    s.Accounts .escape (s.escapeByte byte) (Place.escapeByte byte) := by
  simp only [escapeByte, Place.escapeByte]
  by_cases h1 : byte = 0x5b
  · subst h1
    exact ⟨⟨rfl, room⟩, rfl, by simp⟩
  by_cases h2 : byte = 0x5d
  · subst h2
    have one : [(0x5d : UInt8)].length ≤ maxOscBytes := by decide
    exact ⟨⟨⟨rfl, one⟩, one⟩, rfl, by simp⟩
  by_cases h3 : byte = 0x63
  · subst h3
    exact ⟨⟨rfl, room⟩, rfl, by simp⟩
  by_cases h4 : byte = esc ∨ control byte
  · simp only [h1, h2, h3, if_pos h4, if_false]
    exact ⟨⟨rfl, room⟩, rfl, by simp⟩
  · simp only [h1, h2, h3, if_neg h4, if_false]
    exact ⟨⟨rfl, room⟩, rfl, by simp⟩

lemma plain_passed (byte : UInt8) : Token.passed (.byte byte) = [byte] := rfl

lemma osc_passed {body : List UInt8} (h : body.length ≤ maxOscBytes) (terminator : List UInt8) :
    Token.passed (.osc body terminator) = body ++ terminator :=
  if_neg (Nat.not_lt.mpr h)

lemma oversized_passed {body : List UInt8} (h : maxOscBytes < body.length)
    (terminator : List UInt8) : Token.passed (.osc body terminator) = [backslash] :=
  if_pos h

lemma begun_osc {body : List UInt8} (h : body.length ≤ maxOscBytes) :
    Place.begun (.osc body) = [] ∧ Place.begun (.oscEscape body) = [] :=
  ⟨if_neg (Nat.not_lt.mpr h), if_neg (Nat.not_lt.mpr h)⟩

lemma begun_oversized {body : List UInt8} (h : maxOscBytes < body.length) :
    Place.begun (.osc body) = [backslash] ∧ Place.begun (.oscEscape body) = [backslash] :=
  ⟨if_pos h, if_pos h⟩

lemma begun_ground : Place.begun .ground = [] := rfl

lemma room_none : ([] : List UInt8).length ≤ maxOscBytes := Nat.zero_le _

section Step

variable {s : Scanner} {place : Place} {body : List UInt8}

lemma osc_accounts (here : s.state = .osc) (room : s.osc.length ≤ maxOscBytes) (byte : UInt8) :
    s.Accounts (.osc s.osc) (s.scanByte byte) ((Place.osc s.osc).readByte byte) := by
  simp only [scanByte, here, Place.readByte]
  by_cases h1 : byte = bel ∨ byte = can ∨ byte = sub
  · simp only [if_pos h1]
    refine ⟨⟨rfl, room_none⟩, ?_, ?_⟩
    · simp [begun_osc room, osc_passed room, begun_ground, Letter.bytes]
    · simp only [List.mem_singleton, Letter.osc.injEq, forall_eq, List.length_append,
        List.length_singleton]
      omega
  by_cases h2 : byte = esc
  · simp only [if_neg h1, if_pos h2]
    exact ⟨⟨⟨rfl, room⟩, room⟩, by simp [begun_osc room], by simp⟩
  by_cases h3 : maxOscBytes ≤ s.osc.length
  · have long : maxOscBytes < (s.osc ++ [byte]).length := by
      rw [List.length_append, List.length_singleton]
      omega
    simp only [if_neg h1, if_neg h2, if_pos h3]
    exact ⟨⟨⟨_, rfl, long⟩, room_none⟩,
      by simp [begun_osc room, begun_oversized long, Letter.bytes], by simp⟩
  · have room' : (s.osc ++ [byte]).length ≤ maxOscBytes := by
      rw [List.length_append, List.length_singleton]
      omega
    simp only [if_neg h1, if_neg h2, if_neg h3]
    refine ⟨⟨?_, room'⟩, by simp [begun_osc room, begun_osc room'], by simp⟩
    exact ⟨rfl, room'⟩

lemma oscEscape_accounts (here : s.state = .oscEscape) (room : s.osc.length ≤ maxOscBytes)
    (byte : UInt8) :
    s.Accounts (.oscEscape s.osc) (s.scanByte byte) ((Place.oscEscape s.osc).readByte byte) := by
  simp only [scanByte, here, Place.readByte]
  by_cases h1 : byte = backslash
  · simp only [if_pos h1]
    refine ⟨⟨rfl, room_none⟩, ?_, ?_⟩
    · simp [begun_osc room, osc_passed room, begun_ground, Letter.bytes]
    · simp only [List.mem_singleton, Letter.osc.injEq, forall_eq, List.length_append,
        List.length_singleton]
      omega
  · simp only [if_neg h1]
    obtain ⟨follows, passed, bounded⟩ :=
      (s.ended .escape).escapeByte_accounts room_none byte
    refine ⟨follows, ?_, ?_⟩
    · have passed : ((s.ended .escape).escapeByte byte).2.flatMap Letter.bytes =
          (Place.escapeByte byte).2.flatMap Token.passed ++ (Place.escapeByte byte).1.begun := passed
      simp [begun_osc room, osc_passed room, plain_passed, Letter.bytes, passed]
    · intro string mem
      obtain same | mem := List.mem_cons.mp mem
      · cases same
        rw [List.length_append, List.length_singleton]
        omega
      · exact bounded string mem

lemma overflow_accounts (here : s.state = .overflow) (long : maxOscBytes < body.length)
    (room : s.osc.length ≤ maxOscBytes) (byte : UInt8) :
    s.Accounts (.osc body) (s.scanByte byte) ((Place.osc body).readByte byte) := by
  simp only [scanByte, here, Place.readByte]
  by_cases h1 : byte = esc
  · have other : ¬ (byte = bel ∨ byte = can ∨ byte = sub) := by
      rw [h1]
      decide
    simp only [if_neg other, if_pos h1]
    exact ⟨⟨⟨_, rfl, long⟩, room⟩, by simp [begun_oversized long], by simp⟩
  by_cases h2 : byte = bel ∨ byte = can ∨ byte = sub
  · simp only [if_neg h1, if_pos h2]
    refine ⟨⟨rfl, room_none⟩, ?_, by simp⟩
    simp [begun_oversized long, oversized_passed long, begun_ground]
  · have long' : maxOscBytes < (body ++ [byte]).length := by
      rw [List.length_append, List.length_singleton]
      omega
    simp only [if_neg h1, if_neg h2]
    refine ⟨⟨?_, room⟩, by simp [begun_oversized long, begun_oversized long'], by simp⟩
    simp only [here]
    exact ⟨_, rfl, long'⟩

lemma overflowEscape_accounts (here : s.state = .overflowEscape) (long : maxOscBytes < body.length)
    (byte : UInt8) :
    s.Accounts (.oscEscape body) (s.scanByte byte) ((Place.oscEscape body).readByte byte) := by
  simp only [scanByte, here, Place.readByte]
  by_cases h1 : byte = backslash
  · simp only [if_pos h1]
    refine ⟨⟨rfl, room_none⟩, ?_, by simp⟩
    simp [begun_oversized long, oversized_passed long, begun_ground]
  · simp only [if_neg h1]
    obtain ⟨follows, passed, bounded⟩ :=
      (s.ended .escape).escapeByte_accounts room_none byte
    refine ⟨follows, ?_, ?_⟩
    · have passed : ((s.ended .escape).escapeByte byte).2.flatMap Letter.bytes =
          (Place.escapeByte byte).2.flatMap Token.passed ++ (Place.escapeByte byte).1.begun := passed
      simp [begun_oversized long, oversized_passed long, plain_passed, Letter.bytes, passed]
    · intro string mem
      obtain same | mem := List.mem_cons.mp mem
      · cases same
      · exact bounded string mem

lemma scanByte_accounts (h : s.Follows place) (byte : UInt8) :
    s.Accounts place (s.scanByte byte) (place.readByte byte) := by
  obtain ⟨at_place, room⟩ := h
  cases here : s.state with
  | ground =>
    simp only [here] at at_place
    subst at_place
    simp only [scanByte, here, Place.readByte]
    by_cases h1 : byte = esc
    · simp only [if_pos h1]
      exact ⟨⟨rfl, room⟩, rfl, by simp⟩
    · simp only [if_neg h1]
      refine ⟨⟨?_, room⟩, rfl, by simp⟩
      simp only [here]
  | escape =>
    simp only [here] at at_place
    subst at_place
    have same : s.scanByte byte = s.escapeByte byte := by
      unfold scanByte
      rw [here]
    rw [same]
    exact s.escapeByte_accounts room byte
  | csi csi =>
    simp only [here] at at_place
    subst at_place
    have next := csiByte_place csi byte s.win32Input
    simp only [scanByte, here]
    refine ⟨⟨?_, room⟩, ?_, by simp⟩
    · revert next
      cases (csiByte csi byte s.win32Input).1 <;> simp
    · have plain : (Place.csi.readByte byte).1.begun = [] := by
        simp only [Place.readByte]
        split_ifs <;> rfl
      rw [plain]
      rfl
  | osc =>
    simp only [here] at at_place
    rw [at_place.1]
    exact osc_accounts here room byte
  | oscEscape =>
    simp only [here] at at_place
    rw [at_place.1]
    exact oscEscape_accounts here room byte
  | overflow =>
    simp only [here] at at_place
    obtain ⟨body, rfl, long⟩ := at_place
    exact overflow_accounts here long room byte
  | overflowEscape =>
    simp only [here] at at_place
    obtain ⟨body, rfl, long⟩ := at_place
    exact overflowEscape_accounts here long byte

lemma run_accounts (h : s.Follows place) (stream : List UInt8) :
    s.Accounts place (machine.run s stream) (Place.reader.run place stream) := by
  induction stream generalizing s place with
  | nil => exact ⟨h, by simp, by simp⟩
  | cons byte stream ih =>
    obtain ⟨follows, passed, bounded⟩ := scanByte_accounts h byte
    obtain ⟨follows', passed', bounded'⟩ := ih follows
    refine ⟨follows', ?_, ?_⟩
    · have written : (machine.run s (byte :: stream)).2 =
          (s.scanByte byte).2 ++ (machine.run (s.scanByte byte).1 stream).2 := rfl
      have read : (Place.reader.run place (byte :: stream)).2 = (place.readByte byte).2 ++
          (Place.reader.run (place.readByte byte).1 stream).2 := rfl
      rw [written, read, List.flatMap_append, List.flatMap_append, ← List.append_assoc, passed,
        List.append_assoc, passed', List.append_assoc]
      rfl
    · intro string mem
      obtain mem | mem := List.mem_append.mp mem
      · exact bounded string mem
      · exact bounded' string mem

end Step

lemma Follows.held {s : Scanner} {place : Place} (h : s.Follows place) (fits : ¬ place.Oversized) :
    place.pending = s.held := by
  obtain ⟨at_place, -⟩ := h
  unfold Scanner.held
  cases here : s.state with
  | ground | escape | csi =>
    simp only [here] at at_place
    subst at_place
    rfl
  | osc | oscEscape =>
    simp only [here] at at_place
    rw [at_place.1]
    rfl
  | overflow | overflowEscape =>
    simp only [here] at at_place
    obtain ⟨body, rfl, long⟩ := at_place
    exact absurd long fits

end Scanner

lemma Forward.mem_spell {calls : List Forward} {string : List UInt8} (h : .osc string ∈ calls) :
    Letter.osc string ∈ calls.flatMap Forward.spell :=
  List.mem_flatMap.mpr ⟨.osc string, h, List.mem_singleton_self _⟩

lemma passed_all {tokens : List Token} (fits : ∀ token ∈ tokens, ¬ token.Oversized) :
    tokens.flatMap Token.passed = tokens.flatMap Token.bytes :=
  List.flatMap_congr fun token mem => if_neg (fits token mem)

theorem feed_conserves (feeds : List (List UInt8)) :
    let fed : Scanner × List Forward := feedAll Scanner.feed {} feeds
    let read := Place.reader.run .ground feeds.flatten
    feeds.flatten = read.2.flatMap Token.bytes ++ read.1.pending ∧
      fed.2.flatMap Forward.bytes = read.2.flatMap Token.passed ++ read.1.begun ∧
      (¬ read.1.Oversized → fed.1.held = read.1.pending) ∧
      ((∀ token ∈ read.2, ¬ token.Oversized) → ¬ read.1.Oversized →
        fed.2.flatMap Forward.bytes ++ fed.1.held = feeds.flatten) ∧
      fed.1.osc.length ≤ maxOscBytes ∧
      ∀ string, .osc string ∈ fed.2 → string.length ≤ maxOscBytes + 2 := by
  intro fed read
  obtain ⟨same, spelled⟩ := Scanner.feed_realised.feedAll_run {} feeds
  have start : ({} : Scanner).Follows .ground := ⟨rfl, Scanner.room_none⟩
  obtain ⟨follows, passed, bounded⟩ := Scanner.run_accounts start feeds.flatten
  have whole : feeds.flatten = read.2.flatMap Token.bytes ++ read.1.pending :=
    Place.run_bytes .ground feeds.flatten
  have output : fed.2.flatMap Forward.bytes = read.2.flatMap Token.passed ++ read.1.begun := by
    rw [← Forward.spell_bytes, spelled]
    exact passed
  rw [← same] at follows
  refine ⟨whole, output, fun fits => (follows.held fits).symm, ?_, follows.room, ?_⟩
  · intro tokens fits
    have none : read.1.begun = [] := if_neg fits
    rw [output, passed_all tokens, none, List.append_nil, ← follows.held fits]
    exact whole.symm
  · intro string mem
    exact bounded string (spelled ▸ Forward.mem_spell mem)

end Sheprd.Terminal
