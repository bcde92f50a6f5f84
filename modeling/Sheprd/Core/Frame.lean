import Sheprd.Core.Connection
import Sheprd.Lib.Framing

namespace Sheprd.Core.Framed

open Sheprd.Lib

def HEADER : ℕ := 9

def MAX_PAYLOAD : ℕ := 2 ^ 24

inductive Error where
  | tooLarge (size : ℕ)
  | unknownKind (kind : UInt8)

def Kind.toU8 : Kind → UInt8
  | .data => 0
  | .credit => 1
  | .close => 2
  | .resize => 3
  | .focus => 4
  | .facts => 5

def Kind.tryFrom (value : UInt8) : Except Error Kind :=
  match value with
  | 0 => .ok .data
  | 1 => .ok .credit
  | 2 => .ok .close
  | 3 => .ok .resize
  | 4 => .ok .focus
  | 5 => .ok .facts
  | other => .error (.unknownKind other)

lemma Kind.tryFrom_toU8 (kind : Kind) : Kind.tryFrom (Kind.toU8 kind) = .ok kind := by
  cases kind <;> rfl

structure Frame where
  channel : UInt32
  kind : Kind
  payload : List UInt8

def toLeBytes (n : UInt32) : List UInt8 :=
  [UInt8.ofNat n.toNat, UInt8.ofNat (n.toNat / 2 ^ 8), UInt8.ofNat (n.toNat / 2 ^ 16),
    UInt8.ofNat (n.toNat / 2 ^ 24)]

def fromLeBytes (a b c d : UInt8) : UInt32 :=
  UInt32.ofNat (a.toNat + 2 ^ 8 * b.toNat + 2 ^ 16 * c.toNat + 2 ^ 24 * d.toNat)

lemma fromLeBytes_toLeBytes (n : UInt32) :
    fromLeBytes (UInt8.ofNat n.toNat) (UInt8.ofNat (n.toNat / 2 ^ 8)) (UInt8.ofNat (n.toNat / 2 ^ 16))
      (UInt8.ofNat (n.toNat / 2 ^ 24)) = n := by
  have small := n.toNat_lt
  apply UInt32.toNat_inj.mp
  simp only [fromLeBytes, UInt32.toNat_ofNat', UInt8.toNat_ofNat']
  omega

def encode (channel : UInt32) (kind : Kind) (payload : List UInt8) : Except Error (List UInt8) :=
  if payload.length < 2 ^ 32 ∧ payload.length ≤ MAX_PAYLOAD then
    .ok (toLeBytes channel ++ [Kind.toU8 kind] ++ toLeBytes (UInt32.ofNat payload.length) ++ payload)
  else .error (.tooLarge payload.length)

def range (bytes : List UInt8) (start stop : ℕ) : Option (List UInt8) :=
  if start ≤ stop ∧ stop ≤ bytes.length then some ((bytes.take stop).drop start) else none

def head (ready : List UInt8) : Head Frame Error :=
  match range ready 0 HEADER with
  | some [c₀, c₁, c₂, c₃, k, l₀, l₁, l₂, l₃] =>
      match Kind.tryFrom k with
      | .error e => .bad e
      | .ok kind =>
          let len := (fromLeBytes l₀ l₁ l₂ l₃).toNat
          if len > MAX_PAYLOAD then .bad (.tooLarge len)
          else
            match range ready HEADER (HEADER + len) with
            | none => .more
            | some payload =>
                .whole { channel := fromLeBytes c₀ c₁ c₂ c₃, kind, payload } (HEADER + len)
  | _ => .more

lemma range_header (c₀ c₁ c₂ c₃ k l₀ l₁ l₂ l₃ : UInt8) (rest : List UInt8) :
    range (c₀ :: c₁ :: c₂ :: c₃ :: k :: l₀ :: l₁ :: l₂ :: l₃ :: rest) 0 HEADER =
      some [c₀, c₁, c₂, c₃, k, l₀, l₁, l₂, l₃] := by
  simp [range, HEADER]

lemma range_payload (c₀ c₁ c₂ c₃ k l₀ l₁ l₂ l₃ : UInt8) (payload rest : List UInt8) :
    range (c₀ :: c₁ :: c₂ :: c₃ :: k :: l₀ :: l₁ :: l₂ :: l₃ :: (payload ++ rest)) HEADER
      (HEADER + payload.length) = some payload := by
  have nine : HEADER + payload.length = payload.length + 9 := Nat.add_comm ..
  unfold range
  rw [if_pos ⟨Nat.le_add_right .., by simp only [List.length_cons, List.length_append]; omega⟩, nine]
  simp [HEADER]

lemma range_append {bytes piece : List UInt8} {start stop : ℕ} (h : range bytes start stop = some piece)
    (rest : List UInt8) : range (bytes ++ rest) start stop = some piece := by
  unfold range at h ⊢
  split at h
  · next fits =>
    rw [if_pos ⟨fits.1, by simp; omega⟩, List.take_append_of_le_length fits.2]
    exact h
  · cases h

lemma range_length {bytes piece : List UInt8} {start stop : ℕ} (h : range bytes start stop = some piece) :
    stop ≤ bytes.length := by
  unfold range at h
  split at h
  · next fits => exact fits.2
  · cases h

lemma head_cases (ready : List UInt8) :
    head ready = .more ∨
      ∃ c₀ c₁ c₂ c₃ k l₀ l₁ l₂ l₃,
        range ready 0 HEADER = some [c₀, c₁, c₂, c₃, k, l₀, l₁, l₂, l₃] := by
  unfold head
  split
  · next found => exact .inr ⟨_, _, _, _, _, _, _, _, _, found⟩
  · exact .inl rfl

lemma head_append {ready : List UInt8} (h : head ready ≠ .more) (rest : List UInt8) :
    head (ready ++ rest) = head ready := by
  obtain more | ⟨c₀, c₁, c₂, c₃, k, l₀, l₁, l₂, l₃, found⟩ := head_cases ready
  · exact absurd more h
  · unfold head at h ⊢
    rw [found] at h
    rw [range_append found, found]
    dsimp only at h ⊢
    cases kind : Kind.tryFrom k with
    | error e => rfl
    | ok kind' =>
      rw [kind] at h
      dsimp only at h ⊢
      by_cases large : (fromLeBytes l₀ l₁ l₂ l₃).toNat > MAX_PAYLOAD
      · rw [if_pos large, if_pos large]
      · rw [if_neg large] at h
        rw [if_neg large, if_neg large]
        cases payload : range ready HEADER (HEADER + (fromLeBytes l₀ l₁ l₂ l₃).toNat) with
        | none => simp [payload] at h
        | some bytes => rw [range_append payload]

lemma head_size {ready : List UInt8} {f : Frame} {n : ℕ} (h : head ready = .whole f n) :
    0 < n ∧ n ≤ ready.length := by
  unfold head at h
  split at h
  · split at h
    · cases h
    · dsimp only at h
      split at h
      · cases h
      · split at h
        · cases h
        · next payload found =>
          cases h
          exact ⟨by unfold HEADER; omega, range_length found⟩
  · cases h

def framing : Framing UInt8 Frame Error where
  head := head
  size_pos h := (head_size h).1
  size_le h := (head_size h).2
  whole_append rest h := by rw [head_append (by rw [h]; simp) rest, h]
  bad_append rest h := by rw [head_append (by rw [h]; simp) rest, h]

structure Decoder where
  buffer : List UInt8
  start : ℕ
  start_le : start ≤ buffer.length

namespace Decoder

def new : Decoder := ⟨[], 0, le_rfl⟩

def ready (d : Decoder) : List UInt8 := d.buffer.drop d.start

def push (d : Decoder) (bytes : List UInt8) : Decoder :=
  if 0 < d.start ∧ d.start ≥ d.buffer.length / 2 then
    { buffer := d.buffer.drop d.start ++ bytes, start := 0, start_le := Nat.zero_le _ }
  else
    { buffer := d.buffer ++ bytes
      start := d.start
      start_le := d.start_le.trans (by simp) }

def nextFrame (d : Decoder) : Except Error (Option Frame) × Decoder :=
  match found : head d.ready with
  | .more => (.ok none, d)
  | .bad e => (.error e, d)
  | .whole frame size =>
      (.ok (some frame),
        { buffer := d.buffer
          start := d.start + size
          start_le := by
            have fits := (head_size found).2
            have within := d.start_le
            unfold ready at fits
            rw [List.length_drop] at fits
            omega })

def pending (d : Decoder) : ℕ := d.buffer.length - d.start

def reader : StreamReader Decoder UInt8 Frame Error where
  push := push
  next := nextFrame

lemma ready_push (d : Decoder) (bytes : List UInt8) : (d.push bytes).ready = d.ready ++ bytes := by
  unfold push ready
  split
  · simp
  · rw [List.drop_append_of_le_length d.start_le]

lemma nextFrame_answer (d : Decoder) : d.nextFrame.1 = (head d.ready).answer := by
  unfold nextFrame
  split
  · next found => exact (congrArg Head.answer found).symm
  · next found => exact (congrArg Head.answer found).symm
  · next found => exact (congrArg Head.answer found).symm

lemma nextFrame_ready (d : Decoder) : d.nextFrame.2.ready = (head d.ready).left d.ready := by
  unfold nextFrame
  split
  · next found => exact (congrArg (Head.left · d.ready) found).symm
  · next found => exact (congrArg (Head.left · d.ready) found).symm
  · next found =>
    refine Eq.trans ?_ (congrArg (Head.left · d.ready) found).symm
    simp only [ready, Head.left, List.drop_drop]

lemma realises : reader.Realises framing ready where
  push := ready_push
  answer := nextFrame_answer
  left := nextFrame_ready

end Decoder

def Frame.encode (frame : Frame) : Except Error (List UInt8) :=
  Framed.encode frame.channel frame.kind frame.payload

lemma head_encode {frame : Frame} {code : List UInt8} (h : frame.encode = .ok code)
    (rest : List UInt8) : head (code ++ rest) = .whole frame code.length := by
  unfold Frame.encode encode at h
  split at h
  · next fits =>
    cases h
    have length : (UInt32.ofNat frame.payload.length).toNat = frame.payload.length := by
      rw [UInt32.toNat_ofNat']
      exact Nat.mod_eq_of_lt fits.1
    generalize UInt32.ofNat frame.payload.length = size at length ⊢
    unfold head
    simp only [toLeBytes, List.cons_append, List.nil_append, range_header,
      Kind.tryFrom_toU8, fromLeBytes_toLeBytes]
    rw [length, if_neg (not_lt.mpr fits.2), range_payload]
    refine congrArg (Head.whole frame) ?_
    simp only [List.length_cons]
    unfold HEADER
    omega
  · cases h

lemma read_encoded {frames : List Frame} {codes : List (List UInt8)}
    (h : frames.mapM Frame.encode = .ok codes) (rest : List UInt8) :
    framing.read (codes.flatten ++ rest) =
      (frames ++ (framing.read rest).1, (framing.read rest).2) := by
  induction frames generalizing codes with
  | nil =>
    cases h
    rfl
  | cons frame frames ih =>
    rw [List.mapM_cons] at h
    cases first : frame.encode with
    | error e => simp [first, bind, Except.bind] at h
    | ok code =>
      cases others : frames.mapM Frame.encode with
      | error e => simp [first, others, bind, Except.bind] at h
      | ok codes' =>
        simp only [first, others, bind, Except.bind, pure, Except.pure, Except.ok.injEq] at h
        subst h
        have whole := head_encode first (codes'.flatten ++ rest)
        rw [List.flatten_cons, List.append_assoc, Framing.read_whole (F := framing) whole,
          List.drop_left, ih others]
        rfl

end Sheprd.Core.Framed
