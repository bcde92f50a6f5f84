import Mathlib.Tactic

namespace Sheprd.Lib.Bincode

structure Reader where
  input : List UInt8
  claimed : ℕ
  limit : ℕ

abbrev Decoder := StateT Reader Option

variable {α β : Type}

def claim (n : ℕ) : Decoder Unit := fun r =>
  if r.claimed + n ≤ r.limit then some ((), { r with claimed := r.claimed + n }) else none

def take (n : ℕ) : Decoder (List UInt8) := fun r =>
  if n ≤ r.input.length then some (r.input.take n, { r with input := r.input.drop n }) else none

def littleEndian (bytes : List UInt8) : ℕ := bytes.foldr (fun b n => b.toNat + 256 * n) 0

def varint (width : ℕ) : Decoder ℕ := do
  let tag := littleEndian (← take 1)
  if tag ≤ 250 then return tag
  else if tag = 251 then return littleEndian (← take 2)
  else if tag = 252 ∧ 4 ≤ width then return littleEndian (← take 4)
  else if tag = 253 ∧ 8 ≤ width then return littleEndian (← take 8)
  else failure

def u8 : Decoder UInt8 := do
  claim 1
  return UInt8.ofNat (littleEndian (← take 1))

def u16 : Decoder UInt16 := do
  claim 2
  return UInt16.ofNat (← varint 2)

def u32 : Decoder UInt32 := do
  claim 4
  return UInt32.ofNat (← varint 4)

def u64 : Decoder UInt64 := do
  claim 8
  return UInt64.ofNat (← varint 8)

def i32 : Decoder Int32 := do
  claim 4
  let n ← varint 4
  return Int32.ofInt (if n % 2 = 0 then (n / 2 : ℕ) else -((n / 2 : ℕ) : ℤ) - 1)

def bool : Decoder Bool := do
  match (← u8).toNat with
  | 0 => return false
  | 1 => return true
  | _ => failure

def option (d : Decoder α) : Decoder (Option α) := do
  match (← u8).toNat with
  | 0 => return none
  | 1 => return some (← d)
  | _ => failure

def string : Decoder String := do
  let n := (← u64).toNat
  claim n
  match String.fromUTF8? ⟨(← take n).toArray⟩ with
  | some s => return s
  | none => failure

def times (d : Decoder α) : ℕ → Decoder (List α)
  | 0 => return []
  | n + 1 => do
      let a ← d
      return a :: (← times d n)

def vec (d : Decoder α) : Decoder (List α) := do
  times d (← u64).toNat

def pair (d : Decoder α) (e : Decoder β) : Decoder (α × β) := do
  return (← d, ← e)

lemma bind_eq_some {d : Decoder α} {f : α → Decoder β} {r r' : Reader} {b : β} :
    (d >>= f) r = some (b, r') ↔ ∃ a r₁, d r = some (a, r₁) ∧ f a r₁ = some (b, r') := by
  change (d r).bind (fun p => f p.1 p.2) = _ ↔ _
  rw [Option.bind_eq_some_iff]
  constructor
  · rintro ⟨⟨a, r₁⟩, hd, hf⟩
    exact ⟨a, r₁, hd, hf⟩
  · rintro ⟨a, r₁, hd, hf⟩
    exact ⟨(a, r₁), hd, hf⟩

lemma pure_eq_some {a b : α} {r r' : Reader} :
    (pure a : Decoder α) r = some (b, r') ↔ a = b ∧ r = r' := by
  change some (a, r) = some (b, r') ↔ _
  simp

abbrev Reader.grown (r : Reader) (more : List UInt8) (claimed limit : ℕ) : Reader :=
  ⟨r.input ++ more, claimed, limit⟩

def Grows (d : Decoder α) : Prop :=
  ∀ r a r', d r = some (a, r') → ∃ n, r'.claimed = r.claimed + n ∧ r'.limit = r.limit ∧
    (r.claimed ≤ r.limit → r'.claimed ≤ r'.limit) ∧
    ∀ more claimed limit, r.limit + claimed ≤ limit + r.claimed →
      d (r.grown more claimed limit) = some (a, r'.grown more (claimed + n) limit)

namespace Grows

lemma pure (a : α) : Grows (pure a : Decoder α) := by
  intro r b r' h
  obtain ⟨rfl, rfl⟩ := pure_eq_some.mp h
  exact ⟨0, rfl, rfl, id, fun more claimed limit _ => rfl⟩

lemma failure : Grows (failure : Decoder α) := by
  intro r a r' h
  exact absurd h (by rintro ⟨⟩)

lemma bind {d : Decoder α} {f : α → Decoder β} (hd : Grows d) (hf : ∀ a, Grows (f a)) :
    Grows (d >>= f) := by
  intro r b r' h
  obtain ⟨a, r₁, ha, hb⟩ := bind_eq_some.mp h
  obtain ⟨n, hc, hl, hle, hd'⟩ := hd r a r₁ ha
  obtain ⟨n', hc', hl', hle', hf'⟩ := hf a r₁ b r' hb
  refine ⟨n + n', by omega, hl'.trans hl, fun h => hle' (hle h), ?_⟩
  intro more claimed limit hroom
  rw [← Nat.add_assoc]
  exact bind_eq_some.mpr ⟨a, _, hd' more claimed limit hroom,
    hf' more (claimed + n) limit (by omega)⟩

lemma claim (n : ℕ) : Grows (claim n) := by
  intro r a r' h
  simp only [Bincode.claim] at h
  split at h
  · rename_i hn
    cases Option.some.inj h
    refine ⟨n, rfl, rfl, fun _ => hn, ?_⟩
    intro more claimed limit hroom
    exact if_pos (show claimed + n ≤ limit by omega)
  · exact absurd h (by simp)

lemma take (n : ℕ) : Grows (take n) := by
  intro r a r' h
  simp only [Bincode.take] at h
  split at h
  · rename_i hn
    cases Option.some.inj h
    refine ⟨0, rfl, rfl, id, ?_⟩
    intro more claimed limit hroom
    have hle : n ≤ (r.input ++ more).length := by
      rw [List.length_append]
      omega
    rw [Bincode.take, if_pos hle, List.take_append_of_le_length hn,
      List.drop_append_of_le_length hn]
    rfl
  · exact absurd h (by simp)

lemma varint (width : ℕ) : Grows (varint width) := by
  apply bind (take 1)
  intro bytes
  dsimp only
  split_ifs
  · exact pure _
  · exact bind (take 2) fun _ => pure _
  · exact bind (take 4) fun _ => pure _
  · exact bind (take 8) fun _ => pure _
  · exact failure

lemma u32 : Grows u32 := bind (claim 4) fun _ => bind (varint 4) fun _ => pure _

lemma u64 : Grows u64 := bind (claim 8) fun _ => bind (varint 8) fun _ => pure _

lemma string : Grows string := by
  apply bind u64
  intro n
  apply bind (claim _)
  intro _
  apply bind (take _)
  intro bytes
  split
  · exact pure _
  · exact failure

end Grows

end Sheprd.Lib.Bincode

namespace Sheprd.Lib.Bincode

namespace Encode

def littleEndian : ℕ → ℕ → List UInt8
  | 0, _ => []
  | width + 1, n => UInt8.ofNat (n % 256) :: littleEndian width (n / 256)

def varint (n : ℕ) : List UInt8 :=
  if n ≤ 250 then [UInt8.ofNat n]
  else if n < 2 ^ 16 then 251 :: littleEndian 2 n
  else if n < 2 ^ 32 then 252 :: littleEndian 4 n
  else 253 :: littleEndian 8 n

def u8 (n : UInt8) : List UInt8 := [n]
def u16 (n : UInt16) : List UInt8 := varint n.toNat
def u32 (n : UInt32) : List UInt8 := varint n.toNat
def u64 (n : UInt64) : List UInt8 := varint n.toNat
def bool (b : Bool) : List UInt8 := [if b then 1 else 0]

def option {α : Type} (encode : α → List UInt8) : Option α → List UInt8
  | none => [0]
  | some a => 1 :: encode a

def string (s : String) : List UInt8 :=
  varint s.toByteArray.data.toList.length ++ s.toByteArray.data.toList

def vec {α : Type} (encode : α → List UInt8) (as : List α) : List UInt8 :=
  varint as.length ++ as.flatMap encode

lemma length_littleEndian (width n : ℕ) : (littleEndian width n).length = width := by
  induction width generalizing n with
  | zero => rfl
  | succ width ih => rw [littleEndian, List.length_cons, ih]

lemma littleEndian_read {width n : ℕ} (h : n < 256 ^ width) :
    Bincode.littleEndian (littleEndian width n) = n := by
  induction width generalizing n with
  | zero =>
    rw [pow_zero] at h
    rw [littleEndian, Bincode.littleEndian, List.foldr_nil]
    omega
  | succ width ih =>
    have small : n / 256 < 256 ^ width := by
      rw [pow_succ] at h
      exact Nat.div_lt_of_lt_mul (by rwa [Nat.mul_comm])
    have rest := ih small
    rw [Bincode.littleEndian] at rest
    rw [littleEndian, Bincode.littleEndian, List.foldr_cons, rest, UInt8.toNat_ofNat']
    omega

lemma varint_pos (n : ℕ) : 0 < (varint n).length := by
  rw [varint]
  split_ifs <;> simp

end Encode

variable {α β : Type}

def Reads (d : Decoder α) (bytes : List UInt8) (a : α) : Prop :=
  ∀ rest claimed limit, claimed + 8 * bytes.length ≤ limit → limit < 2 ^ 64 →
    ∃ claimed' ≤ claimed + 8 * bytes.length,
      d ⟨bytes ++ rest, claimed, limit⟩ = some (a, ⟨rest, claimed', limit⟩)

lemma take_append {bytes rest : List UInt8} {n claimed limit : ℕ} (h : bytes.length = n) :
    take n ⟨bytes ++ rest, claimed, limit⟩ = some (bytes, ⟨rest, claimed, limit⟩) := by
  subst h
  simp [take]

lemma varint_read {width n : ℕ} (hw : width = 2 ∨ width = 4 ∨ width = 8) (h : n < 256 ^ width)
    (rest : List UInt8) (claimed limit : ℕ) :
    varint width ⟨Encode.varint n ++ rest, claimed, limit⟩ =
      some (n, ⟨rest, claimed, limit⟩) := by
  have one (tag : UInt8) (more : List UInt8) :
      take 1 ⟨tag :: more, claimed, limit⟩ = some ([tag], ⟨more, claimed, limit⟩) :=
    @take_append [tag] more 1 claimed limit rfl
  have tagged (tag : UInt8) : littleEndian [tag] = tag.toNat := by simp [littleEndian]
  have taken (size : ℕ) : take size ⟨Encode.littleEndian size n ++ rest, claimed, limit⟩ =
      some (Encode.littleEndian size n, ⟨rest, claimed, limit⟩) :=
    take_append (Encode.length_littleEndian size n)
  rw [varint, Encode.varint]
  split_ifs with tiny short middle
  · refine bind_eq_some.mpr ⟨_, _, one _ _, ?_⟩
    have same : (UInt8.ofNat n).toNat = n := by
      rw [UInt8.toNat_ofNat']
      omega
    simp only [tagged, same, if_pos tiny]
    rfl
  · refine bind_eq_some.mpr ⟨_, _, one _ _, bind_eq_some.mpr ⟨_, _, taken 2, ?_⟩⟩
    exact pure_eq_some.mpr ⟨Encode.littleEndian_read short, rfl⟩
  · have wide : 4 ≤ width := by
      obtain rfl | rfl | rfl := hw
      · exact absurd h short
      · exact le_rfl
      · decide
    refine bind_eq_some.mpr ⟨_, _, one _ _, ?_⟩
    simp only [tagged]
    rw [if_neg (by decide), if_neg (by decide), if_pos ⟨by decide, wide⟩]
    refine bind_eq_some.mpr ⟨_, _, taken 4, ?_⟩
    exact pure_eq_some.mpr ⟨Encode.littleEndian_read middle, rfl⟩
  · have wide : width = 8 := by
      obtain rfl | rfl | rfl := hw
      · exact absurd h short
      · exact absurd h middle
      · rfl
    subst wide
    refine bind_eq_some.mpr ⟨_, _, one _ _, ?_⟩
    simp only [tagged]
    rw [if_neg (by decide), if_neg (by decide), if_neg (by decide), if_pos ⟨by decide, le_rfl⟩]
    refine bind_eq_some.mpr ⟨_, _, taken 8, ?_⟩
    exact pure_eq_some.mpr ⟨Encode.littleEndian_read h, rfl⟩

lemma claim_fits {n claimed limit : ℕ} {input : List UInt8} (h : claimed + n ≤ limit) :
    claim n ⟨input, claimed, limit⟩ = some ((), ⟨input, claimed + n, limit⟩) := if_pos h

namespace Reads

lemma pure (a : α) : Reads (pure a : Decoder α) [] a :=
  fun _ claimed _ _ _ => ⟨claimed, le_rfl, rfl⟩

lemma bind {d : Decoder α} {f : α → Decoder β} {bytes bytes' : List UInt8} {a : α} {b : β}
    (hd : Reads d bytes a) (hf : Reads (f a) bytes' b) : Reads (d >>= f) (bytes ++ bytes') b := by
  intro rest claimed limit room small
  rw [List.length_append] at room
  obtain ⟨mid, hmid, first⟩ := hd (bytes' ++ rest) claimed limit (by omega) small
  obtain ⟨final, hfinal, second⟩ := hf rest mid limit (by omega) small
  refine ⟨final, by rw [List.length_append]; omega, ?_⟩
  rw [List.append_assoc]
  exact bind_eq_some.mpr ⟨a, _, first, second⟩

lemma last {d : Decoder α} {f : α → Decoder β} {bytes : List UInt8} {a : α} {b : β}
    (hd : Reads d bytes a) (hf : f a = Pure.pure b) : Reads (d >>= f) bytes b := by
  have more : Reads (f a) [] b := by
    rw [hf]
    exact Reads.pure b
  have all := hd.bind more
  rwa [List.append_nil] at all

lemma field {d : Decoder α} {f : α → Decoder β} {bytes : List UInt8} {more : List (List UInt8)}
    {a : α} {b : β} (hd : Reads d bytes a) (hf : Reads (f a) more.flatten b) :
    Reads (d >>= f) (bytes :: more).flatten b := hd.bind hf

lemma u8 (n : UInt8) : Reads u8 (Encode.u8 n) n := by
  intro rest claimed limit room _
  simp only [Encode.u8, List.length_singleton] at room
  refine ⟨claimed + 1, by simp [Encode.u8], bind_eq_some.mpr ⟨(), _, claim_fits (by omega), ?_⟩⟩
  refine bind_eq_some.mpr ⟨[n], _, @take_append [n] rest 1 _ _ rfl, pure_eq_some.mpr ⟨?_, rfl⟩⟩
  simp [littleEndian]

lemma u16 (n : UInt16) : Reads u16 (Encode.u16 n) n := by
  intro rest claimed limit room _
  have size := Encode.varint_pos n.toNat
  rw [Encode.u16] at room ⊢
  refine ⟨claimed + 2, by omega, bind_eq_some.mpr ⟨(), _, claim_fits (by omega), ?_⟩⟩
  refine bind_eq_some.mpr ⟨_, _, varint_read (.inl rfl) n.toNat_lt _ _ _, ?_⟩
  exact pure_eq_some.mpr ⟨UInt16.ofNat_toNat, rfl⟩

lemma u32 (n : UInt32) : Reads u32 (Encode.u32 n) n := by
  intro rest claimed limit room _
  have size := Encode.varint_pos n.toNat
  rw [Encode.u32] at room ⊢
  refine ⟨claimed + 4, by omega, bind_eq_some.mpr ⟨(), _, claim_fits (by omega), ?_⟩⟩
  refine bind_eq_some.mpr ⟨_, _, varint_read (.inr (.inl rfl)) n.toNat_lt _ _ _, ?_⟩
  exact pure_eq_some.mpr ⟨UInt32.ofNat_toNat, rfl⟩

lemma u64 (n : UInt64) : Reads u64 (Encode.u64 n) n := by
  intro rest claimed limit room _
  have size := Encode.varint_pos n.toNat
  rw [Encode.u64] at room ⊢
  refine ⟨claimed + 8, by omega, bind_eq_some.mpr ⟨(), _, claim_fits (by omega), ?_⟩⟩
  refine bind_eq_some.mpr ⟨_, _, varint_read (.inr (.inr rfl)) n.toNat_lt _ _ _, ?_⟩
  exact pure_eq_some.mpr ⟨UInt64.ofNat_toNat, rfl⟩

lemma bool (b : Bool) : Reads bool (Encode.bool b) b := by
  have byte := u8 (if b then 1 else 0)
  cases b with
  | false => exact byte.last rfl
  | true => exact byte.last rfl

lemma option {d : Decoder α} {encode : α → List UInt8} {a : Option α}
    (h : ∀ b ∈ a, Reads d (encode b) b) : Reads (option d) (Encode.option encode a) a := by
  cases a with
  | none => exact (u8 0).last rfl
  | some a => exact (u8 1).bind ((h a rfl).last rfl)

lemma counted {f : ℕ → Decoder β} {n : ℕ} {bytes : List UInt8} {b : β} (small : n ≤ bytes.length)
    (h : ∀ rest claimed limit, claimed + 8 * bytes.length ≤ limit → limit < 2 ^ 64 →
      ∃ claimed' ≤ claimed + 8 * bytes.length,
        f n ⟨bytes ++ rest, claimed, limit⟩ = some (b, ⟨rest, claimed', limit⟩)) :
    Reads (Bincode.u64 >>= fun n => f n.toNat) (Encode.varint n ++ bytes) b := by
  intro rest claimed limit room narrow
  rw [List.length_append] at room
  have fits : n < 2 ^ 64 := by omega
  have same : (UInt64.ofNat n).toNat = n := by
    rw [UInt64.toNat_ofNat']
    omega
  have length := u64 (UInt64.ofNat n)
  rw [Encode.u64, same] at length
  refine length.bind (f := fun n => f n.toNat) ?_ rest claimed limit (by simpa using room) narrow
  rw [same]
  exact h

lemma string (s : String) : Reads string (Encode.string s) s := by
  refine counted (f := fun n => do
    claim n
    match String.fromUTF8? ⟨(← take n).toArray⟩ with
    | some s => return s
    | none => failure) le_rfl ?_
  intro rest claimed limit room _
  refine ⟨claimed + s.toByteArray.data.toList.length, by omega, ?_⟩
  refine bind_eq_some.mpr ⟨(), _, claim_fits (by omega), ?_⟩
  refine bind_eq_some.mpr ⟨_, _, take_append rfl, ?_⟩
  have valid : String.fromUTF8? ⟨s.toByteArray.data.toList.toArray⟩ = some s := by
    simp only [String.fromUTF8?, Array.toArray_toList, s.isValidUTF8, dif_pos]
    rfl
  simp only [valid]
  rfl

lemma times {d : Decoder α} {encode : α → List UInt8} {as : List α}
    (h : ∀ a ∈ as, Reads d (encode a) a) : Reads (times d as.length) (as.flatMap encode) as := by
  induction as with
  | nil => exact Reads.pure []
  | cons a as ih =>
    have rest := ih fun b hb => h b (List.mem_cons_of_mem _ hb)
    exact (h a (List.mem_cons_self ..)).bind (rest.last rfl)

lemma vec {d : Decoder α} {encode : α → List UInt8} {as : List α}
    (h : ∀ a ∈ as, Reads d (encode a) a) (pos : ∀ a ∈ as, 0 < (encode a).length) :
    Reads (vec d) (Encode.vec encode as) as := by
  refine counted (f := Bincode.times d) ?_ (times h)
  clear h
  induction as with
  | nil => exact Nat.zero_le _
  | cons a as ih =>
    have first := pos a (List.mem_cons_self ..)
    have rest := ih fun b hb => pos b (List.mem_cons_of_mem _ hb)
    rw [List.flatMap_cons, List.length_append, List.length_cons]
    omega

end Reads

end Sheprd.Lib.Bincode
