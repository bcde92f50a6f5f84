import Mathlib.Tactic

namespace Sheprd.Lib.Base64

def letter (n : ℕ) : Char :=
  if n < 26 then Char.ofNat (65 + n)
  else if n < 52 then Char.ofNat (97 + (n - 26))
  else if n < 62 then Char.ofNat (48 + (n - 52))
  else if n = 62 then '+'
  else '/'

def value (c : Char) : Option ℕ :=
  if 65 ≤ c.toNat ∧ c.toNat ≤ 90 then some (c.toNat - 65)
  else if 97 ≤ c.toNat ∧ c.toNat ≤ 122 then some (c.toNat - 97 + 26)
  else if 48 ≤ c.toNat ∧ c.toNat ≤ 57 then some (c.toNat - 48 + 52)
  else if c = '+' then some 62
  else if c = '/' then some 63
  else none

def letters : List UInt8 → List Char
  | [] => []
  | [a] => [letter (a.toNat / 4), letter (a.toNat % 4 * 16)]
  | [a, b] => [letter (a.toNat / 4), letter (a.toNat % 4 * 16 + b.toNat / 16),
      letter (b.toNat % 16 * 4)]
  | a :: b :: c :: bytes =>
      letter (a.toNat / 4) :: letter (a.toNat % 4 * 16 + b.toNat / 16) ::
        letter (b.toNat % 16 * 4 + c.toNat / 64) :: letter (c.toNat % 64) :: letters bytes

def bytesOf : List ℕ → Option (List UInt8)
  | [] => some []
  | [_] => none
  | [p, q] => if q % 16 = 0 then some [UInt8.ofNat (p * 4 + q / 16)] else none
  | [p, q, r] =>
      if r % 4 = 0 then
        some [UInt8.ofNat (p * 4 + q / 16), UInt8.ofNat (q % 16 * 16 + r / 4)]
      else none
  | p :: q :: r :: s :: values => (bytesOf values).map fun bytes =>
      UInt8.ofNat (p * 4 + q / 16) :: UInt8.ofNat (q % 16 * 16 + r / 4) ::
        UInt8.ofNat (r % 4 * 64 + s) :: bytes

def encode (bytes : List UInt8) : String := String.ofList (letters bytes)

def decode (text : String) : Option (List UInt8) := (text.toList.mapM value).bind bytesOf

example : encode [102, 111, 111, 98, 97] = "Zm9vYmE" ∧ decode "Zm9vYmE" = some [102, 111, 111, 98, 97] := by
  decide

lemma value_letter {n : ℕ} (h : n < 64) : value (letter n) = some n := by
  have all : ∀ n < 64, value (letter n) = some n := by decide
  exact all n h

lemma letter_size (n : ℕ) : (letter n).utf8Size = 1 := by
  have all : ∀ n < 63, (letter n).utf8Size = 1 := by decide
  by_cases h : n < 63
  · exact all n h
  · rw [letter, if_neg (by omega), if_neg (by omega), if_neg (by omega), if_neg (by omega)]
    decide

lemma bytesOf_letters (bytes : List UInt8) :
    ((letters bytes).mapM value).bind bytesOf = some bytes := by
  have eight (n : UInt8) : n.toNat < 256 := n.toNat_lt
  have whole (n : ℕ) (b : UInt8) (h : n = b.toNat) : UInt8.ofNat n = b := by
    rw [h, UInt8.ofNat_toNat]
  induction bytes using letters.induct with
  | case1 => rfl
  | case2 a =>
    have := eight a
    rw [letters, List.mapM_cons, List.mapM_cons, List.mapM_nil, value_letter (by omega),
      value_letter (by omega)]
    simp only [Option.pure_def, Option.bind_eq_bind, Option.bind_some, bytesOf]
    rw [if_pos (by omega), whole _ a (by omega)]
  | case3 a b =>
    have := eight a
    have := eight b
    rw [letters, List.mapM_cons, List.mapM_cons, List.mapM_cons, List.mapM_nil,
      value_letter (by omega), value_letter (by omega), value_letter (by omega)]
    simp only [Option.pure_def, Option.bind_eq_bind, Option.bind_some, bytesOf]
    rw [if_pos (by omega), whole _ a (by omega), whole _ b (by omega)]
  | case4 a b c bytes ih =>
    have := eight a
    have := eight b
    have := eight c
    obtain ⟨values, hv, hb⟩ := Option.bind_eq_some_iff.mp ih
    rw [letters, List.mapM_cons, List.mapM_cons, List.mapM_cons, List.mapM_cons, hv,
      value_letter (by omega), value_letter (by omega), value_letter (by omega),
      value_letter (by omega)]
    simp only [Option.pure_def, Option.bind_eq_bind, Option.bind_some, bytesOf, hb, Option.map_some]
    rw [whole _ a (by omega), whole _ b (by omega), whole _ c (by omega)]

lemma decode_encode (bytes : List UInt8) : decode (encode bytes) = some bytes := by
  rw [decode, encode, String.toList_ofList]
  exact bytesOf_letters bytes

lemma length_letters (bytes : List UInt8) : (letters bytes).length =
    bytes.length / 3 * 4 + (if bytes.length % 3 = 0 then 0 else bytes.length % 3 + 1) := by
  induction bytes using letters.induct with
  | case1 => rfl
  | case2 a => simp [letters]
  | case3 a b => simp [letters]
  | case4 a b c bytes ih =>
    have same : (bytes.length + 1 + 1 + 1) % 3 = bytes.length % 3 := by omega
    simp only [letters, List.length_cons, ih, same]
    omega

lemma letters_size (bytes : List UInt8) : ∀ c ∈ letters bytes, c.utf8Size = 1 := by
  induction bytes using letters.induct with
  | case1 => simp [letters]
  | case2 a => simp [letters, letter_size]
  | case3 a b => simp [letters, letter_size]
  | case4 a b c bytes ih => simpa [letters, letter_size] using ih

lemma ofList_size {chars : List Char} (h : ∀ c ∈ chars, c.utf8Size = 1) :
    (String.ofList chars).utf8ByteSize = chars.length := by
  induction chars with
  | nil => rfl
  | cons c chars ih =>
    rw [String.ofList_cons, String.utf8ByteSize_append, String.utf8ByteSize_singleton,
      h c (List.mem_cons_self ..), ih fun c hc => h c (List.mem_cons_of_mem _ hc), List.length_cons]
    omega

lemma encode_size (bytes : List UInt8) : (encode bytes).utf8ByteSize =
    bytes.length / 3 * 4 + (if bytes.length % 3 = 0 then 0 else bytes.length % 3 + 1) := by
  rw [encode, ofList_size (letters_size bytes), length_letters]

end Sheprd.Lib.Base64
