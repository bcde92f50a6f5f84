import Sheprd.Lib.Json
import Sheprd.Lib.Text

namespace Sheprd.Lib

namespace Value

def isSpace (c : Char) : Bool := c = ' ' || c = '\n' || c = '\r' || c = '\t'

def skip (text : List Char) : List Char := text.dropWhile isSpace

def hexDigit (n : ℕ) : Char := if n < 10 then Char.ofNat (48 + n) else Char.ofNat (87 + n)

def hexValue (c : Char) : Option ℕ :=
  if c.isDigit then some (c.toNat - 48)
  else if 'a' ≤ c ∧ c ≤ 'f' then some (c.toNat - 87)
  else if 'A' ≤ c ∧ c ≤ 'F' then some (c.toNat - 55)
  else none

def escape (c : Char) : List Char :=
  match c with
  | '"' => ['\\', '"']
  | '\\' => ['\\', '\\']
  | '\n' => ['\\', 'n']
  | '\r' => ['\\', 'r']
  | '\t' => ['\\', 't']
  | c =>
      if c.toNat = 8 then ['\\', 'b']
      else if c.toNat = 12 then ['\\', 'f']
      else if c.toNat < 32 then
        ['\\', 'u', '0', '0', hexDigit (c.toNat / 16), hexDigit (c.toNat % 16)]
      else [c]

def quote (text : String) : List Char := '"' :: text.toList.flatMap escape ++ ['"']

mutual

def print : Value → List Char
  | .null => "null".toList
  | .bool true => "true".toList
  | .bool false => "false".toList
  | .number digits => digits.toList
  | .string text => quote text
  | .array items => '[' :: printItems items
  | .object fields => '\x7b' :: printFields fields

def printItems : List Value → List Char
  | [] => [']']
  | [item] => print item ++ [']']
  | item :: next :: items => print item ++ ',' :: printItems (next :: items)

def printFields : List (String × Value) → List Char
  | [] => ['\x7d']
  | [(key, value)] => quote key ++ ':' :: print value ++ ['\x7d']
  | (key, value) :: next :: fields =>
      quote key ++ ':' :: print value ++ ',' :: printFields (next :: fields)

end

def hexNumber (digits : List Char) : Option ℕ :=
  digits.foldlM (fun n digit => (hexValue digit).map (16 * n + ·)) 0

def unescape : Char → Option Char
  | '"' => some '"'
  | '\\' => some '\\'
  | '/' => some '/'
  | 'b' => some (Char.ofNat 8)
  | 'f' => some (Char.ofNat 12)
  | 'n' => some '\n'
  | 'r' => some '\r'
  | 't' => some '\t'
  | _ => none

def readString : List Char → Option (List Char × List Char)
  | [] => none
  | '"' :: rest => some ([], rest)
  | '\\' :: 'u' :: a :: b :: c :: d :: rest => do
      let code ← hexNumber [a, b, c, d]
      let (text, rest) ← readString rest
      if code.isValidChar then some (Char.ofNat code :: text, rest) else none
  | '\\' :: c :: rest => do
      let c ← unescape c
      let (text, rest) ← readString rest
      some (c :: text, rest)
  | c :: rest => do
      let (text, rest) ← readString rest
      if c.toNat < 32 then none else some (c :: text, rest)

def expect (c : Char) (text : List Char) : Option (List Char) :=
  match skip text with
  | d :: rest => if d = c then some rest else none
  | [] => none

def readKey (text : List Char) : Option (String × List Char) := do
  let rest ← expect '"' text
  let (key, rest) ← readString rest
  let rest ← expect ':' rest
  some (String.ofList key, rest)

mutual

def readValue : ℕ → List Char → Option (Value × List Char)
  | 0, _ => none
  | fuel + 1, text =>
      match skip text with
      | 'n' :: 'u' :: 'l' :: 'l' :: rest => some (.null, rest)
      | 't' :: 'r' :: 'u' :: 'e' :: rest => some (.bool true, rest)
      | 'f' :: 'a' :: 'l' :: 's' :: 'e' :: rest => some (.bool false, rest)
      | '"' :: rest => (readString rest).map fun (text, rest) => (.string (String.ofList text), rest)
      | '[' :: rest =>
          ((readItems fuel rest).or ((expect ']' rest).map fun rest => ([], rest))).map
            fun (items, rest) => (.array items, rest)
      | '\x7b' :: rest =>
          ((readFields fuel rest).or ((expect '\x7d' rest).map fun rest => ([], rest))).map
            fun (fields, rest) => (.object fields, rest)
      | c :: rest =>
          if c.isDigit then
            some (.number (String.ofList (c :: rest.takeWhile Char.isDigit)), rest.dropWhile Char.isDigit)
          else none
      | [] => none

def readItems : ℕ → List Char → Option (List Value × List Char)
  | 0, _ => none
  | fuel + 1, text =>
      match readValue fuel text with
      | some (item, rest) =>
          match expect ',' rest with
          | some rest => (readItems fuel rest).map fun (items, rest) => (item :: items, rest)
          | none => (expect ']' rest).map fun rest => ([item], rest)
      | none => none

def readFields : ℕ → List Char → Option (List (String × Value) × List Char)
  | 0, _ => none
  | fuel + 1, text =>
      match readKey text with
      | some (key, rest) =>
          match readValue fuel rest with
          | some (value, rest) =>
              match expect ',' rest with
              | some rest => (readFields fuel rest).map fun (fields, rest) => ((key, value) :: fields, rest)
              | none => (expect '\x7d' rest).map fun rest => ([(key, value)], rest)
          | none => none
      | none => none

end

def read (text : List Char) : Option Value :=
  match readValue (text.length + 1) text with
  | some (value, rest) => if skip rest = [] then some value else none
  | none => none

inductive Plain : ℕ → Value → Prop
  | null {depth : ℕ} : Plain depth .null
  | bool {depth : ℕ} (value : Bool) : Plain depth (.bool value)
  | number {depth n : ℕ} (h : n < 2 ^ 64) : Plain depth (.number n.repr)
  | string {depth : ℕ} (text : String) : Plain depth (.string text)
  | array {depth : ℕ} {items : List Value} (h : ∀ item ∈ items, Plain depth item) :
      Plain (depth + 1) (.array items)
  | object {depth : ℕ} {fields : List (String × Value)} (distinct : (fields.map Prod.fst).Nodup)
      (h : ∀ field ∈ fields, Plain depth field.2) : Plain (depth + 1) (.object fields)

lemma hexValue_hexDigit : ∀ n < 16, hexValue (hexDigit n) = some n := by decide

lemma readString_escape (c : Char) (text : List Char) :
    readString (escape c ++ text) = (readString text).map fun (rest : List Char × List Char) =>
      (c :: rest.1, rest.2) := by
  have hmap : ∀ c, (readString text).bind (fun (rest : List Char × List Char) =>
      some (c :: rest.1, rest.2)) = (readString text).map fun rest => (c :: rest.1, rest.2) :=
    fun c => Option.map_eq_bind.symm
  rw [escape.eq_def]
  split
  · exact hmap _
  · exact hmap _
  · exact hmap _
  · exact hmap _
  · exact hmap _
  · rename_i hquote hslash hn hr ht
    split
    · rename_i hb
      have hc : Char.ofNat 8 = c := by rw [← hb, Char.ofNat_toNat]
      rw [← hc]
      exact hmap _
    · split
      · rename_i hf
        have hc : Char.ofNat 12 = c := by rw [← hf, Char.ofNat_toNat]
        rw [← hc]
        exact hmap _
      · split
        · rename_i hlow
          have hcode : hexNumber ['0', '0', hexDigit (c.toNat / 16), hexDigit (c.toNat % 16)] =
              some c.toNat := by
            have hhigh := hexValue_hexDigit (c.toNat / 16) (by omega)
            have hunits := hexValue_hexDigit (c.toNat % 16) (by omega)
            have hzero : hexValue '0' = some 0 := rfl
            simp only [hexNumber, List.foldlM_cons, List.foldlM_nil, hzero, hhigh, hunits]
            simp
            omega
          have hvalid : c.toNat.isValidChar := c.valid
          rw [← hmap]
          simp only [List.cons_append, List.nil_append, readString, hcode]
          simp [hvalid, Char.ofNat_toNat]
        · rename_i hhigh
          have hread : readString (c :: text) = (readString text).bind
              fun rest => if c.toNat < 32 then none else some (c :: rest.1, rest.2) := by
            rw [readString.eq_def]
            split
            · simp_all
            · simp_all
            · simp_all
            · simp_all
            · rename_i heq
              obtain ⟨rfl, rfl⟩ := List.cons.inj heq
              rfl
          rw [List.singleton_append, hread, ← hmap]
          simp [hhigh]

lemma readString_quoted (text rest : List Char) :
    readString (text.flatMap escape ++ '"' :: rest) = some (text, rest) := by
  induction text with
  | nil => rfl
  | cons c text ih =>
    rw [List.flatMap_cons, List.append_assoc, readString_escape, ih]
    rfl

lemma skip_cons {c : Char} (h : isSpace c = false) (text : List Char) : skip (c :: text) = c :: text := by
  simp [skip, h]

lemma expect_cons {c d : Char} (h : isSpace d = false) (text : List Char) :
    expect c (d :: text) = if d = c then some text else none := by
  rw [expect, skip_cons h]

lemma quote_append (text : String) (rest : List Char) :
    quote text ++ rest = '"' :: (text.toList.flatMap escape ++ '"' :: rest) := by
  simp [quote]

lemma readKey_quote (key : String) (rest : List Char) :
    readKey (quote key ++ ':' :: rest) = some (key, rest) := by
  rw [readKey, quote_append, expect_cons rfl]
  simp only [↓reduceIte, Option.bind_eq_bind, Option.bind_some, readString_quoted,
    expect_cons (show isSpace ':' = false from rfl), String.ofList_toList]

def Stops (rest : List Char) : Prop := ∀ c ∈ rest.head?, c.isDigit = false

def Reads (value : Value) : Prop :=
  ∀ fuel rest, (print value).length < fuel → Stops rest →
    readValue fuel (print value ++ rest) = some (value, rest)

lemma stops_cons {c : Char} (h : c.isDigit = false) (rest : List Char) : Stops (c :: rest) := by
  intro d hd
  obtain rfl := Option.some.inj hd
  exact h

lemma readItems_print {items : List Value} (hne : items ≠ []) (h : ∀ item ∈ items, Reads item) :
    ∀ fuel rest, (printItems items).length < fuel →
      readItems fuel (printItems items ++ rest) = some (items, rest) := by
  induction items with
  | nil => exact absurd rfl hne
  | cons item items ih =>
    obtain ⟨hitem, hitems⟩ := List.forall_mem_cons.mp h
    intro fuel rest hfuel
    cases fuel with
    | zero => cases hfuel
    | succ fuel =>
      cases items with
      | nil =>
        rw [printItems, List.length_append, List.length_singleton] at hfuel
        have hread := hitem fuel (']' :: rest) (by omega) (stops_cons rfl rest)
        rw [printItems, List.append_assoc, List.singleton_append, readItems, hread]
        simp only [expect_cons (show isSpace ']' = false from rfl)]
        rfl
      | cons next items =>
        rw [printItems, List.length_append, List.length_cons] at hfuel
        have hread := hitem fuel (',' :: (printItems (next :: items) ++ rest)) (by omega) (stops_cons rfl _)
        have hmore := ih (List.cons_ne_nil _ _) hitems fuel rest (by omega)
        rw [printItems, List.append_assoc, List.cons_append, readItems, hread]
        simp only [expect_cons (show isSpace ',' = false from rfl), ↓reduceIte, hmore, Option.map_some]

lemma readFields_print {fields : List (String × Value)} (hne : fields ≠ [])
    (h : ∀ field ∈ fields, Reads field.2) : ∀ fuel rest, (printFields fields).length < fuel →
      readFields fuel (printFields fields ++ rest) = some (fields, rest) := by
  induction fields with
  | nil => exact absurd rfl hne
  | cons field fields ih =>
    obtain ⟨hfield, hfields⟩ := List.forall_mem_cons.mp h
    obtain ⟨key, value⟩ := field
    intro fuel rest hfuel
    cases fuel with
    | zero => cases hfuel
    | succ fuel =>
      cases fields with
      | nil =>
        have hprint : printFields [(key, value)] ++ rest =
            quote key ++ ':' :: (print value ++ '\x7d' :: rest) := by
          simp [printFields]
        have hlength : (print value).length < fuel := by
          simp only [printFields, List.length_append, List.length_cons] at hfuel
          omega
        have hread := hfield fuel ('\x7d' :: rest) hlength (stops_cons rfl rest)
        rw [hprint, readFields, readKey_quote]
        simp only [hread, expect_cons (show isSpace '\x7d' = false from rfl)]
        rfl
      | cons next fields =>
        have hprint : printFields ((key, value) :: next :: fields) ++ rest =
            quote key ++ ':' :: (print value ++ ',' :: (printFields (next :: fields) ++ rest)) := by
          simp [printFields]
        have hlength : (print value).length < fuel ∧ (printFields (next :: fields)).length < fuel := by
          simp only [printFields, List.length_append, List.length_cons] at hfuel ⊢
          omega
        have hread := hfield fuel (',' :: (printFields (next :: fields) ++ rest)) hlength.1
          (stops_cons rfl _)
        have hmore := ih (List.cons_ne_nil _ _) hfields fuel rest hlength.2
        rw [hprint, readFields, readKey_quote]
        simp only [hread, expect_cons (show isSpace ',' = false from rfl), ↓reduceIte, hmore,
          Option.map_some]

lemma readValue_number {c : Char} {digits rest : List Char} (hc : c.isDigit = true)
    (hdigits : ∀ d ∈ digits, d.isDigit = true) (hrest : Stops rest) (fuel : ℕ) :
    readValue (fuel + 1) (c :: (digits ++ rest)) = some (.number (String.ofList (c :: digits)), rest) := by
  have htake : (digits ++ rest).takeWhile Char.isDigit = digits := by
    rw [List.takeWhile_append_of_pos hdigits]
    cases rest with
    | nil => simp
    | cons d rest => simp [hrest d rfl]
  have hdrop : (digits ++ rest).dropWhile Char.isDigit = rest := by
    rw [List.dropWhile_append_of_pos hdigits]
    cases rest with
    | nil => rfl
    | cons d rest => simp [hrest d rfl]
  have hne : ∀ d : Char, d.isDigit = false → c ≠ d := by
    rintro d hd rfl
    rw [hc] at hd
    cases hd
  have hspace : isSpace c = false := by
    simp [isSpace, hne ' ' rfl, hne '\n' rfl, hne '\r' rfl, hne '\t' rfl]
  rw [readValue, skip_cons hspace]
  split
  case h_7 heq =>
    obtain ⟨rfl, rfl⟩ := List.cons.inj heq
    rw [if_pos hc, htake, hdrop]
  case h_8 heq => cases heq
  all_goals
    rename_i heq
    exact absurd (List.cons.inj heq).1 (hne _ rfl)

lemma readItems_close (fuel : ℕ) (rest : List Char) : readItems fuel (']' :: rest) = none := by
  have hvalue : ∀ fuel, readValue fuel (']' :: rest) = none := by
    intro fuel
    cases fuel with
    | zero => rfl
    | succ fuel => rfl
  cases fuel with
  | zero => rfl
  | succ fuel => rw [readItems, hvalue]

lemma readFields_close (fuel : ℕ) (rest : List Char) : readFields fuel ('\x7d' :: rest) = none := by
  cases fuel with
  | zero => rfl
  | succ fuel => rfl

lemma Plain.reads {depth : ℕ} {value : Value} (h : Plain depth value) : Reads value := by
  induction h with
  | null =>
    intro fuel rest hfuel _
    cases fuel with
    | zero => cases hfuel
    | succ fuel => rfl
  | bool value =>
    intro fuel rest hfuel _
    cases fuel with
    | zero => cases hfuel
    | succ fuel => cases value <;> rfl
  | @number _ n _ =>
    intro fuel rest hfuel hrest
    cases fuel with
    | zero => cases hfuel
    | succ fuel =>
      rw [print, Nat.toList_repr]
      have hall : ∀ d ∈ Nat.toDigits 10 n, d.isDigit = true := fun d hd =>
        Nat.isDigit_of_mem_toDigits (by omega) le_rfl hd
      cases hdigits : Nat.toDigits 10 n with
      | nil => exact absurd hdigits Nat.toDigits_ne_nil
      | cons c digits =>
        rw [hdigits] at hall
        obtain ⟨hc, hall⟩ := List.forall_mem_cons.mp hall
        rw [List.cons_append, readValue_number hc hall hrest, ← hdigits, ← Nat.repr_eq_ofList_toDigits]
  | string text =>
    intro fuel rest hfuel _
    cases fuel with
    | zero => cases hfuel
    | succ fuel =>
      rw [print, quote_append, readValue, skip_cons rfl]
      simp only [readString_quoted, Option.map_some, String.ofList_toList]
  | @array depth items _ ih =>
    intro fuel rest hfuel _
    cases fuel with
    | zero => cases hfuel
    | succ fuel =>
      rw [print, List.length_cons] at hfuel
      rw [print, List.cons_append, readValue, skip_cons rfl]
      cases items with
      | nil =>
        simp only [printItems, List.singleton_append, readItems_close, expect_cons (show isSpace ']' = false from rfl)]
        rfl
      | cons item items =>
        have hread := readItems_print (List.cons_ne_nil _ _) ih fuel rest (by omega)
        simp only [hread, Option.some_or, Option.map_some]
  | @object depth fields _ _ ih =>
    intro fuel rest hfuel _
    cases fuel with
    | zero => cases hfuel
    | succ fuel =>
      rw [print, List.length_cons] at hfuel
      rw [print, List.cons_append, readValue, skip_cons rfl]
      cases fields with
      | nil =>
        simp only [printFields, List.singleton_append, readFields_close,
          expect_cons (show isSpace '\x7d' = false from rfl)]
        rfl
      | cons field fields =>
        have hread := readFields_print (List.cons_ne_nil _ _) ih fuel rest (by omega)
        simp only [hread, Option.some_or, Option.map_some]

theorem read_print {depth : ℕ} {value : Value} (h : Plain depth value) :
    read (print value ++ ['\n']) = some value := by
  have hread := h.reads ((print value ++ ['\n']).length + 1) ['\n'] (by simp) (stops_cons rfl [])
  rw [read, hread]
  rfl

end Value

structure Json where
  print : Value → List Char
  read : List Char → Option Value
  read_print : ∀ value : Value, value.Plain 127 → read (print value ++ ['\n']) = some value

def Json.compact : Json where
  print := Value.print
  read := Value.read
  read_print _ h := Value.read_print h

end Sheprd.Lib

namespace Sheprd.Lib

def bytes (text : List Char) : ℕ := (text.map Char.utf8Size).sum

section Bytes

lemma utf8ByteSize_ofList (text : List Char) : (String.ofList text).utf8ByteSize = bytes text := by
  induction text with
  | nil => rfl
  | cons c text ih => rw [Text.size_ofList_cons, ih, bytes, bytes, List.map_cons, List.sum_cons]

lemma bytes_toList (text : String) : bytes text.toList = text.utf8ByteSize := by
  rw [← utf8ByteSize_ofList, String.ofList_toList]

@[simp] lemma bytes_nil : bytes [] = 0 := rfl

@[simp] lemma bytes_cons (c : Char) (text : List Char) :
    bytes (c :: text) = c.utf8Size + bytes text := by
  rw [bytes, bytes, List.map_cons, List.sum_cons]

@[simp] lemma bytes_append (a b : List Char) : bytes (a ++ b) = bytes a + bytes b := by
  rw [bytes, bytes, bytes, List.map_append, List.sum_append]

lemma bytes_flatMap_le {f : Char → List Char} {n : ℕ} {text : List Char}
    (h : ∀ c ∈ text, bytes (f c) ≤ n * c.utf8Size) : bytes (text.flatMap f) ≤ n * bytes text := by
  induction text with
  | nil => exact Nat.zero_le _
  | cons c text ih =>
    obtain ⟨hc, htext⟩ := List.forall_mem_cons.mp h
    rw [List.flatMap_cons, bytes_append, bytes_cons, Nat.mul_add]
    exact Nat.add_le_add hc (ih htext)

end Bytes

namespace Value

def Spelled (c : Char) : Prop :=
  32 ≤ c.toNat ∨ c.toNat = 8 ∨ c.toNat = 9 ∨ c.toNat = 10 ∨ c.toNat = 12 ∨ c.toNat = 13

instance (c : Char) : Decidable (Spelled c) := by unfold Spelled; infer_instance

lemma bytes_escape_spelled {c : Char} (h : Spelled c) : bytes (escape c) ≤ 2 * c.utf8Size := by
  have hpos : 1 ≤ c.utf8Size := c.utf8Size_pos
  rw [escape.eq_def]
  split
  · decide
  · decide
  · decide
  · decide
  · decide
  · rename_i hn hr ht
    have hne (d : Char) (hd : c ≠ d) : c.toNat ≠ d.toNat := fun heq => hd (Char.toNat_inj.mp heq)
    have hn : c.toNat ≠ 10 := hne '\n' hn
    have hr : c.toNat ≠ 13 := hne '\r' hr
    have ht : c.toNat ≠ 9 := hne '\t' ht
    have hslash : ('\\' : Char).utf8Size = 1 := rfl
    have hb : ('b' : Char).utf8Size = 1 := rfl
    have hf : ('f' : Char).utf8Size = 1 := rfl
    split
    · simp only [bytes_cons, bytes_nil, hslash, hb]
      omega
    · split
      · simp only [bytes_cons, bytes_nil, hslash, hf]
        omega
      · rename_i h8 h12
        rw [if_neg (by simp only [Spelled] at h; omega), bytes_cons, bytes_nil]
        omega

lemma bytes_quote_spelled {text : String} (h : ∀ c ∈ text.toList, Spelled c) :
    bytes (quote text) ≤ 2 * text.utf8ByteSize + 2 := by
  have hescape : bytes (text.toList.flatMap escape) ≤ 2 * bytes text.toList :=
    bytes_flatMap_le fun c hc => bytes_escape_spelled (h c hc)
  rw [bytes_toList] at hescape
  rw [quote, bytes_append, bytes_cons]
  have hmark : ('"' : Char).utf8Size = 1 := rfl
  simp only [bytes_cons, bytes_nil, hmark]
  omega

lemma bytes_quote {text : String} (h : ∀ c ∈ text.toList, Text.isControl c = false) :
    bytes (quote text) ≤ 2 * text.utf8ByteSize + 2 :=
  bytes_quote_spelled fun c hc => .inl (by
    have hcontrol := h c hc
    simp only [Text.isControl, Bool.or_eq_false_iff, decide_eq_false_iff_not, not_lt] at hcontrol
    exact hcontrol.1)

lemma utf8Size_digit {c : Char} (h : c.isDigit = true) : c.utf8Size = 1 := by
  simp only [Char.isDigit, Bool.and_eq_true, decide_eq_true_eq] at h
  have h9 : c.val ≤ 57 := h.2
  have hle : c.val.toNat ≤ 57 := h9
  rw [Char.utf8Size, if_pos]
  rw [UInt32.le_iff_toNat_le]
  exact hle.trans (by decide)

lemma bytes_repr {n digits : ℕ} (hdigits : 0 < digits) (h : n < 10 ^ digits) :
    bytes n.repr.toList ≤ digits := by
  have hall : ∀ c ∈ n.repr.toList, c.utf8Size = 1 := fun c hc =>
    utf8Size_digit (Text.isDigit_of_repr hc)
  have hbytes : bytes n.repr.toList = n.repr.toList.length := by
    rw [bytes, List.map_congr_left hall, List.map_const', List.sum_replicate, smul_eq_mul, mul_one]
  rw [hbytes, String.length_toList]
  exact Nat.repr_length n digits hdigits h

lemma bytes_printItems {n : ℕ} {items : List Value} (h : ∀ item ∈ items, bytes (print item) ≤ n) :
    bytes (printItems items) ≤ items.length * (n + 1) + 1 := by
  have hclose : (']' : Char).utf8Size = 1 := rfl
  have hcomma : (',' : Char).utf8Size = 1 := rfl
  induction items with
  | nil => simp [printItems, hclose]
  | cons item items ih =>
    obtain ⟨hitem, hitems⟩ := List.forall_mem_cons.mp h
    cases items with
    | nil =>
      simp only [printItems, bytes_append, bytes_cons, bytes_nil, hclose, List.length_singleton]
      omega
    | cons next items =>
      have hrest := ih hitems
      rw [printItems, bytes_append, bytes_cons, hcomma, List.length_cons, Nat.succ_mul]
      omega

lemma bytes_array {n : ℕ} {items : List Value} (h : ∀ item ∈ items, bytes (print item) ≤ n) :
    bytes (print (.array items)) ≤ items.length * (n + 1) + 2 := by
  have hopen : ('[' : Char).utf8Size = 1 := rfl
  have := bytes_printItems h
  rw [print, bytes_cons, hopen]
  omega

end Value

structure Compact extends Json where
  print_eq : print = Value.print

def Compact.standard : Compact := ⟨Json.compact, rfl⟩

lemma mapM_map_some {α β : Type} {f : α → β} {g : β → Option α} (h : ∀ a, g (f a) = some a) (items : List α) :
    (items.map f).mapM g = some items := by
  induction items with
  | nil => rfl
  | cons item items ih =>
    rw [List.map_cons, List.mapM_cons, h, ih]
    rfl

end Sheprd.Lib
