import Mathlib.Tactic

namespace Sheprd.Lib.Text

def isWhitespace (c : Char) : Bool :=
  let n := c.toNat
  (9 ≤ n && n ≤ 13) || n = 32 || n = 0x85 || n = 0xa0 || n = 0x1680 || (0x2000 ≤ n && n ≤ 0x200a) ||
    n = 0x2028 || n = 0x2029 || n = 0x202f || n = 0x205f || n = 0x3000

def isControl (c : Char) : Bool := c.toNat < 32 || (127 ≤ c.toNat && c.toNat < 160)

def trimStart (text : List Char) : List Char := text.dropWhile isWhitespace

def trimEnd (text : List Char) : List Char := (text.reverse.dropWhile isWhitespace).reverse

def trim (text : String) : String := .ofList (trimEnd (trimStart text.toList))

def takeBytes : ℕ → List Char → List Char
  | _, [] => []
  | n, c :: rest => if c.utf8Size ≤ n then c :: takeBytes (n - c.utf8Size) rest else []

def truncate (n : ℕ) (text : String) : String := .ofList (takeBytes n text.toList)

def linesFrom : List Char → List Char → List (List Char)
  | [], [] => []
  | line, [] => [line.reverse]
  | line, '\n' :: rest =>
      (match line with
        | '\r' :: line => line.reverse
        | line => line.reverse) :: linesFrom [] rest
  | line, c :: rest => linesFrom (c :: line) rest

def lines (text : String) : List String := (linesFrom [] text.toList).map String.ofList

def splitOnce (mark : Char) : List Char → Option (List Char × List Char)
  | [] => none
  | c :: rest =>
      if c = mark then some ([], rest)
      else (splitOnce mark rest).map fun (front, back) => (c :: front, back)

def splitOn (marks : List Char) : List Char → List (List Char)
  | [] => [[]]
  | c :: rest =>
      if c ∈ marks then [] :: splitOn marks rest
      else
        match splitOn marks rest with
        | [] => [[c]]
        | part :: parts => (c :: part) :: parts

def stripPrefix (marks : List Char) : List Char → Option (List Char)
  | [] => none
  | c :: rest => if c ∈ marks then some rest else none

def stripSuffix (marks : List Char) (text : List Char) : Option (List Char) :=
  (stripPrefix marks text.reverse).map List.reverse

def trimEndMatches (mark : Char) (text : List Char) : List Char :=
  (text.reverse.dropWhile (· = mark)).reverse

def lowerAscii (text : String) : List Char := text.toList.map Char.toLower

def eqIgnoreAsciiCase (a b : String) : Bool := lowerAscii a == lowerAscii b

lemma stripPrefix_eq_some {mark : Char} {text rest : List Char}
    (h : stripPrefix [mark] text = some rest) : text = mark :: rest := by
  cases text with
  | nil => exact absurd h (by simp [stripPrefix])
  | cons c text =>
    rw [stripPrefix] at h
    split at h
    · rename_i hc
      rw [Option.some.inj h, List.mem_singleton.mp hc]
    · exact absurd h (by simp)

lemma stripSuffix_eq_some {mark : Char} {text rest : List Char}
    (h : stripSuffix [mark] text = some rest) : text = rest ++ [mark] := by
  obtain ⟨front, hf, rfl⟩ := Option.map_eq_some_iff.mp h
  rw [← List.reverse_reverse text, stripPrefix_eq_some hf, List.reverse_cons]

lemma splitOnce_eq_some {mark : Char} {text front back : List Char}
    (h : splitOnce mark text = some (front, back)) : text = front ++ mark :: back := by
  induction text generalizing front with
  | nil => exact absurd h (by simp [splitOnce])
  | cons c text ih =>
    rw [splitOnce] at h
    split at h
    · rename_i hc
      obtain ⟨rfl, rfl⟩ := Prod.mk.inj (Option.some.inj h)
      rw [hc, List.nil_append]
    · obtain ⟨⟨front', back'⟩, ht, he⟩ := Option.map_eq_some_iff.mp h
      obtain ⟨rfl, rfl⟩ := Prod.mk.inj he
      rw [ih ht, List.cons_append]

lemma splitOnce_append {mark : Char} {front : List Char} (h : mark ∉ front) (back : List Char) :
    splitOnce mark (front ++ mark :: back) = some (front, back) := by
  induction front with
  | nil => simp [splitOnce]
  | cons c front ih =>
    obtain ⟨hc, hfront⟩ := not_or.mp (List.mem_cons.not.mp h)
    rw [List.cons_append, splitOnce, if_neg (Ne.symm hc), ih hfront]
    rfl

lemma splitOnce_eq_none {mark : Char} {text : List Char} (h : mark ∉ text) :
    splitOnce mark text = none := by
  induction text with
  | nil => rfl
  | cons c text ih =>
    obtain ⟨hc, htext⟩ := not_or.mp (List.mem_cons.not.mp h)
    rw [splitOnce, if_neg (Ne.symm hc), ih htext]
    rfl

lemma trimEndMatches_concat {mark c : Char} (hc : c ≠ mark) (front : List Char) :
    trimEndMatches mark (front ++ [c] ++ [mark]) = front ++ [c] := by
  simp [trimEndMatches, hc]

lemma trimEndMatches_other {mark c : Char} (hc : c ≠ mark) (front : List Char) :
    trimEndMatches mark (front ++ [c]) = front ++ [c] := by
  simp [trimEndMatches, hc]

def decimal (text : List Char) : Option ℕ :=
  let digits := match text with
    | '+' :: digits => digits
    | digits => digits
  if digits = [] ∨ ¬ digits.all Char.isDigit then none else some (Nat.ofDigitChars 10 digits 0)

lemma isDigit_of_repr {n : ℕ} {c : Char} (h : c ∈ n.repr.toList) : c.isDigit := by
  rw [Nat.toList_repr] at h
  exact Nat.isDigit_of_mem_toDigits (by decide) le_rfl h

lemma decimal_repr (n : ℕ) : decimal n.repr.toList = some n := by
  have hdigits : n.repr.toList.all Char.isDigit = true := List.all_eq_true.mpr fun c hc => isDigit_of_repr hc
  have hne : n.repr.toList ≠ [] := by
    rw [Nat.toList_repr]
    exact Nat.toDigits_ne_nil
  have hplus : ∀ digits, n.repr.toList ≠ '+' :: digits := by
    intro digits heq
    have hc : '+'.isDigit = true := isDigit_of_repr (n := n) (heq ▸ List.mem_cons_self)
    exact absurd hc (by decide)
  rw [decimal]
  · rw [if_neg (not_or.mpr ⟨hne, not_not.mpr hdigits⟩), Nat.toList_repr, Nat.ofDigitChars_ten_toDigits]
  · exact hplus

section SplitOn

variable {marks : List Char} {mark : Char} {front : List Char}

lemma splitOn_whole (h : ∀ c ∈ front, c ∉ marks) : splitOn marks front = [front] := by
  induction front with
  | nil => rfl
  | cons c front ih =>
    obtain ⟨hc, hfront⟩ := List.forall_mem_cons.mp h
    rw [splitOn, if_neg hc, ih hfront]

lemma splitOn_append (hmark : mark ∈ marks) (h : ∀ c ∈ front, c ∉ marks) (back : List Char) :
    splitOn marks (front ++ mark :: back) = front :: splitOn marks back := by
  induction front with
  | nil => rw [List.nil_append, splitOn, if_pos hmark]
  | cons c front ih =>
    obtain ⟨hc, hfront⟩ := List.forall_mem_cons.mp h
    rw [List.cons_append, splitOn, if_neg hc, ih hfront]

lemma splitOn_flatMap (hmark : mark ∈ marks) (h : ∀ c ∈ front, c ∉ marks) {parts : List (List Char)}
    (hparts : ∀ part ∈ parts, ∀ c ∈ part, c ∉ marks) :
    splitOn marks (front ++ parts.flatMap fun part => mark :: part) = front :: parts := by
  induction parts generalizing front with
  | nil => rw [List.flatMap_nil, List.append_nil, splitOn_whole h]
  | cons part parts ih =>
    obtain ⟨hpart, hparts⟩ := List.forall_mem_cons.mp hparts
    rw [List.flatMap_cons, List.cons_append, splitOn_append hmark h, ih hpart hparts]

lemma splitOn_ended {mark : Char} {fields : List (List Char)} (h : ∀ field ∈ fields, mark ∉ field) :
    splitOn [mark] (fields.flatMap fun field => field ++ [mark]) = fields ++ [[]] := by
  induction fields with
  | nil => rfl
  | cons field fields ih =>
    obtain ⟨hfield, hfields⟩ := List.forall_mem_cons.mp h
    have hmark : ∀ c ∈ field, c ∉ [mark] := by
      intro c hc hmem
      exact hfield (List.mem_singleton.mp hmem ▸ hc)
    rw [List.flatMap_cons, List.append_assoc, List.singleton_append, splitOn_append List.mem_cons_self hmark]
    exact congrArg _ (ih hfields)

end SplitOn

lemma size_ofList_cons (c : Char) (text : List Char) :
    (String.ofList (c :: text)).utf8ByteSize = c.utf8Size + (String.ofList text).utf8ByteSize := by
  rw [String.ofList_cons, String.utf8ByteSize_append, String.utf8ByteSize_singleton]

lemma size_replicate {c : Char} (h : c.utf8Size = 1) (n : ℕ) :
    (String.ofList (List.replicate n c)).utf8ByteSize = n := by
  induction n with
  | zero => rfl
  | succ n ih =>
    rw [List.replicate_succ, size_ofList_cons, ih, h]
    exact Nat.add_comm 1 n

lemma takeBytes_prefix (n : ℕ) (text : List Char) : takeBytes n text <+: text := by
  induction text generalizing n with
  | nil => exact List.prefix_rfl
  | cons c text ih =>
    rw [takeBytes]
    split
    · exact List.cons_prefix_cons.mpr ⟨rfl, ih _⟩
    · exact List.nil_prefix

lemma takeBytes_size (n : ℕ) (text : List Char) :
    (String.ofList (takeBytes n text)).utf8ByteSize ≤ n := by
  induction text generalizing n with
  | nil => exact Nat.zero_le n
  | cons c text ih =>
    rw [takeBytes]
    split
    · have := ih (n - c.utf8Size)
      rw [size_ofList_cons]
      omega
    · exact Nat.zero_le n

lemma takeBytes_full {n : ℕ} {text : List Char} (h : n < (String.ofList text).utf8ByteSize) :
    n < (String.ofList (takeBytes n text)).utf8ByteSize + 4 := by
  induction text generalizing n with
  | nil => exact absurd h (Nat.not_lt_zero n)
  | cons c text ih =>
    rw [size_ofList_cons] at h
    rw [takeBytes]
    split
    · have := @ih (n - c.utf8Size) (by omega)
      rw [size_ofList_cons]
      omega
    · have := c.utf8Size_le_four
      omega

lemma truncate_prefix (n : ℕ) (text : String) : ∃ rest, text = truncate n text ++ rest := by
  obtain ⟨rest, hrest⟩ := takeBytes_prefix n text.toList
  refine ⟨.ofList rest, ?_⟩
  rw [truncate, ← String.ofList_append, hrest, String.ofList_toList]

lemma truncate_size (n : ℕ) (text : String) : (truncate n text).utf8ByteSize ≤ n :=
  takeBytes_size n text.toList

lemma truncate_full {n : ℕ} {text : String} (h : n < text.utf8ByteSize) :
    n < (truncate n text).utf8ByteSize + 4 :=
  takeBytes_full (by rwa [String.ofList_toList])

end Sheprd.Lib.Text
