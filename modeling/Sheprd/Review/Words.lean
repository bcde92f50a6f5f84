import Sheprd.Lib.Offsets
import Sheprd.Review.Lines
import Sheprd.Lib.Common

namespace Sheprd.Review.Words

open Lib

def maxTokens : ℕ := 400

abbrev Range := ℕ × ℕ

section Tokens

variable (isAlphanumeric : Char → Bool)

def classOf (c : Char) : Option ℕ :=
  if isAlphanumeric c || c = '_' then some 0
  else if Text.isWhitespace c then some 1
  else none

def tokensFrom (start at' : ℕ) (previous : Option ℕ) : List Char → List Range
  | [] => if start < at' then [(start, at')] else []
  | c :: rest =>
      let next := classOf isAlphanumeric c
      if start < at' ∧ (next = none ∨ next ≠ previous) then
        (start, at') :: tokensFrom at' (at' + c.utf8Size) next rest
      else tokensFrom start (at' + c.utf8Size) next rest

def tokens (text : List Char) : List Range := tokensFrom isAlphanumeric 0 0 none text

end Tokens

structure Tokens where
  tokens : List Range
  kept : List Bool

def textOf (text : List Char) (token : Range) : Option (List Char) :=
  (Offsets.slice Char.utf8Size text token.1 token.2).map fun (_, middle, _) => middle

section Table

variable {α : Type} [DecidableEq α] (a b : List α)

def cell (table : List ℕ) (i j : ℕ) : ℕ :=
  let width := b.length + 1
  if a[i]? = b[j]? then (table.getD ((i + 1) * width + (j + 1)) 0 + 1) % 2 ^ 16
  else max (table.getD ((i + 1) * width + j) 0) (table.getD (i * width + (j + 1)) 0)

def fillRow (table : List ℕ) (i : ℕ) : List ℕ :=
  (List.range b.length).reverse.foldl
    (fun table j => table.set (i * (b.length + 1) + j) (cell a b table i j)) table

def fill : List ℕ :=
  (List.range a.length).reverse.foldl (fillRow a b) (List.replicate ((a.length + 1) * (b.length + 1)) 0)

def walk (table : List ℕ) (i j : ℕ) (keptA keptB : List Bool) : List Bool × List Bool :=
  if i < a.length ∧ j < b.length then
    if a[i]? = b[j]? then walk table (i + 1) (j + 1) (keptA.set i true) (keptB.set j true)
    else if table.getD (i * (b.length + 1) + (j + 1)) 0 ≤ table.getD ((i + 1) * (b.length + 1) + j) 0 then
      walk table (i + 1) j keptA keptB
    else walk table i (j + 1) keptA keptB
  else (keptA, keptB)
termination_by (a.length - i) + (b.length - j)

end Table

def shared (isAlphanumeric : Char → Bool) (old new : List Char) : Option (Tokens × Tokens) :=
  let a := tokens isAlphanumeric old
  let b := tokens isAlphanumeric new
  if maxTokens < a.length ∨ maxTokens < b.length then none
  else
    let wordsA := a.map (textOf old)
    let wordsB := b.map (textOf new)
    let (keptA, keptB) := walk wordsA wordsB (fill wordsA wordsB) 0 0
      (List.replicate a.length false) (List.replicate b.length false)
    some ({ tokens := a, kept := keptA }, { tokens := b, kept := keptB })

def extend (runs : List Range) (token : Range) (kept : Bool) : List Range :=
  if kept then runs
  else
    let range := (min token.1 u32Max, min token.2 u32Max)
    match runs.getLast? with
    | some last => if last.2 = range.1 then runs.dropLast ++ [(last.1, range.2)] else runs ++ [range]
    | none => runs ++ [range]

def changed (side : Tokens) : List Range :=
  (side.tokens.zip side.kept).foldl (fun runs (token, kept) => extend runs token kept) []

end Sheprd.Review.Words

namespace Sheprd.Review.Words

open Lib

section Filled

variable {α : Type} [DecidableEq α] {a b : List α} {table : List ℕ} {i j : ℕ}

structure Filled (a b : List α) (table : List ℕ) (i j : ℕ) : Prop where
  length : table.length = (a.length + 1) * (b.length + 1)
  holds : ∀ k ≤ a.length, ∀ l ≤ b.length, i < k ∨ i = k ∧ j ≤ l ∨ l = b.length →
    table[k * (b.length + 1) + l]? = some (Common.longest (a.drop k) (b.drop l))

lemma flat_inj {m i j k l : ℕ} (hj : j ≤ m) (hl : l ≤ m) (h : i * (m + 1) + j = k * (m + 1) + l) :
    i = k ∧ j = l := by
  have hi : (i * (m + 1) + j) / (m + 1) = i := by
    rw [Nat.add_comm, Nat.add_mul_div_right _ _ (Nat.succ_pos m), Nat.div_eq_of_lt (by omega), Nat.zero_add]
  have hk : (k * (m + 1) + l) / (m + 1) = k := by
    rw [Nat.add_comm, Nat.add_mul_div_right _ _ (Nat.succ_pos m), Nat.div_eq_of_lt (by omega), Nat.zero_add]
  have hik : i = k := by rw [← hi, h, hk]
  subst hik
  exact ⟨rfl, by omega⟩

lemma flat_lt {n m i j : ℕ} (hi : i ≤ n) (hj : j ≤ m) : i * (m + 1) + j < (n + 1) * (m + 1) := by
  calc i * (m + 1) + j < i * (m + 1) + (m + 1) := by omega
    _ = (i + 1) * (m + 1) := (Nat.succ_mul _ _).symm
    _ ≤ (n + 1) * (m + 1) := Nat.mul_le_mul_right _ (by omega)

lemma filled_empty (a b : List α) :
    Filled a b (List.replicate ((a.length + 1) * (b.length + 1)) 0) a.length 0 where
  length := List.length_replicate
  holds := by
    rintro k hk l hl hdone
    rw [List.getElem?_replicate_of_lt (flat_lt hk hl)]
    obtain hlt | ⟨rfl, -⟩ | rfl := hdone
    · omega
    · rw [List.drop_length, Common.longest_nil_left]
    · rw [List.drop_length, Common.longest_nil_right]

lemma Filled.row (h : Filled a b table (i + 1) 0) : Filled a b table i b.length where
  length := h.length
  holds := by
    rintro k hk l hl (hlt | ⟨rfl, hle⟩ | rfl)
    · refine h.holds k hk l hl ?_
      obtain heq | hlt := Nat.eq_or_lt_of_le hlt
      · exact Or.inr (Or.inl ⟨heq, Nat.zero_le l⟩)
      · exact Or.inl hlt
    · exact h.holds i hk l hl (Or.inr (Or.inr (le_antisymm hl hle)))
    · exact h.holds k hk b.length le_rfl (Or.inr (Or.inr rfl))

lemma longest_drop (hi : i < a.length) (hj : j < b.length) :
    Common.longest (a.drop i) (b.drop j) =
      if a[i]? = b[j]? then Common.longest (a.drop (i + 1)) (b.drop (j + 1)) + 1
      else max (Common.longest (a.drop (i + 1)) (b.drop j)) (Common.longest (a.drop i) (b.drop (j + 1))) := by
  rw [List.drop_eq_getElem_cons hi, List.drop_eq_getElem_cons hj, Common.longest,
    List.getElem?_eq_getElem hi, List.getElem?_eq_getElem hj]
  simp only [Option.some.injEq]

lemma Filled.cell_eq (h : Filled a b table i (j + 1)) (hfits : a.length < 2 ^ 16) (hi : i < a.length)
    (hj : j < b.length) : cell a b table i j = Common.longest (a.drop i) (b.drop j) := by
  have hdiag := h.holds (i + 1) hi (j + 1) hj (Or.inl (Nat.lt_succ_self i))
  have hdown := h.holds (i + 1) hi j hj.le (Or.inl (Nat.lt_succ_self i))
  have hright := h.holds i hi.le (j + 1) hj (Or.inr (Or.inl ⟨rfl, le_rfl⟩))
  have hlongest := longest_drop hi hj
  rw [cell]
  simp only [List.getD_eq_getElem?_getD, hdiag, hdown, hright, Option.getD_some]
  split
  · rename_i hsame
    rw [if_pos hsame] at hlongest
    have hle := Common.longest_le (a.drop i) (b.drop j)
    rw [List.length_drop] at hle
    rw [← hlongest, Nat.mod_eq_of_lt (by omega)]
  · rename_i hsame
    rw [hlongest, if_neg hsame]

lemma Filled.cell (h : Filled a b table i (j + 1)) (hfits : a.length < 2 ^ 16) (hi : i < a.length)
    (hj : j < b.length) : Filled a b (table.set (i * (b.length + 1) + j) (cell a b table i j)) i j where
  length := by rw [List.length_set, h.length]
  holds := by
    intro k hk l hl hdone
    by_cases hhere : i * (b.length + 1) + j = k * (b.length + 1) + l
    · obtain ⟨rfl, rfl⟩ := flat_inj hj.le hl hhere
      rw [List.getElem?_set_self (by rw [h.length]; exact flat_lt hi.le hj.le), h.cell_eq hfits hi hj]
    · rw [List.getElem?_set_ne hhere]
      refine h.holds k hk l hl ?_
      obtain hlt | ⟨rfl, hle⟩ | hlast := hdone
      · exact Or.inl hlt
      · obtain rfl | hlt := Nat.eq_or_lt_of_le hle
        · exact absurd rfl hhere
        · exact Or.inr (Or.inl ⟨rfl, hlt⟩)
      · exact Or.inr (Or.inr hlast)

lemma Filled.fillRow (h : Filled a b table (i + 1) 0) (hfits : a.length < 2 ^ 16) (hi : i < a.length) :
    Filled a b (fillRow a b table i) i 0 := by
  have hcells : ∀ n ≤ b.length, ∀ table, Filled a b table i n → Filled a b
      ((List.range n).reverse.foldl
        (fun table j => table.set (i * (b.length + 1) + j) (Words.cell a b table i j)) table) i 0 := by
    intro n
    induction n with
    | zero => exact fun _ _ h => h
    | succ n ih =>
      intro hn table h
      rw [List.range_succ, List.reverse_append]
      exact ih (Nat.le_of_succ_le hn) _ (h.cell hfits hi hn)
  exact hcells b.length le_rfl table h.row

lemma fill_filled (hfits : a.length < 2 ^ 16) : Filled a b (fill a b) 0 0 := by
  have hrows : ∀ n ≤ a.length, ∀ table, Filled a b table n 0 →
      Filled a b ((List.range n).reverse.foldl (fillRow a b) table) 0 0 := by
    intro n
    induction n with
    | zero => exact fun _ _ h => h
    | succ n ih =>
      intro hn table h
      rw [List.range_succ, List.reverse_append]
      exact ih (Nat.le_of_succ_le hn) _ (h.fillRow hfits hn)
  exact hrows a.length le_rfl _ (filled_empty a b)

lemma Filled.cells (h : Filled a b table 0 0) {k l : ℕ} (hk : k ≤ a.length) (hl : l ≤ b.length) :
    table[k * (b.length + 1) + l]? = some (Common.longest (a.drop k) (b.drop l)) := by
  refine h.holds k hk l hl ?_
  obtain rfl | hpos := Nat.eq_zero_or_pos k
  · exact Or.inr (Or.inl ⟨rfl, Nat.zero_le l⟩)
  · exact Or.inl hpos

lemma drop_unmarked {kept : List Bool} {i n : ℕ} (h : kept.drop i = List.replicate n false) (hn : 0 < n) :
    kept.drop (i + 1) = List.replicate (n - 1) false ∧ kept.take (i + 1) = kept.take i ++ [false] := by
  obtain ⟨n, rfl⟩ := Nat.exists_eq_add_one_of_ne_zero hn.ne'
  have hlt : i < kept.length := by
    by_contra hge
    rw [List.drop_eq_nil_of_le (not_lt.mp hge)] at h
    simp at h
  rw [List.drop_eq_getElem_cons hlt, List.replicate_succ] at h
  obtain ⟨hhead, htail⟩ := List.cons.inj h
  exact ⟨htail, by rw [List.take_succ_eq_append_getElem hlt, hhead]⟩

lemma drop_marked {kept : List Bool} {i n : ℕ} (h : kept.drop i = List.replicate n false) (hn : 0 < n) :
    (kept.set i true).drop (i + 1) = List.replicate (n - 1) false ∧
      (kept.set i true).take (i + 1) = kept.take i ++ [true] := by
  have hlt : i < kept.length := by
    by_contra hge
    rw [List.drop_eq_nil_of_le (not_lt.mp hge)] at h
    exact hn.ne (by simpa using congrArg List.length h)
  refine ⟨by rw [List.drop_set_of_lt (Nat.lt_succ_self i)]; exact (drop_unmarked h hn).1, ?_⟩
  rw [List.take_succ_eq_append_getElem (by simpa using hlt), List.getElem_set_self, List.take_set_of_le le_rfl]

lemma walk_eq (h : Filled a b table 0 0) {keptA keptB : List Bool} (hi : i ≤ a.length) (hj : j ≤ b.length)
    (hA : keptA.drop i = List.replicate (a.length - i) false)
    (hB : keptB.drop j = List.replicate (b.length - j) false) :
    walk a b table i j keptA keptB =
      (keptA.take i ++ (Common.marks (a.drop i) (b.drop j)).1,
        keptB.take j ++ (Common.marks (a.drop i) (b.drop j)).2) := by
  induction i, j, keptA, keptB using walk.induct a b table with
  | case1 i j keptA keptB hin hsame ih =>
    obtain ⟨hi', hj'⟩ := hin
    obtain ⟨hdropA, htakeA⟩ := drop_marked hA (by omega)
    obtain ⟨hdropB, htakeB⟩ := drop_marked hB (by omega)
    rw [walk, if_pos ⟨hi', hj'⟩, if_pos hsame,
      ih hi' hj' (by rw [hdropA]; congr 1) (by rw [hdropB]; congr 1), htakeA, htakeB,
      List.drop_eq_getElem_cons hi', List.drop_eq_getElem_cons hj', Common.marks, if_pos]
    · simp
    · rwa [List.getElem?_eq_getElem hi', List.getElem?_eq_getElem hj', Option.some.injEq] at hsame
  | case2 i j keptA keptB hin hsame hle ih =>
    obtain ⟨hi', hj'⟩ := hin
    obtain ⟨hdropA, htakeA⟩ := drop_unmarked hA (by omega)
    have hne : ¬ a[i] = b[j] := by
      rwa [List.getElem?_eq_getElem hi', List.getElem?_eq_getElem hj', Option.some.injEq] at hsame
    have hlongest : Common.longest (a[i] :: a.drop (i + 1)) (b.drop (j + 1)) ≤
        Common.longest (a.drop (i + 1)) (b[j] :: b.drop (j + 1)) := by
      rw [← List.drop_eq_getElem_cons hi', ← List.drop_eq_getElem_cons hj']
      simpa only [List.getD_eq_getElem?_getD, h.cells hi hj', h.cells hi' hj, Option.getD_some] using hle
    rw [walk, if_pos ⟨hi', hj'⟩, if_neg hsame, if_pos hle, ih hi' hj (by rw [hdropA]; congr 1) hB, htakeA,
      List.drop_eq_getElem_cons hi', List.drop_eq_getElem_cons hj', Common.marks, if_neg hne, if_pos hlongest]
    simp
  | case3 i j keptA keptB hin hsame hle ih =>
    obtain ⟨hi', hj'⟩ := hin
    obtain ⟨hdropB, htakeB⟩ := drop_unmarked hB (by omega)
    have hne : ¬ a[i] = b[j] := by
      rwa [List.getElem?_eq_getElem hi', List.getElem?_eq_getElem hj', Option.some.injEq] at hsame
    have hlongest : ¬ Common.longest (a[i] :: a.drop (i + 1)) (b.drop (j + 1)) ≤
        Common.longest (a.drop (i + 1)) (b[j] :: b.drop (j + 1)) := by
      rw [← List.drop_eq_getElem_cons hi', ← List.drop_eq_getElem_cons hj']
      simpa only [List.getD_eq_getElem?_getD, h.cells hi hj', h.cells hi' hj, Option.getD_some] using hle
    rw [walk, if_pos ⟨hi', hj'⟩, if_neg hsame, if_neg hle, ih hi hj' hA (by rw [hdropB]; congr 1), htakeB,
      List.drop_eq_getElem_cons hi', List.drop_eq_getElem_cons hj', Common.marks, if_neg hne,
      if_neg hlongest]
    simp
  | case4 i j keptA keptB hout =>
    have hend : ∀ (xs ys : List α), xs = [] ∨ ys = [] → Common.marks xs ys =
        (List.replicate xs.length false, List.replicate ys.length false) := by
      rintro xs ys (rfl | rfl)
      · simp [Common.marks]
      · cases xs <;> simp [Common.marks, List.replicate_succ]
    have hnil : a.drop i = [] ∨ b.drop j = [] := by
      rw [not_and_or, not_lt, not_lt] at hout
      exact hout.imp List.drop_eq_nil_of_le List.drop_eq_nil_of_le
    rw [walk, if_neg hout, hend _ _ hnil, List.length_drop, List.length_drop, ← hA, ← hB,
      List.take_append_drop, List.take_append_drop]

lemma walk_marks (hfits : a.length < 2 ^ 16) :
    walk a b (fill a b) 0 0 (List.replicate a.length false) (List.replicate b.length false) =
      Common.marks a b := by
  rw [walk_eq (fill_filled hfits) (Nat.zero_le _) (Nat.zero_le _) (by simp) (by simp)]
  simp

end Filled

def size (text : List Char) : ℕ := Offsets.measure Char.utf8Size text

def spans : ℕ → List (List Char) → List Range
  | _, [] => []
  | at', part :: parts => (at', at' + size part) :: spans (at' + size part) parts

@[simp]
lemma size_append (front back : List Char) : size (front ++ back) = size front + size back :=
  Offsets.measure_append

lemma size_pos {text : List Char} : 0 < size text ↔ text ≠ [] := by
  cases text with
  | nil => simp [size]
  | cons c text => simp [size, Char.utf8Size_pos]

section Partition

variable {isAlphanumeric : Char → Bool}

lemma tokensFrom_parts (rest front : List Char) (start : ℕ) (previous : Option ℕ) :
    ∃ parts, (∀ part ∈ parts, part ≠ []) ∧ parts.flatten = front ++ rest ∧
      tokensFrom isAlphanumeric start (start + size front) previous rest = spans start parts := by
  induction rest generalizing front start previous with
  | nil =>
    rw [tokensFrom]
    split
    · rename_i hlt
      have hne : front ≠ [] := size_pos.mp (by omega)
      exact ⟨[front], by simpa using hne, by simp, rfl⟩
    · rename_i hge
      have hnil : front = [] := by
        by_contra hne
        have hpos := size_pos.mpr hne
        omega
      exact ⟨[], by simp, by simp [hnil], rfl⟩
  | cons c rest ih =>
    have hc : ∀ at', at' + c.utf8Size = at' + size [c] := fun at' => by simp [size]
    rw [tokensFrom]
    split
    · rename_i hbreak
      obtain ⟨parts, hne, hflat, hspans⟩ := ih [c] (start + size front) (classOf isAlphanumeric c)
      refine ⟨front :: parts, ?_, by rw [List.flatten_cons, hflat, List.singleton_append], ?_⟩
      · exact List.forall_mem_cons.mpr ⟨size_pos.mp (by omega), hne⟩
      · rw [hc, hspans, spans]
    · obtain ⟨parts, hne, hflat, hspans⟩ := ih (front ++ [c]) start (classOf isAlphanumeric c)
      refine ⟨parts, hne, by rw [hflat, List.append_assoc, List.singleton_append], ?_⟩
      rw [← hspans, hc, size_append, Nat.add_assoc]

variable (isAlphanumeric) in
lemma tokens_parts (text : List Char) :
    ∃ parts, (∀ part ∈ parts, part ≠ []) ∧ parts.flatten = text ∧
      tokens isAlphanumeric text = spans 0 parts :=
  tokensFrom_parts text [] 0 none

lemma length_spans (at' : ℕ) (parts : List (List Char)) : (spans at' parts).length = parts.length := by
  induction parts generalizing at' with
  | nil => rfl
  | cons part parts ih => rw [spans, List.length_cons, ih, List.length_cons]

lemma textOf_spans (front : List Char) (parts : List (List Char)) :
    (spans (size front) parts).map (textOf (front ++ parts.flatten)) = parts.map some := by
  induction parts generalizing front with
  | nil => rfl
  | cons part parts ih =>
    have hslice := Offsets.slice_append Char.utf8Size_pos front part parts.flatten
    have hpart : textOf (front ++ (part :: parts).flatten) (size front, size front + size part) = some part := by
      rw [textOf, List.flatten_cons, ← List.append_assoc, ← size_append]
      exact congrArg (Option.map _) hslice
    rw [spans, List.map_cons, List.map_cons, hpart, ← size_append]
    have hrest := ih (front ++ part)
    rw [List.append_assoc, ← List.flatten_cons] at hrest
    rw [hrest]

end Partition

section Runs

variable {text : List Char} {at' : ℕ} {covered : ℕ → Prop} {runs : List Range}

def Covers (ranges : List Range) (byte : ℕ) : Prop := ∃ range ∈ ranges, range.1 ≤ byte ∧ byte < range.2

structure Runs (text : List Char) (at' : ℕ) (covered : ℕ → Prop) (runs : List Range) : Prop where
  apart : runs.Pairwise fun a b => a.2 < b.1
  proper : ∀ run ∈ runs, run.1 < run.2 ∧ run.2 ≤ at'
  boundary : ∀ run ∈ runs,
    Offsets.Boundary Char.utf8Size text run.1 ∧ Offsets.Boundary Char.utf8Size text run.2
  covers : ∀ byte, Covers runs byte ↔ covered byte

lemma covers_append {front back : List Range} {byte : ℕ} :
    Covers (front ++ back) byte ↔ Covers front byte ∨ Covers back byte := by
  simp only [Covers, List.mem_append, or_and_right, exists_or]

lemma covers_singleton {range : Range} {byte : ℕ} : Covers [range] byte ↔ range.1 ≤ byte ∧ byte < range.2 := by
  simp [Covers]

variable {stop : ℕ}

lemma Runs.pushed (h : Runs text at' covered runs) (hlt : at' < stop)
    (hstart : Offsets.Boundary Char.utf8Size text at') (hstop : Offsets.Boundary Char.utf8Size text stop)
    (hlast : ∀ run ∈ runs, run.2 < at') :
    Runs text stop (fun byte => covered byte ∨ at' ≤ byte ∧ byte < stop) (runs ++ [(at', stop)]) where
  apart := List.pairwise_append.mpr ⟨h.apart, List.pairwise_singleton _ _, fun run hrun last hmem =>
    List.mem_singleton.mp hmem ▸ hlast run hrun⟩
  proper := by
    intro run hrun
    obtain hrun | hrun := List.mem_append.mp hrun
    · exact ⟨(h.proper run hrun).1, (h.proper run hrun).2.trans hlt.le⟩
    · obtain rfl := List.mem_singleton.mp hrun
      exact ⟨hlt, le_rfl⟩
  boundary := by
    intro run hrun
    obtain hrun | hrun := List.mem_append.mp hrun
    · exact h.boundary run hrun
    · obtain rfl := List.mem_singleton.mp hrun
      exact ⟨hstart, hstop⟩
  covers := fun byte => by rw [covers_append, h.covers, covers_singleton]

lemma Runs.merged {first : ℕ} (h : Runs text at' covered (runs ++ [(first, at')])) (hlt : at' < stop)
    (hstop : Offsets.Boundary Char.utf8Size text stop) :
    Runs text stop (fun byte => covered byte ∨ at' ≤ byte ∧ byte < stop) (runs ++ [(first, stop)]) := by
  have hmem : (first, at') ∈ runs ++ [(first, at')] := List.mem_append_right _ List.mem_cons_self
  have hfirst := (h.proper _ hmem).1
  obtain ⟨hruns, -, hcross⟩ := List.pairwise_append.mp h.apart
  refine ⟨List.pairwise_append.mpr ⟨hruns, List.pairwise_singleton _ _, fun run hrun last hlast => ?_⟩,
    fun run hrun => ?_, fun run hrun => ?_, fun byte => ?_⟩
  · obtain rfl := List.mem_singleton.mp hlast
    exact hcross run hrun (first, at') List.mem_cons_self
  · obtain hrun | hrun := List.mem_append.mp hrun
    · have hproper := h.proper run (List.mem_append_left _ hrun)
      exact ⟨hproper.1, hproper.2.trans hlt.le⟩
    · obtain rfl := List.mem_singleton.mp hrun
      exact ⟨hfirst.trans hlt, le_rfl⟩
  · obtain hrun | hrun := List.mem_append.mp hrun
    · exact h.boundary run (List.mem_append_left _ hrun)
    · obtain rfl := List.mem_singleton.mp hrun
      exact ⟨(h.boundary _ hmem).1, hstop⟩
  · have hjoined : first ≤ byte ∧ byte < stop ↔
        first ≤ byte ∧ byte < at' ∨ at' ≤ byte ∧ byte < stop := by
      dsimp only at hfirst
      omega
    rw [← h.covers byte, covers_append, covers_append, covers_singleton, covers_singleton, or_assoc, hjoined]

lemma Runs.extend (h : Runs text at' covered runs) (hlt : at' < stop) (hfits : stop ≤ u32Max)
    (hstart : Offsets.Boundary Char.utf8Size text at') (hstop : Offsets.Boundary Char.utf8Size text stop) :
    Runs text stop (fun byte => covered byte ∨ at' ≤ byte ∧ byte < stop) (extend runs (at', stop) false) := by
  simp only [Words.extend, Bool.false_eq_true, if_false, min_eq_left hfits, min_eq_left (hlt.le.trans hfits)]
  split
  · rename_i last hlast
    obtain ⟨front, rfl⟩ := List.getLast?_eq_some_iff.mp hlast
    split
    · rename_i hmeets
      obtain ⟨first, rest⟩ := last
      dsimp only at hmeets
      subst hmeets
      rw [List.dropLast_concat]
      exact h.merged hlt hstop
    · rename_i hapart
      refine h.pushed hlt hstart hstop fun run hrun => ?_
      obtain hrun | hrun := List.mem_append.mp hrun
      · -- An earlier run ends before the last one begins.
        have hbefore := (List.pairwise_append.mp h.apart).2.2 run hrun last List.mem_cons_self
        have hproper := h.proper last (List.mem_append_right _ List.mem_cons_self)
        omega
      · obtain rfl := List.mem_singleton.mp hrun
        have hproper := h.proper run (List.mem_append_right _ List.mem_cons_self)
        omega
  · rename_i hnone
    obtain rfl := List.getLast?_eq_none_iff.mp hnone
    exact h.pushed hlt hstart hstop fun run hrun => absurd hrun List.not_mem_nil

lemma Runs.skip (h : Runs text at' covered runs) (hle : at' ≤ stop) : Runs text stop covered runs :=
  { h with proper := fun run hrun => ⟨(h.proper run hrun).1, (h.proper run hrun).2.trans hle⟩ }

def dropped (tokens : List Range) (kept : List Bool) : List Range :=
  ((tokens.zip kept).filter fun pair => !pair.2).map Prod.fst

lemma Runs.changed {front : List Char} {parts : List (List Char)} (kept : List Bool)
    (h : Runs (front ++ parts.flatten) (size front) covered runs) (hne : ∀ part ∈ parts, part ≠ [])
    (hfits : size (front ++ parts.flatten) ≤ u32Max) :
    Runs (front ++ parts.flatten) (size (front ++ parts.flatten))
      (fun byte => covered byte ∨ Covers (dropped (spans (size front) parts) kept) byte)
      (((spans (size front) parts).zip kept).foldl
        (fun runs (token, kept) => Words.extend runs token kept) runs) := by
  induction parts generalizing front covered runs kept with
  | nil =>
    refine { h.skip (by simp) with covers := fun byte => ?_ }
    simp [spans, dropped, Covers, ← h.covers byte]
  | cons part parts ih =>
    obtain ⟨hpart, hparts⟩ := List.forall_mem_cons.mp hne
    have hpos := size_pos.mpr hpart
    cases kept with
    | nil =>
      refine { h.skip (by simp) with covers := fun byte => ?_ }
      simp [dropped, Covers, ← h.covers byte]
    | cons marked kept =>
      rw [List.flatten_cons, ← List.append_assoc] at h hfits ⊢
      have hsize : size front + size part = size (front ++ part) := (size_append _ _).symm
      have hstart : Offsets.Boundary Char.utf8Size (front ++ part ++ parts.flatten) (size front) :=
        ⟨front, part ++ parts.flatten, List.append_assoc _ _ _, rfl⟩
      have hstop : Offsets.Boundary Char.utf8Size (front ++ part ++ parts.flatten) (size (front ++ part)) :=
        ⟨front ++ part, parts.flatten, rfl, rfl⟩
      rw [spans, List.zip_cons_cons, List.foldl_cons, hsize]
      cases marked with
      | true =>
        have hrest := ih kept (h.skip (by rw [← hsize]; exact Nat.le_add_right _ _)) hparts hfits
        refine { hrest with covers := fun byte => (hrest.covers byte).trans ?_ }
        simp [dropped]
      | false =>
        have hstep := h.extend (by omega) (le_trans (by simp) hfits) hstart hstop
        have hrest := ih kept hstep hparts hfits
        refine { hrest with covers := fun byte => (hrest.covers byte).trans ?_ }
        simp [dropped, Covers, or_assoc]

end Runs

def keeping (tokens : List Range) (kept : List Bool) : List Range :=
  ((tokens.zip kept).filter fun pair => pair.2).map Prod.fst

lemma le_of_covers {parts : List (List Char)} {at' byte : ℕ} (h : Covers (spans at' parts) byte) : at' ≤ byte := by
  induction parts generalizing at' with
  | nil =>
    obtain ⟨range, hmem, -⟩ := h
    exact absurd hmem List.not_mem_nil
  | cons part parts ih =>
    obtain ⟨range, hmem, hin⟩ := h
    obtain rfl | hmem := List.mem_cons.mp hmem
    · exact hin.1
    · exact (Nat.le_add_right _ _).trans (ih ⟨range, hmem, hin⟩)

lemma covers_sub {tokens : List Range} {kept : List Bool} {p : Range × Bool → Bool} {byte : ℕ}
    (h : Covers (((tokens.zip kept).filter p).map Prod.fst) byte) : Covers tokens byte := by
  obtain ⟨range, hmem, hin⟩ := h
  obtain ⟨pair, hpair, rfl⟩ := List.mem_map.mp hmem
  exact ⟨pair.1, (List.of_mem_zip (List.mem_filter.mp hpair).1).1, hin⟩

lemma dropped_iff {parts : List (List Char)} {kept : List Bool} {at' byte : ℕ} (hlength : kept.length = parts.length)
    (hle : at' ≤ byte) (hlt : byte < at' + size parts.flatten) :
    Covers (dropped (spans at' parts) kept) byte ↔ ¬ Covers (keeping (spans at' parts) kept) byte := by
  induction parts generalizing at' kept with
  | nil =>
    have hzero : size ([] : List (List Char)).flatten = 0 := rfl
    omega
  | cons part parts ih =>
    cases kept with
    | nil => exact absurd hlength (by simp)
    | cons marked kept =>
      rw [List.flatten_cons, size_append] at hlt
      have hlater : ∀ {p : Range × Bool → Bool}, byte < at' + size part →
          ¬ Covers ((((spans (at' + size part) parts).zip kept).filter p).map Prod.fst) byte := by
        intro p hin hcovers
        exact absurd (le_of_covers (covers_sub hcovers)) (not_le.mpr hin)
      have hlength' : kept.length = parts.length := by simpa using hlength
      have hrest := fun hge : at' + size part ≤ byte => ih hlength' hge (by omega)
      by_cases hin : byte < at' + size part
      · cases marked with
        | true =>
          refine iff_of_false ?_ (not_not.mpr ⟨(at', at' + size part), by simp [keeping, spans], hle, hin⟩)
          simpa [dropped, spans] using hlater hin
        | false =>
          refine iff_of_true ⟨(at', at' + size part), by simp [dropped, spans], hle, hin⟩ ?_
          simpa [keeping, spans] using hlater hin
      · have hsame := hrest (not_lt.mp hin)
        cases marked with
        | true =>
          have hkeep : Covers (keeping (spans at' (part :: parts)) (true :: kept)) byte ↔
              Covers (keeping (spans (at' + size part) parts) kept) byte := by
            simp [keeping, spans, Covers, hin]
          rw [hkeep, ← hsame]
          simp [dropped, spans]
        | false =>
          have hdrop : Covers (dropped (spans at' (part :: parts)) (false :: kept)) byte ↔
              Covers (dropped (spans (at' + size part) parts) kept) byte := by
            simp [dropped, spans, Covers, hin]
          rw [hdrop, hsame]
          simp [keeping, spans]

section Shared

variable (isAlphanumeric : Char → Bool)

def words (text : List Char) : List (Option (List Char)) := (tokens isAlphanumeric text).map (textOf text)

def Partition (text : List Char) : Prop :=
  ∃ parts, (∀ part ∈ parts, part ≠ []) ∧ parts.flatten = text ∧
    tokens isAlphanumeric text = spans 0 parts ∧ words isAlphanumeric text = parts.map some

lemma tokens_partition (text : List Char) : Partition isAlphanumeric text := by
  obtain ⟨parts, hne, hflat, hspans⟩ := tokens_parts isAlphanumeric text
  refine ⟨parts, hne, hflat, hspans, ?_⟩
  have htexts := textOf_spans [] parts
  rw [List.nil_append, hflat] at htexts
  rw [words, hspans]
  exact htexts

structure Changes (text : List Char) (side : Tokens) : Prop where
  apart : (changed side).Pairwise fun a b => a.2 < b.1
  proper : ∀ run ∈ changed side, run.1 < run.2 ∧ run.2 ≤ size text
  boundary : ∀ run ∈ changed side,
    Offsets.Boundary Char.utf8Size text run.1 ∧ Offsets.Boundary Char.utf8Size text run.2
  covers : ∀ byte < size text, Covers (changed side) byte ↔ ¬ Covers (keeping side.tokens side.kept) byte

lemma changed_changes {text : List Char} {side : Tokens} (htokens : side.tokens = tokens isAlphanumeric text)
    (hlength : side.kept.length = side.tokens.length) (hfits : size text ≤ u32Max) : Changes text side := by
  obtain ⟨parts, hne, hflat, hspans⟩ := tokens_parts isAlphanumeric text
  rw [hspans] at htokens
  have hruns : Runs ([] ++ parts.flatten) (size []) (fun _ => False) [] :=
    ⟨List.Pairwise.nil, by simp, by simp, by simp [Covers]⟩
  have hchanged := hruns.changed side.kept hne (by rw [List.nil_append, hflat]; exact hfits)
  rw [List.nil_append, hflat, show size [] = 0 from rfl, ← htokens] at hchanged
  refine ⟨hchanged.apart, hchanged.proper, hchanged.boundary, fun byte hbyte => ?_⟩
  rw [changed, hchanged.covers byte, false_or, htokens]
  refine dropped_iff ?_ (Nat.zero_le byte) (by rw [hflat, Nat.zero_add]; exact hbyte)
  rw [hlength, htokens, length_spans]

structure Shared (old new : List Char) (left right : Tokens) : Prop where
  leftTokens : left.tokens = tokens isAlphanumeric old
  rightTokens : right.tokens = tokens isAlphanumeric new
  leftKept : left.kept.length = left.tokens.length
  rightKept : right.kept.length = right.tokens.length
  same : Common.kept (words isAlphanumeric old) left.kept = Common.kept (words isAlphanumeric new) right.kept
  longest : ∀ common : List (Option (List Char)), common.Sublist (words isAlphanumeric old) →
    common.Sublist (words isAlphanumeric new) →
    common.length ≤ (Common.kept (words isAlphanumeric old) left.kept).length
  cells : ∀ i ≤ left.tokens.length, ∀ j ≤ right.tokens.length,
    ∃ cell < 2 ^ 16, cell = Common.longest ((words isAlphanumeric old).drop i) ((words isAlphanumeric new).drop j) ∧
      (fill (words isAlphanumeric old) (words isAlphanumeric new))[i * (right.tokens.length + 1) + j]? = some cell

lemma length_words (text : List Char) : (words isAlphanumeric text).length = (tokens isAlphanumeric text).length :=
  List.length_map _

lemma shared_shared {old new : List Char} {left right : Tokens}
    (h : shared isAlphanumeric old new = some (left, right)) : Shared isAlphanumeric old new left right := by
  unfold shared at h
  dsimp only at h
  split at h
  · exact absurd h (by simp)
  · rename_i hlimit
    obtain ⟨hlimit, -⟩ := not_or.mp hlimit
    have hfits : (words isAlphanumeric old).length < 2 ^ 16 := by
      rw [length_words]
      exact (not_lt.mp hlimit).trans_lt (by norm_num [maxTokens])
    have hwalk := walk_marks (b := words isAlphanumeric new) hfits
    rw [length_words, length_words] at hwalk
    have hmarks := Common.length_marks (words isAlphanumeric old) (words isAlphanumeric new)
    unfold words at hwalk
    rw [hwalk] at h
    obtain ⟨rfl, rfl⟩ := Prod.mk.inj (Option.some.inj h)
    have hcells := fill_filled (b := words isAlphanumeric new) hfits
    refine ⟨rfl, rfl, hmarks.1.trans (length_words _ _), hmarks.2.trans (length_words _ _), Common.kept_marks _ _,
      fun common hold hnew => ?_, fun i hi j hj => ⟨_, ?_, rfl, ?_⟩⟩
    · exact (Common.le_longest hold hnew).trans_eq (Common.length_kept _ _).symm
    · refine (Common.longest_le _ _).trans_lt ?_
      rw [List.length_drop]
      exact (Nat.sub_le _ _).trans_lt hfits
    · rw [← length_words] at hi hj ⊢
      exact hcells.cells hi hj

end Shared

lemma size_cleanFrom (kept : ℕ) (text : List Char) : size (cleanFrom kept text) ≤ 4 * (maxLineChars - kept) + 3 := by
  induction text generalizing kept with
  | nil => simp [cleanFrom, size]
  | cons c text ih =>
    rw [cleanFrom]
    split
    · exact Nat.le_add_left _ _
    · have hc := Char.utf8Size_le_four c
      have hrest := ih (kept + 1)
      split
      · rw [size_append]
        have htab : size [' ', ' ', ' ', ' '] = 4 := rfl
        omega
      · split
        · exact ih kept
        · have hcons : size (c :: cleanFrom (kept + 1) text) = c.utf8Size + size (cleanFrom (kept + 1) text) :=
            Offsets.measure_cons c
          omega

lemma pushClean_fits (text : List Char) : size (pushClean text).toList ≤ u32Max := by
  rw [pushClean, String.toList_ofList]
  exact (size_cleanFrom 0 _).trans (by norm_num [maxLineChars, u32Max])

theorem shared_longest (isAlphanumeric : Char → Bool) (old new : List Char) :
    Partition isAlphanumeric old ∧ Partition isAlphanumeric new ∧
      (shared isAlphanumeric old new = none ↔
        maxTokens < (tokens isAlphanumeric old).length ∨ maxTokens < (tokens isAlphanumeric new).length) ∧
      (∀ left right, shared isAlphanumeric old new = some (left, right) →
        Shared isAlphanumeric old new left right ∧
          (size old ≤ u32Max → Changes old left) ∧ (size new ≤ u32Max → Changes new right)) ∧
      ∀ line, size (pushClean line).toList ≤ u32Max := by
  refine ⟨tokens_partition isAlphanumeric old, tokens_partition isAlphanumeric new, ?_, fun left right h => ?_,
    pushClean_fits⟩
  · unfold shared
    dsimp only
    split <;> simp_all
  · have hshared := shared_shared isAlphanumeric h
    exact ⟨hshared, changed_changes isAlphanumeric hshared.leftTokens hshared.leftKept,
      changed_changes isAlphanumeric hshared.rightTokens hshared.rightKept⟩

end Sheprd.Review.Words
