import Sheprd.Lib.Text

namespace Sheprd.Lib.Text

def replaceFrom (pattern by' : List Char) : ℕ → List Char → List Char
  | _, [] => []
  | skip + 1, _ :: rest => replaceFrom pattern by' skip rest
  | 0, c :: rest =>
      if pattern.isPrefixOf (c :: rest) then by' ++ replaceFrom pattern by' (pattern.length - 1) rest
      else c :: replaceFrom pattern by' 0 rest

def replace (pattern by' text : List Char) : List Char := replaceFrom pattern by' 0 text

section Replace

variable {pattern by' : List Char} {mark c : Char}

@[simp]
lemma replace_nil : replace pattern by' [] = [] := rfl

lemma replaceFrom_length (front rest : List Char) :
    replaceFrom pattern by' front.length (front ++ rest) = replace pattern by' rest := by
  induction front with
  | nil => rfl
  | cons c front ih => rw [List.length_cons, List.cons_append, replaceFrom, ih]

lemma replace_pattern (rest : List Char) :
    replace (mark :: pattern) by' (mark :: (pattern ++ rest)) =
      by' ++ replace (mark :: pattern) by' rest := by
  have hpattern : (mark :: pattern).isPrefixOf (mark :: (pattern ++ rest)) = true :=
    List.isPrefixOf_iff_prefix.mpr ⟨rest, rfl⟩
  rw [replace, replaceFrom, if_pos hpattern, List.length_cons, Nat.add_sub_cancel, replaceFrom_length]

lemma replace_other {rest : List Char} (h : ¬ pattern <+: c :: rest) :
    replace pattern by' (c :: rest) = c :: replace pattern by' rest := by
  rw [replace, replaceFrom, if_neg (mt List.isPrefixOf_iff_prefix.mp h), replace]

lemma replace_cons_of_ne {rest : List Char} (h : c ≠ mark) :
    replace (mark :: pattern) by' (c :: rest) = c :: replace (mark :: pattern) by' rest :=
  replace_other fun hpattern => h (List.cons_prefix_cons.mp hpattern).1.symm

lemma replace_of_not_mem {text : List Char} (h : mark ∉ text) (rest : List Char) :
    replace (mark :: pattern) by' (text ++ rest) = text ++ replace (mark :: pattern) by' rest := by
  induction text with
  | nil => rfl
  | cons c text ih =>
    obtain ⟨hc, htext⟩ := not_or.mp (List.mem_cons.not.mp h)
    rw [List.cons_append, replace_cons_of_ne (Ne.symm hc), ih htext, List.cons_append]

lemma replace_singleton (text : List Char) :
    replace [mark] by' text = text.flatMap fun c => if c = mark then by' else [c] := by
  induction text with
  | nil => rfl
  | cons c text ih =>
    rw [List.flatMap_cons, ← ih]
    by_cases hc : c = mark
    · subst hc
      have hpattern : replace [c] by' (c :: ([] ++ text)) = by' ++ replace [c] by' text := replace_pattern text
      simpa using hpattern
    · rw [if_neg hc, replace_cons_of_ne hc, List.singleton_append]

end Replace

end Sheprd.Lib.Text
