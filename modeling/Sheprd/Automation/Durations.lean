import Sheprd.Lib.Text

namespace Sheprd.Automation

open Lib

def parseSeconds (number : List Char) : Option ℕ := (Text.decimal number).filter fun n => decide (n < 2 ^ 64)

def checkedTerm (total value unit : ℕ) : Option ℕ :=
  if value * unit < 2 ^ 64 ∧ total + value * unit < 2 ^ 64 then some (total + value * unit) else none

def unitSeconds : Char → Option ℕ
  | 's' => some 1
  | 'm' => some 60
  | 'h' => some 3600
  | 'd' => some 86400
  | _ => none

def durationFrom : ℕ → List Char → List Char → Option ℕ
  | total, number, [] => if number = [] ∧ 0 < total then some total else none
  | total, number, c :: rest =>
      if c.isDigit then durationFrom total (number ++ [c]) rest
      else do
        let unit ← unitSeconds c
        let value ← parseSeconds number
        let total ← checkedTerm total value unit
        durationFrom total [] rest

def parseDuration (text : String) : Option ℕ :=
  let text := Text.trim text
  if text = "" then none else durationFrom 0 [] text.toList

def formatFrom : List (ℕ × Char) → ℕ → List Char
  | [], _ => []
  | (unit, suffix) :: units, seconds =>
      if unit ≤ seconds then
        (seconds / unit).repr.toList ++ suffix :: formatFrom units (seconds % unit)
      else formatFrom units seconds

def formatDuration (seconds : ℕ) : String :=
  let text := formatFrom [(86400, 'd'), (3600, 'h'), (60, 'm'), (1, 's')] seconds
  if text = [] then "0s" else .ofList text

structure Term where
  number : List Char
  suffix : Char
  unit : ℕ
  nonempty : number ≠ []
  digits : ∀ c ∈ number, c.isDigit = true
  counts : unitSeconds suffix = some unit

namespace Term

def text (term : Term) : List Char := term.number ++ [term.suffix]

def value (term : Term) : ℕ := Nat.ofDigitChars 10 term.number 0

def seconds (term : Term) : ℕ := term.value * term.unit

end Term

def spelled (terms : List Term) : List Char := terms.flatMap Term.text

def lasting (terms : List Term) : ℕ := (terms.map Term.seconds).sum

@[simp]
lemma spelled_cons (term : Term) (terms : List Term) : spelled (term :: terms) = term.text ++ spelled terms := rfl

@[simp]
lemma lasting_cons (term : Term) (terms : List Term) : lasting (term :: terms) = term.seconds + lasting terms :=
  List.sum_cons

lemma unit_pos {c : Char} {unit : ℕ} (h : unitSeconds c = some unit) : 1 ≤ unit := by
  unfold unitSeconds at h
  split at h <;> simp at h <;> omega

lemma suffix_cases {c : Char} {unit : ℕ} (h : unitSeconds c = some unit) :
    c = 's' ∨ c = 'm' ∨ c = 'h' ∨ c = 'd' := by
  unfold unitSeconds at h
  split at h <;> simp_all

lemma suffix_not_digit {c : Char} {unit : ℕ} (h : unitSeconds c = some unit) : c.isDigit = false := by
  obtain rfl | rfl | rfl | rfl := suffix_cases h <;> rfl

lemma decimal_digits {number : List Char} (h : ∀ c ∈ number, c.isDigit = true) :
    Text.decimal number = if number = [] then none else some (Nat.ofDigitChars 10 number 0) := by
  have hplus : ∀ digits, number ≠ '+' :: digits := by
    rintro digits rfl
    exact absurd (h '+' List.mem_cons_self) (by decide)
  have hall : number.all Char.isDigit = true := List.all_eq_true.mpr h
  rw [Text.decimal]
  · simp [hall]
  · exact hplus

lemma parseSeconds_eq_some {number : List Char} {n : ℕ} (h : ∀ c ∈ number, c.isDigit = true) :
    parseSeconds number = some n ↔ number ≠ [] ∧ Nat.ofDigitChars 10 number 0 = n ∧ n < 2 ^ 64 := by
  rw [parseSeconds, decimal_digits h, Option.filter_eq_some_iff, decide_eq_true_eq]
  by_cases hne : number = [] <;> simp [hne]

lemma durationFrom_digits {front : List Char} (h : ∀ c ∈ front, c.isDigit = true) (total : ℕ)
    (number rest : List Char) :
    durationFrom total number (front ++ rest) = durationFrom total (number ++ front) rest := by
  induction front generalizing number with
  | nil => rw [List.nil_append, List.append_nil]
  | cons c front ih =>
    obtain ⟨hc, hfront⟩ := List.forall_mem_cons.mp h
    rw [List.cons_append, durationFrom, if_pos hc, ih hfront, List.append_assoc, List.singleton_append]

lemma durationFrom_spelled (terms : List Term) {total n : ℕ} (hn : total + lasting terms = n)
    (hpos : 0 < n) (hfits : n < 2 ^ 64) : durationFrom total [] (spelled terms) = some n := by
  induction terms generalizing total with
  | nil =>
    obtain rfl : total = n := hn
    exact if_pos ⟨rfl, hpos⟩
  | cons term terms ih =>
    rw [lasting_cons] at hn
    have hvalue : term.value ≤ term.seconds := Nat.le_mul_of_pos_right _ (unit_pos term.counts)
    have hparse : parseSeconds term.number = some term.value :=
      (parseSeconds_eq_some term.digits).mpr ⟨term.nonempty, rfl, by omega⟩
    have hterm : checkedTerm total term.value term.unit = some (total + term.seconds) := by
      have hsum : term.value * term.unit < 2 ^ 64 ∧ total + term.value * term.unit < 2 ^ 64 := by
        change term.seconds < 2 ^ 64 ∧ total + term.seconds < 2 ^ 64
        omega
      exact if_pos hsum
    rw [spelled_cons, Term.text, List.append_assoc, durationFrom_digits term.digits, List.nil_append,
      List.singleton_append, durationFrom, suffix_not_digit term.counts, term.counts]
    simp only [Bool.false_eq_true, if_false, Option.bind_eq_bind, Option.bind_some, hparse, hterm]
    exact ih (by omega)

lemma durationFrom_reads {text number : List Char} {total n : ℕ} (h : durationFrom total number text = some n)
    (hnumber : ∀ c ∈ number, c.isDigit = true) (htotal : total < 2 ^ 64) :
    ∃ terms, number ++ text = spelled terms ∧ total + lasting terms = n ∧ 0 < n ∧ n < 2 ^ 64 := by
  induction text generalizing number total with
  | nil =>
    rw [durationFrom] at h
    split at h
    · rename_i hend
      obtain rfl := Option.some.inj h
      exact ⟨[], by simp [hend.1, spelled], rfl, hend.2, htotal⟩
    · exact absurd h (by simp)
  | cons c text ih =>
    rw [durationFrom] at h
    split at h
    · rename_i hc
      have hnumber' : ∀ d ∈ number ++ [c], d.isDigit = true := by
        intro d hd
        obtain hd | hd := List.mem_append.mp hd
        · exact hnumber d hd
        · exact List.mem_singleton.mp hd ▸ hc
      obtain ⟨terms, htext, hlast⟩ := ih h hnumber' htotal
      exact ⟨terms, by rw [← htext, List.append_assoc, List.singleton_append], hlast⟩
    · obtain ⟨unit, hunit, h⟩ := Option.bind_eq_some_iff.mp h
      obtain ⟨value, hvalue, h⟩ := Option.bind_eq_some_iff.mp h
      obtain ⟨total', hterm, h⟩ := Option.bind_eq_some_iff.mp h
      obtain ⟨hne, hvalue, -⟩ := (parseSeconds_eq_some hnumber).mp hvalue
      rw [checkedTerm] at hterm
      split at hterm
      · rename_i hfits
        obtain rfl := Option.some.inj hterm
        obtain ⟨terms, htext, hlast, hbounds⟩ := ih h (by simp) hfits.2
        let term : Term := ⟨number, c, unit, hne, hnumber, hunit⟩
        refine ⟨term :: terms, ?_, ?_, hbounds⟩
        · rw [spelled_cons, ← htext]
          simp [term, Term.text]
        · rw [lasting_cons, ← hlast]
          simp [term, Term.seconds, Term.value, hvalue, Nat.add_assoc]
      · exact absurd hterm (by simp)

lemma parseDuration_eq_some {text : String} {n : ℕ} :
    parseDuration text = some n ↔
      ∃ terms, (Text.trim text).toList = spelled terms ∧ lasting terms = n ∧ 0 < n ∧ n < 2 ^ 64 := by
  simp only [parseDuration]
  constructor
  · intro h
    split at h
    · exact absurd h (by simp)
    · have htotal : 0 < 2 ^ 64 := by norm_num
      obtain ⟨terms, htext, hlast, hbounds⟩ := durationFrom_reads h (List.forall_mem_nil _) htotal
      exact ⟨terms, by rw [← htext, List.nil_append], by rw [← hlast, Nat.zero_add], hbounds⟩
  · rintro ⟨terms, htext, hlast, hpos, hfits⟩
    have hne : Text.trim text ≠ "" := by
      intro hempty
      rw [hempty] at htext
      cases terms with
      | nil => simp [← hlast, lasting] at hpos
      | cons term terms => simp [Term.text] at htext
    rw [if_neg hne, htext]
    exact durationFrom_spelled terms (by rw [hlast, Nat.zero_add]) hpos hfits

def leftOver : List (ℕ × Char) → ℕ → ℕ
  | [], seconds => seconds
  | (unit, _) :: units, seconds => leftOver units (if unit ≤ seconds then seconds % unit else seconds)

lemma formatFrom_spelled {units : List (ℕ × Char)} (h : ∀ unit ∈ units, unitSeconds unit.2 = some unit.1)
    (seconds : ℕ) :
    ∃ terms, formatFrom units seconds = spelled terms ∧ lasting terms + leftOver units seconds = seconds := by
  induction units generalizing seconds with
  | nil => exact ⟨[], rfl, by simp [lasting, leftOver]⟩
  | cons unit units ih =>
    obtain ⟨hunit, hunits⟩ := List.forall_mem_cons.mp h
    rw [formatFrom, leftOver]
    split
    · obtain ⟨terms, htext, hlast⟩ := ih hunits (seconds % unit.1)
      have hdecimal := Text.decimal_repr (seconds / unit.1)
      have hdigits : ∀ c ∈ (seconds / unit.1).repr.toList, c.isDigit = true := fun c => Text.isDigit_of_repr
      rw [decimal_digits hdigits] at hdecimal
      split at hdecimal
      · exact absurd hdecimal (by simp)
      · rename_i hne
        let term : Term := ⟨(seconds / unit.1).repr.toList, unit.2, unit.1, hne, hdigits, hunit⟩
        refine ⟨term :: terms, ?_, ?_⟩
        · rw [spelled_cons, htext]
          simp [term, Term.text]
        · have hterm : term.seconds = seconds / unit.1 * unit.1 :=
            congrArg (· * unit.1) (Option.some.inj hdecimal)
          rw [lasting_cons, hterm, Nat.add_assoc, hlast, Nat.div_add_mod']
    · exact ih hunits seconds

lemma not_whitespace_of_spelled {terms : List Term} {c : Char} (h : c ∈ spelled terms) :
    Text.isWhitespace c = false := by
  obtain ⟨term, -, hc⟩ := List.mem_flatMap.mp h
  obtain hc | hc := List.mem_append.mp hc
  · have hdigit := term.digits c hc
    rw [Char.isDigit, Bool.and_eq_true, decide_eq_true_eq, decide_eq_true_eq] at hdigit
    have hlow : 48 ≤ c.toNat := hdigit.1
    have hhigh : c.toNat ≤ 57 := hdigit.2
    simp [Text.isWhitespace]
    omega
  · obtain rfl := List.mem_singleton.mp hc
    obtain h | h | h | h := suffix_cases term.counts <;> rw [h] <;> rfl

lemma trim_spelled (terms : List Term) : Text.trim (.ofList (spelled terms)) = .ofList (spelled terms) := by
  have hdrop : ∀ text : List Char, (∀ c ∈ text, Text.isWhitespace c = false) →
      text.dropWhile Text.isWhitespace = text := by
    intro text h
    cases text with
    | nil => rfl
    | cons c text => rw [List.dropWhile_cons_of_neg (by simp [h c List.mem_cons_self])]
  rw [Text.trim, String.toList_ofList, Text.trimStart, hdrop _ fun c => not_whitespace_of_spelled, Text.trimEnd,
    hdrop _ fun c hc => not_whitespace_of_spelled (List.mem_reverse.mp hc), List.reverse_reverse]

lemma parseDuration_formatDuration {n : ℕ} (hpos : 1 ≤ n) (hfits : n < 2 ^ 64) :
    parseDuration (formatDuration n) = some n := by
  have hunits : ∀ unit ∈ [(86400, 'd'), (3600, 'h'), (60, 'm'), (1, 's')], unitSeconds unit.2 = some unit.1 := by
    simp [unitSeconds]
  obtain ⟨terms, htext, hlast⟩ := formatFrom_spelled hunits n
  have hleft : leftOver [(86400, 'd'), (3600, 'h'), (60, 'm'), (1, 's')] n = 0 := by
    have hones : ∀ seconds : ℕ, (if 1 ≤ seconds then seconds % 1 else seconds) = 0 := by
      intro seconds
      split <;> omega
    simp only [leftOver, hones]
  rw [hleft, Nat.add_zero] at hlast
  have hne : spelled terms ≠ [] := by
    cases terms with
    | nil => simp [← hlast, lasting] at hpos
    | cons term terms => simp [Term.text]
  rw [formatDuration, htext, if_neg hne]
  refine parseDuration_eq_some.mpr ⟨terms, ?_, hlast, hpos, hfits⟩
  rw [trim_spelled, String.toList_ofList]

theorem parseDuration_exact :
    (∀ n, 1 ≤ n → n < 2 ^ 64 → parseDuration (formatDuration n) = some n) ∧
      ∀ text n, parseDuration text = some n ↔
        ∃ terms, (Text.trim text).toList = spelled terms ∧ lasting terms = n ∧ 0 < n ∧ n < 2 ^ 64 :=
  ⟨fun _ => parseDuration_formatDuration, fun _ _ => parseDuration_eq_some⟩

end Sheprd.Automation
