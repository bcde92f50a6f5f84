import Mathlib.Tactic

namespace Sheprd.Lib

inductive Value where
  | null
  | bool (value : Bool)
  | number (digits : String)
  | string (text : String)
  | array (items : List Value)
  | object (fields : List (String × Value))

namespace Value

def get (value : Value) (key : String) : Option Value :=
  match value with
  | object fields => (fields.find? fun field => decide (field.1 = key)).map Prod.snd
  | _ => none

def remove (value : Value) (key : String) : Value :=
  match value with
  | object fields => object (fields.filter fun field => decide (field.1 ≠ key))
  | other => other

def replace (value : Value) (key : String) (item : Value) : Value :=
  match value with
  | object fields => object (fields.map fun field => if field.1 = key then (key, item) else field)
  | other => other

lemma get_replace_ne {key other : String} (h : other ≠ key) (value item : Value) :
    (value.replace key item).get other = value.get other := by
  cases value with
  | object fields =>
    rw [replace, get, get]
    induction fields with
    | nil => rfl
    | cons field fields ih =>
      rw [List.map_cons, List.find?_cons, List.find?_cons]
      by_cases hk : field.1 = key
      · rw [if_pos hk, decide_eq_false h.symm, decide_eq_false (hk ▸ h.symm)]
        exact ih
      · rw [if_neg hk]
        split
        · rfl
        · exact ih
  | _ => rfl

lemma get_replace_self {key : String} {value old : Value} (h : value.get key = some old) (item : Value) :
    (value.replace key item).get key = some item := by
  cases value with
  | object fields =>
    rw [get] at h
    rw [replace, get]
    induction fields with
    | nil => cases h
    | cons field fields ih =>
      rw [List.find?_cons] at h
      rw [List.map_cons, List.find?_cons]
      by_cases hk : field.1 = key
      · rw [if_pos hk, decide_eq_true rfl]
        rfl
      · rw [if_neg hk]
        rw [decide_eq_false hk] at h ⊢
        exact ih h
  | _ => cases h

def asStr : Value → Option String
  | string text => some text
  | _ => none

def asBool : Value → Option Bool
  | bool value => some value
  | _ => none

def asArray : Value → Option (List Value)
  | array items => some items
  | _ => none

def asNat : Value → Option ℕ
  | number digits =>
      if digits.toList ≠ [] ∧ digits.toList.all Char.isDigit then
        some (Nat.ofDigitChars 10 digits.toList 0)
      else none
  | _ => none

lemma asNat_repr (n : ℕ) : (number n.repr).asNat = some n := by
  have hdigits : (Nat.toDigits 10 n).all Char.isDigit = true :=
    List.all_eq_true.mpr fun d hd => Nat.isDigit_of_mem_toDigits (by omega) le_rfl hd
  rw [asNat, Nat.toList_repr, if_pos ⟨Nat.toDigits_ne_nil, hdigits⟩, Nat.ofDigitChars_ten_toDigits]

def optional {α : Type} (decode : Value → Option α) : Option Value → Option (Option α)
  | none => some none
  | some null => some none
  | some value => (decode value).map some

def isEmptyObject : Value → Bool
  | object fields => fields.isEmpty
  | _ => false

end Value

end Sheprd.Lib
