import Mathlib.Data.List.AList
import Mathlib.Tactic

namespace Sheprd.Lib

abbrev Dict (κ ν : Type) := AList (fun _ : κ => ν)

namespace Dict

variable {κ ν : Type}

def retain (keep : κ → Bool) (d : Dict κ ν) : Dict κ ν :=
  ⟨d.entries.filter fun e => keep e.1, d.nodupKeys.sublist List.filter_sublist⟩

def filter (keep : κ → ν → Bool) (d : Dict κ ν) : Dict κ ν :=
  ⟨d.entries.filter fun e => keep e.1 e.2, d.nodupKeys.sublist List.filter_sublist⟩

def mapValues (f : ν → ν) (d : Dict κ ν) : Dict κ ν :=
  ⟨d.entries.map fun e => ⟨e.1, f e.2⟩, by
    have h := d.nodupKeys
    rw [List.NodupKeys, List.keys] at h ⊢
    rw [List.map_map]
    exact h⟩

def weight (f : ν → ℕ) (d : Dict κ ν) : ℕ := (d.entries.map fun e => f e.2).sum

lemma mem_retain {keep : κ → Bool} {d : Dict κ ν} {k : κ} (h : k ∈ retain keep d) :
    k ∈ d ∧ keep k = true := by
  rw [AList.mem_keys, AList.keys, List.mem_keys] at h
  obtain ⟨v, hv⟩ := h
  obtain ⟨hd, hk⟩ := List.mem_filter.mp hv
  exact ⟨AList.mem_keys.mpr (List.mem_keys.mpr ⟨v, hd⟩), hk⟩

lemma lookup_retain [DecidableEq κ] {keep : κ → Bool} (d : Dict κ ν) {k : κ} (h : keep k = true) :
    (retain keep d).lookup k = d.lookup k := by
  apply Option.ext
  intro v
  rw [← Option.mem_def, ← Option.mem_def, AList.mem_lookup_iff, AList.mem_lookup_iff]
  constructor
  · exact fun hv => (List.mem_filter.mp hv).1
  · exact fun hv => List.mem_filter.mpr ⟨hv, h⟩

lemma retain_eq_self {keep : κ → Bool} {d : Dict κ ν}
    (h : (retain keep d).entries.length = d.entries.length) : retain keep d = d :=
  AList.ext (List.filter_sublist.eq_of_length h)

lemma length_retain_le (keep : κ → Bool) (d : Dict κ ν) :
    (retain keep d).entries.length ≤ d.entries.length := List.length_filter_le _ _

lemma weight_retain (f : ν → ℕ) (keep : κ → Bool) (d : Dict κ ν) :
    weight f (retain keep d) + weight f (retain (fun k => !keep k) d) = weight f d := by
  simp only [weight, retain]
  induction d.entries with
  | nil => rfl
  | cons e es ih =>
    cases hk : keep e.1 with
    | true =>
      simp only [List.filter_cons, hk, Bool.not_true, Bool.false_eq_true, if_true, if_false,
        List.map_cons, List.sum_cons]
      omega
    | false =>
      simp only [List.filter_cons, hk, Bool.not_false, Bool.false_eq_true, if_true, if_false,
        List.map_cons, List.sum_cons]
      omega

lemma weight_insert [DecidableEq κ] (f : ν → ℕ) {d : Dict κ ν} {k : κ} (v : ν) (h : k ∉ d) :
    weight f (d.insert k v) = f v + weight f d := by
  rw [weight, AList.entries_insert_of_notMem h, List.map_cons, List.sum_cons, weight]

lemma length_insert [DecidableEq κ] {d : Dict κ ν} {k : κ} (v : ν) (h : k ∉ d) :
    (d.insert k v).entries.length = d.entries.length + 1 := by
  rw [AList.entries_insert_of_notMem h, List.length_cons]

lemma length_keys (d : Dict κ ν) : d.keys.length = d.entries.length := List.length_map _

lemma length_erase [DecidableEq κ] {d : Dict κ ν} {k : κ} (h : k ∈ d) :
    (d.erase k).entries.length + 1 = d.entries.length := by
  have hpos : 0 < d.keys.length := List.length_pos_of_mem (AList.mem_keys.mp h)
  rw [← length_keys, ← length_keys, AList.keys_erase, List.length_erase_of_mem (AList.mem_keys.mp h)]
  exact Nat.sub_add_cancel hpos

lemma length_insert_le [DecidableEq κ] (d : Dict κ ν) (k : κ) (v : ν) :
    (d.insert k v).entries.length ≤ d.entries.length + if k ∈ d then 0 else 1 := by
  by_cases h : k ∈ d
  · have hpos : 0 < d.keys.length := List.length_pos_of_mem (AList.mem_keys.mp h)
    rw [if_pos h, ← length_keys, ← length_keys, AList.keys_insert, List.length_cons,
      List.length_erase_of_mem (AList.mem_keys.mp h)]
    omega
  · rw [if_neg h, length_insert v h]

section Lookup

variable [DecidableEq κ] {d : Dict κ ν} {k k' : κ} {v v' : ν}

lemma of_lookup_filter {keep : κ → ν → Bool} (h : (filter keep d).lookup k = some v) :
    d.lookup k = some v ∧ keep k v = true := by
  obtain ⟨hm, hk⟩ := List.mem_filter.mp (AList.mem_lookup_iff.mp h)
  exact ⟨AList.mem_lookup_iff.mpr hm, hk⟩

lemma lookup_filter {keep : κ → ν → Bool} (h : d.lookup k = some v) (hk : keep k v = true) :
    (filter keep d).lookup k = some v :=
  AList.mem_lookup_iff.mpr (List.mem_filter.mpr ⟨AList.mem_lookup_iff.mp h, hk⟩)

lemma lookup_filter_eq (keep : κ → ν → Bool) (d : Dict κ ν) (k : κ) :
    (filter keep d).lookup k = (d.lookup k).filter (keep k) := by
  apply Option.ext
  intro v
  rw [Option.filter_eq_some_iff]
  exact ⟨of_lookup_filter, fun h => lookup_filter h.1 h.2⟩

lemma lookup_mapValues (f : ν → ν) (d : Dict κ ν) (k : κ) :
    (mapValues f d).lookup k = (d.lookup k).map f := by
  apply Option.ext
  intro v
  rw [← Option.mem_def, AList.mem_lookup_iff, mapValues, List.mem_map, Option.map_eq_some_iff]
  constructor
  · rintro ⟨⟨key, value⟩, hm, he⟩
    cases he
    exact ⟨value, AList.mem_lookup_iff.mpr hm, rfl⟩
  · rintro ⟨value, hl, rfl⟩
    exact ⟨⟨k, value⟩, AList.mem_lookup_iff.mp hl, rfl⟩

lemma of_lookup_retain {keep : κ → Bool} (h : (retain keep d).lookup k = some v) :
    d.lookup k = some v ∧ keep k = true := by
  obtain ⟨hm, hk⟩ := List.mem_filter.mp (AList.mem_lookup_iff.mp h)
  exact ⟨AList.mem_lookup_iff.mpr hm, hk⟩

lemma of_lookup_insert (h : (d.insert k v).lookup k' = some v') :
    k' = k ∧ v' = v ∨ d.lookup k' = some v' := by
  by_cases hk : k' = k
  · subst hk
    rw [AList.lookup_insert] at h
    exact Or.inl ⟨rfl, (Option.some.inj h).symm⟩
  · rw [AList.lookup_insert_ne hk] at h
    exact Or.inr h

lemma of_lookup_erase (h : (d.erase k).lookup k' = some v) : k' ≠ k ∧ d.lookup k' = some v := by
  by_cases hk : k' = k
  · subst hk
    simp at h
  · rw [AList.lookup_erase_ne hk] at h
    exact ⟨hk, h⟩

section Collect

variable {α : Type}

def collect (key : α → κ) (value : α → ν) (l : List α) : Dict κ ν :=
  l.foldl (fun d a => d.insert (key a) (value a)) ∅

lemma collect_concat (key : α → κ) (value : α → ν) (l : List α) (a : α) :
    collect key value (l ++ [a]) = (collect key value l).insert (key a) (value a) :=
  List.foldl_concat ..

lemma lookup_collect {key : α → κ} {value : α → ν} {l : List α} (h : (l.map key).Nodup) :
    (collect key value l).lookup k = some v ↔ ∃ a ∈ l, key a = k ∧ value a = v := by
  induction l using List.reverseRecOn with
  | nil => simp [collect]
  | append_singleton l a ih =>
    rw [List.map_append, List.nodup_append] at h
    obtain ⟨hl, -, hfresh⟩ := h
    rw [collect_concat]
    by_cases hk : k = key a
    · subst hk
      rw [AList.lookup_insert, Option.some.injEq]
      constructor
      · rintro rfl
        exact ⟨a, by simp, rfl, rfl⟩
      · rintro ⟨b, hb, hkey, rfl⟩
        rcases List.mem_append.mp hb with hb | hb
        · exact absurd hkey (hfresh _ (List.mem_map_of_mem hb) _ (by simp))
        · rw [List.mem_singleton.mp hb]
    · rw [AList.lookup_insert_ne hk, ih hl]
      constructor
      · rintro ⟨b, hb, hkey, hvalue⟩
        exact ⟨b, List.mem_append_left _ hb, hkey, hvalue⟩
      · rintro ⟨b, hb, hkey, hvalue⟩
        rcases List.mem_append.mp hb with hb | hb
        · exact ⟨b, hb, hkey, hvalue⟩
        · rw [List.mem_singleton.mp hb] at hkey
          exact absurd hkey.symm hk

lemma mem_collect {key : α → κ} {value : α → ν} {l : List α} :
    k ∈ collect key value l ↔ k ∈ l.map key := by
  induction l using List.reverseRecOn with
  | nil => simp [collect]
  | append_singleton l a ih =>
    rw [collect_concat, AList.mem_insert, ih, List.map_append, List.mem_append, or_comm]
    simp

lemma length_collect {key : α → κ} {value : α → ν} {l : List α} (h : (l.map key).Nodup) :
    (collect key value l).entries.length = l.length := by
  induction l using List.reverseRecOn with
  | nil => rfl
  | append_singleton l a ih =>
    rw [List.map_append, List.nodup_append] at h
    obtain ⟨hl, -, hfresh⟩ := h
    have hnew : key a ∉ collect key value l := by
      rw [mem_collect]
      exact fun hm => hfresh _ hm _ (by simp) rfl
    rw [collect_concat, length_insert _ hnew, ih hl, List.length_append, List.length_singleton]

def group (key : α → Option κ) (l : List α) : Dict κ (List α) :=
  l.foldl (fun d a => match key a with
    | none => d
    | some k => d.insert k ((d.lookup k).getD [] ++ [a])) ∅

lemma lookup_group (key : α → Option κ) (l : List α) (k : κ) :
    ((group key l).lookup k).getD [] = l.filter fun a => key a = some k := by
  induction l using List.reverseRecOn with
  | nil => simp [group]
  | append_singleton l a ih =>
    rw [group, List.foldl_concat, ← group, List.filter_append, ← ih]
    cases hkey : key a with
    | none => simp [hkey]
    | some k' =>
      by_cases hk : k = k'
      · subst hk
        simp [hkey]
      · simp [hkey, AList.lookup_insert_ne hk, Ne.symm hk]

end Collect

end Lookup

end Dict

end Sheprd.Lib
