import Mathlib.Tactic

namespace Sheprd.Lib.Register

variable {κ ν : Type} [DecidableEq κ]

def lookup (r : List (κ × ν)) (k : κ) : Option ν := (r.find? fun e => e.1 = k).map Prod.snd

def enter (r : List (κ × ν)) (k : κ) (v : ν) : List (κ × ν) :=
  if lookup r k = none then r ++ [(k, v)] else r

def assign (k : κ) (v : ν) : List (κ × ν) → List (κ × ν)
  | [] => [(k, v)]
  | e :: r => if e.1 = k then (e.1, v) :: r else e :: assign k v r

def relabel (f : ν → ν) (r : List (κ × ν)) : List (κ × ν) := r.map fun e => (e.1, f e.2)

def drop (r : List (κ × ν)) (k : κ) : List (κ × ν) := r.filter fun e => e.1 ≠ k

def Distinct (r : List (κ × ν)) : Prop := (r.map Prod.fst).Nodup

def total (f : ν → ℕ) (r : List (κ × ν)) : ℕ := (r.map fun e => f e.2).sum

@[simp] lemma lookup_nil (k : κ) : lookup ([] : List (κ × ν)) k = none := rfl

lemma lookup_cons (e : κ × ν) (r : List (κ × ν)) (k : κ) :
    lookup (e :: r) k = if e.1 = k then some e.2 else lookup r k := by
  by_cases h : e.1 = k <;> simp [lookup, h]

lemma lookup_append (r s : List (κ × ν)) (k : κ) :
    lookup (r ++ s) k = (lookup r k).or (lookup s k) := by
  rw [lookup, List.find?_append, Option.map_or]
  rfl

lemma lookup_eq_none {r : List (κ × ν)} {k : κ} : lookup r k = none ↔ k ∉ r.map Prod.fst := by
  simp only [lookup, Option.map_eq_none_iff, List.find?_eq_none, List.mem_map, decide_eq_true_eq]
  constructor
  · rintro h ⟨e, he, rfl⟩
    exact h e he rfl
  · exact fun h e he same => h ⟨e, he, same⟩

lemma mem_of_lookup {r : List (κ × ν)} {k : κ} {v : ν} (h : lookup r k = some v) : (k, v) ∈ r := by
  obtain ⟨e, found, rfl⟩ := Option.map_eq_some_iff.mp h
  obtain rfl : e.1 = k := by simpa using List.find?_some found
  exact List.mem_of_find?_eq_some found

lemma lookup_of_mem {r : List (κ × ν)} (distinct : Distinct r) {k : κ} {v : ν} (h : (k, v) ∈ r) :
    lookup r k = some v := by
  induction r with
  | nil => cases h
  | cons e r ih =>
    obtain ⟨new, distinct'⟩ := List.nodup_cons.mp distinct
    rw [lookup_cons]
    obtain rfl | h := List.mem_cons.mp h
    · exact if_pos rfl
    · rw [if_neg, ih distinct' h]
      intro same
      exact new (List.mem_map.mpr ⟨(k, v), h, same.symm⟩)

lemma lookup_enter (r : List (κ × ν)) (k : κ) (v : ν) (k' : κ) :
    lookup (enter r k v) k' = (lookup r k').or (if k = k' then some v else none) := by
  unfold enter
  split
  · rw [lookup_append, lookup_cons, lookup_nil]
  · next held =>
    by_cases same : k = k'
    · obtain ⟨w, held⟩ := Option.ne_none_iff_exists'.mp held
      rw [← same, held]
      rfl
    · rw [if_neg same, Option.or_none]

lemma lookup_assign (k : κ) (v : ν) (r : List (κ × ν)) (k' : κ) :
    lookup (assign k v r) k' = if k = k' then some v else lookup r k' := by
  induction r with
  | nil => rw [assign, lookup_cons]
  | cons e r ih =>
    unfold assign
    by_cases here : e.1 = k
    · rw [if_pos here, lookup_cons, lookup_cons, here]
      by_cases same : k = k' <;> simp [same]
    · rw [if_neg here, lookup_cons, lookup_cons, ih]
      by_cases same : k = k'
      · subst same
        simp [here]
      · simp [same]

lemma lookup_relabel (f : ν → ν) (r : List (κ × ν)) (k : κ) :
    lookup (relabel f r) k = (lookup r k).map f := by
  induction r with
  | nil => rfl
  | cons e r ih =>
    unfold relabel at ih ⊢
    rw [List.map_cons, lookup_cons, lookup_cons, ih]
    by_cases same : e.1 = k <;> simp [same]

lemma lookup_drop (r : List (κ × ν)) (k k' : κ) :
    lookup (drop r k) k' = if k' = k then none else lookup r k' := by
  induction r with
  | nil => simp [drop]
  | cons e r ih =>
    unfold drop at ih ⊢
    by_cases gone : e.1 = k
    · rw [List.filter_cons_of_neg (by simpa using gone), ih, lookup_cons]
      by_cases same : k' = k
      · simp [same]
      · rw [if_neg same, if_neg same, if_neg (by rw [gone]; exact Ne.symm same)]
    · rw [List.filter_cons_of_pos (by simpa using gone), lookup_cons, lookup_cons, ih]
      by_cases same : e.1 = k'
      · rw [if_pos same, if_pos same, if_neg (by rw [← same]; exact gone)]
      · rw [if_neg same, if_neg same]

lemma Distinct.enter {r : List (κ × ν)} (h : Distinct r) (k : κ) (v : ν) : Distinct (enter r k v) := by
  unfold Register.enter
  split
  · next missing =>
    unfold Distinct
    rw [List.map_append]
    refine h.append (List.nodup_singleton k) ?_
    simpa using lookup_eq_none.mp missing
  · exact h

lemma keys_assign (k : κ) (v : ν) (r : List (κ × ν)) :
    (assign k v r).map Prod.fst =
      if k ∈ r.map Prod.fst then r.map Prod.fst else r.map Prod.fst ++ [k] := by
  induction r with
  | nil => simp [assign]
  | cons e r ih =>
    unfold assign
    by_cases here : e.1 = k
    · simp [here]
    · have other : ¬ k = e.1 := fun same => here same.symm
      rw [if_neg here, List.map_cons, ih, List.map_cons]
      by_cases held : k ∈ r.map Prod.fst
      · rw [if_pos held, if_pos (List.mem_cons_of_mem _ held)]
      · rw [if_neg held, if_neg (by simpa [other] using held), List.cons_append]

lemma Distinct.assign {r : List (κ × ν)} (h : Distinct r) (k : κ) (v : ν) :
    Distinct (assign k v r) := by
  unfold Distinct
  rw [keys_assign]
  split
  · exact h
  · next missing => exact h.append (List.nodup_singleton k) (by simpa using missing)

omit [DecidableEq κ] in
lemma Distinct.relabel {r : List (κ × ν)} (h : Distinct r) (f : ν → ν) : Distinct (relabel f r) := by
  unfold Distinct Register.relabel
  rw [List.map_map]
  exact h

lemma Distinct.drop {r : List (κ × ν)} (h : Distinct r) (k : κ) : Distinct (drop r k) :=
  h.sublist (List.filter_sublist.map _)

lemma mem_enter {r : List (κ × ν)} {k : κ} {v : ν} {e : κ × ν} (h : e ∈ enter r k v) :
    e ∈ r ∨ e = (k, v) := by
  unfold enter at h
  split at h
  · simpa using h
  · exact .inl h

lemma mem_assign {r : List (κ × ν)} {k : κ} {v : ν} {e : κ × ν} (h : e ∈ assign k v r) :
    e ∈ r ∨ e.2 = v := by
  induction r with
  | nil =>
    rw [List.mem_singleton.mp h]
    exact .inr rfl
  | cons e' r ih =>
    unfold assign at h
    split at h
    · obtain rfl | h := List.mem_cons.mp h
      · exact .inr rfl
      · exact .inl (List.mem_cons_of_mem _ h)
    · obtain rfl | h := List.mem_cons.mp h
      · exact .inl (List.mem_cons_self ..)
      · exact (ih h).imp_left (List.mem_cons_of_mem _)

lemma of_mem_assign {r : List (κ × ν)} {k : κ} {v : ν} {e : κ × ν} (h : e ∈ assign k v r) :
    e ∈ r ∨ e = (k, v) := by
  induction r with
  | nil => exact .inr (List.mem_singleton.mp h)
  | cons e' r ih =>
    unfold assign at h
    split at h
    · next here =>
      obtain rfl | h := List.mem_cons.mp h
      · exact .inr (by rw [here])
      · exact .inl (List.mem_cons_of_mem _ h)
    · obtain rfl | h := List.mem_cons.mp h
      · exact .inl (List.mem_cons_self ..)
      · exact (ih h).imp_left (List.mem_cons_of_mem _)

lemma total_assign (f : ν → ℕ) (k : κ) (v : ν) (r : List (κ × ν)) :
    total f (assign k v r) + ((lookup r k).map f).getD 0 = total f r + f v := by
  induction r with
  | nil => simp [total, assign]
  | cons e r ih =>
    unfold assign
    rw [lookup_cons]
    by_cases here : e.1 = k
    · simp only [if_pos here, total, List.map_cons, List.sum_cons, Option.map_some,
        Option.getD_some]
      omega
    · simp only [if_neg here, total, List.map_cons, List.sum_cons] at ih ⊢
      omega

omit [DecidableEq κ] in
lemma total_perm (f : ν → ℕ) {r s : List (κ × ν)} (h : r.Perm s) : total f r = total f s :=
  (h.map _).sum_eq

omit [DecidableEq κ] in
lemma total_filter (f : ν → ℕ) (keep : κ × ν → Bool) {r : List (κ × ν)}
    (h : ∀ e ∈ r, keep e = false → f e.2 = 0) : total f (r.filter keep) = total f r := by
  induction r with
  | nil => rfl
  | cons e r ih =>
    have rest := ih fun e' he' => h e' (List.mem_cons_of_mem _ he')
    cases kept : keep e with
    | true =>
      rw [List.filter_cons_of_pos kept]
      unfold total at rest ⊢
      rw [List.map_cons, List.sum_cons, List.map_cons, List.sum_cons, rest]
    | false =>
      have nothing := h e (List.mem_cons_self ..) kept
      rw [List.filter_cons_of_neg (by simp [kept]), rest]
      unfold total
      rw [List.map_cons, List.sum_cons, nothing, Nat.zero_add]

lemma le_total (f : ν → ℕ) {r : List (κ × ν)} {k : κ} {v : ν} (h : lookup r k = some v) :
    f v ≤ total f r :=
  List.le_sum_of_mem (List.mem_map.mpr ⟨(k, v), mem_of_lookup h, rfl⟩)

omit [DecidableEq κ] in
lemma exists_of_total_pos {f : ν → ℕ} {r : List (κ × ν)} (h : 0 < total f r) :
    ∃ e ∈ r, 0 < f e.2 := by
  by_contra none
  refine h.ne' (List.sum_eq_zero ?_)
  intro n hn
  obtain ⟨e, he, rfl⟩ := List.mem_map.mp hn
  by_contra some
  exact none ⟨e, he, Nat.pos_of_ne_zero some⟩

lemma lookup_entered (value : κ → ν) (ks : List κ) (r : List (κ × ν)) (k : κ) :
    lookup (ks.foldl (fun r k => enter r k (value k)) r) k =
      (lookup r k).or (if k ∈ ks then some (value k) else none) := by
  induction ks generalizing r with
  | nil => simp
  | cons k' ks ih =>
    rw [List.foldl_cons, ih, lookup_enter, Option.or_assoc]
    by_cases here : k' = k
    · simp [here]
    · simp [here, Ne.symm here]

lemma Distinct.entered (value : κ → ν) (ks : List κ) {r : List (κ × ν)} (h : Distinct r) :
    Distinct (ks.foldl (fun r k => Register.enter r k (value k)) r) := by
  induction ks generalizing r with
  | nil => exact h
  | cons k ks ih => exact ih (h.enter k _)

end Sheprd.Lib.Register
