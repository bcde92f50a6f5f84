import Sheprd.Chat.Change

namespace Sheprd.Chat.Transcript

open Sheprd.Lib Sheprd.Lib.Exec

inductive Applied (t : Transcript) : Change → Transcript → Prop
  | pushed {entry : Entry} (after : ∀ last, t.lastEntryId = some last → last < entry.id) :
      Applied t (.push entry) { t with entries := t.entries ++ [entry] }
  | appended {id : EntryId} {text : String} {i : ℕ} {entry : Entry} {kind : EntryKind}
      (found : t.entries[i]? = some entry) (same : entry.id = id)
      (longer : entry.kind.pushStr text = some kind) :
      Applied t (.append id text)
        { t with entries := t.entries.modify i fun entry => { entry with kind } }
  | replaced {entry old : Entry} {i : ℕ} (found : t.entries[i]? = some old)
      (same : old.id = entry.id) :
      Applied t (.replace entry) { t with entries := t.entries.set i entry }
  | truncated {before : EntryId} {keep : ℕ}
      (point : keep = partitionPoint (fun entry : Entry => decide (entry.id < before)) t.entries) :
      Applied t (.truncate before) { t with entries := t.entries.drop keep, truncated := true }
  | asked {permission : Permission} (fresh : ∀ known ∈ t.permissions, known.id ≠ permission.id) :
      Applied t (.permissionAsked permission)
        { t with permissions := t.permissions ++ [permission] }
  | resolved {id : PermissionId} {i : ℕ}
      (found : t.permissions.findIdx? (fun permission => decide (permission.id = id)) = some i) :
      Applied t (.permissionResolved id) { t with permissions := t.permissions.eraseIdx i }
  | changed {activity known : Activity} {i : ℕ} (found : t.activities[i]? = some known)
      (same : known.callId = activity.callId) :
      Applied t (.activity activity) { t with activities := t.activities.set i activity }
  | started {activity : Activity} (fresh : ∀ known ∈ t.activities, known.callId ≠ activity.callId)
      (room : t.activities.length < maxActivities) :
      Applied t (.activity activity) { t with activities := t.activities ++ [activity] }
  | evicted {activity ended : Activity} {i : ℕ}
      (fresh : ∀ known ∈ t.activities, known.callId ≠ activity.callId)
      (found : t.activities[i]? = some ended) (notRunning : ended.isRunning = false) :
      Applied t (.activity activity)
        { t with activities := t.activities.eraseIdx i ++ [activity] }
  | beside {change : Change} {t' : Transcript} (entries : t'.entries = t.entries)
      (permissions : t'.permissions = t.permissions) (activities : t'.activities = t.activities) :
      Applied t change t'

def Outcome (t : Transcript) (change : Change) : Except Error Unit → Transcript → Prop
  | .ok _, t' => Applied t change t'
  | .error _, t' => t' = t

lemma record_outcome (activity : Activity) (t : Transcript) :
    wp (record activity) (Outcome t (.activity activity)) t := by
  rw [record, wp_bind, wp_refuse]
  refine ⟨fun _ => rfl, fun _ => ?_⟩
  rw [andThen_ok, wp_bind, wp_get, andThen_ok]
  cases hk : t.activities.findIdx? fun known => decide (known.callId = activity.callId) with
  | some i =>
    obtain ⟨hi, hp, -⟩ := List.findIdx?_eq_some_iff_getElem.mp hk
    exact Applied.changed (List.getElem?_eq_getElem hi) (of_decide_eq_true hp)
  | none =>
    have fresh : ∀ known ∈ t.activities, known.callId ≠ activity.callId := by
      intro known hm
      simpa using List.findIdx?_eq_none_iff.mp hk known hm
    dsimp only
    rw [wp_bind, wp_when]
    constructor
    · intro _
      rw [wp_bind, wp_require]
      refine ⟨fun _ => rfl, ?_⟩
      intro i hi
      obtain ⟨hlt, hp, -⟩ := List.findIdx?_eq_some_iff_getElem.mp hi
      exact Applied.evicted fresh (List.getElem?_eq_getElem hlt) (by simpa using hp)
    · intro hroom
      exact Applied.started fresh (by simpa using hroom)

lemma pushEntry_outcome (entry : Entry) (t : Transcript) :
    wp (pushEntry entry) (Outcome t (.push entry)) t := by
  rw [pushEntry, wp_bind, wp_get, andThen_ok]
  cases hl : t.lastEntryId.filter fun last => decide (entry.id ≤ last) with
  | some last => rfl
  | none =>
    refine Applied.pushed ?_
    intro last hlast
    rw [hlast] at hl
    simpa [Option.filter] using hl

lemma appendText_outcome (id : EntryId) (text : String) (t : Transcript) :
    wp (appendText id text) (Outcome t (.append id text)) t := by
  rw [appendText, wp_bind, wp_get, andThen_ok, wp_bind, wp_require]
  refine ⟨fun _ => rfl, fun i hi => ?_⟩
  rw [andThen_ok, wp_bind, wp_require]
  refine ⟨fun _ => rfl, fun kind hk => ?_⟩
  obtain ⟨entry, hentry, hid⟩ := position_found hi
  rw [hentry, Option.bind_some] at hk
  exact Applied.appended hentry hid hk

lemma replaceEntry_outcome (entry : Entry) (t : Transcript) :
    wp (replaceEntry entry) (Outcome t (.replace entry)) t := by
  rw [replaceEntry, wp_bind, wp_get, andThen_ok, wp_bind, wp_require]
  refine ⟨fun _ => rfl, fun i hi => ?_⟩
  obtain ⟨old, hold, hid⟩ := position_found hi
  exact Applied.replaced hold hid

lemma truncateBefore_outcome (before : EntryId) (t : Transcript) :
    wp (truncateBefore before) (Outcome t (.truncate before)) t := by
  rw [truncateBefore, wp_bind, wp_get, andThen_ok, wp_when]
  exact ⟨fun _ => Applied.truncated rfl, fun _ => Applied.beside rfl rfl rfl⟩

lemma askPermission_outcome (permission : Permission) (t : Transcript) :
    wp (askPermission permission) (Outcome t (.permissionAsked permission)) t := by
  rw [askPermission, wp_bind, wp_get, andThen_ok, wp_bind, wp_refuse]
  refine ⟨fun _ => rfl, fun hnone => Applied.asked ?_⟩
  intro known hm heq
  exact hnone (List.any_eq_true.mpr ⟨known, hm, decide_eq_true heq⟩)

lemma resolvePermission_outcome (id : PermissionId) (t : Transcript) :
    wp (resolvePermission id) (Outcome t (.permissionResolved id)) t := by
  rw [resolvePermission, wp_bind, wp_get, andThen_ok, wp_bind, wp_require]
  exact ⟨fun _ => rfl, fun i hi => Applied.resolved hi⟩

lemma setCurrentMode_outcome (id : String) (t : Transcript) :
    wp (setCurrentMode id) (Outcome t (.currentMode id)) t := by
  rw [setCurrentMode, wp_bind, wp_get, andThen_ok, wp_bind, wp_require]
  exact ⟨fun _ => rfl, fun modes _ => Applied.beside rfl rfl rfl⟩

lemma applyFitting_outcome (change : Change) (t : Transcript) :
    wp (applyFitting change) (Outcome t change) t := by
  cases change with
  | push entry => exact pushEntry_outcome entry t
  | append id text => exact appendText_outcome id text t
  | replace entry => exact replaceEntry_outcome entry t
  | truncate before => exact truncateBefore_outcome before t
  | permissionAsked permission => exact askPermission_outcome permission t
  | permissionResolved id => exact resolvePermission_outcome id t
  | currentMode id => exact setCurrentMode_outcome id t
  | activity activity => exact record_outcome activity t
  | _ => exact Applied.beside rfl rfl rfl

lemma apply_outcome (change : Change) (t : Transcript) : wp (apply change) (Outcome t change) t := by
  rw [apply]
  cases change.overlongAnswers with
  | some id => rfl
  | none => exact applyFitting_outcome change t

lemma apply_error {change : Change} {t : Transcript} {e : Error}
    (h : (exec (apply change) t).1 = .error e) : (exec (apply change) t).2 = t := by
  have ho := apply_outcome change t
  rw [wp, h] at ho
  exact ho

structure WellFormed (t : Transcript) : Prop where
  entries : t.entries.Pairwise fun a b => a.id < b.id
  permissions : t.permissions.Pairwise fun a b => a.id ≠ b.id
  activities : t.activities.Pairwise fun a b => a.callId ≠ b.callId
  few : t.activities.length ≤ maxActivities

lemma wellFormed_new (agent : String) : WellFormed (new agent) :=
  ⟨.nil, .nil, .nil, Nat.zero_le _⟩

section Lists

variable {α κ : Type} {key : α → κ} {R : κ → κ → Prop} {l : List α}

lemma pairwise_modify (h : l.Pairwise fun a b => R (key a) (key b)) {i : ℕ} {f : α → α}
    (hf : ∀ a, l[i]? = some a → key (f a) = key a) :
    (l.modify i f).Pairwise fun a b => R (key a) (key b) := by
  have hmap : (l.modify i f).map key = l.map key := by
    apply List.ext_getElem?
    intro j
    rw [List.getElem?_map, List.getElem?_map, List.getElem?_modify]
    cases hj : l[j]? with
    | none => rfl
    | some a =>
      by_cases hij : i = j
      · subst hij
        simp [hf a hj]
      · simp [hij]
  have hl : (l.map key).Pairwise R := List.pairwise_map.mpr h
  rw [← hmap] at hl
  exact List.pairwise_map.mp hl

lemma pairwise_set (h : l.Pairwise fun a b => R (key a) (key b)) {i : ℕ} {a b : α}
    (hb : l[i]? = some b) (hk : key b = key a) :
    (l.set i a).Pairwise fun a b => R (key a) (key b) := by
  have hset : l.set i a = l.modify i fun _ => a := by
    rw [List.set_eq_modify]
  rw [hset]
  refine pairwise_modify h ?_
  intro c hc
  rw [hb] at hc
  cases hc
  exact hk.symm

lemma pairwise_concat (h : l.Pairwise fun a b => R (key a) (key b)) {a : α}
    (ha : ∀ b ∈ l, R (key b) (key a)) : (l ++ [a]).Pairwise fun a b => R (key a) (key b) := by
  refine List.pairwise_append.mpr ⟨h, List.pairwise_singleton _ _, ?_⟩
  intro b hb c hc
  rw [List.mem_singleton.mp hc]
  exact ha b hb

end Lists

lemma WellFormed.applied {t t' : Transcript} {change : Change} (h : WellFormed t)
    (ha : Applied t change t') : WellFormed t' := by
  cases ha with
  | @pushed entry after =>
    refine { h with entries := pairwise_concat (R := (· < ·)) h.entries ?_ }
    intro b hb
    obtain ⟨last, hlast⟩ : ∃ last, t.entries.getLast? = some last :=
      Option.isSome_iff_exists.mp (by simpa using List.ne_nil_of_mem hb)
    have hle : b.id ≤ last.id := by
      obtain ⟨front, hfront⟩ := List.getLast?_eq_some_iff.mp hlast
      have hp := h.entries
      rw [hfront] at hb hp
      rcases List.mem_append.mp hb with hb | hb
      · exact Nat.le_of_lt ((List.pairwise_append.mp hp).2.2 b hb last (by simp))
      · rw [List.mem_singleton.mp hb]
    exact lt_of_le_of_lt hle (after last.id (by rw [lastEntryId, hlast]; rfl))
  | appended found same longer =>
    exact { h with entries := pairwise_modify (R := (· < ·)) h.entries fun _ _ => rfl }
  | replaced found same =>
    exact { h with entries := pairwise_set (R := (· < ·)) h.entries found same }
  | truncated point => exact { h with entries := h.entries.drop }
  | asked fresh => exact { h with permissions := pairwise_concat (R := (· ≠ ·)) h.permissions fresh }
  | resolved found =>
    exact { h with permissions := h.permissions.sublist (List.eraseIdx_sublist _ _) }
  | changed found same =>
    refine { h with activities := pairwise_set (R := (· ≠ ·)) h.activities found same, few := ?_ }
    rw [List.length_set]
    exact h.few
  | started fresh room =>
    refine { h with activities := pairwise_concat (R := (· ≠ ·)) h.activities fresh, few := ?_ }
    rw [List.length_append]
    exact room
  | @evicted activity ended i fresh found notRunning =>
    have hsub : (t.activities.eraseIdx i).Sublist t.activities := List.eraseIdx_sublist _ _
    refine { h with
      activities := pairwise_concat (R := (· ≠ ·)) (h.activities.sublist hsub) ?_, few := ?_ }
    · intro known hm
      exact fresh known (hsub.subset hm)
    · have hlen := List.length_eraseIdx_add_one (List.getElem?_eq_some_iff.mp found).1
      rw [List.length_append, List.length_singleton, hlen]
      exact h.few
  | beside entries permissions activities =>
    exact ⟨entries ▸ h.entries, permissions ▸ h.permissions, activities ▸ h.activities,
      activities ▸ h.few⟩

lemma WellFormed.apply {t : Transcript} (h : WellFormed t) (change : Change) :
    WellFormed (exec (apply change) t).2 := by
  have ho := apply_outcome change t
  rw [wp] at ho
  cases hr : (exec (Transcript.apply change) t).1 with
  | ok u =>
    rw [hr] at ho
    exact h.applied ho
  | error e =>
    rw [apply_error hr]
    exact h

lemma wellFormed_applyAll (changes : List Change) {t : Transcript} (h : WellFormed t) :
    WellFormed (applyAll changes t) := by
  induction changes generalizing t with
  | nil => exact h
  | cons change changes ih => exact ih (h.apply change)

lemma exec_push {t : Transcript} {entry : Entry} (ho : entry.overlongAnswers = false)
    (hlast : ∀ known ∈ t.entries, known.id < entry.id) :
    exec (apply (.push entry)) t = (.ok (), { t with entries := t.entries ++ [entry] }) := by
  have hfits : (t.lastEntryId.filter fun last => decide (entry.id ≤ last)) = none := by
    rw [Option.filter_eq_none_iff]
    intro last hl
    obtain ⟨known, hk, rfl⟩ := Option.map_eq_some_iff.mp hl
    simpa using hlast known (List.mem_of_getLast? hk)
  rw [apply, Change.overlongAnswers, ho]
  change exec (pushEntry entry) t = _
  have hget : exec (get : Applying Transcript) t = (.ok t, t) := rfl
  simp only [pushEntry, exec_bind, hget, hfits]
  rfl

lemma WellFormed.entry_iff {t : Transcript} (h : WellFormed t) {id : EntryId} {entry : Entry} :
    t.entry id = some entry ↔ entry ∈ t.entries ∧ entry.id = id := by
  rw [Transcript.entry, Option.bind_eq_some_iff]
  constructor
  · rintro ⟨i, hi, he⟩
    obtain ⟨found, hfound, hid⟩ := position_found hi
    rw [hfound] at he
    cases he
    exact ⟨List.mem_of_getElem? hfound, hid⟩
  · rintro ⟨hm, hid⟩
    obtain ⟨i, hi⟩ := List.mem_iff_getElem?.mp hm
    refine ⟨i, ?_, hi⟩
    rw [position, (binarySearchByKey_iff h.entries).mpr ⟨entry, hi, hid⟩]
    rfl

lemma WellFormed.truncate_entries {t : Transcript} (h : WellFormed t) (before : EntryId) :
    (exec (Transcript.apply (.truncate before)) t).2.entries =
      t.entries.filter fun entry => decide (before ≤ entry.id) := by
  have hfront : t.entries.Pairwise fun a b =>
      decide (b.id < before) = true → decide (a.id < before) = true := by
    refine h.entries.imp ?_
    intro a b hab hb
    exact decide_eq_true (hab.trans (of_decide_eq_true hb))
  have hdrop := drop_partitionPoint hfront
  have hfilter : (t.entries.filter fun entry => !decide (entry.id < before)) =
      t.entries.filter fun entry => decide (before ≤ entry.id) := by
    refine List.filter_congr fun entry _ => ?_
    rw [← decide_not, decide_eq_decide, Nat.not_lt]
  rw [hfilter] at hdrop
  have ht : wp (truncateBefore before) (fun _ t' => t'.entries =
      t.entries.drop (partitionPoint (fun entry : Entry => decide (entry.id < before)) t.entries))
      t := by
    rw [truncateBefore, wp_bind, wp_get, andThen_ok, wp_when]
    refine ⟨fun _ => rfl, fun hzero => ?_⟩
    have hkeep := Nat.eq_zero_of_not_pos fun hpos => hzero (decide_eq_true hpos)
    rw [hkeep, List.drop_zero]
  exact Eq.trans ht hdrop

lemma Applied.running {t t' : Transcript} {change : Change} (ha : Applied t change t')
    {a : Activity} (hm : a ∈ t.activities) (hr : a.isRunning = true) :
    a ∈ t'.activities ∨ ∃ a', change = .activity a' ∧ a'.callId = a.callId ∧ a' ∈ t'.activities := by
  cases ha with
  | @changed activity known i found same =>
    obtain ⟨j, hj⟩ := List.mem_iff_getElem?.mp hm
    by_cases hij : i = j
    · subst hij
      rw [found] at hj
      cases hj
      refine Or.inr ⟨activity, rfl, same.symm, ?_⟩
      exact List.mem_set (List.getElem?_eq_some_iff.mp found).1 activity
    · refine Or.inl (List.mem_iff_getElem?.mpr ⟨j, ?_⟩)
      rw [List.getElem?_set_ne hij]
      exact hj
  | started fresh room => exact Or.inl (List.mem_append_left _ hm)
  | @evicted activity ended i fresh found notRunning =>
    refine Or.inl (List.mem_append_left _ ?_)
    obtain ⟨j, hj⟩ := List.mem_iff_getElem?.mp hm
    have hij : j ≠ i := by
      rintro rfl
      rw [found] at hj
      cases hj
      exact absurd hr (by simp [notRunning])
    obtain ⟨hlt, rfl⟩ := List.getElem?_eq_some_iff.mp hj
    exact List.mem_eraseIdx_iff_getElem.mpr ⟨j, hlt, hij, rfl⟩
  | beside entries permissions activities => exact Or.inl (activities ▸ hm)
  | _ => exact Or.inl hm

theorem transcript_invariants (agent : String) (changes : List Change) (change : Change) :
    let t := applyAll changes (new agent)
    let applied := exec (Transcript.apply change) t
    t.entries.Pairwise (fun a b => a.id < b.id) ∧
    t.permissions.Pairwise (fun a b => a.id ≠ b.id) ∧
    t.activities.Pairwise (fun a b => a.callId ≠ b.callId) ∧
    t.activities.length ≤ maxActivities ∧
    (∀ e, applied.1 = .error e → applied.2 = t) ∧
    ∀ a ∈ t.activities, a.isRunning = true → a ∈ applied.2.activities ∨
      ∃ a', change = .activity a' ∧ a'.callId = a.callId ∧ a' ∈ applied.2.activities := by
  intro t applied
  have ht : WellFormed t := wellFormed_applyAll changes (wellFormed_new agent)
  refine ⟨ht.entries, ht.permissions, ht.activities, ht.few, fun e he => apply_error he, ?_⟩
  intro a hm hr
  have ho : Outcome t change applied.1 applied.2 := apply_outcome change t
  cases hres : applied.1 with
  | ok u =>
    rw [hres] at ho
    exact ho.running hm hr
  | error e => exact Or.inl (apply_error hres ▸ hm)

end Sheprd.Chat.Transcript
