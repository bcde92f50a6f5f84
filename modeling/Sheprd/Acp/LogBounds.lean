import Sheprd.Acp.Replica

namespace Sheprd.Acp

open Sheprd.Lib Sheprd.Lib.Exec Sheprd.Chat

section Log

def logWeight (log : List (ℕ × Change)) : ℕ := sumOf (fun entry => changeSize entry.2) log

def trimLogChecked (size : ℕ) : List (ℕ × Change) → ℕ → Option (List (ℕ × Change) × ℕ)
  | [], bytes => some ([], bytes)
  | old :: log, bytes =>
      if (old :: log).length = logCount ∨ logBytes < bytes + size then
        if changeSize old.2 ≤ bytes then trimLogChecked size log (bytes - changeSize old.2) else none
      else some (old :: log, bytes)

variable {size bytes : ℕ} {log : List (ℕ × Change)}

lemma logWeight_cons (entry : ℕ × Change) (log : List (ℕ × Change)) :
    logWeight (entry :: log) = changeSize entry.2 + logWeight log := rfl

lemma logWeight_concat (log : List (ℕ × Change)) (entry : ℕ × Change) :
    logWeight (log ++ [entry]) = logWeight log + changeSize entry.2 := by
  simp [logWeight, sumOf]

lemma trimLogChecked_eq (h : logWeight log = bytes) :
    trimLogChecked size log bytes = some (trimLog size log bytes) := by
  induction log generalizing bytes with
  | nil => rfl
  | cons old log ih =>
    rw [logWeight_cons] at h
    rw [trimLogChecked, trimLog]
    split
    · rw [if_pos (by omega)]
      exact ih (by omega)
    · rfl

lemma trimLog_weight (h : logWeight log = bytes) :
    logWeight (trimLog size log bytes).1 = (trimLog size log bytes).2 := by
  induction log generalizing bytes with
  | nil => exact h
  | cons old log ih =>
    rw [logWeight_cons] at h
    rw [trimLog]
    split
    · exact ih (by omega)
    · exact h

lemma trimLog_length (h : log.length ≤ logCount) : (trimLog size log bytes).1.length < logCount := by
  induction log generalizing bytes with
  | nil => exact (by decide : 0 < logCount)
  | cons old log ih =>
    rw [trimLog]
    split
    · exact ih (Nat.le_of_succ_le h)
    · rename_i hroom
      exact lt_of_le_of_ne h fun hfull => hroom (.inl hfull)

lemma trimLog_room (log : List (ℕ × Change)) (bytes : ℕ) :
    (trimLog size log bytes).1 = [] ∨ (trimLog size log bytes).2 + size ≤ logBytes := by
  induction log generalizing bytes with
  | nil => exact .inl rfl
  | cons old log ih =>
    rw [trimLog]
    split
    · exact ih _
    · rename_i hroom
      exact .inr (Nat.le_of_not_lt fun hover => hroom (.inr hover))

end Log

structure LogBounded (f : Feed) : Prop where
  weight : logWeight f.log = f.logBytes
  count : f.log.length ≤ logCount
  room : f.logBytes ≤ logBytes ∨ ∃ entry, f.log = [entry]

namespace LogBounded

variable {f f' : Feed}

lemma step (h : LogBounded f) (hs : Feed.Step f f') : LogBounded f' := by
  cases hs with
  | @change change transcript kept _ _ =>
    have hweight := @trimLog_weight (changeSize change) _ _ h.weight
    refine ⟨?_, ?_, ?_⟩
    · rw [Feed.changed, logWeight_concat, hweight]
    · rw [Feed.changed, List.length_append]
      exact trimLog_length h.count
    · obtain hnone | hroom := @trimLog_room (changeSize change) f.log f.logBytes
      · exact .inr ⟨(f.seq + 1, change), by rw [Feed.changed, hnone]; rfl⟩
      · exact .inl hroom
  | send _ => exact ⟨h.weight, h.count, h.room⟩
  | leave _ => exact ⟨h.weight, h.count, h.room⟩
  | attach _ _ => exact ⟨h.weight, h.count, h.room⟩
  | join _ _ _ => exact ⟨h.weight, h.count, h.room⟩

lemma steps (h : LogBounded f) (hs : Feed.Steps f f') : LogBounded f' := by
  induction hs with
  | refl => exact h
  | tail _ hstep ih => exact ih.step hstep

lemma new (config : Config) (epoch : Uuid) : LogBounded (Session.new config epoch).feed :=
  ⟨rfl, Nat.zero_le _, .inl (Nat.zero_le _)⟩

end LogBounded

lemma Feed.Logged.numbers {shown : List Transcript} {log : List (ℕ × Change)} {first last : ℕ}
    (h : Feed.Logged shown log first last) :
    log.map Prod.fst = List.range' (first + 1) log.length ∧ first + log.length = last := by
  induction h with
  | nil n => exact ⟨rfl, rfl⟩
  | cons _ _ ih =>
    obtain ⟨hnumbers, hlast⟩ := ih
    refine ⟨?_, ?_⟩
    · rw [List.map_cons, hnumbers, List.length_cons, List.range'_succ]
    · rw [List.length_cons]
      omega

section Keep

def WithinBudgets (kept : List Entry) : Prop :=
  sumOf entrySize kept ≤ maxTranscriptText ∧ sumOf entryMedia kept ≤ maxTranscriptMedia

def Within (kept : List Entry) : Prop := kept.length ≤ maxEntries ∧ WithinBudgets kept

def dropWhileOverChecked : List Entry → ℕ → ℕ → ℕ → Option ℕ
  | entry :: next :: rest, text, media, drop =>
      if maxTranscriptText < text ∨ maxTranscriptMedia < media then
        if entrySize entry ≤ text ∧ entryMedia entry ≤ media then
          dropWhileOverChecked (next :: rest) (text - entrySize entry) (media - entryMedia entry)
            (drop + 1)
        else none
      else some drop
  | _, _, _, drop => some drop

def keepFromChecked (entries : List Entry) : Option ℕ :=
  let drop := entries.length - maxEntries
  let kept := entries.drop drop
  dropWhileOverChecked kept (sumOf entrySize kept) (sumOf entryMedia kept) drop

lemma sumOf_cons {α : Type} (f : α → ℕ) (a : α) (l : List α) :
    sumOf f (a :: l) = f a + sumOf f l := rfl

lemma dropWhileOverChecked_eq {kept : List Entry} {text media : ℕ} (drop : ℕ)
    (ht : sumOf entrySize kept = text) (hm : sumOf entryMedia kept = media) :
    dropWhileOverChecked kept text media drop = some (dropWhileOver kept text media drop) := by
  induction kept generalizing text media drop with
  | nil => rfl
  | cons entry kept ih =>
    cases kept with
    | nil => rfl
    | cons next rest =>
      rw [sumOf_cons] at ht hm
      rw [dropWhileOverChecked, dropWhileOver]
      split
      · rw [if_pos ⟨by omega, by omega⟩]
        exact ih (drop + 1) (by omega) (by omega)
      · rfl

lemma dropWhileOver_first {kept : List Entry} {text media : ℕ} (drop : ℕ)
    (ht : sumOf entrySize kept = text) (hm : sumOf entryMedia kept = media) :
    ∃ n, dropWhileOver kept text media drop = drop + n ∧
      (WithinBudgets (kept.drop n) ∨ n + 1 = kept.length) ∧
      ∀ m < n, ¬WithinBudgets (kept.drop m) := by
  induction kept generalizing text media drop with
  | nil => exact ⟨0, rfl, .inl ⟨Nat.zero_le _, Nat.zero_le _⟩, fun m hm => absurd hm (by omega)⟩
  | cons entry kept ih =>
    cases kept with
    | nil => exact ⟨0, rfl, .inr rfl, fun m hm => absurd hm (by omega)⟩
    | cons next rest =>
      rw [dropWhileOver]
      split
      · rename_i hover
        have hsum := sumOf_cons entrySize entry (next :: rest)
        have hpictures := sumOf_cons entryMedia entry (next :: rest)
        obtain ⟨n, hn, hend, hbefore⟩ := @ih (text - entrySize entry) (media - entryMedia entry)
          (drop + 1) (by omega) (by omega)
        refine ⟨n + 1, by omega, ?_, ?_⟩
        · obtain hwithin | hlast := hend
          · exact .inl hwithin
          · exact .inr (by rw [List.length_cons]; omega)
        · intro m hlt
          cases m with
          | zero =>
            rintro ⟨htext, hmedia⟩
            rw [List.drop_zero] at htext hmedia
            omega
          | succ m => exact hbefore m (by omega)
      · rename_i hover
        refine ⟨0, rfl, .inl ⟨?_, ?_⟩, fun m hm => absurd hm (by omega)⟩
        · rw [List.drop_zero]
          omega
        · rw [List.drop_zero]
          omega

lemma keepFromChecked_eq (entries : List Entry) : keepFromChecked entries = some (keepFrom entries) :=
  dropWhileOverChecked_eq _ rfl rfl

lemma keepFrom_inside {entries : List Entry} (h : entries ≠ []) : keepFrom entries < entries.length := by
  by_cases hpos : 0 < keepFrom entries
  · exact keepFrom_lt hpos
  · have := List.length_pos_iff.mpr h
    omega

lemma keepFrom_first (entries : List Entry) :
    (Within (entries.drop (keepFrom entries)) ∨ keepFrom entries + 1 = entries.length) ∧
      ∀ m < keepFrom entries, ¬Within (entries.drop m) := by
  obtain ⟨n, hn, hend, hbefore⟩ := @dropWhileOver_first
    (entries.drop (entries.length - maxEntries)) _ _ (entries.length - maxEntries) rfl rfl
  have hkeep : keepFrom entries = entries.length - maxEntries + n := hn
  rw [List.drop_drop, List.length_drop] at hend
  refine ⟨?_, ?_⟩
  · rw [hkeep]
    obtain hwithin | hlast := hend
    · exact .inl ⟨by rw [List.length_drop]; omega, hwithin⟩
    · exact .inr (by omega)
  · intro m hm hwithin
    by_cases hmany : m < entries.length - maxEntries
    · have hcount := hwithin.1
      rw [List.length_drop] at hcount
      omega
    · refine hbefore (m - (entries.length - maxEntries)) (by omega) ?_
      rw [List.drop_drop, Nat.add_sub_cancel' (by omega)]
      exact hwithin.2

end Keep

theorem log_bounded (world : World) (decode : Wire.Decoders) (config : Config) (epoch : Uuid)
    (found : List (NoticeLevel × String)) (inputs : List Input) (changes : List Change) :
    let run := exec (runSession world decode found inputs >>= fun _ => emitAll world changes)
      (Session.new config epoch)
    let s := run.2
    run.1.isOk = true ∧
      (∃ first, s.log.map Prod.fst = List.range' (first + 1) s.log.length ∧
        first + s.log.length = s.seq) ∧
      logWeight s.log = s.logBytes ∧
      (∀ size, trimLogChecked size s.log s.logBytes = some (trimLog size s.log s.logBytes)) ∧
      s.log.length ≤ logCount ∧
      (s.logBytes ≤ logBytes ∨ ∃ entry, s.log = [entry] ∧ logBytes < changeSize entry.2) ∧
      ∀ entries, keepFromChecked entries = some (keepFrom entries) ∧
        (entries ≠ [] → keepFrom entries < entries.length) ∧
        (Within (entries.drop (keepFrom entries)) ∨ keepFrom entries + 1 = entries.length) ∧
        ∀ m < keepFrom entries, ¬Within (entries.drop m) := by
  intro run s
  have hruns : Runs Session.Goes
      (runSession world decode found inputs >>= fun _ => emitAll world changes)
      (Session.new config epoch) := by
    refine Runs.bind (runSession_runs world decode found inputs _) ?_
    intro _ s' _
    exact emitAll_runs world changes s'
  obtain ⟨hok, hsteps⟩ := hruns
  obtain ⟨first, hlog⟩ := ((valid_new config epoch).steps hsteps).log
  have hbounded : LogBounded s.feed := (LogBounded.new config epoch).steps hsteps
  refine ⟨hok, ⟨first, hlog.numbers⟩, hbounded.weight, fun size => trimLogChecked_eq hbounded.weight,
    hbounded.count, ?_, ?_⟩
  · obtain hroom | ⟨entry, hone⟩ := hbounded.room
    · exact .inl hroom
    · by_cases hsmall : s.logBytes ≤ logBytes
      · exact .inl hsmall
      · have hweight : logWeight [entry] = s.logBytes := hone ▸ hbounded.weight
        rw [logWeight_cons] at hweight
        exact .inr ⟨entry, hone, lt_of_lt_of_eq (Nat.lt_of_not_le hsmall) hweight.symm⟩
  · intro entries
    exact ⟨keepFromChecked_eq entries, keepFrom_inside, keepFrom_first entries⟩

end Sheprd.Acp
