import Sheprd.Lib.Run

namespace Sheprd.Desktop.StateFile

open Sheprd.Lib

structure Snapshot (T : Type) where
  number : ℕ
  value : T
  deriving DecidableEq

inductive Worker (T : Type) where
  | receiving
  | woken
  | writing (snapshot : Snapshot T)
  | ended
  deriving DecidableEq

structure Writer (T : Type) where
  pending : Option (Snapshot T)
  wake : Bool
  -- Saves that have stored their value and not yet sent their wake.
  sending : ℕ
  dropped : Bool
  worker : Worker T
  joined : Bool
  saved : List (Snapshot T)
  written : List (Snapshot T)
  deriving DecidableEq

variable {T : Type}

def start : Writer T where
  pending := none
  wake := false
  sending := 0
  dropped := false
  worker := .receiving
  joined := false
  saved := []
  written := []

inductive Act (T : Type) where
  | store (value : T)
  | trySend
  | finish
  | receive
  | take
  | write (error : Bool)
  | join

def step (writer : Writer T) : Act T → Option (Writer T)
  | .store value =>
    let snapshot := ⟨writer.saved.length, value⟩
    if writer.dropped then none
    else some { writer with
      pending := some snapshot
      sending := writer.sending + 1
      saved := writer.saved ++ [snapshot] }
  | .trySend =>
    -- A full slot refuses the second wake, which leaves the slot full all the same.
    if writer.sending = 0 then none
    else some { writer with sending := writer.sending - 1, wake := true }
  | .finish =>
    -- `finish` takes the writer by value, so that no save is under way.
    if writer.dropped ∨ writer.sending ≠ 0 then none else some { writer with dropped := true }
  | .receive =>
    match writer.worker with
    | .receiving =>
      if writer.wake then some { writer with wake := false, worker := .woken }
      else if writer.dropped then some { writer with worker := .ended }
      else none
    | _ => none
  | .take =>
    match writer.worker, writer.pending with
    | .woken, none => some { writer with worker := .receiving }
    | .woken, some snapshot =>
      some { writer with pending := none, worker := .writing snapshot }
    | _, _ => none
  | .write _ =>
    -- An error of the write is logged and changes nothing else.
    match writer.worker with
    | .writing snapshot =>
      some { writer with worker := .receiving, written := writer.written ++ [snapshot] }
    | _ => none
  | .join =>
    match writer.worker with
    | .ended =>
      if writer.dropped ∧ ¬writer.joined then some { writer with joined := true } else none
    | _ => none

def Step (writer : Writer T) (act : Act T) (writer' : Writer T) : Prop :=
  step writer act = some writer'

instance [DecidableEq T] (writer : Writer T) (act : Act T) (writer' : Writer T) :
    Decidable (Step writer act writer') :=
  inferInstanceAs (Decidable (_ = _))

def stored : Act T → Option T
  | .store value => some value
  | _ => none

def Worker.held : Worker T → List (Snapshot T)
  | .writing snapshot => [snapshot]
  | _ => []

@[simp] lemma held_receiving : (Worker.receiving : Worker T).held = [] := rfl
@[simp] lemma held_woken : (Worker.woken : Worker T).held = [] := rfl
@[simp] lemma held_writing (snapshot : Snapshot T) :
    (Worker.writing snapshot).held = [snapshot] := rfl
@[simp] lemma held_ended : (Worker.ended : Worker T).held = [] := rfl

def Writer.passed (writer : Writer T) : List (Snapshot T) :=
  writer.written ++ writer.worker.held ++ writer.pending.toList

inductive Moved (writer : Writer T) : Act T → Writer T → Prop where
  | store (value : T) : writer.dropped = false → Moved writer (.store value) { writer with
      pending := some ⟨writer.saved.length, value⟩
      sending := writer.sending + 1
      saved := writer.saved ++ [⟨writer.saved.length, value⟩] }
  | trySend : writer.sending ≠ 0 →
      Moved writer .trySend { writer with sending := writer.sending - 1, wake := true }
  | finish : writer.dropped = false → writer.sending = 0 →
      Moved writer .finish { writer with dropped := true }
  | wake : writer.worker = .receiving → writer.wake = true →
      Moved writer .receive { writer with wake := false, worker := .woken }
  | hangUp : writer.worker = .receiving → writer.wake = false → writer.dropped = true →
      Moved writer .receive { writer with worker := .ended }
  | none : writer.worker = .woken → writer.pending = none →
      Moved writer .take { writer with worker := .receiving }
  | some (snapshot : Snapshot T) : writer.worker = .woken → writer.pending = some snapshot →
      Moved writer .take { writer with pending := Option.none, worker := .writing snapshot }
  | write (error : Bool) (snapshot : Snapshot T) : writer.worker = .writing snapshot →
      Moved writer (.write error) { writer with
        worker := .receiving
        written := writer.written ++ [snapshot] }
  | join : writer.dropped = true → writer.worker = .ended → writer.joined = false →
      Moved writer .join { writer with joined := true }

lemma step_moved {writer writer' : Writer T} {act : Act T} (h : Step writer act writer') :
    Moved writer act writer' := by
  cases act with
  | store value =>
    simp only [Step, step] at h
    split at h
    · cases h
    · cases h
      exact .store value (by simpa using ‹¬writer.dropped = true›)
  | trySend =>
    simp only [Step, step] at h
    split at h
    · cases h
    · cases h
      exact .trySend ‹_›
  | finish =>
    simp only [Step, step] at h
    split at h
    · cases h
    · rename_i hopen
      cases h
      exact .finish (by simpa using (not_or.mp hopen).1) (by simpa using (not_or.mp hopen).2)
  | receive =>
    simp only [Step, step] at h
    split at h
    · rename_i hworker
      split at h
      · cases h
        exact .wake hworker ‹_›
      · rename_i hwake
        split at h
        · cases h
          exact .hangUp hworker (by simpa using hwake) ‹_›
        · cases h
    · cases h
  | take =>
    simp only [Step, step] at h
    split at h
    · cases h
      exact .none ‹_› ‹_›
    · cases h
      exact .some _ ‹_› ‹_›
    · cases h
  | write error =>
    simp only [Step, step] at h
    split at h
    · cases h
      exact .write error _ ‹_›
    · cases h
  | join =>
    simp only [Step, step] at h
    split at h
    · rename_i hworker
      split at h
      · rename_i hdropped
        cases h
        exact .join hdropped.1 hworker (by simpa using hdropped.2)
      · cases h
    · cases h

structure Kept (writer : Writer T) : Prop where
  numbered : writer.saved.map Snapshot.number = List.range writer.saved.length
  order : writer.passed.Sublist writer.saved
  last : writer.passed.getLast? = writer.saved.getLast?
  noted : writer.pending ≠ none →
    writer.wake = true ∨ writer.worker = .woken ∨ writer.sending ≠ 0
  idle : writer.dropped = true → writer.sending = 0
  ended : writer.worker = .ended → writer.dropped = true ∧ writer.wake = false
  joined : writer.joined = true → writer.worker = .ended

lemma start_kept : Kept (start : Writer T) where
  numbered := rfl
  order := .refl []
  last := rfl
  noted := by simp [start]
  idle := fun _ => rfl
  ended := by simp [start]
  joined := by simp [start]

lemma passed_store (writer : Writer T) (snapshot : Snapshot T) (sending : ℕ)
    (saved : List (Snapshot T)) :
    Writer.passed { writer with pending := some snapshot, sending := sending, saved := saved } =
      writer.written ++ writer.worker.held ++ [snapshot] := rfl

lemma dropped_sublist (writer : Writer T) :
    (writer.written ++ writer.worker.held).Sublist writer.passed :=
  List.sublist_append_left _ _

lemma moved_kept {writer writer' : Writer T} {act : Act T} (h : Kept writer)
    (hmoved : Moved writer act writer') : Kept writer' := by
  cases hmoved with
  | store value hopen =>
    refine ⟨?_, ?_, ?_, ?_, ?_, h.ended, h.joined⟩
    · simp [h.numbered, List.range_succ]
    · rw [passed_store]
      exact ((dropped_sublist writer).trans h.order).append (.refl _)
    · rw [passed_store, List.getLast?_concat, List.getLast?_concat]
    · intro _
      exact .inr (.inr (Nat.succ_ne_zero _))
    · intro hdropped
      simp [hopen] at hdropped
  | trySend hsending =>
    refine ⟨h.numbered, h.order, h.last, fun _ => .inl rfl, ?_, ?_, h.joined⟩
    · intro hdropped
      exact absurd (h.idle hdropped) hsending
    · intro hended
      exact absurd (h.idle (h.ended hended).1) hsending
  | finish hopen hsending =>
    refine ⟨h.numbered, h.order, h.last, h.noted, fun _ => hsending, ?_, h.joined⟩
    intro hended
    exact ⟨rfl, (h.ended hended).2⟩
  | wake hworker hwake =>
    refine ⟨h.numbered, ?_, ?_, fun _ => .inr (.inl rfl), h.idle, nofun, ?_⟩
    · simpa [Writer.passed, hworker] using h.order
    · simpa [Writer.passed, hworker] using h.last
    · intro hjoined
      exact absurd ((h.joined hjoined).symm.trans hworker) (by simp)
  | hangUp hworker hwake hdropped =>
    refine ⟨h.numbered, ?_, ?_, ?_, h.idle, fun _ => ⟨hdropped, hwake⟩, fun _ => rfl⟩
    · simpa [Writer.passed, hworker] using h.order
    · simpa [Writer.passed, hworker] using h.last
    · intro hpending
      simpa [hwake, hworker, h.idle hdropped] using h.noted hpending
  | none hworker hpending =>
    refine ⟨h.numbered, ?_, ?_, ?_, h.idle, nofun, ?_⟩
    · simpa [Writer.passed, hworker] using h.order
    · simpa [Writer.passed, hworker] using h.last
    · intro hsome
      exact absurd hpending hsome
    · intro hjoined
      exact absurd ((h.joined hjoined).symm.trans hworker) (by simp)
  | some snapshot hworker hpending =>
    refine ⟨h.numbered, ?_, ?_, fun hsome => absurd rfl hsome, h.idle, nofun, ?_⟩
    · simpa [Writer.passed, hworker, hpending] using h.order
    · simpa [Writer.passed, hworker, hpending] using h.last
    · intro hjoined
      exact absurd ((h.joined hjoined).symm.trans hworker) (by simp)
  | write error snapshot hworker =>
    refine ⟨h.numbered, ?_, ?_, ?_, h.idle, nofun, ?_⟩
    · simpa [Writer.passed, hworker] using h.order
    · simpa [Writer.passed, hworker] using h.last
    · intro hsome
      simpa [hworker] using h.noted hsome
    · intro hjoined
      exact absurd ((h.joined hjoined).symm.trans hworker) (by simp)
  | join hdropped hworker hjoined =>
    exact ⟨h.numbered, h.order, h.last, h.noted, h.idle, h.ended, fun _ => hworker⟩

lemma run_kept {writer : Writer T} {acts : List (Act T)} (h : Run Step start acts writer) :
    Kept writer :=
  h.invariant start_kept fun _ _ _ ht ha => moved_kept ht (step_moved ha)

lemma moved_saved {writer writer' : Writer T} {act : Act T} (h : Moved writer act writer') :
    writer'.saved.map Snapshot.value =
      writer.saved.map Snapshot.value ++ (stored act).toList := by
  cases h <;> simp [stored]

lemma run_saved {writer : Writer T} {acts : List (Act T)} (h : Run Step start acts writer) :
    writer.saved.map Snapshot.value = acts.filterMap stored := by
  induction h with
  | nil => rfl
  | snoc _ ha ih =>
    rw [moved_saved (step_moved ha), ih, List.filterMap_append]
    congr 1

def Writer.left (writer : Writer T) : ℕ :=
  let wakes := if writer.wake then 3 else 0
  match writer.worker with
  | .receiving => wakes + 2
  | .woken => wakes + 4
  | .writing _ => wakes + 3
  | .ended => if writer.joined then 0 else 1

lemma moved_dropped {writer writer' : Writer T} {act : Act T} (h : Kept writer)
    (hdropped : writer.dropped = true) (hmoved : Moved writer act writer') :
    writer'.dropped = true ∧ writer'.left < writer.left := by
  have hidle := h.idle hdropped
  cases hmoved with
  | store value hopen => simp [hdropped] at hopen
  | trySend hsending => exact absurd hidle hsending
  | finish hopen _ => simp [hdropped] at hopen
  | wake hworker hwake => simp [Writer.left, hworker, hwake, hdropped]
  | hangUp hworker hwake _ =>
    refine ⟨hdropped, ?_⟩
    simp only [Writer.left, hworker, hwake]
    split <;> simp
  | none hworker hpending => simp [Writer.left, hworker, hdropped]
  | some snapshot hworker hpending => simp [Writer.left, hworker, hdropped]
  | write error snapshot hworker => simp [Writer.left, hworker, hdropped]
  | join _ hworker hjoined => simp [Writer.left, hworker, hjoined, hdropped]

lemma left_le (writer : Writer T) : writer.left ≤ 7 := by
  simp only [Writer.left]
  split <;> split <;> simp

lemma dropped_run {writer writer' : Writer T} {acts : List (Act T)} (h : Kept writer)
    (hdropped : writer.dropped = true) (hrun : Run Step writer acts writer') :
    Kept writer' ∧ writer'.dropped = true ∧ acts.length + writer'.left ≤ writer.left := by
  induction hrun with
  | nil => exact ⟨h, hdropped, by simp⟩
  | snoc _ ha ih =>
    obtain ⟨hkept, hdropped, hleft⟩ := ih
    have hmoved := step_moved ha
    obtain ⟨hdropped', hless⟩ := moved_dropped hkept hdropped hmoved
    refine ⟨moved_kept hkept hmoved, hdropped', ?_⟩
    simp only [List.length_append, List.length_singleton]
    omega

lemma dropped_moves {writer : Writer T} (hdropped : writer.dropped = true)
    (hjoined : writer.joined = false) : ∃ act writer', Step writer act writer' := by
  cases hworker : writer.worker with
  | receiving =>
    refine ⟨.receive, ?_⟩
    cases hwake : writer.wake <;> simp [Step, step, hworker, hwake, hdropped]
  | woken =>
    refine ⟨.take, ?_⟩
    cases hpending : writer.pending <;> simp [Step, step, hworker, hpending]
  | writing snapshot =>
    refine ⟨.write false, ?_⟩
    simp [Step, step, hworker]
  | ended =>
    refine ⟨.join, ?_⟩
    simp [Step, step, hworker, hdropped, hjoined]

lemma kept_joined {writer : Writer T} (h : Kept writer) (hjoined : writer.joined = true) :
    writer.written.getLast? = writer.saved.getLast? := by
  have hended := h.joined hjoined
  obtain ⟨hdropped, hwake⟩ := h.ended hended
  have hpending : writer.pending = none := by
    by_contra hsome
    simpa [hwake, hended, h.idle hdropped] using h.noted hsome
  simpa [Writer.passed, hended, hpending] using h.last

lemma numbered_written {writer : Writer T} (h : Kept writer) :
    (writer.written.map Snapshot.number).Pairwise (· < ·) := by
  have horder : writer.written.Sublist writer.saved := by
    refine List.Sublist.trans ?_ h.order
    rw [Writer.passed, List.append_assoc]
    exact List.sublist_append_left _ _
  refine List.Pairwise.sublist (horder.map _) ?_
  rw [h.numbered]
  exact List.pairwise_lt_range

theorem saves_written {writer : Writer T} {acts : List (Act T)}
    (h : Run Step start acts writer) :
    writer.saved.map Snapshot.value = acts.filterMap stored ∧
      writer.saved.map Snapshot.number = List.range writer.saved.length ∧
      writer.written.Sublist writer.saved ∧
      (writer.written.map Snapshot.number).Pairwise (· < ·) ∧
      (writer.pending ≠ none →
        writer.wake = true ∨ writer.worker = .woken ∨ writer.sending ≠ 0) ∧
      (writer.joined = true → writer.written.getLast? = writer.saved.getLast?) ∧
      (writer.dropped = true → writer.joined = false →
        ∃ act writer', Step writer act writer') ∧
      ∀ acts' writer', writer.dropped = true → Run Step writer acts' writer' →
        acts'.length ≤ 7 := by
  have hkept := run_kept h
  refine ⟨run_saved h, hkept.numbered, ?_, numbered_written hkept, hkept.noted,
    kept_joined hkept, dropped_moves, ?_⟩
  · refine List.Sublist.trans ?_ hkept.order
    rw [Writer.passed, List.append_assoc]
    exact List.sublist_append_left _ _
  · intro acts' writer' hdropped hrun
    have hleft := (dropped_run hkept hdropped hrun).2.2
    have hseven := left_le writer
    omega

def fourSaves : List (Act ℕ) :=
  [.store 5, .trySend, .receive, .take, .store 6, .trySend, .write true, .receive, .store 7,
    .trySend, .take, .write false, .store 7, .trySend, .finish, .receive, .take, .write false,
    .receive, .join]

lemma saves_written_four :
    ∃ writer : Writer ℕ, Run Step start fourSaves writer ∧ writer.joined = true ∧
      writer.written.getLast? = some ⟨3, 7⟩ ∧ writer.written.Sublist writer.saved := by
  have hexec : Run.exec (fun _ _ => true) step (start : Writer ℕ) fourSaves =
      some { (start : Writer ℕ) with
        dropped := true
        worker := .ended
        joined := true
        saved := [⟨0, 5⟩, ⟨1, 6⟩, ⟨2, 7⟩, ⟨3, 7⟩]
        written := [⟨0, 5⟩, ⟨2, 7⟩, ⟨3, 7⟩] } := by
    decide
  have hrun : Run Step start fourSaves _ := (Run.of_exec hexec).mono fun _ _ _ h => h.2
  obtain ⟨-, -, hwritten, -, -, hjoined, -⟩ := saves_written hrun
  exact ⟨_, hrun, rfl, hjoined rfl, hwritten⟩

end Sheprd.Desktop.StateFile
