import Sheprd.Chat.Wire

namespace Sheprd.Hub

open Sheprd.Lib Sheprd.Lib.Exec Sheprd.Chat

def subscribersQueue : ℕ := 1024

inductive Event where
  | reset (transcript : Transcript) (cursor : Cursor)
  | change (change : Change) (cursor : Cursor)
  | connection

structure State where
  cursor : Option Cursor
  transcript : Transcript
  connected : Bool

namespace State

def default : State := ⟨none, .new "", false⟩

def setConnected (connected : Bool) (s : State) : State × Option Event :=
  ({ s with connected }, if s.connected = connected then none else some .connection)

def receive (message : ServerMessage) (s : State) : Bool × State × Option Event :=
  match message with
  | .welcome _ _ _ => (true, s.setConnected true)
  | .snapshot cursor transcript =>
    (true, { s with cursor := some cursor, transcript }, some (.reset transcript cursor))
  | .change change cursor =>
    match exec (Transcript.apply change) s.transcript with
    | (.error _, transcript) => (false, { s with cursor := none, transcript }, none)
    | (.ok _, transcript) =>
      (true, { s with cursor := some cursor, transcript }, some (.change change cursor))
  | .ack _ _ => (true, s, none)
  | .bye _ => (false, s, none)

end State

structure Step where
  cursor : Cursor
  change : Change

inductive Message where
  | chatSnapshot (pane : String) (cursor : Option Cursor) (connected : Bool) (transcript : Transcript)
  | chatResumed (pane : String) (cursor : Cursor) (connected : Bool)
  | chatChanges (pane : String) (changes : List Step)
  | chatConnection (pane : String) (connected : Bool)
  | reload (pane : String)

def Step.isPicture (step : Step) : Bool :=
  match step.change with
  | .push entry =>
    match entry.kind with
    | .image _ _ => true
    | _ => false
  | _ => false

def splitAtPictures (steps : List Step) : List (List Step) :=
  steps.foldl (fun batches step =>
    match batches.getLast? with
    | some batch =>
      if step.isPicture then batches ++ [[step]] else batches.dropLast ++ [batch ++ [step]]
    | none => batches ++ [[step]]) []

structure Batch where
  reset : Option (Transcript × Cursor)
  steps : List Step
  connection : Bool

namespace Batch

def default : Batch := ⟨none, [], false⟩

def had (held : Option Cursor) (cursor : Cursor) : Bool :=
  held.any fun held => decide (held.epoch = cursor.epoch) && decide (cursor.seq ≤ held.seq)

def take (event : Event) (held : Option Cursor) (batch : Batch) : Batch × Option Cursor :=
  match event with
  | .reset transcript cursor =>
    ({ batch with steps := [], reset := some (transcript, cursor) }, some cursor)
  | .change change cursor =>
    if had held cursor then (batch, held)
    else ({ batch with steps := batch.steps ++ [⟨cursor, change⟩] }, some cursor)
  | .connection => ({ batch with connection := true }, held)

def messages (pane : String) (connected : Bool) (batch : Batch) : List Message :=
  (match batch.reset with
    | some (transcript, cursor) => [.chatSnapshot pane (some cursor) connected transcript]
    | none => []) ++
  (splitAtPictures batch.steps).map (.chatChanges pane) ++
  if batch.connection then [.chatConnection pane connected] else []

end Batch

def opening (pane : String) (since : Option Cursor) (base : Transcript × Option Cursor)
    (connected : Bool) : Message :=
  match base.2 with
  | some cursor =>
    if since = some cursor then .chatResumed pane cursor connected
    else .chatSnapshot pane (some cursor) connected base.1
  | none => .chatSnapshot pane none connected base.1

lemma splitAtPictures_flatten (steps : List Step) : (splitAtPictures steps).flatten = steps := by
  rw [splitAtPictures]
  induction steps using List.reverseRecOn with
  | nil => rfl
  | append_singleton steps step ih =>
    rw [List.foldl_append, List.foldl_cons, List.foldl_nil]
    generalize List.foldl _ [] steps = batches at ih ⊢
    split
    · rename_i batch hlast
      split
      · rw [List.flatten_append, ih]
        rfl
      · have hbatches : batches.dropLast ++ [batch] = batches :=
          List.dropLast_append_getLast? batch hlast
        rw [← hbatches, List.flatten_append] at ih
        rw [List.flatten_append, ← ih]
        simp
    · rw [List.flatten_append, ih]
      rfl

end Sheprd.Hub
