import Sheprd.Client.FrameReader
import Sheprd.Client.Session
import Sheprd.Protocol.SurfacePrefix

namespace Sheprd.Client

open Sheprd.Lib.Bincode Sheprd.Protocol

def maxInterleavedInputBytes : ℕ := 4 * 1024

structure ImageWriter where
  offset : ℕ
  started : Option ℕ

structure ImageSlot where
  reservedAt : ℕ
  writer : ImageWriter

structure PendingRequest where
  id : String
  method : Method

structure Command where
  bootId : String
  bytes : List UInt8
  inputPane : Option String
  request : Option PendingRequest
  image : Option ImageSlot
  written : ImageWriter

namespace Command

def started (c : Command) : Bool :=
  decide (0 < c.written.offset) || c.image.any fun i => decide (0 < i.writer.offset)

def inputAttempted (c : Command) : Bool := c.image.isNone && c.written.started.isSome

end Command

namespace FrameReader

def deadline (r : FrameReader) (timeout : ℕ) : Option ℕ := r.started.map fun started => started + timeout

def hasCurrentSurfacePrefix (r : FrameReader) (now timeout : ℕ) (snapshot : ClientShellSnapshot)
    (surface : PaneSurfaceFrame) : Bool :=
  (r.deadline timeout).any (fun due => decide (now < due)) && decide (4 < r.target) &&
    decide (r.bytes.length < r.target) && decide (4 ≤ r.bytes.length) &&
    Protocol.hasCurrentSurfacePrefix (r.bytes.drop 4) snapshot surface

end FrameReader

def destinationShown (snapshot : ClientShellSnapshot) (surface : PaneSurfaceFrame)
    (paneId : String) : Bool :=
  match snapshot.focusedTabId, snapshot.focusedWorkspaceId with
  | some tabId, some workspaceId =>
      snapshot.panes.any (fun pane => decide (pane.paneId = paneId ∧ pane.tabId = tabId ∧
        pane.workspaceId = workspaceId)) &&
      surface.panes.any fun pane => decide (pane.paneId = paneId)
  | _, _ => false

def Session.permitsPartialInput (s : Session) (windows : Bool) (command : Command)
    (reader : FrameReader) (now timeout : ℕ) : Bool :=
  if windows || s.pending.isSome || s.barrier.isSome || command.request.isSome ||
      command.image.isSome || decide (maxInterleavedInputBytes < command.bytes.length) then false
  else
    match s.snapshot, s.surface, command.inputPane with
    | some snapshot, some surface, some paneId =>
        if command.bootId ≠ snapshot.bootId ∨ surface.popup.isSome ∨
            snapshot.focusedPaneId ≠ some paneId ∨
            !reader.hasCurrentSurfacePrefix now timeout snapshot surface then false
        else destinationShown snapshot surface paneId
    | _, _, _ => false

lemma permits_no_request {s : Session} {windows : Bool} {command : Command} {reader : FrameReader}
    {now timeout : ℕ} (h : s.permitsPartialInput windows command reader now timeout = true) :
    command.request = none := by
  rw [Session.permitsPartialInput] at h
  split at h
  · exact absurd h (by simp)
  · rename_i hnot
    simp only [Bool.or_eq_true, not_or] at hnot
    simpa using hnot.1.1.2

theorem current_surface_prefix_sound (payload : List UInt8) (snapshot : ClientShellSnapshot)
    (surface : PaneSurfaceFrame) (n : ℕ)
    (h : Protocol.hasCurrentSurfacePrefix (payload.take n) snapshot surface = true) :
    (∀ m, n ≤ m →
      Protocol.hasCurrentSurfacePrefix (payload.take m) snapshot surface = true) ∧
    ∀ message, decodePayload Decode.serverMessage payload = .ok message →
      (∃ next, message = .paneSurface next ∧
        surfaceOutdated next snapshot (some surface) = false) ∨
      ∃ patch, message = .paneSurfacePatch patch ∧
        surface.validatePatch patch ≠ .error .patchIdentity := by
  constructor
  · intro m hnm
    exact prefix_grows payload snapshot surface hnm h
  · intro message hm
    rcases announced_identity h hm with ⟨next, rfl, hb, -, hr⟩ | ⟨patch, rfl, hp⟩
    · refine Or.inl ⟨next, rfl, ?_⟩
      simp [surfaceOutdated, hb, hr]
    · exact Or.inr ⟨patch, rfl, validatePatch_identity hp⟩

def blankSnapshot (bootId : String) (revision : UInt64) : ClientShellSnapshot :=
  ⟨bootId, revision, none, none, none, "", none, false, false, "", none, none, none, none, [], "",
    none, [], [], [], [], [], []⟩

def blankSurface (bootId : String) (projection revision : UInt64) : PaneSurfaceFrame :=
  ⟨bootId, projection, revision, ⟨[], 0, 0, none, [], []⟩, [], [], none, ⟨[], [], []⟩⟩

theorem current_surface_prefix_sound_patch :
    Protocol.hasCurrentSurfacePrefix ([19, 1, 98, 7, 1, 2, 0, 0, 0].take 6) (blankSnapshot "b" 7)
      (blankSurface "b" 7 1) = true ∧
    Protocol.hasCurrentSurfacePrefix ([19, 1, 98, 7, 1, 2, 0, 0, 0].take 9) (blankSnapshot "b" 7)
      (blankSurface "b" 7 1) = true :=
  ⟨by decide, (current_surface_prefix_sound [19, 1, 98, 7, 1, 2, 0, 0, 0] (blankSnapshot "b" 7)
    (blankSurface "b" 7 1) 6 (by decide)).1 9 (by decide)⟩

end Sheprd.Client
