import Sheprd.Lib.Tally
import Sheprd.Terminal.CopySeen

namespace Sheprd.Terminal.Copying

open Lib
open Selecting (Point TextRange)

def Deed.settled : Deed → Option (Key × Bool)
  | .ran key _ => if key.command.waits then some (key, true) else none
  | .answered key _ => some (key, true)
  | .dropped key _ => some (key, false)
  | .refreshed _ | .left => none

def Event.typed : Event → Option Command
  | .key command _ => if command.waits then some command else none
  | _ => none

def Key.pending (key : Key) : List Key := if key.command.waits then [key] else []

namespace CopyMode

variable {mode : CopyMode} {pane : PaneSurfacePane}

lemma command_idle {command : Command} (h : mode.busy = false) :
    mode.command command pane = mode.run pane command := by
  cases command <;> simp [CopyMode.command, run, h]

lemma wait_eq {command : Command} (h : command.waits = true) :
    mode.wait command = (.nothing, if mode.queued.length < maxQueued then
      { mode with queued := mode.queued ++ [command] } else mode) := by
  cases command <;> first | rfl | cases h

lemma command_busy {command : Command} (h : mode.busy = true) (hwaits : command.waits = true) :
    mode.command command pane = (.nothing, if mode.queued.length < maxQueued then
      { mode with queued := mode.queued ++ [command] } else mode) := by
  rw [← wait_eq hwaits]
  cases command with
  | prompt direction => cases hwaits
  | _ => exact if_pos h

lemma busy_eq_false : mode.busy = false ↔ mode.inFlight = none ∧ mode.retry = none := by
  simp [busy]

lemma answer_other {request : String} {answer : Answer}
    (h : mode.inFlight.map InFlight.request ≠ some request) :
    mode.answer request answer = (.ok false, mode) := by
  rw [CopyMode.answer]
  split
  · rfl
  · rename_i sent hsent
    rw [hsent] at h
    exact if_neg fun hrequest => h (congrArg some hrequest)

lemma answer_own {sent : InFlight} {out : Option Command} (answer : Answer)
    (h : mode.inFlight = some sent) (horigin : sent.origin = mode.cursor)
    (haims : Aims mode.found out sent.operation) :
    Applied { mode with inFlight := none } sent out answer (mode.answer sent.request answer) := by
  simp only [CopyMode.answer, h, if_pos]
  exact applied_applied answer horigin haims

lemma Aims.waits {found : Option Found} {command : Command} {operation : Operation}
    (h : Aims found (some command) operation) : command.waits = true := by
  cases h <;> rfl

end CopyMode

namespace Session

variable {s : Session} {key : Key} {first : Seen} {typed : List Command}

def seen (s : Session) : Seen := { s.mode.shows with ended := s.ended, copied := s.copied }

def settled (s : Session) : List (Key × Bool) := s.deeds.filterMap Deed.settled

def effects (s : Session) : List Key := inOrder id s.settled

def Carried (s : Session) (range : TextRange) : Option ℕ → Prop
  | none => ∃ lastCol, s.mode.selection lastCol = some range
  | some contentRevision => ∃ result ∈ s.heard,
      result.contentRevision = contentRevision ∧ range ∈ result.found

structure Sane (first : Seen) (typed : List Command) (s : Session) : Prop where
  asked : s.asked = s.mode.inFlight.toList.map InFlight.request
  apart : s.mode.inFlight.isSome = true → s.mode.retry = none
  origin : ∀ sent, s.mode.inFlight = some sent → sent.origin = s.mode.cursor
  flight : ∀ sent, s.mode.inFlight = some sent →
    CopyMode.Aims s.mode.found (s.out.map Key.command) sent.operation
  retry : ∀ operation refused, s.mode.retry = some (operation, refused) →
    CopyMode.Aims s.mode.found (s.out.map Key.command) operation
  queued : s.mode.queued = s.waiting.map Key.command
  fits : s.waiting.length ≤ maxQueued
  typed : s.typed.map Key.command = typed
  numbered : s.typed.map Key.number = List.range s.typed.length
  waits : ∀ key ∈ s.typed, key.command.waits = true
  found : ∀ found, s.mode.found = some found → ∃ result ∈ s.heard,
    result.contentRevision = found.contentRevision ∧ result.found = found.found
  copied : ∀ range contentRevision, s.copied = some (range, contentRevision) →
    s.ended = true ∧ s.Carried range contentRevision
  shown : Shown first s.deeds s.seen
  runs : s.hung = false

abbrev Tallied (s : Session) (pending : List Key) : Prop := Tally id s.typed s.settled pending

structure Sound (first : Seen) (typed : List Command) (s : Session) : Prop where
  sane : Sane first typed s
  tallied : Tallied s (s.out.toList ++ s.waiting)
  idle : s.mode.busy = false → s.out = none

lemma Sane.no_copy (h : Sane first typed s) (hopen : s.ended = false) : s.copied = none := by
  cases hcopied : s.copied with
  | none => rfl
  | some copied =>
    have hended := (h.copied copied.1 copied.2 hcopied).1
    rw [hopen] at hended
    cases hended

lemma Sane.seen_open (h : Sane first typed s) (hopen : s.ended = false) :
    s.seen = s.mode.shows := by
  simp [seen, hopen, h.no_copy hopen, CopyMode.shows]

lemma settled_log (deed : Deed) : (s.log deed).settled = s.settled ++ deed.settled.toList := by
  cases hdeed : deed.settled <;> simp [settled, log, hdeed]

lemma settled_drops (keys : List Key) (fate : Fate) :
    (keys.map fun key => Deed.dropped key fate).filterMap Deed.settled =
      keys.map fun key => (key, false) := by
  induction keys with
  | nil => rfl
  | cons key keys ih => simp [Deed.settled, ih]

lemma tallied_ran {pane : PaneSurfacePane} (ht : Tallied s (key.pending ++ s.waiting)) :
    Tally id s.typed (s.settled ++ (Deed.ran key pane).settled.toList) s.waiting := by
  cases hwaits : key.command.waits with
  | true =>
    have htally : Tally id s.typed s.settled (key :: s.waiting) := by
      simpa [Key.pending, hwaits] using ht
    simpa [Deed.settled, hwaits] using htally.settle true
  | false => simpa [Deed.settled, hwaits, Key.pending] using ht

lemma sound_ran {pane : PaneSurfacePane} (h : Sane first typed (s.log (.ran key pane)))
    (hout : s.out = none) (ht : Tallied s (key.pending ++ s.waiting)) :
    Sound first typed (s.log (.ran key pane)) := by
  refine ⟨h, ?_, fun _ => hout⟩
  have hout : (s.log (.ran key pane)).out = none := hout
  rw [Tallied, settled_log, hout]
  exact tallied_ran ht

lemma sound_drop {fate : Fate} (h : Sane first typed (s.drop fate))
    (ht : Tallied s (s.out.toList ++ s.waiting)) : Sound first typed (s.drop fate) := by
  rw [← List.append_nil (s.out.toList ++ s.waiting)] at ht
  refine ⟨h, ?_, fun _ => rfl⟩
  have hsettled : (s.drop fate).settled =
      s.settled ++ (s.out.toList ++ s.waiting).map fun key => (key, false) := by
    rw [settled, drop, List.filterMap_append, settled_drops]
    rfl
  rw [Tallied, hsettled]
  exact ht.settleAll false

lemma sound_send {operation : Operation} (h : Sane first typed s)
    (ht : Tallied s (s.out.toList ++ s.waiting)) (hflight : s.mode.inFlight = none)
    (hopen : s.ended = false) (haims : CopyMode.Aims s.mode.found (s.out.map Key.command) operation)
    (contentRevision : ℕ) {sending : Sending} (hlinked : sending ≠ .unconnected) :
    Sound first typed (s.sendCopyRequest (s.mode.request contentRevision operation) sending) ∧
      ((s.sendCopyRequest (s.mode.request contentRevision operation) sending).mode.busy = true ∨
        (s.sendCopyRequest (s.mode.request contentRevision operation) sending).waiting = []) := by
  have hasked : s.asked = [] := by simp [h.asked, hflight]
  have hcopy := h.no_copy hopen
  have hnone range revision (hcopied : s.copied = some (range, revision)) : False := by
    simp [hcopy] at hcopied
  cases sending with
  | unconnected => exact absurd rfl hlinked
  | failed =>
    refine ⟨sound_drop ?_ ht, .inr rfl⟩
    exact { h with
      asked := hasked
      apart := fun _ => rfl
      origin := fun sent hsent => by cases hsent
      flight := fun sent hsent => by cases hsent
      retry := fun operation refused hretry => by cases hretry
      queued := rfl
      fits := Nat.zero_le _
      copied := fun range revision hcopied => (hnone range revision hcopied).elim
      shown := h.shown.drops _ _ }
  | sent id =>
    rw [sendCopyRequest, CopyMode.sent_request haims]
    refine ⟨⟨{ h with
      asked := by simp [hasked]
      apart := fun _ => rfl
      origin := fun sent hsent => by
        obtain rfl := Option.some.inj hsent
        rfl
      flight := fun sent hsent => by
        obtain rfl := Option.some.inj hsent
        exact haims
      retry := fun operation refused hretry => by cases hretry
      copied := fun range revision hcopied => (hnone range revision hcopied).elim }, ht, ?_⟩,
      .inl rfl⟩
    intro hidle
    cases hidle

lemma shown_open (hopen : s.ended = false) (hcopy : s.copied = none)
    (h : Shown first s.deeds s.mode.shows) : Shown first s.deeds s.seen := by
  simpa [seen, hopen, hcopy, CopyMode.shows] using h

lemma follow_send {pane : PaneSurfacePane} {request : Request} (mode : CopyMode)
    (hrefresh : request.isRefresh = false) {sending : Sending} (hlinked : sending ≠ .unconnected) :
    s.follow key pane sending mode (.send request) =
      { s with mode := mode, out := some key }.sendCopyRequest request sending := by
  cases sending with
  | unconnected => exact absurd rfl hlinked
  | _ => simp [follow, hrefresh]

lemma sound_run (h : Sane first typed s) (hopen : s.ended = false) (hidle : s.mode.busy = false)
    (hout : s.out = none) (hfits : s.waiting.length < maxQueued)
    (ht : Tallied s (key.pending ++ s.waiting))
    (hprompt : ∀ direction, key.command ≠ .prompt direction) (pane : PaneSurfacePane)
    {sending : Sending} (hlinked : sending ≠ .unconnected) :
    Sound first typed (s.copyModeCommand (some pane) key sending) ∧
      ((s.copyModeCommand (some pane) key sending).mode.busy = true ∨
        (s.copyModeCommand (some pane) key sending).waiting.length ≤ s.waiting.length) := by
  obtain ⟨hflight, hretry⟩ := CopyMode.busy_eq_false.mp hidle
  have hcopy := h.no_copy hopen
  have hnone range revision (hcopied : s.copied = some (range, revision)) : False := by
    simp [hcopy] at hcopied
  have hshown := h.shown
  rw [h.seen_open hopen] at hshown
  rw [copyModeCommand, CopyMode.command_idle hidle]
  have hran : CopyMode.Ran s.mode pane key.command (s.mode.run pane key.command) :=
    CopyMode.run_ran hprompt
  have hnext := hshown.ran key pane
  generalize hcommand : key.command = command at hran hnext
  generalize s.mode.run pane command = result at hran ⊢
  cases hran with
  | nothing hdirect hrun =>
    have hnext := hnext hdirect
    rw [hrun] at hnext
    simp only [follow, hidle, Bool.false_eq_true, if_false]
    exact ⟨sound_ran { h with shown := shown_open hopen hcopy hnext } hout ht, .inr le_rfl⟩
  | moved cursor mark found hfound hdirect hrun =>
    have hnext := hnext hdirect
    rw [hrun] at hnext
    refine ⟨sound_ran ?_ hout ht, .inr le_rfl⟩
    exact { h with
      origin := fun sent hsent => by cases hflight.symm.trans hsent
      flight := fun sent hsent => by cases hflight.symm.trans hsent
      retry := fun operation refused hsome => by cases hretry.symm.trans hsome
      found := fun old hold => by
        rcases hfound with rfl | rfl
        · exact h.found old hold
        · cases hold
      copied := fun range revision hcopied => (hnone range revision hcopied).elim
      shown := shown_open hopen hcopy hnext }
  | send operation haims =>
    have hwaits : key.command.waits = true := hcommand ▸ haims.waits
    have hrefresh := CopyMode.request_isRefresh haims pane.contentRevision
    dsimp only
    rw [follow_send s.mode hrefresh hlinked]
    have hsane : Sane first typed { s with out := some key } :=
      { h with
        flight := fun sent hsent => by cases hflight.symm.trans hsent
        retry := fun operation refused hsome => by cases hretry.symm.trans hsome }
    have htally : Tallied s (key :: s.waiting) := by simpa [Key.pending, hwaits] using ht
    rw [← hcommand] at haims
    have hsent := sound_send hsane htally hflight hopen haims pane.contentRevision hlinked
    refine ⟨hsent.1, hsent.2.imp_right fun hnil => ?_⟩
    exact (congrArg List.length hnil).trans_le (Nat.zero_le _)
  | refresh hcopying operation haims =>
    have hkey : key.command = .copy := hcommand.trans hcopying
    have hrefresh := CopyMode.request_isRefresh haims pane.contentRevision
    simp only [follow, hrefresh, Option.isNone_none, if_true]
    have hsane : Sane first typed { s with
        mode := { s.mode with queued := .copy :: s.mode.queued }, waiting := key :: s.waiting } :=
      { h with
        flight := fun sent hsent => by cases hflight.symm.trans hsent
        retry := fun operation refused hsome => by cases hretry.symm.trans hsome
        queued := by simp [h.queued, hkey]
        fits := hfits
        copied := fun range revision hcopied => (hnone range revision hcopied).elim }
    have htally : Tallied s (s.out.toList ++ key :: s.waiting) := by
      simpa [hout, Key.pending, hkey, Command.waits] using ht
    have haims : CopyMode.Aims s.mode.found (s.out.map Key.command) operation := by
      rw [hout]
      exact haims
    have hsent := sound_send hsane htally hflight hopen haims pane.contentRevision hlinked
    refine ⟨hsent.1, hsent.2.imp_right fun hnil => ?_⟩
    exact (congrArg List.length hnil).trans_le (Nat.zero_le _)
  | copied range contentRevision hcarries hdirect hrun =>
    have hnext := hnext hdirect
    rw [hrun] at hnext
    refine ⟨sound_ran ?_ hout ht, .inr le_rfl⟩
    exact { h with
      copied := fun range' revision hcopied => by
        cases hcopied
        refine ⟨rfl, ?_⟩
        cases contentRevision with
        | none => exact hcarries
        | some contentRevision =>
          obtain ⟨found, hfound, rfl, hrange⟩ := hcarries
          obtain ⟨result, hheard, hrevision, hresult⟩ := h.found found hfound
          exact ⟨result, hheard, hrevision, hresult ▸ hrange⟩
      shown := hnext }
  | exit hdirect hrun =>
    have hnext := hnext hdirect
    rw [hrun] at hnext
    refine ⟨sound_ran ?_ hout ht, .inr le_rfl⟩
    exact { h with
      copied := fun range revision hcopied => (hnone range revision hcopied).elim
      shown := by simpa [log, seen, hcopy, CopyMode.shows] using hnext }

def Rested (s : Session) : Prop := s.ended = true ∨ s.mode.busy = true ∨ s.waiting = []

lemma nextQueued_busy (hbusy : s.mode.busy = true) : s.mode.nextQueued = (none, s.mode) := by
  simp [CopyMode.nextQueued, hbusy]

lemma nextQueued_idle (h : Sane first typed s) (hidle : s.mode.busy = false) :
    s.mode.nextQueued = (s.waiting.head?.map Key.command,
      { s.mode with queued := s.waiting.tail.map Key.command }) := by
  simp [CopyMode.nextQueued, hidle, h.queued, List.head?_map]

lemma nextQueued_none (h : Sane first typed s) (hrest : s.mode.busy = true ∨ s.waiting = []) :
    s.mode.nextQueued.1 = none := by
  cases hbusy : s.mode.busy with
  | true => rw [nextQueued_busy hbusy]
  | false =>
    rw [nextQueued_idle h hbusy, hrest.resolve_left (by simp [hbusy])]
    rfl

lemma drain_rested (h : Sane first typed s) (hrest : s.mode.busy = true ∨ s.waiting = [])
    (shown : Option PaneSurfacePane) (sending : Sending) (fuel : ℕ) :
    drain shown sending fuel s = s := by
  have hnext := nextQueued_none h hrest
  cases fuel with
  | zero => simp [drain, hnext]
  | succ fuel =>
    rw [drain]
    split
    · rfl
    · split
      · rfl
      · rename_i command mode hsome
        rw [hsome] at hnext
        cases hnext

lemma waits_prompt {command : Command} (hwaits : command.waits = true)
    (direction : SearchDirection) : command ≠ .prompt direction := by
  rintro rfl
  cases hwaits

lemma sound_drain (fuel : ℕ) (h : Sound first typed s)
    (hfuel : s.mode.busy = true ∨ s.waiting.length ≤ fuel) (pane : PaneSurfacePane)
    {sending : Sending} (hlinked : sending ≠ .unconnected) :
    Sound first typed (drain (some pane) sending fuel s) ∧
      Rested (drain (some pane) sending fuel s) := by
  induction fuel generalizing s with
  | zero =>
    have hrest : s.mode.busy = true ∨ s.waiting = [] :=
      hfuel.imp_right fun hlength => List.eq_nil_of_length_eq_zero (Nat.le_zero.mp hlength)
    rw [drain_rested h.sane hrest]
    exact ⟨h, .inr hrest⟩
  | succ fuel ih =>
    rw [drain]
    split
    · rename_i hended
      exact ⟨h, .inl hended⟩
    · rename_i hopen
      rw [Bool.not_eq_true] at hopen
      cases hbusy : s.mode.busy with
      | true =>
        rw [nextQueued_busy hbusy]
        exact ⟨h, .inr (.inl hbusy)⟩
      | false =>
        rw [nextQueued_idle h.sane hbusy]
        cases hwaiting : s.waiting with
        | nil =>
          simp only [List.head?_nil, Option.map_none]
          exact ⟨h, .inr (.inr hwaiting)⟩
        | cons key rest =>
          have hfits := h.sane.fits
          have hlength := hfuel.resolve_left (by simp [hbusy])
          rw [hwaiting, List.length_cons] at hfits hlength
          have hout := h.idle hbusy
          have htally := h.tallied
          rw [hout, hwaiting] at htally
          have hkey : key ∈ s.typed := htally.ordered.subset (by simp)
          have hwaits := h.sane.waits key hkey
          have hpopped : Sane first typed { s with
              mode := { s.mode with queued := rest.map Key.command }, waiting := rest } :=
            { h.sane with
              queued := rfl
              fits := Nat.le_of_succ_le hfits
              copied := fun range revision hcopied => by
                cases (h.sane.no_copy hopen).symm.trans hcopied }
          have hpending : Tallied s (key.pending ++ rest) := by
            simpa [Key.pending, hwaits] using htally
          obtain ⟨hsound, hrest⟩ := sound_run hpopped hopen hbusy hout hfits hpending
            (waits_prompt hwaits) pane hlinked
          exact ih hsound (hrest.imp_right fun hle => hle.trans (Nat.le_of_succ_le_succ hlength))

lemma sane_typed (h : Sane first typed s) {command : Command} (hwaits : command.waits = true) :
    Sane first (typed ++ [command]) { s with typed := s.typed ++ [⟨s.typed.length, command⟩] } :=
  { h with
    typed := by simp [h.typed]
    numbered := by simp [h.numbered, List.range_succ]
    waits := fun key hkey => by
      rcases List.mem_append.mp hkey with hkey | hkey
      · exact h.waits key hkey
      · obtain rfl := List.mem_singleton.mp hkey
        exact hwaits }

lemma sound_idle (h : Sound first typed s) (hopen : s.ended = false) (hrest : Rested s)
    (hidle : s.mode.busy = false) {typed' : List Command} {keys : List Key}
    (hkeys : Sane first typed' { s with typed := keys })
    (ht : Tally id keys s.settled (key.pending ++ s.waiting))
    (hprompt : ∀ direction, key.command ≠ .prompt direction) (pane : PaneSurfacePane)
    {sending : Sending} (hlinked : sending ≠ .unconnected) :
    Sound first typed' ({ s with typed := keys }.copyModeCommand (some pane) key sending) ∧
      Rested ({ s with typed := keys }.copyModeCommand (some pane) key sending) := by
  have hwaiting : s.waiting = [] := by simpa [Rested, hopen, hidle] using hrest
  obtain ⟨hsound, hrest⟩ := sound_run hkeys hopen hidle (h.idle hidle)
    (by simp [hwaiting, maxQueued]) ht hprompt pane hlinked
  refine ⟨hsound, .inr (hrest.imp_right fun hle => ?_)⟩
  simpa [hwaiting] using hle

lemma sound_queued (h : Sound first typed s) (hopen : s.ended = false) (hbusy : s.mode.busy = true)
    {command : Command} (hwaits : command.waits = true) (pane : PaneSurfacePane)
    (sending : Sending) :
    let key : Key := ⟨s.typed.length, command⟩
    let next := { s with typed := s.typed ++ [key] }.copyModeCommand (some pane) key sending
    Sound first (typed ++ [command]) next ∧ Rested next := by
  have hcopy := h.sane.no_copy hopen
  have htyped := sane_typed h.sane hwaits
  simp only [copyModeCommand, CopyMode.command_busy hbusy hwaits, follow, hbusy, if_true]
  split
  · rename_i hlength
    rw [h.sane.queued, List.length_map] at hlength
    refine ⟨⟨{ htyped with
      queued := by simp [h.sane.queued]
      fits := by simpa using hlength
      copied := fun range revision hcopied => by cases hcopy.symm.trans hcopied }, ?_, ?_⟩,
      .inr (.inl hbusy)⟩
    · have htally := h.tallied.arrive ⟨s.typed.length, command⟩
      rw [List.append_assoc] at htally
      exact htally
    · intro hidle
      cases hbusy.symm.trans hidle
  · refine ⟨⟨{ htyped with shown := htyped.shown.dropped _ _ }, ?_, ?_⟩, .inr (.inl hbusy)⟩
    · rw [Tallied, settled_log]
      exact h.tallied.refuse _ rfl
    · exact h.idle

lemma sound_cancelled (h : Sound first typed s) (hopen : s.ended = false)
    (hbusy : s.mode.busy = true) (number : ℕ) (pane : PaneSurfacePane) (sending : Sending) :
    Sound first typed (s.copyModeCommand (some pane) ⟨number, .cancel⟩ sending) ∧
      Rested (s.copyModeCommand (some pane) ⟨number, .cancel⟩ sending) := by
  have hcopy := h.sane.no_copy hopen
  simp only [copyModeCommand, CopyMode.command, hbusy, if_true, CopyMode.wait, follow]
  refine ⟨sound_drop ?_ h.tallied, .inr (.inr rfl)⟩
  exact { h.sane with
    asked := by cases hflight : s.mode.inFlight <;> simp [drop, h.sane.asked, hflight]
    apart := fun _ => rfl
    origin := fun sent hsent => by cases hsent
    flight := fun sent hsent => by cases hsent
    retry := fun operation refused hretry => by cases hretry
    queued := rfl
    fits := Nat.zero_le _
    copied := fun range revision hcopied => by cases hcopy.symm.trans hcopied
    shown := h.sane.shown.drops _ _ }

lemma sound_exit (h : Sound first typed s) (hopen : s.ended = false) (number : ℕ)
    (pane : PaneSurfacePane) (sending : Sending) :
    Sound first typed (s.copyModeCommand (some pane) ⟨number, .exit⟩ sending) ∧
      Rested (s.copyModeCommand (some pane) ⟨number, .exit⟩ sending) := by
  have hcopy := h.sane.no_copy hopen
  have hexit : s.mode.command .exit pane = (.exit, s.mode) := by
    cases hbusy : s.mode.busy <;> simp [CopyMode.command, CopyMode.wait, CopyMode.run, hbusy]
  simp only [copyModeCommand, hexit, follow]
  refine ⟨⟨{ h.sane with
    copied := fun range revision hcopied => by cases hcopy.symm.trans hcopied
    shown := h.sane.shown.ran _ pane trivial }, ?_, h.idle⟩, .inl rfl⟩
  have hsettled : (Deed.ran ⟨number, .exit⟩ pane).settled = none := rfl
  rw [Tallied, settled_log, hsettled, Option.toList_none, List.append_nil]
  exact h.tallied

lemma sound_typed (h : Sound first typed s) (hopen : s.ended = false) (hrest : Rested s)
    {command : Command} (hwaits : command.waits = true) (pane : PaneSurfacePane)
    {sending : Sending} (hlinked : sending ≠ .unconnected) :
    let key : Key := ⟨s.typed.length, command⟩
    let next := { s with typed := s.typed ++ [key] }.copyModeCommand (some pane) key sending
    Sound first (typed ++ [command]) next ∧ Rested next := by
  cases hbusy : s.mode.busy with
  | true => exact sound_queued h hopen hbusy hwaits pane sending
  | false =>
    have htally := h.tallied.arrive ⟨s.typed.length, command⟩
    have hwaiting : s.waiting = [] := by simpa [Rested, hopen, hbusy] using hrest
    rw [h.idle hbusy, hwaiting] at htally
    refine sound_idle h hopen hrest hbusy (sane_typed h.sane hwaits) ?_
      (waits_prompt hwaits) pane hlinked
    simpa [Key.pending, hwaits, hwaiting] using htally

lemma sound_untyped (h : Sound first typed s) (hopen : s.ended = false) (hrest : Rested s)
    {command : Command} (hwaits : command.waits = false) (number : ℕ) (pane : PaneSurfacePane)
    {sending : Sending} (hlinked : sending ≠ .unconnected) :
    Sound first typed (s.copyModeCommand (some pane) ⟨number, command⟩ sending) ∧
      Rested (s.copyModeCommand (some pane) ⟨number, command⟩ sending) := by
  cases command with
  | prompt direction => exact ⟨h, hrest⟩
  | cancel =>
    cases hbusy : s.mode.busy with
    | true => exact sound_cancelled h hopen hbusy number pane sending
    | false =>
      have htally := h.tallied
      rw [h.idle hbusy] at htally
      have hpending : Tally id s.typed s.settled ((Key.mk number .cancel).pending ++ s.waiting) :=
        htally
      refine sound_idle h hopen hrest hbusy h.sane hpending (fun direction hprompt => ?_) pane
        hlinked
      cases hprompt
  | exit => exact sound_exit h hopen number pane sending
  | _ => cases hwaits

lemma sound_typeKey (h : Sound first typed s) (hopen : s.ended = false) (hrest : Rested s)
    {command : Command} {sending : Sending} (hpane : command.waits = true → s.pane.isSome = true)
    (hlinked : sending ≠ .unconnected) :
    Sound first (typed ++ (Event.key command sending).typed.toList) (s.typeKey command sending) ∧
      Rested (s.typeKey command sending) := by
  rw [typeKey]
  cases hwaits : command.waits with
  | true =>
    obtain ⟨pane, hshown⟩ := Option.isSome_iff_exists.mp (hpane hwaits)
    have htyped : (Event.key command sending).typed = some command := if_pos hwaits
    have hnext := sound_typed h hopen hrest hwaits pane hlinked
    rw [← hshown] at hnext
    rw [htyped]
    exact hnext
  | false =>
    have htyped : (Event.key command sending).typed = none := by simp [Event.typed, hwaits]
    rw [htyped, Option.toList_none, List.append_nil]
    cases hshown : s.pane with
    | none =>
      have hlost : s.copyModeCommand s.pane ⟨s.typed.length, command⟩ sending = s := by
        rw [hshown, copyModeCommand]
        exact if_neg (by simp [hwaits])
      rw [← hshown]
      exact hlost.symm ▸ ⟨h, hrest⟩
    | some pane =>
      have hnext := sound_untyped h hopen hrest hwaits s.typed.length pane hlinked
      rw [← hshown] at hnext ⊢
      exact hnext

lemma judge_ended (result : Except Error Bool) (answer : Answer) :
    (s.judge result answer).ended = s.ended := by
  cases result with
  | error error => rfl
  | ok moved =>
    rw [judge]
    split
    · rfl
    · split
      · rfl
      · split <;> rfl

lemma hear_ended (request : String) (answer : Answer) :
    (s.hear request answer).ended = s.ended := by
  cases hresult : s.mode.answer request answer with
  | mk result mode =>
    simp only [hear, hresult]
    split
    · exact judge_ended result answer
    · rfl

lemma mem_record {result : CopySearchResult} (h : result ∈ s.heard) (answer : Answer) :
    result ∈ s.record answer := by
  cases answer with
  | search result' => exact List.mem_append_left _ h
  | _ => exact h

lemma hear_other {request : String} {answer : Answer}
    (h : s.mode.inFlight.map InFlight.request ≠ some request) : s.hear request answer = s := by
  simp only [hear, h, if_false, CopyMode.answer_other h]

def heardWith (s : Session) (mode : CopyMode) (answer : Answer) : Session :=
  { s with mode := mode, asked := [], heard := s.record answer }

lemma hear_own {sent : InFlight} {answer : Answer} (h : s.mode.inFlight = some sent)
    (hasked : s.asked = [sent.request]) : s.hear sent.request answer =
      (s.heardWith (s.mode.answer sent.request answer).2 answer).judge
        (s.mode.answer sent.request answer).1 answer := by
  simp [hear, heardWith, h, hasked]

lemma judge_served {mode : CopyMode} {answer : Answer} (hout : s.out = some key)
    (hretry : mode.retry = none) (hpane : answer.paneId = some mode.paneId) (moved : Bool) :
    (s.heardWith mode answer).judge (.ok moved) answer =
      { s.heardWith mode answer with out := none }.log (.answered key answer) := by
  simp [judge, heardWith, hretry, hout, hpane]

lemma judge_refreshed {mode : CopyMode} {answer : Answer} (hout : s.out = none)
    (hretry : mode.retry = none) (moved : Bool) :
    (s.heardWith mode answer).judge (.ok moved) answer =
      (s.heardWith mode answer).log (.refreshed answer) := by
  simp [judge, heardWith, hretry, hout]

lemma judge_missed {mode : CopyMode} {answer : Answer} (hout : s.out = some key)
    (hretry : mode.retry = none) (hpane : answer.paneId ≠ some mode.paneId) (moved : Bool) :
    (s.heardWith mode answer).judge (.ok moved) answer =
      (s.heardWith mode answer).dropOut .failed := by
  simp [judge, heardWith, hretry, hout, hpane]

lemma judge_again (hretry : s.mode.retry.isSome = true) (moved : Bool) (answer : Answer) :
    s.judge (.ok moved) answer = s := by
  simp [judge, hretry]

lemma serves_paneId {paneId : String} {command : Command} {answer : Answer}
    (h : Serves paneId command answer) : answer.paneId = some paneId := by
  unfold Serves at h
  split at h
  · exact congrArg some h
  · exact congrArg some h
  · exact congrArg some h
  · exact h.elim

lemma sane_heard (h : Sane first typed s) (hopen : s.ended = false) (hretry : s.mode.retry = none)
    {answer : Answer} {cursor : Point} {found : Option Found}
    (hgrounded : s.mode.Grounded answer found) (out : Option Key) {deeds : List Deed}
    (hshown : Shown first deeds { s.mode with cursor := cursor, found := found }.shows) :
    Sane first typed { s.heardWith
        { s.mode with inFlight := none, cursor := cursor, found := found } answer with
      out := out, deeds := deeds } := by
  have hcopy := h.no_copy hopen
  exact { h with
    asked := rfl
    apart := fun hflight => by cases hflight
    origin := fun sent hsent => by cases hsent
    flight := fun sent hsent => by cases hsent
    retry := fun operation refused hsome => by cases hretry.symm.trans hsome
    found := fun kept hkept => by
      rcases hgrounded kept hkept with ⟨old, hold, hrevision, hsame⟩ | ⟨result, rfl, hsame⟩
      · obtain ⟨result, hresult, hrevision', hsame'⟩ := h.found old hold
        exact ⟨result, mem_record hresult answer, hrevision'.trans hrevision, hsame'.trans hsame⟩
      · exact ⟨result, List.mem_append_right _ (List.mem_singleton_self _), hsame⟩
    copied := fun range revision hcopied => by cases hcopy.symm.trans hcopied
    shown := shown_open hopen hcopy hshown }

section Heard

variable {answer : Answer} {cursor : Point} {found : Option Found}
  (h : Sound first typed s) (hopen : s.ended = false) (hretry : s.mode.retry = none)

include h hopen hretry

lemma sound_served (hkey : s.out = some key) (hserves : Serves s.mode.paneId key.command answer)
    (hgrounded : s.mode.Grounded answer found) (hshows : s.mode.shows.answered key.command answer =
      { s.mode with cursor := cursor, found := found }.shows) (moved : Bool) :
    Sound first typed ((s.heardWith
      { s.mode with inFlight := none, cursor := cursor, found := found } answer).judge
        (.ok moved) answer) := by
  have hshown := h.sane.shown
  rw [h.sane.seen_open hopen] at hshown
  have hnext := hshown.answered key answer hserves
  rw [hshows] at hnext
  rw [judge_served hkey ?_ ?_]
  rotate_left
  · exact hretry
  · exact serves_paneId hserves
  refine ⟨sane_heard h.sane hopen hretry hgrounded none hnext, ?_, fun _ => rfl⟩
  have htally := h.tallied
  rw [hkey] at htally
  rw [Tallied, settled_log]
  exact htally.settle true

lemma sound_refreshed (hkey : s.out = none) (hgrounded : s.mode.Grounded answer found)
    (hshows : s.mode.shows.refreshed answer =
      { s.mode with cursor := cursor, found := found }.shows) (moved : Bool) :
    Sound first typed ((s.heardWith
      { s.mode with inFlight := none, cursor := cursor, found := found } answer).judge
        (.ok moved) answer) := by
  have hshown := h.sane.shown
  rw [h.sane.seen_open hopen] at hshown
  have hnext := hshown.refreshed answer
  rw [hshows] at hnext
  rw [judge_refreshed hkey ?_]
  rotate_left
  · exact hretry
  refine ⟨sane_heard h.sane hopen hretry hgrounded s.out hnext, ?_, fun _ => hkey⟩
  have hsettled : (Deed.refreshed answer).settled = none := rfl
  rw [Tallied, settled_log, hsettled, Option.toList_none, List.append_nil]
  exact h.tallied

lemma sound_missed (hkey : s.out = some key) (hpane : answer.paneId ≠ some s.mode.paneId)
    (moved : Bool) : Sound first typed
      ((s.heardWith { s.mode with inFlight := none } answer).judge (.ok moved) answer) := by
  have hshown := h.sane.shown
  rw [h.sane.seen_open hopen] at hshown
  rw [judge_missed hkey ?_ ?_]
  rotate_left
  · exact hretry
  · exact hpane
  refine ⟨sane_heard h.sane hopen hretry (CopyMode.grounded_same answer) none
    (hshown.drops _ _), ?_, fun _ => rfl⟩
  have htally := h.tallied
  rw [hkey] at htally
  have hdropped : ((s.heardWith { s.mode with inFlight := none } answer).dropOut .failed).settled =
      s.settled ++ [(key, false)] := by
    simp [settled, dropOut, heardWith, hkey, Deed.settled]
  rw [Tallied, hdropped]
  exact htally.settle false

omit hretry in
lemma sound_again {operation : Operation}
    (haims : CopyMode.Aims s.mode.found (s.out.map Key.command) operation) (refused : ℕ)
    (moved : Bool) : Sound first typed ((s.heardWith { s.mode with
      inFlight := none, retry := some (operation, refused) } answer).judge (.ok moved) answer) := by
  have hcopy := h.sane.no_copy hopen
  rw [judge_again rfl]
  refine ⟨{ h.sane with
    asked := rfl
    apart := fun hflight => by cases hflight
    origin := fun sent hsent => by cases hsent
    flight := fun sent hsent => by cases hsent
    retry := fun operation refused hretry => by
      cases hretry
      exact haims
    found := fun found hfound => by
      obtain ⟨result, hresult, hsame⟩ := h.sane.found found hfound
      exact ⟨result, mem_record hresult answer, hsame⟩
    copied := fun range revision hcopied => by cases hcopy.symm.trans hcopied }, h.tallied, ?_⟩
  intro hidle
  cases hidle

lemma sound_failed (error : Error) : Sound first typed ((s.heardWith
    { s.mode with inFlight := none, queued := [] } answer).judge (.error error) answer) := by
  have hcopy := h.sane.no_copy hopen
  refine sound_drop ?_ h.tallied
  exact { h.sane with
    asked := rfl
    apart := fun hflight => by cases hflight
    origin := fun sent hsent => by cases hsent
    flight := fun sent hsent => by cases hsent
    retry := fun operation refused hsome => by cases hretry.symm.trans hsome
    queued := rfl
    fits := Nat.zero_le _
    found := fun found hfound => by
      obtain ⟨result, hresult, hsame⟩ := h.sane.found found hfound
      exact ⟨result, mem_record hresult answer, hsame⟩
    copied := fun range revision hcopied => by cases hcopy.symm.trans hcopied
    shown := h.sane.shown.drops _ _ }

end Heard

lemma sound_hear (h : Sound first typed s) (hopen : s.ended = false) (request : String)
    (answer : Answer) : Sound first typed (s.hear request answer) := by
  by_cases hown : s.mode.inFlight.map InFlight.request = some request
  · obtain ⟨sent, hsent, rfl⟩ := Option.map_eq_some_iff.mp hown
    have hasked : s.asked = [sent.request] := by simp [h.sane.asked, hsent]
    have hretry := h.sane.apart (by simp [hsent])
    have haims := h.sane.flight sent hsent
    have happlied := CopyMode.answer_own answer hsent (h.sane.origin sent hsent) haims
    rw [hear_own hsent hasked]
    generalize s.mode.answer sent.request answer = result at happlied ⊢
    cases happlied with
    | served command hout hserves moved cursor found hgrounded hshows =>
      obtain ⟨key, hkey, rfl⟩ := Option.map_eq_some_iff.mp hout
      exact sound_served h hopen hretry hkey hserves hgrounded hshows moved
    | refreshed hout moved cursor found hgrounded hshows =>
      exact sound_refreshed h hopen hretry (Option.map_eq_none_iff.mp hout) hgrounded hshows moved
    | missed command hout hpane hspoils =>
      obtain ⟨key, hkey, rfl⟩ := Option.map_eq_some_iff.mp hout
      exact sound_missed h hopen hretry hkey hpane false
    | again command hout hstale => exact sound_again h hopen haims _ false
    | failed error hspoils => exact sound_failed h hopen hretry error
  · rw [hear_other hown]
    exact h

lemma dueRetry_cases {pane : PaneSurfacePane} {request : Request}
    (h : s.mode.dueRetry pane = some request) : s.mode.inFlight = none ∧
      ∃ operation refused, s.mode.retry = some (operation, refused) ∧
        request = s.mode.request pane.contentRevision operation := by
  rw [CopyMode.dueRetry] at h
  split at h
  · cases h
  · rename_i operation refused hretry
    split at h
    · rename_i hdue
      cases h
      exact ⟨Option.isNone_iff_eq_none.mp hdue.1, operation, refused, hretry, rfl⟩
    · cases h

lemma sound_sendDueRetry (h : Sound first typed s) (hopen : s.ended = false)
    (pane : PaneSurfacePane) {sending : Sending} (hlinked : sending ≠ .unconnected) :
    Sound first typed (s.sendDueRetry (some pane) sending) := by
  rw [sendDueRetry, Option.bind_some]
  split
  · rename_i request hdue
    obtain ⟨hflight, operation, refused, hretry, rfl⟩ := dueRetry_cases hdue
    exact (sound_send h.sane h.tallied hflight hopen (h.sane.retry operation refused hretry)
      pane.contentRevision hlinked).1
  · exact h

lemma sound_left (h : Sound first typed s) (hopen : s.ended = false) :
    Sound first typed ({ s with ended := true }.log .left) := by
  have hcopy := h.sane.no_copy hopen
  refine ⟨{ h.sane with
    copied := fun range revision hcopied => by cases hcopy.symm.trans hcopied
    shown := h.sane.shown.left }, ?_, h.idle⟩
  have hsettled : Deed.left.settled = none := rfl
  rw [Tallied, settled_log, hsettled, Option.toList_none, List.append_nil]
  exact h.tallied

lemma judge_waiting (hwaiting : s.waiting = []) (result : Except Error Bool) (answer : Answer) :
    (s.judge result answer).waiting = [] := by
  cases result with
  | error error => rfl
  | ok moved =>
    rw [judge]
    split
    · exact hwaiting
    · split
      · exact hwaiting
      · split <;> exact hwaiting

lemma hear_waiting (hwaiting : s.waiting = []) (request : String) (answer : Answer) :
    (s.hear request answer).waiting = [] := by
  cases hresult : s.mode.answer request answer with
  | mk result mode =>
    simp only [hear, hresult]
    split
    · exact judge_waiting (by exact hwaiting) result answer
    · exact hwaiting

lemma sound_hearAny (h : Sound first typed s) (hopen : s.ended = false)
    (answer : Option (String × Answer)) : Sound first typed (s.hearAny answer) := by
  cases answer with
  | none => exact h
  | some answer => exact sound_hear h hopen answer.1 answer.2

lemma hearAny_ended (answer : Option (String × Answer)) : (s.hearAny answer).ended = s.ended := by
  cases answer with
  | none => rfl
  | some answer => exact hear_ended answer.1 answer.2

def Settles (s : Session) : Option (String × Answer) → Prop
  | some (request, _) => s.mode.inFlight.map InFlight.request = some request
  | none => False

lemma hearAny_rested (h : Rested s) (hopen : s.ended = false) {answer : Option (String × Answer)}
    (hkept : s.waiting = [] ∨ ¬ Settles s answer) :
    (s.hearAny answer).mode.busy = true ∨ (s.hearAny answer).waiting = [] := by
  have hrest : s.mode.busy = true ∨ s.waiting = [] := h.resolve_left (by simp [hopen])
  cases answer with
  | none => exact hrest
  | some answer =>
    rcases hkept with hwaiting | hother
    · exact .inr (hear_waiting hwaiting answer.1 answer.2)
    · have hsame : s.hearAny (some answer) = s := hear_other hother
      rw [hsame]
      exact hrest

def Met (s : Session) : Event → Prop
  | .key command sending =>
    (command.waits = true → s.pane.isSome = true) ∧ sending ≠ .unconnected
  | .poll ready answer sending =>
    (s.pane.isSome = true ∨ ready = true ∨ s.waiting = [] ∨ ¬ Settles s answer) ∧
      sending ≠ .unconnected
  | .surface _ => True

lemma sound_poll (h : Sound first typed s) (hopen : s.ended = false) (hrest : Rested s)
    {ready : Bool} {answer : Option (String × Answer)} {sending : Sending}
    (hmet : s.Met (.poll ready answer sending)) :
    Sound first typed (s.pollCopyMode ready answer sending) ∧
      Rested (s.pollCopyMode ready answer sending) := by
  obtain ⟨hshows, hlinked⟩ := hmet
  have hheard := sound_hearAny h hopen answer
  have hopen' := (hearAny_ended answer).trans hopen
  rw [pollCopyMode]
  split
  · exact ⟨sound_left h hopen, .inl rfl⟩
  rename_i hstays
  cases hpane : s.pane with
  | none =>
    have hready : ready = false := by simpa [hpane] using hstays
    have hkept : s.waiting = [] ∨ ¬ Settles s answer := by simpa [hpane, hready] using hshows
    have hrested := hearAny_rested hrest hopen hkept
    have hsame : (s.hearAny answer).sendDueRetry none sending = s.hearAny answer := rfl
    dsimp only
    rw [hsame, drain_rested hheard.sane hrested]
    exact ⟨hheard, .inr hrested⟩
  | some pane =>
    have hretried := sound_sendDueRetry hheard hopen' pane hlinked
    refine sound_drain _ hretried (.inr ?_) pane hlinked
    rw [hretried.sane.queued, List.length_map]

lemma sound_step (h : Sound first typed s) (hrest : Rested s) (hopen : s.ended = false)
    {event : Event} (hmet : s.Met event) :
    Sound first (typed ++ event.typed.toList) (s.step event) ∧ Rested (s.step event) := by
  unfold step
  rw [if_neg (by simp [hopen, h.sane.runs])]
  cases event with
  | key command sending => exact sound_typeKey h hopen hrest hmet.1 hmet.2
  | poll ready answer sending =>
    simp only [Event.typed, Option.toList_none, List.append_nil]
    exact sound_poll h hopen hrest hmet
  | surface pane =>
    simp only [Event.typed, Option.toList_none, List.append_nil]
    exact ⟨⟨{ h.sane with }, h.tallied, h.idle⟩, hrest⟩

lemma sound_start (pane : PaneSurfacePane) (cursor : Option (ℕ × ℕ)) :
    Sound (start pane cursor).seen [] (start pane cursor) ∧ Rested (start pane cursor) where
  left :=
    { sane :=
        { asked := rfl
          apart := fun _ => rfl
          origin := fun sent hsent => by cases hsent
          flight := fun sent hsent => by cases hsent
          retry := fun operation refused hretry => by cases hretry
          queued := rfl
          fits := Nat.zero_le _
          typed := rfl
          numbered := rfl
          waits := fun key hkey => by cases hkey
          found := fun found hfound => by cases hfound
          copied := fun range revision hcopied => by cases hcopied
          shown := .start
          runs := rfl }
      tallied := .empty
      idle := fun _ => rfl }
  right := .inr (.inr rfl)

def Meets (s : Session) : List Event → Prop
  | [] => True
  | event :: events => (s.ended = false → s.Met event) ∧ Meets (s.step event) events

lemma step_ended (hended : s.ended = true) (event : Event) : s.step event = s := by
  simp [step, hended]

lemma run_ended (hended : s.ended = true) (events : List Event) : s.run events = s := by
  induction events with
  | nil => rfl
  | cons event events ih =>
    rw [run, List.foldl_cons, step_ended hended]
    exact ih

lemma sound_runs (h : Sound first typed s) (hrest : Rested s) {events : List Event}
    (hmeets : Meets s events) : ∃ taken ignored, events.filterMap Event.typed = taken ++ ignored ∧
      ((s.run events).ended = false → ignored = []) ∧
      Sound first (typed ++ taken) (s.run events) ∧ Rested (s.run events) := by
  induction events generalizing s typed with
  | nil => exact ⟨[], [], rfl, fun _ => rfl, (List.append_nil typed).symm ▸ h, hrest⟩
  | cons event events ih =>
    cases hopen : s.ended with
    | true =>
      rw [run_ended hopen]
      refine ⟨[], _, rfl, fun hended => ?_, (List.append_nil typed).symm ▸ h, hrest⟩
      cases hopen.symm.trans hended
    | false =>
      obtain ⟨hsound, hrested⟩ := sound_step h hrest hopen (hmeets.1 hopen)
      obtain ⟨taken, ignored, htaken, hignored, hrun⟩ := ih hsound hrested hmeets.2
      refine ⟨event.typed.toList ++ taken, ignored, ?_, hignored, ?_⟩
      · rw [List.append_assoc, ← htaken]
        cases hevent : event.typed <;> simp [hevent]
      · rw [← List.append_assoc]
        exact hrun

lemma answer_changes (h : Sane first typed s) {request : String} {answer : Answer}
    (hchanges : (s.mode.answer request answer).2.cursor ≠ s.mode.cursor ∨
      (s.mode.answer request answer).2.found ≠ s.mode.found) :
    ∃ sent, s.mode.inFlight = some sent ∧ sent.request = request ∧
      sent.origin = s.mode.cursor := by
  by_cases hown : s.mode.inFlight.map InFlight.request = some request
  · obtain ⟨sent, hsent, hrequest⟩ := Option.map_eq_some_iff.mp hown
    exact ⟨sent, hsent, hrequest, h.origin sent hsent⟩
  · rw [CopyMode.answer_other hown] at hchanges
    simp at hchanges

end Session

end Sheprd.Terminal.Copying
