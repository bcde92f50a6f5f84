import Sheprd.Terminal.CopyKept

namespace Sheprd.Terminal.Copying

open Lib
open Selecting (Point TextRange)

namespace Session

variable {s : Session} {key : Key} {first : Seen} {typed : List Command}

def Grows (cause : Fate → Prop) (s s' : Session) : Prop :=
  ∃ deeds, s'.deeds = s.deeds ++ deeds ∧
    ∀ key fate, Deed.dropped key fate ∈ deeds → cause fate

section Grows

variable {cause cause' : Fate → Prop} {s' s'' : Session}

lemma grows_same (h : s'.deeds = s.deeds) : Grows cause s s' :=
  ⟨[], by rw [h, List.append_nil], fun _ _ hmem => by cases hmem⟩

lemma Grows.trans (h : Grows cause s s') (h' : Grows cause s' s'') : Grows cause s s'' := by
  obtain ⟨deeds, hdeeds, hcause⟩ := h
  obtain ⟨deeds', hdeeds', hcause'⟩ := h'
  refine ⟨deeds ++ deeds', by rw [hdeeds', hdeeds, List.append_assoc], fun key fate hmem => ?_⟩
  exact (List.mem_append.mp hmem).elim (hcause key fate) (hcause' key fate)

lemma Grows.mono (h : Grows cause s s') (himp : ∀ fate, cause fate → cause' fate) :
    Grows cause' s s' := by
  obtain ⟨deeds, hdeeds, hcause⟩ := h
  exact ⟨deeds, hdeeds, fun key fate hmem => himp fate (hcause key fate hmem)⟩

lemma grows_log {deed : Deed} (hdeeds : s'.deeds = s.deeds ++ [deed])
    (hcause : ∀ key fate, deed = .dropped key fate → cause fate) : Grows cause s s' :=
  ⟨[deed], hdeeds, fun key fate hmem => hcause key fate (List.mem_singleton.mp hmem).symm⟩

lemma grows_drops {keys : List Key} {fate : Fate}
    (hdeeds : s'.deeds = s.deeds ++ keys.map fun key => .dropped key fate) (hcause : cause fate) :
    Grows cause s s' := by
  refine ⟨_, hdeeds, fun key fate' hmem => ?_⟩
  obtain ⟨key', -, hkey⟩ := List.mem_map.mp hmem
  cases hkey
  exact hcause

end Grows

def Unsent (sending : Sending) (fate : Fate) : Prop := fate = .unsent ∧ sending = .failed

lemma grows_send (request : Request) (sending : Sending) :
    Grows (Unsent sending) s (s.sendCopyRequest request sending) := by
  cases sending with
  | sent id => exact grows_same rfl
  | failed => exact grows_drops rfl ⟨rfl, rfl⟩
  | unconnected => exact grows_same rfl

lemma grows_ran {s' : Session} {cause : Fate → Prop} {pane : PaneSurfacePane}
    (hdeeds : s'.deeds = s.deeds ++ [.ran key pane]) : Grows cause s s' :=
  grows_log hdeeds fun _ _ h => by cases h

lemma grows_idle (hidle : s.mode.busy = false) (key : Key) (pane : PaneSurfacePane)
    {sending : Sending} (hlinked : sending ≠ .unconnected) :
    Grows (Unsent sending) s (s.copyModeCommand (some pane) key sending) := by
  rw [copyModeCommand]
  by_cases hprompt : ∃ direction, key.command = .prompt direction
  · obtain ⟨direction, hcommand⟩ := hprompt
    rw [hcommand]
    exact grows_same rfl
  · rw [CopyMode.command_idle hidle]
    have hran : CopyMode.Ran s.mode pane key.command (s.mode.run pane key.command) :=
      CopyMode.run_ran fun direction hcommand => hprompt ⟨direction, hcommand⟩
    generalize key.command = command at hran
    generalize s.mode.run pane command = result at hran ⊢
    cases hran with
    | nothing =>
      simp only [follow, hidle, Bool.false_eq_true, if_false]
      exact grows_ran rfl
    | moved => exact grows_ran rfl
    | send operation haims =>
      have hrefresh := CopyMode.request_isRefresh haims pane.contentRevision
      dsimp only
      rw [follow_send s.mode hrefresh hlinked]
      exact (grows_same rfl).trans (grows_send _ sending)
    | refresh hcopying operation haims =>
      have hrefresh := CopyMode.request_isRefresh haims pane.contentRevision
      simp only [follow, hrefresh, Option.isNone_none, if_true]
      exact (grows_same rfl).trans (grows_send _ sending)
    | copied => exact grows_ran rfl
    | exit => exact grows_ran rfl

lemma nextQueued_some {command : Command} {mode : CopyMode}
    (h : s.mode.nextQueued = (some command, mode)) : mode.busy = false := by
  rw [CopyMode.nextQueued] at h
  split at h
  · cases h
  · rename_i hidle
    obtain ⟨-, rfl⟩ := Prod.mk.inj h
    simpa [CopyMode.busy] using hidle

lemma grows_drain (pane : PaneSurfacePane) {sending : Sending} (hlinked : sending ≠ .unconnected)
    (fuel : ℕ) : Grows (Unsent sending) s (drain (some pane) sending fuel s) := by
  induction fuel generalizing s with
  | zero =>
    rw [drain]
    split <;> exact grows_same rfl
  | succ fuel ih =>
    rw [drain]
    split
    · exact grows_same rfl
    · split
      · exact grows_same rfl
      · rename_i command mode hnext
        refine Grows.trans ?_ ih
        exact (grows_same rfl).trans (grows_idle (by exact nextQueued_some hnext) _ pane hlinked)

def Spoilt (s : Session) : Option (String × Answer) → Prop
  | some (request, answer) => s.mode.inFlight.map InFlight.request = some request ∧
      Spoils s.mode.paneId (s.out.map Key.command) answer
  | none => False

lemma grows_hear (h : Sound first typed s) (request : String) (answer : Answer) :
    Grows (fun fate => fate = .failed ∧ s.Spoilt (some (request, answer))) s
      (s.hear request answer) := by
  by_cases hown : s.mode.inFlight.map InFlight.request = some request
  · obtain ⟨sent, hsent, rfl⟩ := Option.map_eq_some_iff.mp hown
    have hasked : s.asked = [sent.request] := by simp [h.sane.asked, hsent]
    have hretry := h.sane.apart (by simp [hsent])
    have happlied := CopyMode.answer_own answer hsent (h.sane.origin sent hsent)
      (h.sane.flight sent hsent)
    rw [hear_own hsent hasked]
    generalize s.mode.answer sent.request answer = result at happlied ⊢
    cases happlied with
    | served command hout hserves moved cursor found hgrounded hshows =>
      obtain ⟨key, hkey, rfl⟩ := Option.map_eq_some_iff.mp hout
      dsimp only
      rw [judge_served hkey ?_ ?_]
      rotate_left
      · exact hretry
      · exact serves_paneId hserves
      exact grows_log rfl fun _ _ hdeed => by cases hdeed
    | refreshed hout moved cursor found hgrounded hshows =>
      dsimp only
      rw [judge_refreshed (Option.map_eq_none_iff.mp hout) ?_]
      rotate_left
      · exact hretry
      exact grows_log rfl fun _ _ hdeed => by cases hdeed
    | missed command hout hpane hspoils =>
      obtain ⟨key, hkey, rfl⟩ := Option.map_eq_some_iff.mp hout
      dsimp only
      rw [judge_missed hkey ?_ ?_]
      rotate_left
      · exact hretry
      · exact hpane
      exact grows_drops rfl ⟨rfl, hown, hspoils⟩
    | again => exact grows_same rfl
    | failed error hspoils => exact grows_drops rfl ⟨rfl, hown, hspoils⟩
  · rw [hear_other hown]
    exact grows_same rfl

/-- What a key typed or a poll may drop keys for: Cancel while a request is on its way, a full
queue, a request that could not be sent, an answer that spoils it. -/
def Caused (s : Session) : Event → Fate → Prop
  | .key command sending, fate =>
    (fate = .cancelled ∧ command = .cancel ∧ s.mode.busy = true) ∨
      (fate = .full ∧ s.mode.busy = true ∧ maxQueued ≤ s.mode.queued.length) ∨
      Unsent sending fate
  | .poll _ answer sending, fate => (fate = .failed ∧ s.Spoilt answer) ∨ Unsent sending fate
  | .surface _, _ => False

lemma grows_busy (hbusy : s.mode.busy = true) (key : Key) (pane : PaneSurfacePane)
    (sending : Sending) :
    Grows (s.Caused (.key key.command sending)) s (s.copyModeCommand (some pane) key sending) := by
  rw [copyModeCommand]
  cases hwaits : key.command.waits with
  | true =>
    rw [CopyMode.command_busy hbusy hwaits]
    simp only [follow, hbusy, if_true]
    split
    · exact grows_same rfl
    · rename_i hlength
      refine grows_log rfl fun key' fate hdeed => ?_
      cases hdeed
      exact .inr (.inl ⟨rfl, hbusy, Nat.not_lt.mp hlength⟩)
  | false =>
    generalize hcommand : key.command = command at hwaits
    cases command with
    | prompt direction => exact grows_same rfl
    | cancel =>
      simp only [CopyMode.command, hbusy, if_true, CopyMode.wait, follow]
      exact grows_drops rfl (.inl ⟨rfl, rfl, hbusy⟩)
    | exit =>
      simp only [CopyMode.command, hbusy, if_true, CopyMode.wait, follow]
      exact grows_ran rfl
    | _ => cases hwaits

lemma grows_command (key : Key) (pane : PaneSurfacePane) {sending : Sending}
    (hlinked : sending ≠ .unconnected) :
    Grows (s.Caused (.key key.command sending)) s (s.copyModeCommand (some pane) key sending) := by
  cases hbusy : s.mode.busy with
  | true => exact grows_busy hbusy key pane sending
  | false =>
    refine (grows_idle hbusy key pane hlinked).mono fun fate hfate => ?_
    exact .inr (.inr hfate)

lemma grows_typeKey {command : Command} {sending : Sending}
    (hmet : s.Met (.key command sending)) :
    Grows (s.Caused (.key command sending)) s (s.typeKey command sending) := by
  obtain ⟨hshows, hlinked⟩ := hmet
  rw [typeKey]
  generalize (if command.waits then s.typed ++ [⟨s.typed.length, command⟩] else s.typed) = keys
  rcases Option.eq_none_or_eq_some s.pane with hpane | ⟨pane, hpane⟩
  · have hwaits : command.waits = false := by
      cases hwaits : command.waits with
      | false => rfl
      | true => simpa [hpane] using hshows hwaits
    rw [hpane, copyModeCommand, if_neg (by simp [hwaits])]
    exact grows_same rfl
  · have hnext := grows_command (s := { s with typed := keys }) ⟨s.typed.length, command⟩ pane
      hlinked
    rw [← hpane] at hnext
    exact (grows_same rfl).trans hnext

lemma grows_hearAny (h : Sound first typed s) (answer : Option (String × Answer)) :
    Grows (fun fate => fate = .failed ∧ s.Spoilt answer) s (s.hearAny answer) := by
  cases answer with
  | none => exact grows_same rfl
  | some answer => exact grows_hear h answer.1 answer.2

lemma grows_sendDueRetry (shown : Option PaneSurfacePane) (sending : Sending) :
    Grows (Unsent sending) s (s.sendDueRetry shown sending) := by
  rw [sendDueRetry]
  split
  · exact grows_send _ sending
  · exact grows_same rfl

lemma grows_poll (h : Sound first typed s) (hopen : s.ended = false) (hrest : Rested s)
    {ready : Bool} {answer : Option (String × Answer)} {sending : Sending}
    (hmet : s.Met (.poll ready answer sending)) :
    Grows (s.Caused (.poll ready answer sending)) s (s.pollCopyMode ready answer sending) := by
  obtain ⟨hshows, hlinked⟩ := hmet
  have hheard : Grows (s.Caused (.poll ready answer sending)) s (s.hearAny answer) :=
    (grows_hearAny h answer).mono fun fate hfate => .inl hfate
  have hunsent (fate : Fate) (hfate : Unsent sending fate) :
      s.Caused (.poll ready answer sending) fate := .inr hfate
  rw [pollCopyMode]
  split
  · exact grows_log rfl fun _ _ hdeed => by cases hdeed
  rename_i hstays
  cases hpane : s.pane with
  | none =>
    have hready : ready = false := by simpa [hpane] using hstays
    have hkept : s.waiting = [] ∨ ¬ Settles s answer := by simpa [hpane, hready] using hshows
    have hrested := hearAny_rested hrest hopen hkept
    have hsame : (s.hearAny answer).sendDueRetry none sending = s.hearAny answer := rfl
    dsimp only
    rw [hsame, drain_rested (sound_hearAny h hopen answer).sane hrested]
    exact hheard
  | some pane =>
    refine hheard.trans (((grows_sendDueRetry (some pane) sending).mono hunsent).trans ?_)
    exact (grows_drain pane hlinked _).mono hunsent

lemma grows_step (h : Sound first typed s) (hrest : Rested s) {event : Event}
    (hmet : s.ended = false → s.Met event) : Grows (s.Caused event) s (s.step event) := by
  unfold step
  split
  · exact grows_same rfl
  · rename_i hstays
    have hopen : s.ended = false := by
      simp only [Bool.or_eq_true, not_or, Bool.not_eq_true] at hstays
      exact hstays.1
    cases event with
    | key command sending => exact grows_typeKey (hmet hopen)
    | poll ready answer sending => exact grows_poll h hopen hrest (hmet hopen)
    | surface pane => exact grows_same rfl

/-- The session asks one thing at a time; what the user sees is what the deeds mean one after the
other; and each of the keys typed, in their order, took effect, is on its way, waits, or was
dropped. -/
structure Orderly (first : Seen) (events : List Event) (s : Session) : Prop where
  single : s.asked.length ≤ 1
  asked : s.asked = s.mode.inFlight.toList.map InFlight.request
  apart : s.mode.inFlight.isSome = true → s.mode.retry = none
  queued_le : s.mode.queued.length ≤ maxQueued + 1
  queued : s.mode.queued = s.waiting.map Key.command
  typed : s.typed.map Key.command <+: events.filterMap Event.typed
  typed_open : s.ended = false → s.typed.map Key.command = events.filterMap Event.typed
  numbered : s.typed.map Key.number = List.range s.typed.length
  shown : Shown first s.deeds s.seen
  ordered : (s.effects ++ (s.out.toList ++ s.waiting)).Sublist s.typed
  once : (s.settled.map Prod.fst ++ (s.out.toList ++ s.waiting)).Perm s.typed
  answered : ∀ request answer, (s.mode.answer request answer).2.cursor ≠ s.mode.cursor ∨
    (s.mode.answer request answer).2.found ≠ s.mode.found →
    ∃ sent, s.mode.inFlight = some sent ∧ sent.request = request ∧ sent.origin = s.mode.cursor
  copied : ∀ range contentRevision, s.copied = some (range, contentRevision) →
    s.Carried range contentRevision
  idle : s.mode.busy = false → s.out = none
  rested : Rested s
  runs : s.hung = false

lemma Sound.orderly {events : List Event} (h : Sound first typed s) (hrest : Rested s)
    (htyped : typed <+: events.filterMap Event.typed)
    (hopen : s.ended = false → typed = events.filterMap Event.typed) : Orderly first events s := by
  have hsingle : s.asked.length ≤ 1 := by
    rw [h.sane.asked, List.length_map]
    cases s.mode.inFlight <;> simp
  have hqueued : s.mode.queued.length ≤ maxQueued + 1 := by
    rw [h.sane.queued, List.length_map]
    exact Nat.le_succ_of_le h.sane.fits
  exact
    { single := hsingle
      asked := h.sane.asked
      apart := h.sane.apart
      queued_le := hqueued
      queued := h.sane.queued
      typed := h.sane.typed ▸ htyped
      typed_open := fun hended => h.sane.typed.trans (hopen hended)
      numbered := h.sane.numbered
      shown := h.sane.shown
      ordered := h.tallied.ordered
      once := h.tallied.once
      answered := fun _ _ => answer_changes h.sane
      copied := fun range revision hcopied => (h.sane.copied range revision hcopied).2
      idle := h.idle
      rested := hrest
      runs := h.sane.runs }

lemma Meets.append {events events' : List Event} (h : Meets s (events ++ events')) :
    Meets s events ∧ Meets (s.run events) events' := by
  induction events generalizing s with
  | nil => exact ⟨trivial, h⟩
  | cons event events ih =>
    obtain ⟨hbefore, hafter⟩ := ih h.2
    exact ⟨⟨h.1, hbefore⟩, hafter⟩

/-- Every state the run reaches is orderly, and each step drops keys for its causes only. -/
def OrderlyRun (s : Session) (events : List Event) : Prop :=
  (∀ before after, events = before ++ after → Orderly s.seen before (s.run before)) ∧
  ∀ before event after, events = before ++ event :: after →
    Grows ((s.run before).Caused event) (s.run before) ((s.run before).step event)

theorem run_orderly (pane : PaneSurfacePane) (cursor : Option (ℕ × ℕ)) (events : List Event)
    (h : Meets (start pane cursor) events) : OrderlyRun (start pane cursor) events := by
  obtain ⟨hstart, hrest⟩ := sound_start pane cursor
  constructor
  · rintro before after rfl
    obtain ⟨taken, ignored, htaken, hignored, hsound, hrested⟩ := sound_runs hstart hrest h.append.1
    refine Sound.orderly hsound hrested ⟨ignored, htaken.symm⟩ fun hopen => ?_
    rw [htaken, hignored hopen, List.append_nil, List.nil_append]
  · rintro before event after rfl
    obtain ⟨taken, ignored, -, -, hsound, hrested⟩ := sound_runs hstart hrest h.append.1
    exact grows_step hsound hrested h.append.2.1

def shell (contentRevision : ℕ) : PaneSurfacePane where
  paneId := "p"
  innerRect :=
    { x := 0, y := 0, width := 80, height := 24, x_le := Nat.zero_le _, y_le := Nat.zero_le _ }
  scroll := none
  contentRevision := contentRevision

def word : TextRange := ⟨⟨2, 4⟩, ⟨2, 6⟩⟩

def typing : List Event :=
  [.key (.motion .lineEnd) (.sent "a"), .key .lineStart (.sent "b"), .key (.step 1 0) (.sent "b"),
    .poll false (some ("a", .motion "p" ⟨0, 7⟩)) (.sent "b"),
    .key (.search "x" .forward) (.sent "b"), .key .copy (.sent "c"), .surface (some (shell 4)),
    .poll false (some ("b", .search ⟨"p", 2, [word], 1, some 0, none⟩)) (.sent "c"),
    .poll false (some ("c", .search ⟨"p", 4, [word], 1, some 0, none⟩)) (.sent "d")]

theorem run_orderly_typing : ((start (shell 2) none).run typing).copied = some (word, some 4) ∧
    ((start (shell 2) none).run typing).effects.map Key.number = [0, 1, 2, 3, 4] ∧
    OrderlyRun (start (shell 2) none) typing := by
  refine ⟨by rfl, by rfl, run_orderly (shell 2) none typing ?_⟩
  simp only [typing, Meets, Met, reduceCtorEq, ne_eq, not_false_eq_true, and_true]
  exact ⟨fun _ _ => rfl, fun _ _ => rfl, fun _ _ => rfl, fun _ => .inl rfl, fun _ _ => rfl,
    fun _ _ => rfl, fun _ => trivial, fun _ => .inl rfl, fun _ => .inl rfl⟩

def hidden : List Event :=
  [.key (.motion .lineEnd) (.sent "a"), .key .lineStart (.sent "b"), .surface none]

/-- The answer comes while the surface does not show the pane: the key that waited is lost. -/
theorem queued_key_lost : ¬ OrderlyRun (start (shell 2) none)
    (hidden ++ [.poll false (some ("a", .motion "p" ⟨0, 7⟩)) (.sent "b")]) := by
  rintro ⟨-, hdrops⟩
  obtain ⟨deeds, hdeeds, hcause⟩ := hdrops hidden _ [] rfl
  have hlost : deeds = [.answered ⟨0, .motion .lineEnd⟩ (.motion "p" ⟨0, 7⟩),
      .dropped ⟨1, .lineStart⟩ .unseen] := hdeeds.symm
  have hunseen := hcause ⟨1, .lineStart⟩ .unseen (by simp [hlost])
  rcases hunseen with ⟨hfailed, -⟩ | ⟨hunsent, -⟩
  · cases hfailed
  · cases hunsent

end Session

end Sheprd.Terminal.Copying
