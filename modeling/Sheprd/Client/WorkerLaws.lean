import Sheprd.Client.Lease

namespace Sheprd.Client

open Sheprd.Lib Sheprd.Lib.Exec Sheprd.Protocol

def sentIds (log : List Act) : List String :=
  log.filterMap fun | .sent id => some id | _ => none

def resentIds (log : List Act) : List String :=
  log.filterMap fun | .resent id => some id | _ => none

def answeredIds (log : List Act) : List String :=
  log.filterMap fun | .answered id => some id | _ => none

lemma sentIds_append (a b : List Act) : sentIds (a ++ b) = sentIds a ++ sentIds b :=
  List.filterMap_append

lemma resentIds_append (a b : List Act) : resentIds (a ++ b) = resentIds a ++ resentIds b :=
  List.filterMap_append

lemma answeredIds_append (a b : List Act) : answeredIds (a ++ b) = answeredIds a ++ answeredIds b :=
  List.filterMap_append

lemma answered_acts (ids : List String) :
    sentIds (ids.map .answered) = [] ∧ resentIds (ids.map .answered) = [] ∧
      answeredIds (ids.map .answered) = ids := by
  induction ids with
  | nil => exact ⟨rfl, rfl, rfl⟩
  | cons id ids ih =>
    obtain ⟨hs, hr, ha⟩ := ih
    exact ⟨hs, hr, congrArg (id :: ·) ha⟩

def Orderly (log : List Act) : Prop :=
  answeredIds log <+: sentIds log ∧ (sentIds log).length ≤ (answeredIds log).length + 2

structure Lawful (w : Worker) : Prop where
  told : answeredIds w.log = responses w.connection.emitted
  orderly : ∀ pre, pre <+: w.log → Orderly pre
  once : (resentIds w.log).length ≤ 1
  resent : ∀ pre id post, w.log = pre ++ .resent id :: post → sentIds pre = answeredIds pre ++ [id]
  bytes : w.connection.session.responseBytes ≤ maxResponseBytes

def Pristine (command : Command) : Prop :=
  command.request.isSome = true → command.image = none ∧ command.written = ⟨0, none⟩

structure Leased (w : Worker) : Prop extends Lawful w where
  outstanding : sentIds w.log = answeredIds w.log ++ w.connection.session.outstanding
  refused : ∀ b, w.connection.session.barrier = some b → b.refused = true →
    w.connection.session.pipelineBarriers = false
  spent : resentIds w.log ≠ [] → w.connection.session.pipelineBarriers = false ∧
    w.connection.session.barrier = none
  unwelcome : w.connection.session.welcome = none → w.connection.session.pending = none ∧
    w.connection.session.barrier = none ∧ resentIds w.log = []
  pristine : ∀ command, w.queued = some command → Pristine command

lemma leased_new (started : ℕ) (surfaceActive remote : Bool) (stream : List UInt8) :
    Leased (Worker.new started surfaceActive remote stream) where
  told := rfl
  orderly pre h := by
    rw [List.prefix_nil.mp h]
    exact ⟨List.prefix_refl _, Nat.zero_le _⟩
  once := Nat.zero_le _
  resent pre id post h := absurd h (by simp [Worker.new])
  bytes := Nat.zero_le _
  outstanding := rfl
  refused b h := absurd h (by simp [Worker.new, Session.new])
  spent h := absurd rfl h
  unwelcome _ := ⟨rfl, rfl, rfl⟩
  pristine _ h := absurd h (by simp [Worker.new])

lemma outstanding_le (s : Session) : s.outstanding.length ≤ 2 := by
  rw [Session.outstanding, List.length_append, Option.length_toList, Option.length_toList]
  split <;> split <;> simp

structure Idle (w w' : Worker) : Prop where
  log : w'.log = w.log
  pending : w'.connection.session.pending = w.connection.session.pending
  barrier : w'.connection.session.barrier = w.connection.session.barrier
  pipelines : w'.connection.session.pipelineBarriers = w.connection.session.pipelineBarriers
  welcome : w'.connection.session.welcome = w.connection.session.welcome
  responses : responses w'.connection.emitted = responses w.connection.emitted

instance : Std.Refl Idle := ⟨fun _ => ⟨rfl, rfl, rfl, rfl, rfl, rfl⟩⟩

instance : IsTrans Worker Idle where
  trans _ _ _ h h' := ⟨h'.log.trans h.log, h'.pending.trans h.pending, h'.barrier.trans h.barrier,
    h'.pipelines.trans h.pipelines, h'.welcome.trans h.welcome, h'.responses.trans h.responses⟩

lemma Idle.lawful {w w' : Worker} (hi : Idle w w') (h : Lawful w) : Lawful w' where
  told := by
    rw [hi.log, hi.responses]
    exact h.told
  orderly := hi.log ▸ h.orderly
  once := hi.log ▸ h.once
  resent := hi.log ▸ h.resent
  bytes := by
    rw [Session.responseBytes, hi.pending, hi.barrier]
    exact h.bytes

lemma Idle.leased {w w' : Worker} (hi : Idle w w') (h : Leased w)
    (hq : ∀ command, w'.queued = some command → Pristine command) : Leased w' where
  toLawful := hi.lawful h.toLawful
  outstanding := by
    rw [hi.log, Session.outstanding, hi.pending, hi.barrier]
    exact h.outstanding
  refused := by
    rw [hi.barrier, hi.pipelines]
    exact h.refused
  spent := by
    rw [hi.log, hi.pipelines, hi.barrier]
    exact h.spent
  unwelcome := by
    rw [hi.log, hi.welcome, hi.pending, hi.barrier]
    exact h.unwelcome
  pristine := hq

structure Resting (w w' : Worker) : Prop extends Idle w w' where
  queued : w'.queued = w.queued

instance : Std.Refl Resting := ⟨fun w => ⟨Std.Refl.refl w, rfl⟩⟩

instance : IsTrans Worker Resting where
  trans _ _ _ h h' := ⟨IsTrans.trans _ _ _ h.toIdle h'.toIdle, h'.queued.trans h.queued⟩

lemma Resting.leased {w w' : Worker} (hr : Resting w w') (h : Leased w) : Leased w' :=
  hr.toIdle.leased h (hr.queued ▸ h.pristine)

lemma Lawful.extend {w w' : Worker} (h : Lawful w) {acts : List Act} (hl : w'.log = w.log ++ acts)
    (htold : answeredIds w'.log = responses w'.connection.emitted)
    (horderly : ∀ pre, pre <+: acts → Orderly (w.log ++ pre))
    (honce : (resentIds w'.log).length ≤ 1)
    (hresent : ∀ pre id post, acts = pre ++ .resent id :: post →
      sentIds (w.log ++ pre) = answeredIds (w.log ++ pre) ++ [id])
    (hbytes : w'.connection.session.responseBytes ≤ maxResponseBytes) : Lawful w' where
  told := htold
  orderly pre hpre := by
    rw [hl] at hpre
    rcases List.prefix_or_prefix_of_prefix hpre (List.prefix_append w.log acts) with hp | hp
    · exact h.orderly pre hp
    · obtain ⟨q, rfl⟩ := hp
      exact horderly q ((List.prefix_append_right_inj w.log).mp hpre)
  once := honce
  resent pre id post he := by
    rw [hl] at he
    rcases List.append_eq_append_iff.mp he with ⟨q, hq, hacts⟩ | ⟨q, hq, hrest⟩
    · rw [hq]
      exact hresent q id post hacts
    · cases q with
      | nil =>
        rw [List.append_nil] at hq
        have hstart := hresent [] id post (by simpa using hrest.symm)
        rwa [List.append_nil, hq] at hstart
      | cons a q =>
        obtain ⟨rfl, rfl⟩ := List.cons.inj hrest
        exact h.resent pre id q hq
  bytes := hbytes

lemma orderly_outstanding {log : List Act} {s : Session}
    (h : sentIds log = answeredIds log ++ s.outstanding) : Orderly log := by
  rw [Orderly, h, List.length_append]
  exact ⟨List.prefix_append _ _, Nat.add_le_add_left (outstanding_le s) _⟩

lemma Leased.act {w w' : Worker} (h : Leased w) {a : Act} (hl : w'.log = w.log ++ [a])
    (htold : answeredIds w'.log = responses w'.connection.emitted)
    (hout : sentIds w'.log = answeredIds w'.log ++ w'.connection.session.outstanding)
    (honce : (resentIds w'.log).length ≤ 1)
    (hresent : ∀ id, a = .resent id → sentIds w.log = answeredIds w.log ++ [id])
    (hbytes : w'.connection.session.responseBytes ≤ maxResponseBytes) : Lawful w' := by
  refine h.toLawful.extend hl htold ?_ honce ?_ hbytes
  · intro pre hpre
    rcases List.prefix_concat_iff.mp (show pre <+: [] ++ [a] from hpre) with rfl | hpre
    · exact orderly_outstanding (hl ▸ hout)
    · rw [List.prefix_nil.mp hpre, List.append_nil]
      exact h.orderly _ (List.prefix_refl _)
  · intro pre id post he
    cases pre with
    | nil =>
      rw [List.append_nil]
      exact hresent id (List.cons.inj he).1
    | cons b pre => exact absurd (congrArg List.length he) (by simp)

lemma Leased.answer {w w' : Worker} (h : Leased w) {ids : List String}
    (hl : w'.log = w.log ++ ids.map .answered)
    (hr : responses w'.connection.emitted = responses w.connection.emitted ++ ids)
    (hpre : ids <+: w.connection.session.outstanding)
    (hb : w'.connection.session.responseBytes ≤ maxResponseBytes) : Lawful w' := by
  obtain ⟨-, hre, ha⟩ := answered_acts ids
  refine h.toLawful.extend hl ?_ ?_ ?_ ?_ hb
  · rw [hl, answeredIds_append, ha, hr, h.told]
  · intro pre hp
    obtain ⟨ids', hids, rfl⟩ := List.prefix_map_iff.mp hp
    obtain ⟨hs', -, ha'⟩ := answered_acts ids'
    rw [Orderly, answeredIds_append, sentIds_append, ha', hs', List.append_nil]
    constructor
    · rw [h.outstanding]
      exact (List.prefix_append_right_inj _).mpr (hids.trans hpre)
    · have hlog := (h.orderly _ (List.prefix_refl _)).2
      rw [List.length_append]
      omega
  · rw [hl, resentIds_append, hre, List.append_nil]
    exact h.once
  · intro pre id post he
    have hmem : Act.resent id ∈ ids.map Act.answered := by
      rw [he]
      simp
    obtain ⟨_, -, hbad⟩ := List.mem_map.mp hmem
    exact absurd hbad (by simp)

lemma Leased.sent {w w' : Worker} (h : Leased w) {id : String}
    (hl : w'.log = w.log ++ [.sent id])
    (hr : responses w'.connection.emitted = responses w.connection.emitted)
    (ho : w'.connection.session.outstanding = w.connection.session.outstanding ++ [id])
    (hb : w'.connection.session.responseBytes ≤ maxResponseBytes) :
    Lawful w' ∧ sentIds w'.log = answeredIds w'.log ++ w'.connection.session.outstanding := by
  have hans : answeredIds w'.log = answeredIds w.log := by
    rw [hl, answeredIds_append]
    exact List.append_nil _
  have hout : sentIds w'.log = answeredIds w'.log ++ w'.connection.session.outstanding := by
    rw [hans, hl, sentIds_append, ho, h.outstanding, List.append_assoc]
    rfl
  refine ⟨h.act hl ?_ hout ?_ (fun _ hbad => absurd hbad (by simp)) hb, hout⟩
  · rw [hans, hr, h.told]
  · rw [hl, resentIds_append]
    exact (List.append_nil _).symm ▸ h.once

lemma Leased.resend {w w' : Worker} (h : Leased w) {b : Barrier}
    (hp : w.connection.session.pending = none) (hb : w.connection.session.barrier = some b)
    (hl : w'.log = w.log ++ [.resent b.pending.id])
    (hr : responses w'.connection.emitted = responses w.connection.emitted)
    (ho : w'.connection.session.outstanding = [b.pending.id])
    (hbytes : w'.connection.session.responseBytes ≤ maxResponseBytes) :
    Lawful w' ∧ sentIds w'.log = answeredIds w'.log ++ w'.connection.session.outstanding := by
  have hans : answeredIds w'.log = answeredIds w.log := by
    rw [hl, answeredIds_append]
    exact List.append_nil _
  have hfront : sentIds w.log = answeredIds w.log ++ [b.pending.id] := by
    rw [h.outstanding, Session.outstanding, hp, hb]
    rfl
  have hfirst : resentIds w.log = [] := by
    by_contra hne
    exact absurd (h.spent hne).2 (by simp [hb])
  have hout : sentIds w'.log = answeredIds w'.log ++ w'.connection.session.outstanding := by
    rw [hans, ho, ← hfront, hl, sentIds_append]
    exact List.append_nil _
  refine ⟨h.act hl ?_ hout ?_ ?_ hbytes, hout⟩
  · rw [hans, hr, h.told]
  · rw [hl, resentIds_append, hfirst]
    exact Nat.le_refl 1
  · rintro _ ⟨⟩
    exact hfront

def Keeping : Except Error Turn → Worker → Prop
  | .ok .again, w => Leased w
  | .ok .done, w => Leased w
  | .ok .stopped, w => Lawful w
  | .error _, w => Lawful w

variable (setup : Setup) (parse : Parsers) (sink : List Emission → ClientEvent → Option Error)

lemma wp_onConnection {α : Type} {m : Handling α} {Q : Except Error α → Worker → Prop}
    {w : Worker} :
    wp (onConnection m) Q w ↔ wp m (fun r c => Q r { w with connection := c }) w.connection :=
  Iff.rfl

lemma emit_resting {event : ClientEvent} (h : event.asResponse = none) :
    Keeps Resting (onConnection (emit sink event)) := by
  intro w
  rw [wp_onConnection]
  refine wp_mono (emit_cases sink event w.connection) ?_
  rintro r c (⟨-, rfl⟩ | ⟨-, rfl⟩)
  · refine ⟨⟨rfl, rfl, rfl, rfl, rfl, ?_⟩, rfl⟩
    rw [Connection.tell, responses_append]
    simp [responses, h]
  · exact Std.Refl.refl w

lemma pristine_plain {command : Command} (h : command.request = none) : Pristine command := by
  intro hs
  exact absurd hs (by simp [h])

lemma requeue_keeping {w : Worker} (h : Leased w) {command : Command} (hc : Pristine command) :
    wp (requeue command) Keeping w := by
  refine Idle.leased (w := w) ⟨rfl, rfl, rfl, rfl, rfl, rfl⟩ h ?_
  rintro _ ⟨⟩
  exact hc

lemma writeInput_keeping {w : Worker} (h : Leased w) (a : Attempt) {command : Command}
    (hc : command.request = none) : wp (writeInput a command) Keeping w := by
  rw [writeInput, wp_bind, wp_lift]
  refine ⟨fun _ _ => h.toLawful, ?_⟩
  rintro ⟨finished, written⟩ _
  rw [andThen_ok]
  cases finished with
  | true => exact h
  | false => exact requeue_keeping h (pristine_plain hc)

lemma writeImage_keeping {w : Worker} (h : Leased w) (a : Attempt) {command : Command}
    (image : ImageSlot) (bytes : List UInt8) (hc : command.request = none) :
    wp (writeImage a command image bytes) Keeping w := by
  rw [writeImage, wp_bind, wp_refuse]
  refine ⟨fun _ => h.toLawful, fun _ => ?_⟩
  rw [andThen_ok, wp_bind, wp_lift]
  refine ⟨fun _ _ => h.toLawful, ?_⟩
  rintro ⟨finished, writer⟩ _
  rw [andThen_ok]
  cases finished with
  | true => exact h
  | false => exact requeue_keeping h (pristine_plain hc)

lemma reject_keeping {w : Worker} (h : Leased w) {event : ClientEvent}
    (he : event.asResponse = none) :
    wp (do onConnection (emit sink event); return Turn.again) Keeping w := by
  refine wp_bind.mpr (wp_mono (emit_resting sink he w) ?_)
  intro r w' hr
  cases r with
  | error e => exact hr.toIdle.lawful h.toLawful
  | ok u => exact hr.leased h

lemma attemptImage_keeping {w : Worker} (h : Leased w) (a : Attempt) {command : Command}
    (image : ImageSlot) (hc : command.request = none) :
    wp (attemptImage sink a command image) Keeping w := by
  rw [attemptImage, wp_ite]
  constructor
  · intro _
    rw [wp_bind, wp_refuse]
    exact ⟨fun _ => h.toLawful, fun _ => h⟩
  · intro _
    rw [wp_ite]
    refine ⟨fun _ => writeImage_keeping h a image _ hc, fun _ => ?_⟩
    cases a.published with
    | bytes bytes => exact writeImage_keeping h a image bytes hc
    | disconnected => exact h
    | empty =>
      dsimp only
      rw [wp_ite]
      exact ⟨fun _ => reject_keeping sink h rfl, fun _ => requeue_keeping h (pristine_plain hc)⟩

lemma rejection_welcome {s : Session} {command : Command} {request : PendingRequest}
    (hq : command.request = some request) (h : s.rejectionReason command = none) :
    s.welcome ≠ none := by
  intro hw
  rw [Session.rejectionReason] at h
  split at h
  · simp at h
  · simp [hq, hw] at h

lemma free_or_pipelines {s : Session} {command : Command} {request : PendingRequest}
    (hq : command.request = some request)
    (h : ¬(command.request.isSome && (s.pending.isSome || s.barrier.isSome) &&
      !s.pipelines command) = true) :
    s.barrier = none ∧ (s.pending = none ∨ s.pipelineBarriers = true) := by
  cases hp : s.pending with
  | none =>
    cases hb : s.barrier with
    | none => exact ⟨rfl, Or.inl rfl⟩
    | some b => simp [hq, hp, hb, Session.pipelines] at h
  | some p =>
    have hpipe : s.pipelines command = true := by simpa [hq, hp] using h
    simp only [Session.pipelines, Bool.and_eq_true, Option.isNone_iff_eq_none] at hpipe
    exact ⟨hpipe.1.1.2, Or.inr hpipe.1.1.1⟩

lemma Leased.take {w w' : Worker} (h : Leased w) (id : String)
    (hw : w.connection.session.welcome ≠ none) (hl : w'.log = w.log ++ [.sent id])
    (hr : responses w'.connection.emitted = responses w.connection.emitted)
    (ho : w'.connection.session.outstanding = w.connection.session.outstanding ++ [id])
    (hb : w'.connection.session.responseBytes = w.connection.session.responseBytes)
    (hwelcome : w'.connection.session.welcome = w.connection.session.welcome)
    (hpipe : w'.connection.session.pipelineBarriers = w.connection.session.pipelineBarriers)
    (hbar : w'.connection.session.barrier = none ∨
      w.connection.session.pipelineBarriers = true ∧
        w'.connection.session.barrier.all (fun b => !b.refused) = true)
    (hq : ∀ command, w'.queued = some command → Pristine command) : Leased w' := by
  obtain ⟨hlaw, hout⟩ := h.sent hl hr ho (hb ▸ h.bytes)
  refine ⟨hlaw, hout, ?_, ?_, ?_, hq⟩
  · intro b hsome hf
    rcases hbar with hnone | ⟨-, hall⟩
    · exact absurd hsome (by simp [hnone])
    · simp [hsome, hf] at hall
  · rw [hl, resentIds_append, hpipe]
    intro hne
    have hspent := h.spent (by simpa [resentIds] using hne)
    rcases hbar with hnone | ⟨hp, -⟩
    · exact ⟨hspent.1, hnone⟩
    · exact absurd hspent.1 (by simp [hp])
  · rw [hwelcome]
    exact fun hnone => absurd hnone hw

lemma writeAll_same (write : Write) (w : Worker) : wp (writeAll write) (fun _ w' => w' = w) w := by
  cases write <;> rfl

lemma send_keeping {w : Worker} (h : Leased w) (a : Attempt) {command : Command}
    (hw : command.request.isSome = true → w.connection.session.welcome ≠ none)
    (hslots : command.request.isSome = true → w.connection.session.barrier = none ∧
      (w.connection.session.pending = none ∨ w.connection.session.pipelineBarriers = true)) :
    wp (send a command) Keeping w := by
  rw [send, wp_bind]
  refine wp_mono (writeAll_same a.write w) ?_
  rintro r w' rfl
  cases r with
  | error e => exact h.toLawful
  | ok u =>
    rw [andThen_ok]
    cases hq : command.request with
    | none => exact h
    | some request =>
      dsimp only
      obtain ⟨hbar, hpend⟩ := hslots (by rw [hq]; rfl)
      have hwelcome := hw (by rw [hq]; rfl)
      rw [wp_bind, onSession, wp_onConnection, wp_update, andThen_ok, wp_bind, wp_modify,
        andThen_ok, wp_pure]
      cases hp : w'.connection.session.pending with
      | none =>
        refine h.take request.id hwelcome rfl rfl ?_ ?_ rfl rfl (Or.inl hbar) h.pristine
        · simp [Session.outstanding, hp, hbar]
        · simp [Session.responseBytes, hp, hbar]
      | some p =>
        have hpipe : w'.connection.session.pipelineBarriers = true := by simpa [hp] using hpend
        refine h.take request.id hwelcome rfl rfl ?_ ?_ rfl rfl
          (Or.inr ⟨hpipe, rfl⟩) h.pristine
        · simp [Session.outstanding, hp, hbar]
        · simp [Session.responseBytes, hp, hbar]

lemma resend_keeping {w : Worker} (h : Leased w) (a : Attempt) {b : Barrier}
    (hb : w.refusedBarrier = some b) : wp (resend a b) Keeping w := by
  rw [Worker.refusedBarrier] at hb
  split at hb
  case isFalse => exact absurd hb (by simp)
  case isTrue hready =>
    simp only [Bool.and_eq_true, Session.resendReady, Option.isNone_iff_eq_none, hb,
      Option.any_some] at hready
    obtain ⟨-, hp, hf⟩ := hready
    have hpipe := h.refused b hb hf
    have hbytes : w.connection.session.responseBytes = b.pending.bytes.length := by
      simp [Session.responseBytes, hp, hb]
    have hwelcome : w.connection.session.welcome ≠ none := by
      intro hw
      exact absurd (h.unwelcome hw).2.1 (by simp [hb])
    rw [resend, wp_bind, onSession, wp_onConnection, wp_update, andThen_ok, wp_ite]
    have hdropped : Lawful { w with connection := { w.connection with session :=
        { w.connection.session with barrier := none } } } := by
      refine ⟨h.told, h.orderly, h.once, h.resent, ?_⟩
      simp [Session.responseBytes, hp]
    refine ⟨fun _ => hdropped, fun _ => ?_⟩
    rw [wp_bind]
    refine wp_mono (writeAll_same a.write _) ?_
    rintro r w' rfl
    cases r with
    | error e => exact hdropped
    | ok u =>
      rw [andThen_ok, wp_bind, onSession, wp_onConnection, wp_update, andThen_ok, wp_bind,
        wp_modify, andThen_ok, wp_pure]
      obtain ⟨hlaw, hout⟩ := @Leased.resend w { w with
        connection := { w.connection with session := { w.connection.session with
          barrier := none, pending := some { b.pending with started := a.now } } }
        log := w.log ++ [.resent b.pending.id] } h b hp hb rfl rfl rfl
        (hbytes.symm.trans_le h.bytes)
      exact ⟨hlaw, hout, fun _ hnone => absurd hnone (by simp), fun _ => ⟨hpipe, rfl⟩,
        fun hw => absurd hw hwelcome, h.pristine⟩

lemma pristine_idle {command : Command} (h : Pristine command)
    (hi : (command.image.isNone && command.started || command.inputAttempted) = true) :
    command.request = none := by
  by_contra hne
  obtain ⟨himage, hwritten⟩ := h (Option.isSome_iff_ne_none.mpr hne)
  simp [Command.started, Command.inputAttempted, himage, hwritten] at hi

lemma attempt_keeping {w : Worker} (h : Leased w) (a : Attempt) {command : Command}
    (hc : Pristine command) : wp (attempt setup sink a command) Keeping w := by
  rw [attempt, wp_bind, wp_get, andThen_ok, wp_ite]
  constructor
  · intro hstarted
    exact writeInput_keeping h a (pristine_idle hc (by simp [hstarted]))
  · intro hfresh
    rw [wp_ite]
    refine ⟨fun _ => requeue_keeping h hc, fun hopen => ?_⟩
    cases hrej : w.connection.session.rejectionReason command with
    | some reason => exact reject_keeping sink h rfl
    | none =>
      dsimp only
      rw [wp_ite]
      refine ⟨fun _ => requeue_keeping h hc, fun hslots => ?_⟩
      cases himage : command.image with
      | some image =>
        refine attemptImage_keeping sink h a image ?_
        by_contra hne
        exact absurd (hc (Option.isSome_iff_ne_none.mpr hne)).1 (by simp [himage])
      | none =>
        dsimp only
        rw [wp_ite]
        constructor
        · intro hbeside
          refine writeInput_keeping h a ?_
          rcases Bool.or_eq_true_iff.mp hbeside with hreading | hattempted
          · have hnot : command.started = false := by simpa [himage] using hfresh
            simp only [hreading, hnot, Bool.not_false, Bool.and_self, Bool.true_and,
              Bool.or_eq_true, Bool.not_eq_true', not_or, Bool.not_eq_false] at hopen
            exact permits_no_request hopen.1
          · exact pristine_idle hc (by simp [hattempted])
        · intro _
          refine send_keeping h a ?_ ?_
          · intro hsome
            obtain ⟨request, hq⟩ := Option.isSome_iff_exists.mp hsome
            exact rejection_welcome hq hrej
          · intro hsome
            obtain ⟨request, hq⟩ := Option.isSome_iff_exists.mp hsome
            exact free_or_pipelines hq hslots

lemma queued_pristine (q : Queued) : Pristine q.command := by
  cases q with
  | message bootId bytes inputPane request => exact fun _ => ⟨rfl, rfl⟩
  | clipboard bootId reservedAt => exact pristine_plain rfl

lemma turn_keeping {w : Worker} (h : Leased w) (a : Attempt) :
    wp (turn setup sink a) Keeping w := by
  rw [turn, wp_bind, wp_get, andThen_ok]
  cases hb : w.refusedBarrier with
  | some b => exact resend_keeping h a hb
  | none =>
    dsimp only
    cases hq : w.queued.or (a.incoming.map Queued.command) with
    | none => exact h
    | some command =>
      have hc : Pristine command := by
        rcases Option.or_eq_some_iff.mp hq with hq | ⟨-, hq⟩
        · exact h.pristine command hq
        · obtain ⟨q, -, rfl⟩ := Option.map_eq_some_iff.mp hq
          exact queued_pristine q
      have hidle : Idle w { w with queued := none } := ⟨rfl, rfl, rfl, rfl, rfl, rfl⟩
      have htaken : Leased { w with queued := none } := hidle.leased h fun _ hn => absurd hn (by simp)
      dsimp only
      rw [wp_bind, wp_modify, andThen_ok, wp_ite]
      exact ⟨fun _ => htaken.toLawful, fun _ => attempt_keeping setup sink htaken a hc⟩

lemma batch_keeping (n : ℕ) : ∀ {w : Worker} (_ : Leased w) (attempts : List Attempt),
    wp (batch setup sink n attempts) Keeping w := by
  induction n with
  | zero => exact fun h _ => h
  | succ n ih =>
    intro w h attempts
    cases attempts with
    | nil => exact h
    | cons a attempts =>
      rw [batch, wp_bind]
      refine wp_mono (turn_keeping setup sink h a) ?_
      intro r w' hk
      cases r with
      | error e => exact hk
      | ok t =>
        cases t with
        | again => exact ih hk attempts
        | done => exact hk
        | stopped => exact hk

lemma writeAll_resting (write : Write) : Keeps Resting (writeAll write) := by
  intro w
  refine wp_mono (writeAll_same write w) ?_
  rintro _ _ rfl
  exact Std.Refl.refl _

lemma onSession_resting {f : Session → Session} (h : ∀ s, (f s).pending = s.pending ∧
    (f s).barrier = s.barrier ∧ (f s).pipelineBarriers = s.pipelineBarriers ∧
    (f s).welcome = s.welcome) : Keeps Resting (onSession f) := by
  intro w
  obtain ⟨hp, hb, hl, hw⟩ := h w.connection.session
  exact ⟨⟨rfl, hp, hb, hl, hw, rfl⟩, rfl⟩

lemma probeHealth_resting (p : Pass) (health : Health) :
    Keeps Resting (probeHealth setup p health) :=
  .bind (.lift _ _) fun _ => .bind (onSession_resting fun _ => ⟨rfl, rfl, rfl, rfl⟩) fun _ =>
    .when _ (writeAll_resting _)

lemma checkPass_resting (p : Pass) : Keeps Resting (checkPass setup p) := by
  refine .bind .get fun w => .bind (.lift _ _) fun _ => .bind (.refuse _ _) fun _ =>
    .bind (.refuse _ _) fun _ => .bind (.refuse _ _) fun _ => .bind (.refuse _ _) fun _ => ?_
  cases w.connection.session.health with
  | some health => exact .when _ (probeHealth_resting setup p health)
  | none => exact .pure ()

lemma readMessage_resting (p : Pass) : Keeps Resting (readMessage p) := by
  refine .bind .get fun w => .bind (.require _ _) fun polled => ?_
  obtain ⟨result, link, rest⟩ := polled
  refine .bind (.modify fun w => ⟨⟨rfl, rfl, rfl, rfl, rfl, rfl⟩, rfl⟩) fun _ => ?_
  cases result with
  | error e => cases e <;> exact .throw _
  | ok message =>
    cases message with
    | some message => exact .pure _
    | none =>
      exact .bind (.when _ (onSession_resting fun _ => ⟨rfl, rfl, rfl, rfl⟩)) fun _ => .pure _

lemma responses_drop {a b : List Emission} {ids : List String} (hg : a <+: b)
    (hr : responses b = responses a ++ ids) : responses (b.drop a.length) = ids := by
  obtain ⟨more, rfl⟩ := hg
  rw [responses_append] at hr
  rw [List.drop_left]
  exact List.append_cancel_left hr

lemma outstanding_nil {s : Session} (h : s.outstanding = []) :
    s.pending = none ∧ s.barrier = none := by
  simpa [Session.outstanding] using h

lemma Leased.kept {w : Worker} {c : Connection} (h : Leased w) (hk : LeaseKept w.connection c)
    {ids : List String} (hr : responses c.emitted = responses w.connection.emitted ++ ids)
    (ho : w.connection.session.outstanding = ids ++ c.session.outstanding) :
    Leased { w with connection := c, log := w.log ++ ids.map .answered } := by
  obtain ⟨hs, hre, ha⟩ := answered_acts ids
  have hpipe : w.connection.session.pipelineBarriers = false → c.session.pipelineBarriers = false :=
    fun hf => Bool.eq_false_iff.mpr fun ht => by simp [hk.pipelines ht] at hf
  have hresent : resentIds (w.log ++ ids.map .answered) = resentIds w.log := by
    rw [resentIds_append, hre, List.append_nil]
  refine ⟨h.answer rfl hr (ho ▸ List.prefix_append _ _) (hk.bytes h.bytes), ?_, ?_, ?_, ?_,
    h.pristine⟩
  · change sentIds (w.log ++ _) = answeredIds (w.log ++ _) ++ c.session.outstanding
    rw [sentIds_append, answeredIds_append, hs, ha, List.append_nil, h.outstanding, ho,
      List.append_assoc]
  · intro b hb hf
    rcases hk.refused b hb hf with hf | ⟨b₀, hb₀, hf₀⟩
    · exact hf
    · exact hpipe (h.refused b₀ hb₀ hf₀)
  · intro hne
    obtain ⟨hf, hnone⟩ := h.spent (hresent ▸ hne)
    refine ⟨hpipe hf, ?_⟩
    by_contra hsome
    have hbefore := hk.barrier (Option.isSome_iff_ne_none.mpr hsome)
    simp [hnone] at hbefore
  · intro hw
    obtain ⟨hp, hb, hfirst⟩ := h.unwelcome (hk.welcome ▸ hw)
    have hnil : c.session.outstanding = [] := by
      rw [Session.outstanding, hp, hb] at ho
      exact (List.append_eq_nil_iff.mp ho.symm).2
    exact ⟨(outstanding_nil hnil).1, (outstanding_nil hnil).2, hresent ▸ hfirst⟩

lemma Leased.welcomed {w : Worker} {c : Connection} (h : Leased w) (hs : SameSlots w.connection c)
    (hw : w.connection.session.welcome = none) : Leased { w with connection := c } := by
  obtain ⟨hp, hb, hfirst⟩ := h.unwelcome hw
  have hp' : c.session.pending = none := hs.pending.trans hp
  have hb' : c.session.barrier = none := hs.barrier.trans hb
  refine ⟨⟨?_, h.orderly, h.once, h.resent, ?_⟩, ?_, ?_, ?_, ?_, h.pristine⟩
  · rw [hs.responses]
    exact h.told
  · simp [Session.responseBytes, hp', hb']
  · have hout := h.outstanding
    rw [Session.outstanding, hp, hb] at hout
    rw [Session.outstanding, hp', hb']
    exact hout
  · exact fun b hsome => absurd hsome (by simp [hb'])
  · exact fun hne => absurd hfirst hne
  · exact fun _ => ⟨hp', hb', hfirst⟩

lemma handle_leased {w : Worker} (h : Leased w) (now : ℕ) (message : ServerMessage) :
    wp (handle parse sink now message) (fun r w' => Lawful w' ∧ (r.isOk = true → Leased w')) w := by
  have hgrows : w.connection.emitted <+:
      (exec (handleMessage parse sink now message) w.connection).2.emitted := by
    obtain ⟨c₁, hq, hh⟩ := handleMessage_handled parse sink now message w.connection
    obtain ⟨more, he, -⟩ := hq.emitted
    exact (List.prefix_append _ more).trans (he ▸ hh.emitted_grows)
  have hlease := handleMessage_lease parse sink now message w.connection
  simp only [wp] at hlease
  simp only [wp, exec, handle] at hgrows hlease ⊢
  generalize handleMessage parse sink now message w.connection = ran at hgrows hlease ⊢
  obtain ⟨r, c⟩ := ran
  dsimp only at hgrows hlease ⊢
  rcases hlease with hlease | ⟨hw, hslots⟩
  · cases r with
    | ok u =>
      obtain ⟨ids, hr, ho⟩ := hlease.ids
      rw [responses_drop hgrows hr]
      exact ⟨(h.kept hlease hr ho).toLawful, fun _ => h.kept hlease hr ho⟩
    | error e =>
      obtain ⟨ids, hr, hpre⟩ := hlease.ids
      rw [responses_drop hgrows hr]
      exact ⟨h.answer rfl hr hpre (hlease.bytes h.bytes), by simp [Except.isOk, Except.toBool]⟩
  · have hr : responses c.emitted = responses w.connection.emitted ++ [] := by
      rw [List.append_nil]
      exact hslots.responses
    rw [responses_drop hgrows hr, List.map_nil, List.append_nil]
    exact ⟨(h.welcomed hslots hw).toLawful, fun _ => h.welcomed hslots hw⟩

def Running : Except Error Bool → Worker → Prop
  | .ok false, w => Leased w
  | _, w => Lawful w

lemma read_running {w : Worker} (h : Leased w) (p : Pass) :
    wp (do when p.ready (receive parse sink p); return false) Running w := by
  rw [wp_bind, wp_when]
  refine ⟨fun _ => ?_, fun _ => h⟩
  rw [receive, wp_bind]
  refine wp_mono (readMessage_resting p w) ?_
  intro r w₁ h₁
  cases r with
  | error e => exact h₁.toIdle.lawful h.toLawful
  | ok message =>
    rw [andThen_ok]
    cases message with
    | none => exact h₁.leased h
    | some message =>
      refine wp_mono (handle_leased parse sink (h₁.leased h) p.now message) ?_
      intro r w₂ h₂
      cases r with
      | error e => exact h₂.1
      | ok u => exact h₂.2 rfl

lemma pass_running {w : Worker} (h : Leased w) (p : Pass) :
    wp (pass setup parse sink p) Running w := by
  rw [pass, wp_ite]
  refine ⟨fun _ => h.toLawful, fun _ => ?_⟩
  rw [wp_bind]
  refine wp_mono (checkPass_resting setup p w) ?_
  intro r w₁ h₁
  cases r with
  | error e => exact h₁.toIdle.lawful h.toLawful
  | ok u =>
    rw [andThen_ok, wp_bind]
    refine wp_mono (batch_keeping setup sink 16 (h₁.leased h) p.attempts) ?_
    intro r w₂ h₂
    cases r with
    | error e => exact h₂
    | ok t =>
      rw [andThen_ok]
      cases t with
      | stopped => exact h₂
      | again => exact read_running parse sink h₂ p
      | done => exact read_running parse sink h₂ p

lemma runConnection_running (passes : List Pass) {w : Worker} (h : Leased w) :
    Running (runConnection setup parse sink passes w).1
      (runConnection setup parse sink passes w).2 := by
  induction passes generalizing w with
  | nil => exact h
  | cons p passes ih =>
    have hp := pass_running setup parse sink h p
    rw [wp] at hp
    rw [runConnection]
    rcases hran : exec (pass setup parse sink p) w with ⟨r, w'⟩
    rw [hran] at hp
    cases r with
    | error e => exact hp
    | ok told =>
      cases told with
      | true => exact hp
      | false => exact ih hp

lemma Running.lawful {r : Except Error Bool} {w : Worker} (h : Running r w) : Lawful w := by
  cases r with
  | error e => exact h
  | ok told =>
    cases told with
    | true => exact h
    | false => exact h.toLawful

theorem request_lease_laws (started : ℕ) (surfaceActive remote : Bool) (stream : List UInt8)
    (passes : List Pass) :
    let run := runConnection setup parse sink passes (.new started surfaceActive remote stream)
    let log := run.2.log
    let session := run.2.connection.session
    answeredIds log = responses run.2.connection.emitted ∧
    (∀ pre, pre <+: log → answeredIds pre <+: sentIds pre ∧
      (sentIds pre).length ≤ (answeredIds pre).length + 2) ∧
    (run.1 = .ok false → sentIds log = answeredIds log ++
      ((session.pending.map fun p => p.id).toList ++
        (session.barrier.map fun b => b.pending.id).toList)) ∧
    (resentIds log).length ≤ 1 ∧
    (∀ pre id post, log = pre ++ .resent id :: post → sentIds pre = answeredIds pre ++ [id]) ∧
    session.responseBytes ≤ maxResponseBytes := by
  intro run log session
  have hrun : Running run.1 run.2 := runConnection_running setup parse sink passes
    (leased_new started surfaceActive remote stream)
  obtain ⟨told, orderly, once, resent, bytes⟩ := hrun.lawful
  refine ⟨told, orderly, ?_, once, resent, bytes⟩
  intro hgoing
  rw [hgoing] at hrun
  exact hrun.outstanding

end Sheprd.Client
