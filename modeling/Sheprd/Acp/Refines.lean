import Sheprd.Acp.Emission
import Sheprd.Acp.Handlers

namespace Sheprd.Acp

open Sheprd.Lib Sheprd.Lib.Exec Sheprd.Chat Session

section Clients

variable (world : World)

lemma emitAll_runs (changes : List Change) (s : Session) : Runs Goes (emitAll world changes) s := by
  induction changes generalizing s with
  | nil => exact Runs.pure ()
  | cons change changes ih =>
    refine Runs.bind (emit_runs world change s) ?_
    intro _ s' _
    exact ih s'

lemma emitProjected_runs (f : Projector → Change × Projector) (s : Session) :
    Runs Goes (emitProjected world f) s := by
  refine Runs.bind (project_runs (.of_feed rfl)) ?_
  intro change s' _
  exact emit_runs world change s'

lemma setStatus_runs (status : Status) (s : Session) : Runs Goes (setStatus world status) s := by
  apply Runs.get_bind
  apply Runs.when
  intro _
  exact emit_runs world _ s

lemma clearQueue_runs (s : Session) : Runs Goes (clearQueue world) s := by
  apply Runs.get_bind
  apply Runs.when
  intro _
  exact emit_runs world _ s

lemma fail_runs (message : String) (s : Session) : Runs Goes (fail world message) s := by
  refine Runs.bind (emitProjected_runs world _ s) ?_
  intro _ s₁ _
  refine Runs.bind (setStatus_runs world _ s₁) ?_
  intro _ s₂ _
  exact clearQueue_runs world s₂

lemma trySend_runs (outbox : ℕ) {message : ServerMessage} (beside : message.cursor = none)
    (s : Session) : Runs Goes (trySend world outbox message) s := by
  rw [Runs, Ends, wp_trySend]
  refine ⟨rfl, ?_⟩
  cases world.takes s.tick with
  | true => exact .single (Feed.Step.send beside)
  | false => exact .refl

lemma modify_concat_length {α : Type} (front : List α) (last : α) (f : α → α) :
    (front ++ [last]).modify front.length f = front ++ [f last] := by
  induction front with
  | nil => rfl
  | cons a front ih => exact congrArg (a :: ·) ih

lemma sendEach_spec (front : List Client) (resumed : Option Cursor)
    (sent messages : List ServerMessage) (s : Session)
    (hs : s.clients = front ++ [⟨resumed, sent⟩]) :
    wp (sendEach world front.length messages) (fun r s' => ∃ all more tick, r = .ok all ∧
      more <+: messages ∧ (all = true → more = messages) ∧
      s' = { s with clients := front ++ [⟨resumed, sent ++ more⟩], tick }) s := by
  induction messages generalizing sent s with
  | nil =>
    refine ⟨true, [], s.tick, rfl, List.prefix_rfl, fun _ => rfl, ?_⟩
    rw [List.append_nil, ← hs]
    rfl
  | cons message messages ih =>
    rw [sendEach, wp_bind, wp_trySend, andThen_ok]
    cases world.takes s.tick with
    | false =>
      refine ⟨false, [], s.tick + 1, rfl, List.nil_prefix, nofun, ?_⟩
      rw [List.append_nil, ← hs]
      rfl
    | true =>
      refine wp_mono (ih (sent ++ [message]) _ ?_) ?_
      · change s.clients.modify front.length (Client.push message) = _
        rw [hs, modify_concat_length]
        rfl
      · rintro r s' ⟨all, more, tick, rfl, hmore, hall, rfl⟩
        refine ⟨all, message :: more, tick, rfl, List.cons_prefix_cons.mpr ⟨rfl, hmore⟩, ?_, ?_⟩
        · intro h
          rw [hall h]
        · rw [← List.append_cons]
          rfl

lemma announceClients_runs (s : Session) : Runs Goes (announceClients world) s := by
  apply Runs.get_bind
  exact emit_runs world _ s

lemma attach_runs (a : Attach) (s : Session) : Runs Goes (attach world a) s := by
  rw [attach]
  apply Runs.get_bind
  apply Ends.set_bind
  rw [Ends, wp_bind, wp_trySend, andThen_ok, wp_when]
  constructor
  · intro htaken
    rw [wp_bind]
    refine wp_mono (sendEach_spec world s.clients (a.since.filter s.feed.reachesBack)
      [.welcome s.config.agent s.config.pane version] _ _ ?_) ?_
    · rw [htaken]
      exact modify_concat_length _ _ _
    rintro r s' ⟨all, more, tick, rfl, hmore, hall, rfl⟩
    rw [andThen_ok, wp_when]
    constructor
    · intro hsent
      obtain rfl := hall hsent
      apply Ends.modify_bind
      refine Runs.after (.single (Feed.Step.join a.conn a.isLocal rfl)) ?_
      apply Runs.when
      intro _
      exact announceClients_runs world _
    · intro _
      exact ⟨rfl, .single (Feed.Step.attach rfl (List.cons_prefix_cons.mpr ⟨rfl, hmore⟩))⟩
  · intro htaken
    refine ⟨rfl, ?_⟩
    rw [eq_false_of_ne_true htaken]
    exact .single (@Feed.Step.attach _ _ (.welcome s.config.agent s.config.pane version) _ rfl
      List.nil_prefix)

lemma detach_runs (conn : ℕ) (s : Session) : Runs Goes (detach world conn) s := by
  apply Runs.get_bind
  refine Runs.bind (Runs.modify (.single (Feed.Step.leave List.filter_sublist))) ?_
  intro _ s' _
  apply Runs.get_bind
  apply Runs.when
  intro _
  exact announceClients_runs world s'

lemma bye_runs (reason : ByeReason) (s : Session) : Runs Goes (bye world reason) s := by
  rw [bye]
  apply Runs.get_bind
  rw [Runs, Ends, wp_bind]
  refine wp_mono (sendAll_spec world _ _ _) ?_
  rintro r s' ⟨kept, tick, rfl, _, rfl⟩
  exact ⟨rfl, (Feed.steps_deliver rfl kept s.feed).tail (Feed.Step.leave (List.nil_sublist _))⟩

lemma sendTo_runs (conn : ℕ) {message : ServerMessage} (beside : message.cursor = none)
    (s : Session) : Runs Goes (sendTo world conn message) s := by
  rw [sendTo]
  apply Runs.get_bind
  cases s.subscribers.find? fun subscriber => decide (subscriber.conn = conn) with
  | none => exact Runs.pure ()
  | some subscriber =>
    refine Runs.bind (trySend_runs world subscriber.outbox beside s) ?_
    intro taken s' _
    apply Runs.when
    intro _
    exact detach_runs world conn s'

lemma ack_runs (conn : ℕ) (id : CommandId) (rejected : Option Rejection) (s : Session) :
    Runs Goes (ack world conn id rejected) s := by
  refine Runs.bind (Runs.modify (.of_feed rfl)) ?_
  intro _ s' _
  exact sendTo_runs world conn rfl s'

end Clients

section Agent

variable (world : World) (decode : Wire.Decoders)

lemma toAgent_runs (line : Outbound) (s : Session) : Runs Goes (toAgent world line) s := by
  refine Runs.bind (ask_runs (.of_feed rfl)) ?_
  intro failed s₁ _
  refine Runs.bind (Runs.when _ fun _ => Runs.modify (.of_feed rfl)) ?_
  intro _ s₂ _
  refine Runs.bind (Runs.when _ fun _ => Runs.modify (.of_feed rfl)) ?_
  intro _ s₃ _
  exact Runs.pure failed

lemma request_runs (call : AgentRequest) (pending : Pending) (s : Session) :
    Runs Goes (request world call pending) s := by
  refine Runs.bind (Runs.modify (.of_feed rfl)) ?_
  intro _ s₁ _
  apply Runs.get_bind
  refine Runs.bind (toAgent_runs world _ s₁) ?_
  intro failed s₂ _
  cases failed with
  | none =>
    refine Runs.bind (Runs.modify (.of_feed rfl)) ?_
    intro _ s₃ _
    exact Runs.pure true
  | some error =>
    refine Runs.bind (fail_runs world error s₂) ?_
    intro _ s₃ _
    exact Runs.pure false

lemma prepareAll_runs (accepts : Accepts) (attachments : List Attachment) (s : Session) :
    Runs Goes (prepareAll world accepts attachments) s := by
  induction attachments generalizing s with
  | nil => exact Runs.pure []
  | cons attachment attachments ih =>
    refine Runs.bind (ask_runs (.of_feed rfl)) ?_
    intro prepared s₁ _
    refine Runs.bind (ih s₁) ?_
    intro rest s₂ _
    exact Runs.pure _

lemma showPrepared_runs (prepared : List Prepared) (s : Session) :
    Runs Goes (showPrepared world prepared) s := by
  induction prepared generalizing s with
  | nil => exact Runs.pure ()
  | cons first rest ih =>
    refine Runs.bind (Runs.forM _ fun image => emitProjected_runs world _ s) ?_
    intro _ s' _
    exact ih s'

lemma beginTurn_runs (shown : String) (s : Session) : Runs Goes (beginTurn world shown) s := by
  refine Runs.bind ((tellHerdr_runs _ s).mono fun _ h => h.goes) ?_
  intro _ s₁ _
  refine Runs.bind (Runs.modify (.of_feed rfl)) ?_
  intro _ s₂ _
  refine Runs.bind (ask_runs (.of_feed rfl)) ?_
  intro now s₃ _
  refine Runs.bind (emit_runs world _ s₃) ?_
  intro _ s₄ _
  exact setStatus_runs world _ s₄

lemma sendPrompt_runs (text : String) (attachments : List Attachment) (s : Session) :
    Runs Goes (sendPrompt world text attachments) s := by
  rw [sendPrompt]
  apply Runs.get_bind
  cases s.acpSession with
  | none => exact Runs.pure ()
  | some session =>
    refine Runs.bind (prepareAll_runs world _ _ s) ?_
    intro prepared s₁ _
    refine Runs.bind (emitProjected_runs world _ s₁) ?_
    intro _ s₂ _
    refine Runs.bind (showPrepared_runs world prepared s₂) ?_
    intro _ s₃ _
    refine Runs.bind (request_runs world _ _ s₃) ?_
    intro sent s₄ _
    apply Runs.when
    intro _
    exact beginTurn_runs world _ s₄

lemma nextQueued_runs (s : Session) : Runs Goes (nextQueued world) s := by
  rw [nextQueued]
  apply Runs.get_bind
  apply Runs.when
  intro _
  cases s.transcript.queued with
  | nil => exact Runs.pure ()
  | cons next queued =>
    refine Runs.bind (emit_runs world _ s) ?_
    intro _ s' _
    exact sendPrompt_runs world _ _ s'

lemma resolve_runs (permission : PermissionId) (option : Option String) (s : Session) :
    Runs Goes (resolve world permission option) s := by
  rw [resolve]
  apply Runs.get_bind
  cases s.asked.lookup permission with
  | none => exact Runs.pure ()
  | some asked =>
    refine Runs.bind (Runs.set (.of_feed rfl)) ?_
    intro _ s₁ _
    refine Runs.bind (toAgent_runs world _ s₁) ?_
    intro failed s₂ _
    refine Runs.bind (Runs.forM failed fun error => fail_runs world error s₂) ?_
    intro _ s₃ _
    exact emit_runs world _ s₃

lemma resolveEach_runs (permissions : List PermissionId) (s : Session) :
    Runs Goes (resolveEach world permissions) s := by
  induction permissions generalizing s with
  | nil => exact Runs.pure ()
  | cons permission permissions ih =>
    refine Runs.bind (resolve_runs world permission none s) ?_
    intro _ s' _
    exact ih s'

lemma resolveAll_runs (s : Session) : Runs Goes (resolveAll world) s := by
  apply Runs.get_bind
  exact resolveEach_runs world _ s

lemma autoAnswer_runs (permission : PermissionId) (s : Session) :
    Runs Goes (autoAnswer world permission) s := by
  apply Runs.get_bind
  apply Runs.when
  intro _
  exact Runs.forM _ fun option => resolve_runs world _ _ s

lemma load_runs (response : Wire.InitializeResponse) (s : Session) :
    Runs Goes (load world response) s := by
  rw [load]
  apply Runs.get_bind
  cases s.config.load with
  | none =>
    refine Runs.bind (request_runs world _ _ s) ?_
    intro _ s' _
    exact Runs.pure ()
  | some id =>
    refine Runs.ite (fun _ => ?_) fun _ => Runs.ite (fun _ => fail_runs world _ s) fun _ => ?_
    · refine Runs.bind (Runs.modify (.of_feed rfl)) ?_
      intro _ s₁ _
      refine Runs.bind (request_runs world _ _ s₁) ?_
      intro _ s₂ _
      exact Runs.pure ()
    · refine Runs.bind (emitProjected_runs world _ s) ?_
      intro _ s₁ _
      refine Runs.bind (request_runs world _ _ s₁) ?_
      intro _ s₂ _
      exact Runs.pure ()

lemma initialized_runs (result : Except Wire.Error Value) (s : Session) :
    Runs Goes (initialized world decode result) s := by
  rw [initialized]
  split
  · exact fail_runs world _ s
  · exact fail_runs world _ s
  · refine Runs.bind (Runs.modify (.of_feed rfl)) ?_
    intro _ s' _
    exact load_runs world _ s'

lemma ready_runs (id : String) (modes : Option Modes) (settings : List ConfigOption)
    (s : Session) : Runs Goes (ready world id modes settings) s := by
  refine Runs.bind (Runs.modify (.of_feed rfl)) ?_
  intro _ s₁ _
  refine Runs.bind ((tellHerdr_runs _ s₁).mono fun _ h => h.goes) ?_
  intro _ s₂ _
  apply Runs.get_bind
  refine Runs.bind (emit_runs world _ s₂) ?_
  intro _ s₃ _
  refine Runs.bind (Runs.forM modes fun modes => emit_runs world _ s₃) ?_
  intro _ s₄ _
  refine Runs.bind (Runs.when _ fun _ => emit_runs world _ s₄) ?_
  intro _ s₅ _
  refine Runs.bind (Runs.modify (.of_feed rfl)) ?_
  intro _ s₆ _
  refine Runs.bind (setStatus_runs world _ s₆) ?_
  intro _ s₇ _
  exact nextQueued_runs world s₇

lemma readyWith_runs (modes : Option Modes) (settings : List ConfigOption) (s : Session) :
    Runs Goes (readyWith world modes settings) s := by
  rw [readyWith]
  apply Runs.get_bind
  cases s.acpSession with
  | none => exact Runs.pure ()
  | some id => exact ready_runs world id modes settings s

lemma sessionOpened_runs (loaded : Bool) (result : Except Wire.Error Value) (s : Session) :
    Runs Goes (sessionOpened world decode loaded result) s := by
  rw [sessionOpened]
  apply Runs.get_bind
  cases result with
  | error error => exact fail_runs world _ s
  | ok value =>
    refine Runs.ite (fun _ => readyWith_runs world _ _ s) fun _ => ?_
    cases decode.newSession (value.remove "configOptions") with
    | error error => exact fail_runs world _ s
    | ok response =>
      refine Runs.bind (Runs.modify (.of_feed rfl)) ?_
      intro _ s' _
      exact readyWith_runs world _ _ s'

lemma startedMs_runs (turn : Option Turn) (s : Session) : Runs Goes (startedMs world turn) s := by
  cases turn with
  | none => exact ask_runs (.of_feed rfl)
  | some turn => exact Runs.pure _

lemma turnEnded_runs (id : ℤ) (result : Except Wire.Error Value) (s : Session) :
    Runs Goes (turnEnded world decode id result) s := by
  rw [turnEnded]
  apply Runs.get_bind
  apply Runs.when
  intro _
  refine Runs.bind (Runs.set (.of_feed rfl)) ?_
  intro _ s₁ _
  refine Runs.bind (resolveAll_runs world s₁) ?_
  intro _ s₂ _
  refine Runs.bind (Runs.modify (.of_feed rfl)) ?_
  intro _ s₃ _
  rcases turnOutcome decode result with ⟨ending, tokens, error⟩
  refine Runs.bind (Runs.forM error fun error => emitProjected_runs world _ s₃) ?_
  intro _ s₄ _
  apply Runs.get_bind
  refine Runs.bind (startedMs_runs world _ s₄) ?_
  intro started s₅ _
  refine Runs.bind (ask_runs (.of_feed rfl)) ?_
  intro ended s₆ _
  refine Runs.bind (emitProjected_runs world _ s₆) ?_
  intro _ s₇ _
  refine Runs.bind (emit_runs world _ s₇) ?_
  intro _ s₈ _
  apply Runs.get_bind
  refine Runs.bind (Runs.when _ fun _ => setStatus_runs world _ s₈) ?_
  intro _ s₉ _
  exact nextQueued_runs world s₉

lemma response_runs (id : ℤ) (pending : Pending) (result : Except Wire.Error Value) (s : Session) :
    Runs Goes (response world decode id pending result) s := by
  cases pending with
  | handshake => exact initialized_runs world decode result s
  | newSession => exact sessionOpened_runs world decode false result s
  | loadSession => exact sessionOpened_runs world decode true result s
  | prompt => exact turnEnded_runs world decode id result s
  | setOption =>
    cases result with
    | error error => exact emitProjected_runs world _ s
    | ok value =>
      rw [response]
      cases value.get "configOptions" with
      | none => exact Runs.pure ()
      | some settings => exact emit_runs world _ s
  | setMode mode =>
    cases result with
    | error error => exact emitProjected_runs world _ s
    | ok value => exact emit_runs world _ s

lemma sessionUpdate_runs (params : Value) (s : Session) :
    Runs Goes (sessionUpdate world decode params) s := by
  rw [sessionUpdate]
  apply Runs.get_bind
  refine Runs.ite (fun _ => emit_runs world _ s) fun _ => ?_
  cases decode.notification params with
  | none => exact Runs.pure ()
  | some notification =>
    apply Runs.when
    intro _
    refine Runs.bind (ask_runs (.of_feed rfl)) ?_
    intro now s₁ _
    refine Runs.bind (project_runs (.of_feed rfl)) ?_
    intro changes s₂ _
    exact emitAll_runs world changes s₂

lemma askPermission_runs (id : RequestId) (request : Wire.RequestPermissionRequest) (s : Session) :
    Runs Goes (askPermission world id request) s := by
  rw [askPermission]
  apply Runs.get_bind
  refine Runs.bind (project_runs (.of_feed rfl)) ?_
  intro tool s₁ _
  refine Runs.bind (emit_runs world tool s₁) ?_
  intro _ s₂ _
  refine Runs.bind (Runs.modify (.of_feed rfl)) ?_
  intro _ s₃ _
  apply Runs.get_bind
  refine Runs.bind (Runs.modify (.of_feed rfl)) ?_
  intro _ s₄ _
  refine Runs.bind (emit_runs world _ s₄) ?_
  intro _ s₅ _
  exact autoAnswer_runs world _ s₅

lemma agentRequest_runs (id : RequestId) (method : String) (params : Value) (s : Session) :
    Runs Goes (agentRequest world decode id method params) s := by
  rw [agentRequest]
  apply Runs.get_bind
  refine Runs.ite (fun _ => ?_) fun _ => ?_
  · refine Runs.bind (toAgent_runs world _ s) ?_
    intro _ s' _
    exact Runs.pure ()
  · split
    · exact askPermission_runs world id _ s
    · refine Runs.bind (toAgent_runs world _ s) ?_
      intro _ s' _
      exact Runs.pure ()

lemma agent_runs (inbound : Inbound) (s : Session) : Runs Goes (agent world decode inbound) s := by
  rw [agent.eq_def]
  split
  · rename_i id result
    apply Runs.get_bind
    cases s.pending.lookup id with
    | none => exact Runs.pure ()
    | some pending =>
      refine Runs.bind (Runs.set (.of_feed rfl)) ?_
      intro _ s' _
      exact response_runs world decode id pending result s'
  · exact Runs.pure ()
  · apply Runs.when
    intro _
    exact sessionUpdate_runs world decode _ s
  · exact agentRequest_runs world decode _ _ _ s
  · exact fail_runs world _ s
  · exact Runs.pure ()

lemma exited_runs (code : Option ℤ) (stderr : List String) (s : Session) :
    Runs Goes (exited world code stderr) s := by
  rw [exited]
  apply Runs.get_bind
  refine Runs.bind (Runs.set (.of_feed rfl)) ?_
  intro _ s₁ _
  refine Runs.bind (emitAll_runs world _ s₁) ?_
  intro _ s₂ _
  refine Runs.bind (Runs.modify (.of_feed rfl)) ?_
  intro _ s₃ _
  apply Runs.get_bind
  refine Runs.bind (Runs.when _ fun _ => emit_runs world _ s₃) ?_
  intro _ s₄ _
  refine Runs.bind (clearQueue_runs world s₄) ?_
  intro _ s₅ _
  refine Runs.bind (ask_runs (.of_feed rfl)) ?_
  intro now s₆ _
  apply Runs.get_bind
  refine Runs.bind (emitAll_runs world _ s₆) ?_
  intro _ s₇ _
  refine Runs.bind (emitProjected_runs world _ s₇) ?_
  intro _ s₈ _
  exact setStatus_runs world _ s₈

end Agent

section Commands

variable (world : World)

lemma allReadable_runs (attachments : List Attachment) (s : Session) :
    Runs Goes (allReadable world attachments) s := by
  induction attachments generalizing s with
  | nil => exact Runs.pure true
  | cons attachment attachments ih =>
    refine Runs.bind (ask_runs (.of_feed rfl)) ?_
    intro readable s' _
    exact Runs.ite (fun _ => ih s') fun _ => Runs.pure false

lemma acceptPrompt_runs (id : CommandId) (text : String) (attachments : List Attachment)
    (s : Session) : Runs Goes (acceptPrompt world id text attachments) s := by
  apply Runs.get_bind
  refine Runs.ite (fun _ => ?_) fun _ => ?_
  · refine Runs.bind (emit_runs world _ s) ?_
    intro _ s' _
    exact Runs.pure none
  · refine Runs.bind (sendPrompt_runs world _ _ s) ?_
    intro _ s' _
    exact Runs.pure none

lemma prompt_runs (id : CommandId) (text : String) (attachments : List Attachment) (s : Session) :
    Runs Goes (prompt world id text attachments) s := by
  rw [prompt]
  refine Runs.ite (fun _ => Runs.pure _) fun _ => Runs.ite (fun _ => Runs.pure _) fun _ => ?_
  refine Runs.bind (allReadable_runs world attachments s) ?_
  intro readable s' _
  apply Runs.get_bind
  cases promptRefused s' readable text with
  | none => exact acceptPrompt_runs world id text attachments s'
  | some rejection => exact Runs.pure _

lemma cancelTurn_runs (s s' : Session) : Runs Goes (cancelTurn world s) s' := by
  rw [cancelTurn]
  split
  · refine Runs.bind (toAgent_runs world _ s') ?_
    intro failed s₁ _
    cases failed with
    | none => exact Runs.pure none
    | some error =>
      refine Runs.bind (fail_runs world error s₁) ?_
      intro _ s₂ _
      exact Runs.pure _
  · exact Runs.pure none

lemma cancel_runs (s : Session) : Runs Goes (cancel world) s := by
  apply Runs.get_bind
  refine Runs.ite (fun _ => Runs.pure _) fun _ => ?_
  refine Runs.bind (clearQueue_runs world s) ?_
  intro _ s₁ _
  refine Runs.bind (resolveAll_runs world s₁) ?_
  intro _ s₂ _
  apply Runs.get_bind
  exact cancelTurn_runs world s₂ s₂

lemma answer_runs (permission : PermissionId) (option : String) (s : Session) :
    Runs Goes (answer world permission option) s := by
  rw [answer]
  apply Runs.get_bind
  cases s.asked.lookup permission with
  | none => exact Runs.pure _
  | some asked =>
    refine Runs.ite (fun _ => ?_) fun _ => Runs.pure _
    refine Runs.bind (resolve_runs world permission _ s) ?_
    intro _ s' _
    exact Runs.pure none

lemma requested_runs (call : AgentRequest) (pending : Pending) (s : Session) :
    Runs Goes (requested world call pending) s := by
  refine Runs.bind (request_runs world call pending s) ?_
  intro sent s' _
  exact Runs.pure _

lemma setMode_runs (mode : String) (s : Session) : Runs Goes (setMode world mode) s := by
  rw [setMode]
  apply Runs.get_bind
  cases s.acpSession with
  | none => exact Runs.pure _
  | some session => exact Runs.ite (fun _ => requested_runs world _ _ s) fun _ => Runs.pure _

lemma setOption_runs (id : String) (value : OptionValue) (s : Session) :
    Runs Goes (setOption world id value) s := by
  rw [setOption]
  apply Runs.get_bind
  cases s.acpSession with
  | none => exact Runs.pure _
  | some session => exact Runs.ite (fun _ => requested_runs world _ _ s) fun _ => Runs.pure _

lemma autoAnswerEach_runs (permissions : List PermissionId) (s : Session) :
    Runs Goes (autoAnswerEach world permissions) s := by
  induction permissions generalizing s with
  | nil => exact Runs.pure ()
  | cons permission permissions ih =>
    refine Runs.bind (autoAnswer_runs world permission s) ?_
    intro _ s' _
    exact ih s'

lemma setAutoAccept_runs (on : Bool) (s : Session) : Runs Goes (setAutoAccept world on) s := by
  apply Runs.get_bind
  refine Runs.bind (Runs.when _ fun _ => emit_runs world _ s) ?_
  intro _ s₁ _
  refine Runs.bind (Runs.when _ fun _ => Runs.get_bind (autoAnswerEach_runs world _ s₁)) ?_
  intro _ s₂ _
  exact Runs.pure none

lemma unqueue_runs (id : CommandId) (s : Session) : Runs Goes (unqueue world id) s := by
  rw [unqueue]
  apply Runs.get_bind
  cases s.transcript.queued.findIdx? fun queued => decide (queued.id = id) with
  | none => exact Runs.pure _
  | some index =>
    refine Runs.bind (emit_runs world _ s) ?_
    intro _ s' _
    exact Runs.pure none

lemma carryOutCommand_runs (id : CommandId) (c : Command) (s : Session) :
    Runs Goes (carryOutCommand world id c) s := by
  cases c with
  | prompt text attachments => exact prompt_runs world id text attachments s
  | cancel => exact cancel_runs world s
  | answer option permission => exact answer_runs world permission option s
  | setMode mode => exact setMode_runs world mode s
  | setOption id value => exact setOption_runs world id value s
  | unqueue id => exact unqueue_runs world id s
  | setAutoAccept on => exact setAutoAccept_runs world on s

lemma command_runs (conn : ℕ) (id : CommandId) (c : Command) (s : Session) :
    Runs Goes (command world conn id c) s := by
  rw [command]
  apply Runs.get_bind
  split
  · exact sendTo_runs world conn rfl s
  · refine Runs.bind (carryOutCommand_runs world id c s) ?_
    intro rejected s' _
    exact ack_runs world conn id rejected s'

end Commands

section Run

variable (world : World) (decode : Wire.Decoders)

lemma start_runs (s : Session) : Runs Goes (start world) s := by
  refine Runs.bind (request_runs world _ _ s) ?_
  intro _ s' _
  exact (reportActivity_runs s').mono fun _ h => h.goes

lemma handle_runs (input : Input) (s : Session) : Runs Goes (handle world decode input) s := by
  cases input with
  | agent inbound => exact Runs.bind (agent_runs world decode inbound s) fun _ _ _ => Runs.pure _
  | agentExited code stderr =>
    refine Runs.bind (exited_runs world code stderr s) ?_
    intro _ s₁ _
    apply Runs.get_bind
    refine Runs.ite (fun _ => ?_) fun _ => Runs.pure _
    exact Runs.bind (bye_runs world _ s₁) fun _ _ _ => Runs.pure _
  | attach a => exact Runs.bind (attach_runs world a s) fun _ _ _ => Runs.pure _
  | command c conn id => exact Runs.bind (command_runs world conn id c s) fun _ _ _ => Runs.pure _
  | detach conn => exact Runs.bind (detach_runs world conn s) fun _ _ _ => Runs.pure _
  | shutdown => exact Runs.bind (bye_runs world _ s) fun _ _ _ => Runs.pure _
  | unsupported conn id => exact Runs.bind (ack_runs world conn id _ s) fun _ _ _ => Runs.pure _

lemma notices_runs (found : List (NoticeLevel × String)) (s : Session) :
    Runs Goes (notices world found) s := by
  induction found generalizing s with
  | nil => exact Runs.pure ()
  | cons notice rest ih =>
    refine Runs.bind (emitProjected_runs world _ s) ?_
    intro _ s' _
    exact ih s'

lemma handleAll_runs (inputs : List Input) (s : Session) :
    Runs Goes (handleAll world decode inputs) s := by
  induction inputs generalizing s with
  | nil => exact Runs.pure ()
  | cons input inputs ih =>
    refine Runs.bind (handle_runs world decode input s) ?_
    intro flow s' _
    exact Runs.ite (fun _ => Runs.pure ()) fun _ => ih s'

lemma runSession_runs (found : List (NoticeLevel × String)) (inputs : List Input) (s : Session) :
    Runs Goes (runSession world decode found inputs) s := by
  refine Runs.bind (notices_runs world found s) ?_
  intro _ s₁ _
  refine Runs.bind (start_runs world s₁) ?_
  intro _ s₂ _
  exact handleAll_runs world decode inputs s₂

end Run

end Sheprd.Acp
