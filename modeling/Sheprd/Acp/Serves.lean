import Sheprd.Acp.DeskRuns

namespace Sheprd.Acp

open Sheprd.Lib Sheprd.Lib.Exec Sheprd.Chat Session

inductive Input.Own : Input → List Act → Prop
  | nothing (input : Input) : Own input []
  | reply (id : ℤ) (result : Except Wire.Error Value) :
      Own (.agent (.response (.number id) result)) [.reply id]
  | ask (request : RequestId) (params : Value) :
      Own (.agent (.request request "session/request_permission" params)) [.ask request]
  | refuse (request : RequestId) (params : Value) :
      Own (.agent (.request request "session/request_permission" params)) [.refuse request]
  | accept (prompt : Queued) (conn : ℕ) :
      Own (.command (.prompt prompt.text prompt.attachments) conn prompt.id) [.accept prompt]
  | takeBack (conn : ℕ) (id queued : CommandId) :
      Own (.command (.unqueue queued) conn id) [.takeBack queued]
  | clear (conn : ℕ) (id : CommandId) : Own (.command .cancel conn id) [.clear]
  | exit (code : Option ℤ) (stderr : List String) : Own (.agentExited code stderr) [.exit]

def Desk.Serves (world : World) (own : List Act) (d d' : Desk) : Prop :=
  ∃ first rest d₁ d₂, (∀ act ∈ first, act.leading = true) ∧ (∀ act ∈ rest, act.quiet = true) ∧
    Run (Desk.Step world) d own d₁ ∧ Run (Desk.Step world) d₁ first d₂ ∧
    Run (Desk.Step world) d₂ rest d'

structure Session.Serves (world : World) (own : List Act) (s s' : Session) : Prop where
  run : Desk.Serves world own s.desk s'.desk
  settled : s'.desk.Settled
  tally : s.Tallies s'

namespace Desk.Serves

variable {world : World} {own : List Act} {d d' : Desk}

lemma sound (h : Serves world own d d') (hd : d.Sound) : d'.Sound := by
  obtain ⟨first, rest, d₁, d₂, -, -, h₁, h₂, h₃⟩ := h
  exact ((hd.run h₁).run h₂).run h₃

lemma handled (h : Serves world own d d') (hown : Act.ack ∉ own) : d'.handled = d.handled := by
  have hrun : ∀ {acts : List Act} {e e' : Desk}, (∀ act ∈ acts, act ≠ .ack) →
      Run (Desk.Step world) e acts e' → e'.handled = e.handled := by
    intro acts e e' hacts hr
    refine hr.among (P := fun f => f.handled = e.handled) rfl (fun f act f' hact hf hs => ?_) hacts
    cases hs <;> first | exact hf | exact absurd rfl hact
  obtain ⟨first, rest, d₁, d₂, hfirst, hrest, h₁, h₂, h₃⟩ := h
  rw [hrun ?_ h₃, hrun ?_ h₂, hrun ?_ h₁]
  · rintro act hm rfl
    exact hown hm
  · rintro act hm rfl
    cases hfirst _ hm
  · rintro act hm rfl
    cases hrest _ hm

end Desk.Serves

namespace Session

variable {world : World} {own : List Act} {s s' s'' : Session} {d : Desk}

lemma Leads.serves (h : s.Leads world Act.leading s') (hs : s'.desk.Settled) :
    s.Serves world [] s' := by
  obtain ⟨first, rest, mid, hfirst, hrest, hf, hm⟩ := h.run
  exact ⟨⟨first, rest, s.desk, mid, hfirst, hrest, .nil, hf, hm⟩, hs, h.tally⟩

lemma Leads.serves_reply {id : ℤ} (h : (s.replied id).Leads world Act.leading s')
    (hs : s'.desk.Settled) : s.Serves world [.reply id] s' := by
  obtain ⟨first, rest, mid, hfirst, hrest, hf, hm⟩ := h.run
  have hstep : Desk.Step world s.desk (.reply id) (s.replied id).desk := .reply id
  have htally : s.Tallies (s.replied id) := Or.inr ⟨rfl, rfl⟩
  exact ⟨⟨first, rest, _, mid, hfirst, hrest, Run.nil.snoc hstep, hf, hm⟩, hs, htally.trans h.tally⟩

lemma Moves.serves (h : s.Moves world Act.quiet s') (hd : s.desk.Sound) (hs : s.desk.Settled) :
    s.Serves world [] s' :=
  Leads.serves h.quiet_leads (h.settled (fun _ => Act.steady_of_quiet) hd hs)

lemma Rests.serves (h : s.Rests s') (hs : s.desk.Settled) : s.Serves world [] s' :=
  Leads.serves (Moves.quiet_leads h.moves) (h.desk ▸ hs)

lemma Brings.serves {act : Act} (h : s.Brings d s') (hstep : Desk.Step world s.desk act d)
    (h' : s'.Moves world Act.quiet s'') (hsettled : s''.desk.Settled) :
    s.Serves world [act] s'' := by
  obtain ⟨rest, hrest, hr⟩ := h'.run
  refine ⟨⟨[], rest, s'.desk, s'.desk, List.forall_mem_nil _, hrest, ?_, .nil, hr⟩, hsettled,
    h.tally.trans h'.tally⟩
  rw [h.desk]
  exact Run.nil.snoc hstep

lemma Brings.serves_steady {act : Act} (h : s.Brings d s') (hstep : Desk.Step world s.desk act d)
    (hact : act.steady = true) (h' : s'.Moves world Act.quiet s'') (hd : s.desk.Sound)
    (hs : s.desk.Settled) : s.Serves world [act] s'' := by
  refine h.serves hstep h' (h'.settled (fun _ => Act.steady_of_quiet) ?_ ?_)
  · rw [h.desk]
    exact hd.step hstep
  · rw [h.desk]
    refine hs.run (Run.nil.snoc hstep) (fun a hm => ?_) hd
    rwa [List.mem_singleton.mp hm]

lemma Serves.since (h : s'.Serves world own s'') (h' : s.Rests s') : s.Serves world own s'' := by
  obtain ⟨first, rest, d₁, d₂, hfirst, hrest, hr, hruns⟩ := h.run
  rw [h'.desk] at hr
  exact ⟨⟨first, rest, d₁, d₂, hfirst, hrest, hr, hruns⟩, h.settled, h'.tally.trans h.tally⟩

end Session

section Agent

variable (world : World) (decode : Wire.Decoders) {s : Session} (hd : s.desk.Sound)
  (hs : s.desk.Settled)

lemma sessionUpdate_rests (params : Value) (s : Session) :
    Post (fun _ s' => s.Rests s') (sessionUpdate world decode params) s := by
  rw [sessionUpdate]
  apply Post.get_bind
  refine Post.ite (fun _ => emit_rests world rfl s) fun _ => ?_
  cases decode.notification params with
  | none => exact Post.pure (.refl s)
  | some notification =>
    refine Post.when _ (fun _ => ?_) fun _ => .refl s
    refine Post.bind (ask_rests _ s) ?_
    intro now s₁ h₁
    apply project_post
    refine (emitAll_rests world (fun c hc => Change.neutral_of_projected
      ((Projector.update_makes decode _ _ _ _).projected c hc)) _).mono ?_
    exact fun _ _ h => h₁.trans (h.after rfl rfl rfl)

include hd hs

lemma askPermission_serves (request : RequestId) (asking : Wire.RequestPermissionRequest) :
    Post (fun _ s' => s.Serves world [.ask request] s') (askPermission world request asking) s := by
  apply Post.get_bind
  refine project_post ?_
  refine Post.bind (emit_rests world (Change.neutral_of_projected
    ((Projector.tool_makes _ _ _ _).projected _ (List.mem_singleton_self _))) _) ?_
  intro _ s₁ h₁
  have hs₁ : s.Rests s₁ := h₁.after rfl rfl rfl
  apply Post.modify_bind
  apply Post.get_bind
  refine Post.modify_bind ?_
  refine Post.bind (emit_tells world (.permissionAsked _) _) ?_
  intro _ s₂ h₂
  have hs₂ : s₁.Brings (s₁.desk.asks request
      ((asking.options.map permissionOption).map fun option => option.id)) s₂ := by
    exact Brings.since ⟨h₂.desk.trans (Desk.shows_asked s₁.desk _ _ rfl), h₂.tally nofun⟩ rfl rfl
  refine (autoAnswer_moves world _ s₂).mono fun _ s₃ h₃ => ?_
  exact (hs₁.before (Desk.asks request _) hs₂).serves_steady (.ask request _) rfl
    (h₃.mono fun _ => Act.quiet_of_settling) hd hs

lemma agentRequest_serves (id : RequestId) (method : String) (params : Value) :
    Post (fun _ s' => ∃ own, Input.Own (.agent (.request id method params)) own ∧
      s.Serves world own s') (agentRequest world decode id method params) s := by
  apply Post.get_bind
  refine Post.ite (fun _ => ?_) fun hmethod => ?_
  · refine Post.bind (toAgent_brings world (.methodNotFound id) s) fun failed s₁ h₁ => Post.pure ?_
    refine ⟨[], .nothing _, ?_⟩
    cases failed with
    | none =>
      have hstep : Desk.Step world s.desk .beside (s.desk.tell [.methodNotFound id]) :=
        .tell (by simp [Outbound.promptBlocks]) (by simp [Outbound.answers])
      exact (h₁.moves hstep rfl).serves hd hs
    | some error => exact Rests.serves ⟨h₁.desk, h₁.tally⟩ hs
  · obtain rfl : method = "session/request_permission" := not_not.mp hmethod
    split
    · rename_i asking _
      refine (askPermission_serves world hd hs id asking).mono fun _ s' h => ?_
      exact ⟨_, .ask id params, h⟩
    · refine Post.bind (toAgent_brings world (.invalidParams id) s) fun failed s₁ h₁ => Post.pure ?_
      cases failed with
      | none =>
        refine ⟨_, .refuse id params, ?_⟩
        exact h₁.serves_steady (.refuse id) rfl (Rests.refl s₁).moves hd hs
      | some error => exact ⟨[], .nothing _, Rests.serves ⟨h₁.desk, h₁.tally⟩ hs⟩

lemma agent_serves (inbound : Inbound) :
    Post (fun _ s' => ∃ own, Input.Own (.agent inbound) own ∧ s.Serves world own s')
      (agent world decode inbound) s := by
  have hrest : s.Serves world [] s := (Rests.refl s).serves hs
  cases inbound with
  | response id result =>
    cases id with
    | number id =>
      apply Post.get_bind
      cases hl : s.pending.lookup id with
      | none => exact Post.pure ⟨[], .nothing _, hrest⟩
      | some kind =>
        apply Post.set_bind
        refine (response_moves hd hs hl result).mono fun _ s' h => ?_
        exact ⟨[.reply id], .reply id result, h.1.serves_reply h.2⟩
    | _ => exact Post.pure ⟨[], .nothing _, hrest⟩
  | notification method params =>
    refine Post.when _ (fun _ => ?_) fun _ => ⟨[], .nothing _, hrest⟩
    refine (sessionUpdate_rests world decode params s).mono fun _ s' h => ?_
    exact ⟨[], .nothing _, h.serves hs⟩
  | request id method params => exact agentRequest_serves world decode hd hs id method params
  | closed error =>
    cases error with
    | none => exact Post.pure ⟨[], .nothing _, hrest⟩
    | some error =>
      refine (fail_moves world error s).mono fun _ s' h => ?_
      exact ⟨[], .nothing _, h.1.serves hd hs⟩

end Agent

section Exit

variable (world : World)

lemma withdrawAll_brings (permissions : List Permission) {s : Session}
    (hp : s.desk.permissions = permissions.map fun permission => permission.id) :
    Post (fun _ s' => s.Brings { s.desk with permissions := [] } s')
      (emitAll world (permissions.map fun permission => .permissionResolved permission.id)) s := by
  induction permissions generalizing s with
  | nil =>
    rw [List.map_nil] at hp
    rw [← hp]
    exact Post.pure (Rests.refl s).brings
  | cons permission permissions ih =>
    refine Post.bind (emit_brings world (.permissionResolved permission.id) nofun s) ?_
    intro _ s₁ h₁
    have hp₁ : s₁.desk.permissions = permissions.map fun permission => permission.id := by
      rw [h₁.desk]
      change s.desk.permissions.erase permission.id = _
      rw [hp, List.map_cons, List.erase_cons_head]
    exact (ih hp₁).mono fun _ _ h => h₁.next (fun d => { d with permissions := [] }) h

lemma stopTurn_brings (s : Session) :
    Post (fun _ s' => s.Brings { s.desk with running := false } s')
      (when s.transcript.turn.isSome (emit world (.turn none))) s := by
  refine Post.when _ (fun _ => emit_brings world (.turn none) nofun s) fun hnone => ?_
  have hrunning : s.desk.running = false := hnone
  rw [← hrunning]
  exact (Rests.refl s).brings

lemma exited_brings (code : Option ℤ) (stderr : List String) (s : Session) :
    Post (fun _ s' => s.Brings (s.desk.exits (exitMessage s.config.agent code)) s')
      (exited world code stderr) s := by
  apply Post.get_bind
  refine Post.set_bind ?_
  refine Post.bind (withdrawAll_brings world s.transcript.permissions rfl) ?_
  intro _ s₁ h₁
  apply Post.modify_bind
  apply Post.get_bind
  refine Post.bind (stopTurn_brings world _) ?_
  intro _ s₂ h₂
  refine Post.bind (clearQueue_brings world s₂) ?_
  intro _ s₃ h₃
  have hs₃ := h₂.next (fun d => { d with queued := [] }) h₃
  refine Post.bind (ask_rests _ s₃) ?_
  intro now s₄ h₄
  apply Post.get_bind
  refine Post.bind (emitAll_rests world (fun _ hc => Change.neutral_of_projected (killAll_projected 0 hc)) s₄) ?_
  intro _ s₅ h₅
  refine Post.bind (notice_rests world _ _ s₅) ?_
  intro _ s₆ h₆
  refine (setStatus_brings world _ s₆).mono fun _ s₇ h₇ => ?_
  have hs₇ := (((hs₃.rests h₄).rests h₅).rests h₆).next
    (fun d => { d with status := .exited (exitMessage s.config.agent code) }) h₇
  have hend := h₁.next (fun d => { d with
    turn := none, ready := false, running := false, queued := []
    status := .exited (exitMessage s.config.agent code) }) (hs₇.since rfl rfl)
  exact hend.since rfl rfl

end Exit

def Act.accepted : Act → Option Queued
  | .accept prompt => some prompt
  | _ => none

def Command.accepted (id : CommandId) (rejected : Option Rejection) : Command → List Queued
  | .prompt text attachments => if rejected.isNone then [⟨attachments, id, text⟩] else []
  | _ => []

section Commands

variable (world : World)

lemma allReadable_rests (attachments : List Attachment) (s : Session) :
    Post (fun _ s' => s.Rests s') (allReadable world attachments) s := by
  induction attachments generalizing s with
  | nil => exact Post.pure (.refl s)
  | cons attachment attachments ih =>
    refine Post.bind (ask_rests _ s) ?_
    intro readable s₁ h₁
    exact Post.ite (fun _ => (ih s₁).mono fun _ _ h => h₁.trans h) fun _ => Post.pure h₁

variable {s : Session} (hd : s.desk.Sound) (hs : s.desk.Settled)

include hd hs

variable {world} in
lemma accepted_serves {next : Queued} {acts : List Act} {s' : Session} (hready : s.ready = true)
    (hacts : ∀ act ∈ acts, act.quiet = true)
    (hr : Run (Desk.Step world) { s.desk with queued := s.desk.queued ++ [next] } acts s'.desk)
    (hwaits : s'.desk.Waits) (htally : s.Tallies s') : s.Serves world [.accept next] s' := by
  have hstep : Desk.Step world s.desk (.accept next) { s.desk with queued := s.desk.queued ++ [next] } :=
    .accept next
  have hd₁ := hd.step hstep
  have hsteady : ∀ act ∈ acts, act.steady = true := fun act hm => Act.steady_of_quiet (hacts act hm)
  have hflies : Desk.Flies { s.desk with queued := s.desk.queued ++ [next] } := hs.flies
  have hstarts : Desk.Starts { s.desk with queued := s.desk.queued ++ [next] } := hs.starts
  have hqueues : Desk.Queues { s.desk with queued := s.desk.queued ++ [next] } := by
    intro hunready
    rw [show s.ready = false from hunready] at hready
    cases hready
  refine ⟨⟨[], acts, _, _, List.forall_mem_nil _, hacts, Run.nil.snoc hstep, .nil, hr⟩, ⟨hwaits, ?_, ?_, ?_⟩, htally⟩
  · exact hflies.run hr (fun act hm => Act.ne_reply_of_steady (hsteady act hm)) hd₁
  · exact hstarts.run hr (fun act hm => Act.ne_reply_of_steady (hsteady act hm)) hd₁
  · exact hqueues.run hr fun act hm => Act.ne_accept_of_steady (hsteady act hm)

lemma queuePrompt_serves (next : Queued) (hbusy : s.turn.isSome = true ∨ s.ready = false)
    (haccepts : s.transcript.status.acceptsPrompts = true) :
    Post (fun _ s' => s.Serves world [.accept next] s')
      (queueChanged world (s.transcript.queued ++ [next])) s := by
  refine (emit_brings world (.queue _) nofun s).mono fun _ s' h => ?_
  refine h.serves (.accept next) (Rests.refl s').moves ?_
  rw [h.desk]
  refine ⟨fun _ => hbusy, hs.flies, hs.starts, fun hunready _ => ?_⟩
  obtain ⟨hidle, hworking⟩ := hd.unready hunready
  change s.transcript.status = _
  revert haccepts
  cases hstatus : s.transcript.status with
  | starting => exact fun _ => rfl
  | idle => exact absurd hstatus hidle
  | working => exact absurd hstatus hworking
  | failed _ => nofun
  | exited _ => nofun

lemma directPrompt_serves (next : Queued) (hfree : s.turn = none) (hready : s.ready = true) :
    Post (fun _ s' => s.Serves world [.accept next] s')
      (sendPrompt world next.text next.attachments) s := by
  obtain ⟨session, hsession⟩ := Option.isSome_iff_exists.mp (hd.named hready)
  have hqueue : s.desk.queued = [] := by
    by_contra hne
    rcases hs.waits hne with hturn | hunready
    · rw [show s.desk.turn = none from hfree] at hturn
      cases hturn
    · rw [show s.desk.ready = true from hready] at hunready
      cases hunready
  let waiting : Desk := { s.desk with queued := s.desk.queued ++ [next] }
  refine (sendPrompt_brings world next.text next.attachments next.id hsession).mono ?_
  rintro _ s' (⟨blocks, hcarries, h⟩ | ⟨message, h⟩)
  · have hfirst : waiting.queued = next :: [] := congrArg (· ++ [next]) hqueue
    have hstep : Desk.Step world waiting (.deliver next) { (waiting.calls (.prompt session blocks)
        .prompt).begins with queued := [] } := .deliver hfirst hfree hready hcarries
    rw [Desk.deliver_accepted hqueue, ← h.desk] at hstep
    refine accepted_serves hd hs hready ?_ (Run.nil.snoc hstep) ?_ h.tally
    · simp [Act.quiet]
    · rw [h.desk]
      exact fun _ => Or.inl rfl
  · have hnumbered : Desk.Step world waiting .beside waiting.numbers := .numbered
    have hfailed : Desk.Step world waiting.numbers .fail s'.desk := by
      rw [h.desk]
      exact .fail message
    refine accepted_serves hd hs hready ?_ ((Run.nil.snoc hnumbered).snoc hfailed) ?_ h.tally
    · simp [Act.quiet]
    · rw [h.desk]
      exact fun hne => absurd rfl hne

lemma acceptPrompt_serves (id : CommandId) (text : String) (attachments : List Attachment)
    (haccepts : s.transcript.status.acceptsPrompts = true) :
    Post (fun rejected s' => rejected = none ∧ s.Serves world [.accept ⟨attachments, id, text⟩] s')
      (acceptPrompt world id text attachments) s := by
  apply Post.get_bind
  refine Post.ite (fun hbusy => ?_) fun hfree => ?_
  · have hbusy : s.turn.isSome = true ∨ s.ready = false := by simpa using hbusy
    refine Post.bind (queuePrompt_serves world hd hs ⟨attachments, id, text⟩ hbusy haccepts) ?_
    exact fun _ s' h => Post.pure ⟨rfl, h⟩
  · obtain ⟨hturn, hready⟩ : s.turn = none ∧ s.ready = true := by simpa using hfree
    refine Post.bind (directPrompt_serves world hd hs ⟨attachments, id, text⟩ hturn hready) ?_
    exact fun _ s' h => Post.pure ⟨rfl, h⟩

lemma prompt_serves (id : CommandId) (text : String) (attachments : List Attachment) :
    Post (fun rejected s' => (rejected = none → s.Serves world [.accept ⟨attachments, id, text⟩] s') ∧
        (rejected ≠ none → s.Serves world [] s'))
      (prompt world id text attachments) s := by
  have hrefused : ∀ {s' : Session} (rejection : Rejection), s.Rests s' →
      (some rejection = none → s.Serves world [.accept ⟨attachments, id, text⟩] s') ∧
        (some rejection ≠ none → s.Serves world [] s') :=
    fun _ h => ⟨nofun, fun _ => h.serves hs⟩
  rw [prompt]
  refine Post.ite (fun _ => Post.pure (hrefused _ (.refl s))) fun _ => ?_
  refine Post.ite (fun _ => Post.pure (hrefused _ (.refl s))) fun _ => ?_
  refine Post.bind (allReadable_rests world attachments s) ?_
  intro readable s₁ h₁
  apply Post.get_bind
  cases hrefusal : promptRefused s₁ readable text with
  | some rejection => exact Post.pure (hrefused _ h₁)
  | none =>
    have haccepts : s₁.transcript.status.acceptsPrompts = true := by
      by_contra hnot
      simp only [promptRefused] at hrefusal
      grind
    have hd₁ : s₁.desk.Sound := h₁.desk ▸ hd
    have hs₁ : s₁.desk.Settled := h₁.desk ▸ hs
    refine (acceptPrompt_serves world hd₁ hs₁ id text attachments haccepts).mono ?_
    rintro _ s₂ ⟨rfl, h₂⟩
    exact ⟨fun _ => h₂.since h₁, nofun⟩

omit hd hs in
lemma cancelTurn_moves (s₀ s : Session) :
    Post (fun _ s' => s.Moves world Act.quiet s') (cancelTurn world s₀) s := by
  rw [cancelTurn]
  split
  · rename_i session _ _
    refine Post.bind (toAgent_brings world (.cancel session) s) ?_
    intro failed s₁ h₁
    cases failed with
    | none =>
      have hstep : Desk.Step world s.desk .beside (s.desk.tell [.cancel session]) :=
        .tell (by simp [Outbound.promptBlocks]) (by simp [Outbound.answers])
      exact Post.pure (h₁.moves hstep rfl)
    | some error =>
      refine Post.bind (fail_moves world error s₁) fun _ s₂ h₂ => Post.pure ?_
      exact (Rests.moves ⟨h₁.desk, h₁.tally⟩).trans h₂.1
  · exact Post.pure (Rests.refl s).moves

lemma cancel_serves :
    Post (fun _ s' => ∃ own, (own = [] ∨ own = [.clear]) ∧ s.Serves world own s') (cancel world) s := by
  apply Post.get_bind
  refine Post.ite (fun _ => Post.pure ⟨[], Or.inl rfl, (Rests.refl s).serves hs⟩) fun _ => ?_
  refine Post.bind (clearQueue_brings world s) ?_
  intro _ s₁ h₁
  refine Post.bind (resolveAll_moves world s₁) ?_
  intro _ s₂ h₂
  apply Post.get_bind
  refine (cancelTurn_moves world s₂ s₂).mono fun _ s₃ h₃ => ⟨[.clear], Or.inr rfl, ?_⟩
  exact h₁.serves_steady .clear rfl ((h₂.mono fun _ => Act.quiet_of_settling).trans h₃) hd hs

omit hd hs in
lemma answer_moves (permission : PermissionId) (option : String) (s : Session) :
    Post (fun _ s' => s.Moves world Act.quiet s') (answer world permission option) s := by
  rw [answer]
  apply Post.get_bind
  cases s.asked.lookup permission with
  | none => exact Post.pure (Rests.refl s).moves
  | some asked =>
    refine Post.ite (fun _ => ?_) fun _ => Post.pure (Rests.refl s).moves
    refine Post.bind (resolve_moves world permission _ s) ?_
    exact fun _ _ h => Post.pure (h.mono fun _ => Act.quiet_of_settling)

omit hd hs in
lemma requested_moves {call : AgentRequest} {kind : Pending} (hp : kind.isPrompt = false)
    (ho : kind.opens = false) (plain : ∀ id, (Outbound.request id call).promptBlocks = none)
    (s : Session) : Post (fun _ s' => s.Moves world Act.quiet s') (requested world call kind) s := by
  refine Post.bind (request_brings world call kind s) ?_
  rintro sent s' ⟨hsent, hfailed⟩
  refine Post.pure ?_
  cases sent with
  | true =>
    refine (hsent rfl).moves (.calls hp plain (fun h => ?_) fun h => ?_) rfl
    · rw [ho] at h
      cases h
    · rw [h] at ho
      cases ho
  | false =>
    obtain ⟨message, h⟩ := hfailed rfl
    exact h.moves_twice .numbered (.fail message) rfl rfl

omit hd hs in
lemma setMode_moves (mode : String) (s : Session) :
    Post (fun _ s' => s.Moves world Act.quiet s') (setMode world mode) s := by
  rw [setMode]
  apply Post.get_bind
  cases s.acpSession with
  | none => exact Post.pure (Rests.refl s).moves
  | some session =>
    refine Post.ite (fun _ => ?_) fun _ => Post.pure (Rests.refl s).moves
    exact requested_moves world rfl rfl (fun _ => rfl) s

omit hd hs in
lemma setOption_moves (id : String) (value : OptionValue) (s : Session) :
    Post (fun _ s' => s.Moves world Act.quiet s') (setOption world id value) s := by
  rw [setOption]
  apply Post.get_bind
  cases s.acpSession with
  | none => exact Post.pure (Rests.refl s).moves
  | some session =>
    refine Post.ite (fun _ => ?_) fun _ => Post.pure (Rests.refl s).moves
    exact requested_moves world rfl rfl (fun _ => rfl) s

omit hd hs in
lemma setAutoAccept_moves (on : Bool) (s : Session) :
    Post (fun _ s' => s.Moves world Act.quiet s') (setAutoAccept world on) s := by
  apply Post.get_bind
  refine Post.bind (Q := fun _ s' => s.Rests s') ?_ ?_
  · exact Post.when _ (fun _ => emit_rests world rfl s) fun _ => .refl s
  intro _ s₁ h₁
  refine Post.bind (Q := fun _ s' => s.Moves world Act.quiet s') ?_ fun _ _ h => Post.pure h
  refine Post.when _ (fun _ => ?_) fun _ => h₁.moves
  apply Post.get_bind
  have heach : ∀ permissions s, Post (fun _ s' => s.Moves world Act.settling s')
      (autoAnswerEach world permissions) s :=
    foldMoves rfl (fun _ _ => rfl) (autoAnswer_moves world)
  refine (heach _ s₁).mono fun _ _ h => ?_
  exact h₁.moves.trans (h.mono fun _ => Act.quiet_of_settling)

lemma unqueue_serves (id : CommandId) :
    Post (fun _ s' => ∃ own, (own = [] ∨ own = [.takeBack id]) ∧ s.Serves world own s')
      (unqueue world id) s := by
  rw [unqueue]
  apply Post.get_bind
  cases hfound : s.transcript.queued.findIdx? fun queued => decide (queued.id = id) with
  | none => exact Post.pure ⟨[], Or.inl rfl, (Rests.refl s).serves hs⟩
  | some index =>
    obtain ⟨hlt, hid, -⟩ := List.findIdx?_eq_some_iff_getElem.mp hfound
    refine Post.bind (emit_brings world (.queue _) nofun s) ?_
    intro _ s₁ h₁
    refine Post.pure ⟨[.takeBack id], Or.inr rfl, ?_⟩
    obtain rfl := of_decide_eq_true hid
    have hat : s.desk.queued[index]? = some s.transcript.queued[index] := List.getElem?_eq_getElem hlt
    exact h₁.serves_steady (.takeBack hat) rfl (Rests.refl s₁).moves hd hs

lemma carryOutCommand_serves (conn : ℕ) (id : CommandId) (c : Command) :
    Post (fun rejected s' => ∃ own, Input.Own (.command c conn id) own ∧
        own.filterMap Act.accepted = Command.accepted id rejected c ∧ s.Serves world own s')
      (carryOutCommand world id c) s := by
  cases c with
  | prompt text attachments =>
    refine (prompt_serves world hd hs id text attachments).mono fun rejected s' h => ?_
    cases rejected with
    | none => exact ⟨_, .accept ⟨attachments, id, text⟩ conn, rfl, h.1 rfl⟩
    | some rejection => exact ⟨[], .nothing _, rfl, h.2 nofun⟩
  | cancel =>
    refine (cancel_serves world hd hs).mono ?_
    rintro _ s' ⟨own, rfl | rfl, h⟩
    · exact ⟨[], .nothing _, rfl, h⟩
    · exact ⟨_, .clear conn id, rfl, h⟩
  | unqueue queued =>
    refine (unqueue_serves world hd hs queued).mono ?_
    rintro _ s' ⟨own, rfl | rfl, h⟩
    · exact ⟨[], .nothing _, rfl, h⟩
    · exact ⟨_, .takeBack conn id queued, rfl, h⟩
  | answer option permission =>
    exact (answer_moves world _ _ s).mono fun _ _ h => ⟨[], .nothing _, rfl, h.serves hd hs⟩
  | setMode mode =>
    exact (setMode_moves world _ s).mono fun _ _ h => ⟨[], .nothing _, rfl, h.serves hd hs⟩
  | setOption option value =>
    exact (setOption_moves world _ _ s).mono fun _ _ h => ⟨[], .nothing _, rfl, h.serves hd hs⟩
  | setAutoAccept on =>
    exact (setAutoAccept_moves world _ s).mono fun _ _ h => ⟨[], .nothing _, rfl, h.serves hd hs⟩

end Commands

def accepted (s : Session) (input : Input) (s' : Session) : List Queued :=
  match input with
  | .command c _ id =>
      if s.handled.any fun handled => decide (handled.1 = id) then []
      else Command.accepted id ((s'.handled.getLast?.bind Prod.snd)) c
  | _ => []

def acked (s : Session) (input : Input) (s' : Session) : List (CommandId × Option Rejection) :=
  match input with
  | .command _ _ id =>
      if s.handled.any fun handled => decide (handled.1 = id) then [] else s'.handled.getLast?.toList
  | .unsupported _ id => [(id, some .unsupported)]
  | _ => []

structure Session.Handles (world : World) (input : Input) (flow : Flow) (s s' : Session) : Prop where
  serves : ∃ own d, Input.Own input own ∧ own.filterMap Act.accepted = accepted s input s' ∧
    Desk.Serves world own s.desk d ∧ s'.desk = { d with handled := s'.handled }
  settled : s'.desk.Settled
  handled : s'.handled = (acked s input s').foldl (fun kept ack => remembered kept ack.1 ack.2) s.handled
  tally : flow = .goOn → s.Tallies s'
  left : flow = .exit → s'.subscribers = []

lemma Input.Own.not_ack {input : Input} {own : List Act} (h : Input.Own input own) : Act.ack ∉ own := by
  cases h <;> simp

namespace Session

variable {world : World} {input : Input} {own : List Act} {s s' s'' : Session}

lemma Serves.handles (h : s.Serves world own s') (hown : Input.Own input own)
    (haccepted : own.filterMap Act.accepted = accepted s input s') (hacked : acked s input s' = []) :
    s.Handles world input .goOn s' where
  serves := ⟨own, s'.desk, hown, haccepted, h.run, rfl⟩
  settled := h.settled
  handled := by
    rw [hacked]
    exact h.run.handled hown.not_ack
  tally _ := h.tally
  left := nofun

lemma Handles.bye (h : s.Handles world input .goOn s') (hinput : ∀ c conn id, input ≠ .command c conn id)
    (hd : s''.desk = s'.desk) (hs : s''.subscribers = []) : s.Handles world input .exit s'' := by
  have hhandled : s''.handled = s'.handled := congrArg Desk.handled hd
  obtain ⟨own, d, hown, haccepted, hserves, hdesk⟩ := h.serves
  have hsame : accepted s input s'' = accepted s input s' ∧ acked s input s'' = acked s input s' := by
    cases input with
    | command c conn id => exact absurd rfl (hinput c conn id)
    | _ => exact ⟨rfl, rfl⟩
  refine ⟨⟨own, d, hown, haccepted.trans hsame.1.symm, hserves, ?_⟩, hd ▸ h.settled, ?_, nofun, fun _ => hs⟩
  · rw [hd, hhandled, hdesk]
  · rw [hhandled, hsame.2, h.handled]

end Session

section Run

variable (world : World) (decode : Wire.Decoders) {s : Session} (hd : s.desk.Sound)
  (hs : s.desk.Settled)

include hd hs

lemma command_handles (conn : ℕ) (id : CommandId) (c : Command) :
    Post (fun _ s' => s.Handles world (.command c conn id) .goOn s') (command world conn id c) s := by
  rw [command]
  apply Post.get_bind
  cases hfound : s.handled.find? fun handled => decide (handled.1 = id) with
  | some handled =>
    have hknown : (s.handled.any fun handled => decide (handled.1 = id)) = true := by
      rw [List.any_eq_true, ← List.find?_isSome, hfound]
      rfl
    refine (sendTo_rests world conn _ s).mono fun _ s' h => ?_
    refine (h.serves hs).handles (.nothing _) ?_ ?_
    · rw [accepted, if_pos hknown]
      rfl
    · rw [acked, if_pos hknown]
  | none =>
    have hnew : ¬(s.handled.any fun handled => decide (handled.1 = id)) = true := by
      rw [List.any_eq_true, ← List.find?_isSome, hfound]
      nofun
    refine Post.bind (carryOutCommand_serves world hd hs conn id c) ?_
    rintro rejected s₁ ⟨own, hown, haccepted, h₁⟩
    refine (ack_brings world conn id rejected s₁).mono fun _ s' h => ?_
    have hkept : s₁.handled = s.handled := h₁.run.handled hown.not_ack
    have hhandled : s'.handled = remembered s.handled id rejected := by
      rw [← hkept]
      exact congrArg Desk.handled h.desk
    have hlast : s'.handled.getLast? = some (id, rejected) := by
      rw [hhandled, remembered, List.getLast?_concat]
    refine ⟨⟨own, s₁.desk, hown, ?_, h₁.run, ?_⟩, ?_, ?_, fun _ => h₁.tally.trans h.tally, nofun⟩
    · rw [haccepted, accepted, if_neg hnew, hlast]
      rfl
    · rw [h.desk, hhandled, hkept]
    · rw [h.desk]
      exact ⟨h₁.settled.waits, h₁.settled.flies, h₁.settled.starts, h₁.settled.queues⟩
    · rw [acked, if_neg hnew, hlast, hhandled]
      rfl

lemma handle_handles (input : Input) :
    Post (fun flow s' => s.Handles world input flow s') (handle world decode input) s := by
  have hrest : ∀ {s' : Session} {input : Input}, (∀ c conn id, input ≠ .command c conn id) →
      (∀ conn id, input ≠ .unsupported conn id) → s.Rests s' → s.Handles world input .goOn s' := by
    intro s' input hcommand hunsupported h
    refine (h.serves hs).handles (.nothing _) ?_ ?_
    · cases input <;> first | rfl | exact absurd rfl (hcommand _ _ _)
    · cases input <;> first | rfl | exact absurd rfl (hcommand _ _ _) | exact absurd rfl (hunsupported _ _)
  cases input with
  | agent inbound =>
    refine Post.bind (agent_serves world decode hd hs inbound) ?_
    rintro _ s' ⟨own, hown, h⟩
    refine Post.pure (h.handles hown ?_ rfl)
    cases hown <;> rfl
  | agentExited code stderr =>
    refine Post.bind (exited_brings world code stderr s) ?_
    intro _ s₁ h₁
    have hs₁ : s.Handles world (.agentExited code stderr) .goOn s₁ :=
      (h₁.serves_steady (.exit _) rfl (Rests.refl s₁).moves hd hs).handles (.exit code stderr) rfl rfl
    apply Post.get_bind
    refine Post.ite (fun _ => ?_) fun _ => Post.pure hs₁
    refine Post.bind (bye_leaves world .exiting s₁) ?_
    exact fun _ s₂ h₂ => Post.pure (hs₁.bye (by simp) h₂.1 h₂.2.1)
  | attach a =>
    exact Post.bind (attach_rests world a s) fun _ s' h => Post.pure (hrest (by simp) (by simp) h)
  | command c conn id =>
    exact Post.bind (command_handles world hd hs conn id c) fun _ s' h => Post.pure h
  | detach conn =>
    exact Post.bind (detach_rests world conn s) fun _ s' h => Post.pure (hrest (by simp) (by simp) h)
  | shutdown =>
    refine Post.bind (bye_leaves world .exiting s) ?_
    intro _ s₁ h₁
    have hs₁ : s.Handles world .shutdown .goOn s := hrest (by simp) (by simp) (.refl s)
    exact Post.pure (hs₁.bye (by simp) h₁.1 h₁.2.1)
  | unsupported conn id =>
    refine Post.bind (ack_brings world conn id _ s) ?_
    intro _ s' h
    have hhandled : s'.handled = remembered s.handled id (some .unsupported) :=
      congrArg Desk.handled h.desk
    refine Post.pure ⟨⟨[], s.desk, .nothing _, rfl, ?_, ?_⟩, ?_, hhandled, fun _ => h.tally, nofun⟩
    · exact ⟨[], [], s.desk, s.desk, List.forall_mem_nil _, List.forall_mem_nil _, .nil, .nil, .nil⟩
    · rw [h.desk, hhandled]
    · rw [h.desk]
      exact ⟨hs.waits, hs.flies, hs.starts, hs.queues⟩

end Run

end Sheprd.Acp
