import Sheprd.Acp.Tally

namespace Sheprd.Acp

open Sheprd.Lib Sheprd.Lib.Exec Sheprd.Chat Session

section Neutral

def Change.neutral : Change → Bool
  | .status _ => false
  | .permissionAsked _ => false
  | .permissionResolved _ => false
  | .turn _ => false
  | .queue _ => false
  | .clients _ => false
  | _ => true

lemma Session.Tells.neutral {change : Change} {s s' : Session} (h : s.Tells change s')
    (hn : Change.neutral change = true) : s.Rests s' := by
  cases change with
  | status _ => cases hn
  | permissionAsked _ => cases hn
  | permissionResolved _ => cases hn
  | turn _ => cases hn
  | queue _ => cases hn
  | clients _ => cases hn
  | _ => exact h.rests rfl nofun

def Change.projected (next : ℕ) : Change → Bool
  | .push entry => decide (entry.id ≤ next) && !entry.isTurn
  | .replace entry => !entry.isTurn
  | change => Change.neutral change

lemma Change.neutral_of_projected {next : ℕ} {change : Change}
    (h : Change.projected next change = true) : Change.neutral change = true := by
  cases change <;> first | rfl | exact h

lemma Change.projected_id {entry : Entry} (h : entry.isTurn = false) :
    Change.projected entry.id (.push entry) = true := by
  rw [Change.projected, decide_eq_true le_rfl, h]
  rfl

lemma recordActivity_projected {t : Transcript} {callId title : String} {report : Report} {now : ℕ}
    {change : Change} (next : ℕ) (h : recordActivity t callId title report now = some change) :
    Change.projected next change = true := by
  rw [recordActivity] at h
  grind [Change.projected, Change.neutral]

lemma stepActivity_projected {t : Transcript} {parent title : String} {change : Change} (next : ℕ)
    (h : stepActivity t parent title = some change) : Change.projected next change = true := by
  rw [stepActivity] at h
  obtain ⟨known, -, h⟩ := Option.bind_eq_some_iff.mp h
  grind [Change.projected, Change.neutral]

namespace Projector

structure Makes (p : Projector) (changes : List Change) (p' : Projector) : Prop where
  next : p.next ≤ p'.next
  projected : ∀ change ∈ changes, Change.projected p'.next change = true

variable {t : Transcript} {p p' : Projector} {changes : List Change}

lemma Makes.none (h : p.next ≤ p'.next) : p.Makes [] p' := ⟨h, List.forall_mem_nil _⟩

lemma Makes.one {change : Change} (h : p.next ≤ p'.next)
    (hc : Change.projected p'.next change = true) : p.Makes [change] p' := by
  refine ⟨h, fun c hm => ?_⟩
  rw [List.mem_singleton.mp hm]
  exact hc

lemma Makes.append {more : List Change} (h : p.Makes changes p')
    (hm : ∀ change ∈ more, Change.projected p'.next change = true) : p.Makes (changes ++ more) p' :=
  ⟨h.next, fun c hc => (List.mem_append.mp hc).elim (h.projected c) (hm c)⟩

lemma Makes.after {q : Projector} (h : p.Makes changes p') (hq : q.next = p.next) :
    q.Makes changes p' := ⟨hq.le.trans h.next, h.projected⟩

lemma projected_push (kind : EntryKind) (hk : ∀ summary, kind ≠ .turn summary) (p : Projector) :
    Change.projected (push kind p).2.next (push kind p).1 = true := by
  refine Change.projected_id ?_
  cases kind with
  | turn summary => exact absurd rfl (hk summary)
  | _ => rfl

lemma push_makes (kind : EntryKind) (hk : ∀ summary, kind ≠ .turn summary) (p : Projector) :
    p.Makes [(push kind p).1] (push kind p).2 :=
  .one (Nat.le_succ _) (projected_push kind hk p)

lemma tool_makes (t : Transcript) (callId : String) (update : Tool → Tool) (p : Projector) :
    p.Makes [(p.tool t callId update).1] (p.tool t callId update).2 := by
  rw [tool]
  cases p.known t callId with
  | none => exact .one (Nat.le_succ _) (Change.projected_id rfl)
  | some known => exact .one le_rfl rfl

lemma admitStep_next (t : Transcript) (parent : String) (p : Projector) :
    (p.admitStep t parent).2.next = p.next := by
  rw [admitStep]
  dsimp only
  split <;> rfl

lemma skip_next (t : Transcript) (call parent : String) (p : Projector) :
    (p.skip t call parent).next = p.next := by
  rw [skip]
  dsimp only
  split <;> split <;> rfl

lemma showCall_makes (t : Transcript) (callId : String) (tag : Tag) (now : ℕ) (update : Tool → Tool)
    (p : Projector) : p.Makes (p.showCall t callId tag now update).1
      (p.showCall t callId tag now update).2.2 := by
  simp only [showCall]
  generalize hstep : (if callId ∈ p.tools then none else tag.parent) = step
  have hadmitted : (if callId ∈ p.skipped then (false, p)
      else step.elim (true, p) fun parent => p.admitStep t parent).2.next = p.next := by
    split
    · rfl
    · cases step with
      | none => rfl
      | some parent => exact admitStep_next t parent p
  generalize (if callId ∈ p.skipped then (false, p) else _) = admission at hadmitted
  obtain ⟨admitted, p'⟩ := admission
  cases admitted with
  | true => exact (tool_makes t callId _ p').after hadmitted.symm
  | false =>
    refine .none (Eq.le ?_)
    change p.next = (if _ then _ else _ : Projector).next
    split
    · exact hadmitted.symm
    · cases step with
      | none => exact hadmitted.symm
      | some parent => exact ((skip_next t callId parent p').trans hadmitted).symm

lemma tagged_makes (t : Transcript) (callId : String) (tag : Tag) (now : ℕ) (update : Tool → Tool)
    (p : Projector) : p.Makes (p.tagged t callId tag now update).1
      (p.tagged t callId tag now update).2 := by
  have hshown := showCall_makes t callId tag now update p
  rw [tagged]
  generalize p.showCall t callId tag now update = shown at hshown ⊢
  obtain ⟨changes, tool, p'⟩ := shown
  cases tool with
  | none => exact hshown
  | some tool =>
    refine (hshown.append fun change hm => ?_).append fun change hm => ?_
    · obtain ⟨report, -, hr⟩ := Option.bind_eq_some_iff.mp (Option.mem_toList.mp hm)
      exact recordActivity_projected _ hr
    · obtain ⟨parent, -, hp⟩ := Option.bind_eq_some_iff.mp (Option.mem_toList.mp hm)
      exact stepActivity_projected _ hp

lemma todoChange_projected {change : Change} {input : Option Value} (next : ℕ)
    (h : change ∈ p.todoChange input) : Change.projected next change = true := by
  obtain ⟨plan, -, rfl⟩ := Option.map_eq_some_iff.mp (Option.mem_toList.mp h)
  rfl

lemma text_makes (t : Transcript) (stream : Stream) (message : Option String) (text : String)
    (p : Projector) : p.Makes (p.text t stream message text).1.toList (p.text t stream message text).2 := by
  rw [Projector.text]
  split
  · exact .none le_rfl
  split
  · refine ⟨le_rfl, fun change hm => ?_⟩
    obtain ⟨text, -, rfl⟩ := Option.map_eq_some_iff.mp (Option.mem_toList.mp hm)
    rfl
  · refine .one (Nat.le_succ _) (Change.projected_id ?_)
    cases stream <;> rfl

lemma chunk_makes (t : Transcript) (stream : Stream) (chunk : Wire.ContentChunk) (p : Projector) :
    p.Makes (p.chunk t stream chunk).1.toList (p.chunk t stream chunk).2 := by
  unfold Projector.chunk
  split
  · refine push_makes _ ?_ p
    simp
  · refine push_makes _ ?_ p
    simp
  · exact text_makes _ _ _ _ p

lemma toolCall_makes (decode : Wire.Decoders) (t : Transcript) (call : Wire.ToolCall) (now : ℕ)
    (p : Projector) : p.Makes (p.toolCall decode t call now).1 (p.toolCall decode t call now).2 := by
  simp only [toolCall]
  split
  · exact ⟨le_rfl, fun _ => todoChange_projected _⟩
  · exact tagged_makes _ _ _ _ _ p

lemma shownCallUpdate_makes (t : Transcript) (update : Wire.ToolCallUpdate) (tag : Tag) (now : ℕ)
    (p : Projector) : p.Makes (p.shownCallUpdate t update tag now).1
      (p.shownCallUpdate t update tag now).2 := by
  simp only [shownCallUpdate]
  split
  · exact ⟨le_rfl, fun _ hm => recordActivity_projected _ (Option.mem_toList.mp hm)⟩
  · exact tagged_makes _ _ _ _ _ p

lemma toolCallUpdate_makes (decode : Wire.Decoders) (t : Transcript) (update : Wire.ToolCallUpdate)
    (now : ℕ) (p : Projector) : p.Makes (p.toolCallUpdate decode t update now).1
      (p.toolCallUpdate decode t update now).2 := by
  have hnext : ∀ b : Bool, (if b then { p with todos := p.todos.erase update.toolCallId } else p :
      Projector).next = p.next := by
    intro b
    cases b <;> rfl
  simp only [toolCallUpdate]
  split
  · split
    · exact ⟨(hnext _).ge, fun _ => todoChange_projected _⟩
    · exact (shownCallUpdate_makes _ _ _ _ _).after (hnext _).symm
  · exact shownCallUpdate_makes _ _ _ _ p

lemma update_makes (decode : Wire.Decoders) (t : Transcript) (update : Wire.SessionUpdate) (now : ℕ)
    (p : Projector) : p.Makes (p.update decode t update now).1 (p.update decode t update now).2 := by
  cases update with
  | userMessageChunk chunk => exact chunk_makes t .user chunk p
  | agentMessageChunk chunk => exact chunk_makes t .agent chunk p
  | agentThoughtChunk chunk => exact chunk_makes t .thought chunk p
  | toolCall call => exact toolCall_makes decode t call now p
  | toolCallUpdate update => exact toolCallUpdate_makes decode t update now p
  | currentModeUpdate id =>
    refine ⟨le_rfl, fun change hm => ?_⟩
    obtain ⟨_, -, rfl⟩ := Option.map_eq_some_iff.mp (Option.mem_toList.mp hm)
    rfl
  | sessionInfoUpdate title =>
    refine ⟨le_rfl, fun change hm => ?_⟩
    obtain ⟨_, -, rfl⟩ := Option.map_eq_some_iff.mp (Option.mem_toList.mp hm)
    rfl
  | notice severity title description =>
    refine push_makes _ ?_ p
    simp
  | other => exact .none le_rfl
  | _ => exact .one le_rfl rfl

end Projector

lemma killAll_projected {t : Transcript} {now : ℕ} {change : Change} (next : ℕ)
    (h : change ∈ killAll t now) : Change.projected next change = true := by
  obtain ⟨activity, -, rfl⟩ := List.mem_map.mp h
  rfl

end Neutral

structure Session.Brings (d : Desk) (s s' : Session) : Prop where
  desk : s'.desk = d
  tally : s.Tallies s'

namespace Session

variable {s s' s'' : Session} {d : Desk}

lemma Rests.brings (h : s.Rests s') : s.Brings s.desk s' := ⟨h.desk, h.tally⟩

lemma Brings.next (f : Desk → Desk) (h : s.Brings d s') (h' : s'.Brings (f s'.desk) s'') :
    s.Brings (f d) s'' := ⟨by rw [h'.desk, h.desk], h.tally.trans h'.tally⟩

lemma Brings.rests (h : s.Brings d s') (h' : s'.Rests s'') : s.Brings d s'' :=
  ⟨h'.desk.trans h.desk, h.tally.trans h'.tally⟩

lemma Rests.before (h : s.Rests s') (f : Desk → Desk) (h' : s'.Brings (f s'.desk) s'') :
    s.Brings (f s.desk) s'' := h.brings.next f h'

lemma Brings.of_eq (hd : s'.desk = d) (hs : s'.subscribers = s.subscribers)
    (ht : s'.transcript = s.transcript) : s.Brings d s' :=
  ⟨hd, Or.inr ⟨remoteClients_eq hs, by rw [ht]⟩⟩

lemma Rests.brought (h : s'.Rests s'') (hd : s'.desk = d) (hs : s'.subscribers = s.subscribers)
    (ht : s'.transcript = s.transcript) : s.Brings d s'' := (Brings.of_eq hd hs ht).rests h

lemma Brings.since (h : s'.Brings d s'') (hs : s'.subscribers = s.subscribers)
    (ht : s'.transcript = s.transcript) : s.Brings d s'' :=
  ⟨h.desk, .trans (Or.inr ⟨remoteClients_eq hs, by rw [ht]⟩) h.tally⟩

end Session

section Clients

variable (world : World)

lemma project_post {α β : Type} {P : β → Session → Prop} {f : Projector → α × Projector}
    {g : α → Acting β} {s : Session}
    (h : Post P (g (f s.projector).1) { s with projector := (f s.projector).2 }) :
    Post P (project f >>= g) s := h

lemma emit_brings (change : Change) (other : ∀ count, change ≠ .clients count) (s : Session) :
    Post (fun _ s' => s.Brings (s.desk.shows change) s') (emit world change) s :=
  (emit_tells world change s).mono fun _ _ h => ⟨h.desk, h.tally other⟩

lemma emit_rests {change : Change} (hn : Change.neutral change = true) (s : Session) :
    Post (fun _ s' => s.Rests s') (emit world change) s :=
  (emit_tells world change s).mono fun _ _ h => h.neutral hn

lemma emitAll_rests {changes : List Change} (hn : ∀ change ∈ changes, Change.neutral change = true)
    (s : Session) : Post (fun _ s' => s.Rests s') (emitAll world changes) s := by
  induction changes generalizing s with
  | nil => exact Post.pure (.refl s)
  | cons change changes ih =>
    refine Post.bind (emit_rests world (hn change List.mem_cons_self) s) ?_
    intro _ s₁ h₁
    refine (ih (fun c hc => hn c (List.mem_cons_of_mem _ hc)) s₁).mono ?_
    exact fun _ _ h => h₁.trans h

lemma emitProjected_rests {f : Projector → Change × Projector}
    (hn : ∀ p, Change.neutral (f p).1 = true) (s : Session) :
    Post (fun _ s' => s.Rests s') (emitProjected world f) s := by
  apply project_post
  exact (emit_rests world (hn s.projector) _).mono fun _ _ h => h.after rfl rfl rfl

lemma notice_rests (level : NoticeLevel) (text : String) (s : Session) :
    Post (fun _ s' => s.Rests s') (emitProjected world (Projector.notice level text)) s :=
  emitProjected_rests world (fun _ => rfl) s

lemma setStatus_brings (status : Status) (s : Session) :
    Post (fun _ s' => s.Brings { s.desk with status } s') (setStatus world status) s := by
  apply Post.get_bind
  refine Post.when _ (fun _ => emit_brings world (.status status) nofun s) fun hsame => ?_
  obtain rfl : s.transcript.status = status := not_not.mp (of_decide_eq_false hsame)
  exact (Rests.refl s).brings

lemma clearQueue_brings (s : Session) :
    Post (fun _ s' => s.Brings { s.desk with queued := [] } s') (clearQueue world) s := by
  apply Post.get_bind
  refine Post.when _ (fun _ => emit_brings world (.queue []) nofun s) fun hempty => ?_
  have hq : s.desk.queued = [] := by simpa [Session.desk] using hempty
  rw [← hq]
  exact (Rests.refl s).brings

lemma fail_brings (message : String) (s : Session) :
    Post (fun _ s' => s.Brings (s.desk.failed message) s') (fail world message) s := by
  refine Post.bind (notice_rests world _ _ s) ?_
  intro _ s₁ h₁
  refine Post.bind (setStatus_brings world _ s₁) ?_
  intro _ s₂ h₂
  have hs₂ := h₁.before (fun d => { d with status := .failed message }) h₂
  refine (clearQueue_brings world s₂).mono ?_
  exact fun _ _ h₃ => hs₂.next (fun d => { d with queued := [] }) h₃

lemma trySend_rests (outbox : ℕ) (message : ServerMessage) (s : Session) :
    Post (fun _ s' => s.Rests s') (trySend world outbox message) s := by
  rw [Post, wp_trySend]
  intro _ _
  exact .of_eq rfl rfl rfl

lemma sendEach_rests (outbox : ℕ) (messages : List ServerMessage) (s : Session) :
    Post (fun _ s' => s.Rests s') (sendEach world outbox messages) s := by
  induction messages generalizing s with
  | nil => exact Post.pure (.refl s)
  | cons message messages ih =>
    refine Post.bind (trySend_rests world outbox message s) ?_
    intro taken s₁ h₁
    exact Post.ite (fun _ => (ih s₁).mono fun _ _ h => h₁.trans h) fun _ => Post.pure h₁

lemma announceClients_counts (s : Session) :
    Post (fun _ s' => s'.desk = s.desk ∧ s'.Counted) (announceClients world) s := by
  apply Post.get_bind
  exact (emit_tells world _ s).mono fun _ _ h => ⟨h.desk, h.counted rfl⟩

lemma subscribe_rests (a : Attach) (outbox : ℕ) (s : Session) :
    Post (fun _ s' => s.Rests s') (subscribe world a outbox) s := by
  apply Post.modify_bind
  refine Post.when _ (fun _ => ?_) fun hlocal => ?_
  · exact (announceClients_counts world _).mono fun _ _ h => ⟨h.1, Or.inl h.2⟩
  · refine ⟨rfl, Or.inr ⟨?_, rfl⟩⟩
    simp only [Bool.not_eq_false'] at hlocal
    simp [remoteClients, hlocal]

lemma attach_rests (a : Attach) (s : Session) : Post (fun _ s' => s.Rests s') (attach world a) s := by
  apply Post.get_bind
  apply Post.set_bind
  refine Post.bind (trySend_rests world _ _ _) ?_
  intro welcomed s₁ h₁
  have hs₁ : s.Rests s₁ := h₁.after rfl rfl rfl
  refine Post.when _ (fun _ => ?_) fun _ => hs₁
  refine Post.bind (sendEach_rests world _ _ s₁) ?_
  intro sent s₂ h₂
  have hs₂ := hs₁.trans h₂
  refine Post.when _ (fun _ => ?_) fun _ => hs₂
  exact (subscribe_rests world a _ s₂).mono fun _ _ h => hs₂.trans h

lemma detach_rests (conn : ℕ) (s : Session) : Post (fun _ s' => s.Rests s') (detach world conn) s := by
  apply Post.get_bind
  apply Post.modify_bind
  apply Post.get_bind
  refine Post.when _ (fun _ => ?_) fun hsame => ?_
  · exact (announceClients_counts world _).mono fun _ _ h => ⟨h.1, Or.inl h.2⟩
  · exact ⟨rfl, Or.inr ⟨not_not.mp (of_decide_eq_false hsame), rfl⟩⟩

lemma bye_leaves (reason : ByeReason) (s : Session) :
    Post (fun _ s' => s'.desk = s.desk ∧ s'.subscribers = [] ∧ s'.transcript = s.transcript)
      (bye world reason) s := by
  apply Post.get_bind
  rw [Post, wp_bind]
  refine wp_mono (sendAll_spec world _ _ _) ?_
  rintro r s' ⟨kept, tick, rfl, -, rfl⟩
  intro _ _
  exact ⟨rfl, rfl, rfl⟩

lemma sendTo_rests (conn : ℕ) (message : ServerMessage) (s : Session) :
    Post (fun _ s' => s.Rests s') (sendTo world conn message) s := by
  rw [sendTo]
  apply Post.get_bind
  cases s.subscribers.find? fun subscriber => decide (subscriber.conn = conn) with
  | none => exact Post.pure (.refl s)
  | some subscriber =>
    refine Post.bind (trySend_rests world _ _ s) ?_
    intro taken s₁ h₁
    refine Post.when _ (fun _ => ?_) fun _ => h₁
    exact (detach_rests world conn s₁).mono fun _ _ h => h₁.trans h

def remembered (handled : List (CommandId × Option Rejection)) (id : CommandId)
    (rejected : Option Rejection) : List (CommandId × Option Rejection) :=
  (if handled.length = handledCount then handled.drop 1 else handled) ++ [(id, rejected)]

lemma ack_brings (conn : ℕ) (id : CommandId) (rejected : Option Rejection) (s : Session) :
    Post (fun _ s' => s.Brings { s.desk with handled := remembered s.handled id rejected } s')
      (ack world conn id rejected) s := by
  apply Post.modify_bind
  exact (sendTo_rests world conn _ _).mono fun _ _ h => h.brought rfl rfl rfl

end Clients

section Agent

variable (world : World)

lemma toAgent_brings (line : Outbound) (s : Session) :
    Post (fun failed s' => s.Brings (failed.elim (s.desk.tell [line]) fun _ => s.desk) s')
      (toAgent world line) s := by
  change Post _ (when (world.agentFails s.tick).isNone _ >>= _) { s with tick := s.tick + 1 }
  cases world.agentFails s.tick with
  | none => exact Post.modify_bind (Post.pure (.of_eq rfl rfl rfl))
  | some error => exact Post.pure (.of_eq rfl rfl rfl)

def Desk.numbers (d : Desk) : Desk := { d with nextRequest := d.nextRequest + 1 }

lemma request_brings (call : AgentRequest) (kind : Pending) (s : Session) :
    Post (fun sent s' => (sent = true → s.Brings (s.desk.calls call kind) s') ∧
        (sent = false → ∃ message, s.Brings (s.desk.numbers.failed message) s'))
      (request world call kind) s := by
  apply Post.modify_bind
  apply Post.get_bind
  refine Post.bind (toAgent_brings world _ _) ?_
  intro failed s₁ h₁
  cases failed with
  | none =>
    apply Post.modify_bind
    refine Post.pure ⟨fun _ => ⟨?_, h₁.tally⟩, nofun⟩
    change { s₁.desk with pending := s₁.desk.pending.insert (s.nextRequest + 1) kind } = _
    rw [h₁.desk]
    rfl
  | some error =>
    refine Post.bind (fail_brings world error s₁) ?_
    intro _ s₂ h₂
    exact Post.pure ⟨nofun, fun _ => ⟨error, (h₁.next (Desk.failed error) h₂).since rfl rfl⟩⟩

lemma prepareAll_spec (accepts : Accepts) (attachments : List Attachment) (s : Session) :
    Post (fun prepared s' => s.Rests s' ∧ List.Forall₂
        (fun attachment p => ∃ tick, p = world.prepare tick attachment accepts) attachments prepared)
      (prepareAll world accepts attachments) s := by
  induction attachments generalizing s with
  | nil => exact Post.pure ⟨.refl s, .nil⟩
  | cons attachment attachments ih =>
    refine Post.bind (Q := fun p s' => s.Rests s' ∧ p = world.prepare s.tick attachment accepts) ?_ ?_
    · exact Post.get_bind (Post.set_bind (Post.pure ⟨.of_eq rfl rfl rfl, rfl⟩))
    rintro _ s₁ ⟨h₁, rfl⟩
    refine Post.bind (ih s₁) ?_
    rintro rest s₂ ⟨h₂, hrest⟩
    exact Post.pure ⟨h₁.trans h₂, .cons ⟨s.tick, rfl⟩ hrest⟩

lemma showPrepared_rests (prepared : List Prepared) (s : Session) :
    Post (fun _ s' => s.Rests s') (showPrepared world prepared) s := by
  induction prepared generalizing s with
  | nil => exact Post.pure (.refl s)
  | cons first rest ih =>
    refine Post.bind (Q := fun _ s' => s.Rests s') ?_ ?_
    · refine Post.forM _ (fun image _ => ?_) fun _ => .refl s
      exact emitProjected_rests world (fun _ => rfl) s
    · exact fun _ s₁ h₁ => (ih s₁).mono fun _ _ h => h₁.trans h

lemma beginTurn_brings (shown : String) (s : Session) :
    Post (fun _ s' => s.Brings s.desk.begins s') (beginTurn world shown) s := by
  apply Post.modify_bind
  apply Post.modify_bind
  refine Post.bind (ask_rests _ _) ?_
  intro now s₁ h₁
  have hs₁ : s.Brings { s.desk with turn := some s.nextRequest } s₁ := h₁.brought rfl rfl rfl
  refine Post.bind (emit_brings world (.turn (some ⟨now⟩)) nofun s₁) ?_
  intro _ s₂ h₂
  have hs₂ := hs₁.next (fun d => { d with running := true }) h₂
  refine (setStatus_brings world .working s₂).mono ?_
  exact fun _ _ h => hs₂.next (fun d => { d with status := .working }) h

lemma sendPrompt_brings {session : String} (text : String) (attachments : List Attachment)
    (id : CommandId) {s : Session} (hs : s.acpSession = some session) :
    Post (fun _ s' =>
        (∃ blocks, Carries world ⟨attachments, id, text⟩ blocks ∧
          s.Brings (s.desk.calls (.prompt session blocks) .prompt).begins s') ∨
        ∃ message, s.Brings (s.desk.numbers.failed message) s')
      (sendPrompt world text attachments) s := by
  rw [sendPrompt]
  apply Post.get_bind
  rw [hs]
  refine Post.bind (prepareAll_spec world _ _ s) ?_
  rintro prepared s₁ ⟨h₁, hprepared⟩
  refine Post.bind (emitProjected_rests world (fun _ => rfl) s₁) ?_
  intro _ s₂ h₂
  refine Post.bind (showPrepared_rests world prepared s₂) ?_
  intro _ s₃ h₃
  have hs₃ := (h₁.trans h₂).trans h₃
  refine Post.bind (request_brings world _ _ s₃) ?_
  rintro sent s₄ ⟨hsent, hfailed⟩
  refine Post.when _ (fun h => ?_) fun h => ?_
  · refine (beginTurn_brings world _ s₄).mono fun _ s₅ h₅ => Or.inl ⟨_, ⟨_, prepared, hprepared, rfl⟩, ?_⟩
    exact (hs₃.before (Desk.calls _ _) (hsent h)).next Desk.begins h₅
  · obtain ⟨message, hm⟩ := hfailed h
    exact Or.inr ⟨message, hs₃.before (fun d => d.numbers.failed message) hm⟩

end Agent

end Sheprd.Acp
