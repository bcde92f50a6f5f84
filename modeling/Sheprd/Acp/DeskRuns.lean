import Sheprd.Acp.DeskLaws
import Sheprd.Acp.Moves

namespace Sheprd.Acp

open Sheprd.Lib Sheprd.Lib.Exec Sheprd.Chat Session

structure Session.Moves (world : World) (L : Act → Bool) (s s' : Session) : Prop where
  run : ∃ acts, (∀ act ∈ acts, L act = true) ∧ Run (Desk.Step world) s.desk acts s'.desk
  tally : s.Tallies s'

structure Session.Leads (world : World) (F : Act → Bool) (s s' : Session) : Prop where
  run : ∃ first rest mid, (∀ act ∈ first, F act = true) ∧ (∀ act ∈ rest, act.quiet = true) ∧
    Run (Desk.Step world) s.desk first mid ∧ Run (Desk.Step world) mid rest s'.desk
  tally : s.Tallies s'

namespace Session

variable {world : World} {L L' : Act → Bool} {s s' s'' : Session} {d : Desk}

lemma Rests.moves (h : s.Rests s') : s.Moves world L s' :=
  ⟨⟨[], List.forall_mem_nil _, by rw [h.desk]; exact .nil⟩, h.tally⟩

lemma Moves.trans (h : s.Moves world L s') (h' : s'.Moves world L s'') : s.Moves world L s'' := by
  obtain ⟨acts, hL, hr⟩ := h.run
  obtain ⟨acts', hL', hr'⟩ := h'.run
  refine ⟨⟨acts ++ acts', fun act hm => ?_, hr.append hr'⟩, h.tally.trans h'.tally⟩
  exact (List.mem_append.mp hm).elim (hL act) (hL' act)

lemma Moves.mono (h : s.Moves world L s') (hL : ∀ act, L act = true → L' act = true) : s.Moves world L' s' := by
  obtain ⟨acts, hacts, hr⟩ := h.run
  exact ⟨⟨acts, fun act hm => hL act (hacts act hm), hr⟩, h.tally⟩

lemma Moves.since (h : s'.Moves world L s'') (hd : s'.desk = s.desk)
    (hs : s'.subscribers = s.subscribers) (ht : s'.transcript = s.transcript) :
    s.Moves world L s'' := (Rests.moves (.of_eq hd hs ht)).trans h

lemma Brings.moves {act : Act} (h : s.Brings d s') (hs : Desk.Step world s.desk act d)
    (hL : L act = true) : s.Moves world L s' := by
  refine ⟨⟨[act], fun a hm => ?_, ?_⟩, h.tally⟩
  · rwa [List.mem_singleton.mp hm]
  · rw [h.desk]
    exact Run.nil.snoc hs

lemma Brings.moves_twice {act act' : Act} {d' : Desk} (h : s.Brings d' s')
    (hs : Desk.Step world s.desk act d) (hs' : Desk.Step world d act' d') (hL : L act = true)
    (hL' : L act' = true) : s.Moves world L s' := by
  refine ⟨⟨[act, act'], fun a hm => ?_, ?_⟩, h.tally⟩
  · rcases List.mem_pair.mp hm with rfl | rfl
    · exact hL
    · exact hL'
  · rw [h.desk]
    exact (Run.nil.snoc hs).snoc hs'

lemma Moves.starts (h : s.Moves world Act.quiet s') (hd : s.desk.Sound) (hs : s.desk.Starts) :
    s'.desk.Starts := by
  obtain ⟨acts, hquiet, hr⟩ := h.run
  exact hs.run hr (fun act hm => Act.ne_reply_of_steady (Act.steady_of_quiet (hquiet act hm))) hd

lemma Moves.settled (h : s.Moves world L s') (hL : ∀ act, L act = true → act.steady = true)
    (hd : s.desk.Sound) (hs : s.desk.Settled) : s'.desk.Settled := by
  obtain ⟨acts, hacts, hr⟩ := h.run
  exact hs.run hr (fun act hm => hL act (hacts act hm)) hd

lemma Moves.leads {F : Act → Bool} (h : s.Moves world F s') (h' : s'.Moves world Act.quiet s'') :
    s.Leads world F s'' := by
  obtain ⟨first, hfirst, hr⟩ := h.run
  obtain ⟨rest, hrest, hr'⟩ := h'.run
  exact ⟨⟨first, rest, s'.desk, hfirst, hrest, hr, hr'⟩, h.tally.trans h'.tally⟩

lemma Moves.quiet_leads {F : Act → Bool} (h : s.Moves world Act.quiet s') : s.Leads world F s' :=
  (Rests.moves (.refl s)).leads h

lemma Moves.before_leads {F : Act → Bool} (h : s.Moves world F s') (h' : s'.Leads world F s'') :
    s.Leads world F s'' := by
  obtain ⟨acts, hacts, hr⟩ := h.run
  obtain ⟨first, rest, mid, hfirst, hrest, hf, hm⟩ := h'.run
  refine ⟨⟨acts ++ first, rest, mid, fun act hm => ?_, hrest, hr.append hf, hm⟩,
    h.tally.trans h'.tally⟩
  exact (List.mem_append.mp hm).elim (hacts act) (hfirst act)

lemma Leads.turning (h : s.Leads world Act.leading s') : s.Moves world Act.turning s' := by
  obtain ⟨first, rest, mid, hfirst, hrest, hf, hm⟩ := h.run
  refine ⟨⟨first ++ rest, fun act hm => ?_, hf.append hm⟩, h.tally⟩
  rcases List.mem_append.mp hm with hm | hm
  · exact Act.turning_of_leading (hfirst act hm)
  · exact Act.turning_of_quiet (hrest act hm)

lemma Moves.flies (h : s.Moves world Act.turning s') (hd : s.desk.Sound) (hs : s.desk.Flies) :
    s'.desk.Flies := by
  obtain ⟨acts, hacts, hr⟩ := h.run
  exact hs.run hr (fun act hm => Act.ne_reply_of_turning (hacts act hm)) hd

lemma Moves.queues (h : s.Moves world Act.turning s') (hs : s.desk.Queues) : s'.desk.Queues := by
  obtain ⟨acts, hacts, hr⟩ := h.run
  exact hs.run hr fun act hm => Act.ne_accept_of_turning (hacts act hm)

lemma Moves.waits (h : s.Moves world Act.quiet s') (hs : s.desk.Waits) : s'.desk.Waits := by
  obtain ⟨acts, hacts, hr⟩ := h.run
  exact hs.run hr fun act hm => Act.steady_of_quiet (hacts act hm)

end Session

lemma foldMoves {world : World} {L : Act → Bool} {α : Type} {f : α → Acting Unit}
    {fs : List α → Acting Unit} (hnil : fs [] = pure ()) (hcons : ∀ a l, fs (a :: l) = f a >>= fun _ => fs l)
    (hf : ∀ a s, Post (fun _ s' => s.Moves world L s') (f a) s) (l : List α) (s : Session) :
    Post (fun _ s' => s.Moves world L s') (fs l) s := by
  induction l generalizing s with
  | nil =>
    rw [hnil]
    exact Post.pure (Rests.refl s).moves
  | cons a l ih =>
    rw [hcons]
    refine Post.bind (hf a s) ?_
    intro _ s₁ h₁
    exact (ih s₁).mono fun _ _ h => h₁.trans h

section Agent

variable (world : World) (decode : Wire.Decoders)

lemma resolve_moves (permission : PermissionId) (option : Option String) (s : Session) :
    Post (fun _ s' => s.Moves world Act.settling s')
      (resolve world permission option) s := by
  rw [resolve]
  apply Post.get_bind
  cases hasked : s.asked.lookup permission with
  | none => exact Post.pure (Rests.refl s).moves
  | some asked =>
    apply Post.set_bind
    refine Post.bind (toAgent_brings world _ _) ?_
    intro failed s₁ h₁
    cases failed with
    | none =>
      refine Post.bind (Q := fun _ s' => s₁.Rests s') (Post.pure (.refl s₁)) ?_
      intro _ s₂ h₂
      refine (emit_brings world (.permissionResolved permission) nofun s₂).mono fun _ s₃ h₃ => ?_
      have hs₃ := (h₁.rests h₂).next (fun d => d.shows (.permissionResolved permission)) h₃
      have hs : s.Brings _ s₃ := hs₃.since rfl rfl
      exact hs.moves (.answer hasked (Or.inr ⟨_, rfl⟩)) rfl
    | some error =>
      refine Post.bind (fail_brings world error s₁) ?_
      intro _ s₂ h₂
      refine (emit_brings world (.permissionResolved permission) nofun s₂).mono fun _ s₃ h₃ => ?_
      have hs₃ := (h₁.next (Desk.failed error) h₂).next
        (fun d => d.shows (.permissionResolved permission)) h₃
      have hs : s.Brings ((s.desk.settle permission []).failed error) s₃ := by
        refine Brings.since ⟨?_, hs₃.tally⟩ rfl rfl
        rw [hs₃.desk, Desk.settle, List.append_nil]
        rfl
      exact hs.moves_twice (.answer hasked (Or.inl rfl)) (.fail error) rfl rfl

lemma resolveEach_moves (permissions : List PermissionId) (s : Session) :
    Post (fun _ s' => s.Moves world Act.settling s')
      (resolveEach world permissions) s :=
  foldMoves rfl (fun _ _ => rfl) (fun permission s => resolve_moves world permission none s) _ s

lemma resolveAll_moves (s : Session) :
    Post (fun _ s' => s.Moves world Act.settling s') (resolveAll world) s :=
  Post.get_bind (resolveEach_moves world _ s)

lemma autoAnswer_moves (permission : PermissionId) (s : Session) :
    Post (fun _ s' => s.Moves world Act.settling s')
      (autoAnswer world permission) s := by
  apply Post.get_bind
  refine Post.when _ (fun _ => ?_) fun _ => (Rests.refl s).moves
  refine Post.forM _ (fun option _ => ?_) fun _ => (Rests.refl s).moves
  exact resolve_moves world _ _ s

lemma nextQueued_moves {s : Session} (hn : s.ready = true → s.acpSession.isSome = true) :
    Post (fun _ s' => s.Moves world Act.quiet s' ∧ s'.desk.Waits)
      (nextQueued world) s := by
  rw [nextQueued]
  apply Post.get_bind
  refine Post.when _ (fun hfree => ?_) fun hbusy => ?_
  · obtain ⟨hturn, hready⟩ : s.turn = none ∧ s.ready = true := by simpa using hfree
    obtain ⟨session, hsession⟩ := Option.isSome_iff_exists.mp (hn hready)
    cases hq : s.transcript.queued with
    | nil => exact Post.pure ⟨(Rests.refl s).moves, fun hne => absurd hq hne⟩
    | cons next queued =>
      refine Post.bind (emit_brings world (.queue queued) nofun s) ?_
      intro _ s₁ h₁
      have hsession₁ : s₁.acpSession = some session := by
        rw [← hsession]
        exact congrArg Desk.acpSession h₁.desk
      refine (sendPrompt_brings world next.text next.attachments next.id hsession₁).mono ?_
      rintro _ s₂ (⟨blocks, hcarries, h₂⟩ | ⟨message, h₂⟩)
      · have hs₂ := h₁.next (fun d => (d.calls (.prompt session blocks) .prompt).begins) h₂
        refine ⟨hs₂.moves (.deliver hq hturn hready hcarries) rfl, ?_⟩
        rw [hs₂.desk]
        exact fun _ => Or.inl rfl
      · have hs₂ := h₁.next (fun d => d.numbers.failed message) h₂
        refine ⟨hs₂.moves_twice .numbered (.fail message) rfl rfl, ?_⟩
        rw [hs₂.desk]
        exact fun hne => absurd rfl hne
  · refine ⟨(Rests.refl s).moves, fun _ => ?_⟩
    cases hturn : s.turn with
    | some id => exact Or.inl (by simp [Session.desk, hturn])
    | none => exact Or.inr (by simpa [Session.desk, hturn] using hbusy)

lemma request_opens {call : AgentRequest} {kind : Pending} (hk : kind.opens = true)
    (plain : ∀ id, (Outbound.request id call).promptBlocks = none) {s : Session}
    (hu : s.desk.Unopened) (loading : kind = .loadSession → s.acpSession.isSome = true) :
    Post (fun _ s' => s.Moves world Act.quiet s' ∧ s'.desk.Starts)
      (request world call kind) s := by
  have hother : kind.isPrompt = false := by cases kind <;> first | rfl | cases hk
  refine (request_brings world call kind s).mono ?_
  rintro sent s' ⟨hsent, hfailed⟩
  cases sent with
  | true =>
    have h := hsent rfl
    refine ⟨h.moves (.calls hother plain (fun _ => hu) loading) rfl, ?_⟩
    rw [h.desk]
    exact fun _ => ⟨_, kind, AList.lookup_insert _, hk⟩
  | false =>
    obtain ⟨message, h⟩ := hfailed rfl
    refine ⟨h.moves_twice .numbered (.fail message) rfl rfl, ?_⟩
    rw [h.desk]
    nofun

lemma fail_moves (message : String) (s : Session) :
    Post (fun _ s' => s.Moves world Act.quiet s' ∧ s'.desk.Starts)
      (fail world message) s := by
  refine (fail_brings world message s).mono fun _ s' h => ⟨h.moves (.fail message) rfl, ?_⟩
  rw [h.desk]
  nofun

lemma load_moves (response : Wire.InitializeResponse) (s : Session) (hu : s.desk.Unopened) :
    Post (fun _ s' => s.Moves world Act.quiet s' ∧ s'.desk.Starts)
      (load world response) s := by
  rw [load]
  apply Post.get_bind
  cases s.config.load with
  | none =>
    refine Post.bind (request_opens world rfl (fun _ => rfl) hu nofun) ?_
    exact fun _ _ h => Post.pure h
  | some id =>
    refine Post.ite (fun _ => ?_) fun _ => Post.ite (fun _ => fail_moves world _ s) fun _ => ?_
    · apply Post.modify_bind
      have hnamed : s.Brings { s.desk with acpSession := some id } { s with acpSession := some id } :=
        .of_eq rfl rfl rfl
      refine Post.bind (request_opens world rfl (fun _ => rfl) ⟨hu.ready, hu.pending⟩ fun _ => rfl) ?_
      exact fun _ _ h => Post.pure ⟨(hnamed.moves (.named id) rfl).trans h.1, h.2⟩
    · refine Post.bind (notice_rests world _ _ s) ?_
      intro _ s₁ h₁
      refine Post.bind (request_opens world rfl (fun _ => rfl) (h₁.desk ▸ hu) nofun) ?_
      exact fun _ _ h => Post.pure ⟨h₁.moves.trans h.1, h.2⟩

lemma initialized_moves (result : Except Wire.Error Value) {s : Session} (hu : s.desk.Unopened) :
    Post (fun _ s' => s.Moves world Act.quiet s' ∧ s'.desk.Starts)
      (initialized world decode result) s := by
  rw [initialized]
  split
  · exact fail_moves world _ s
  · exact fail_moves world _ s
  · rename_i response _
    apply Post.modify_bind
    refine Post.mono (load_moves world response _ ?_) ?_
    · exact ⟨hu.ready, hu.pending⟩
    · exact fun _ _ h => ⟨h.1.since rfl rfl rfl, h.2⟩

lemma ready_moves (id : String) (modes : Option Modes) (settings : List ConfigOption)
    {s : Session} (hd : s.desk.Sound) (hu : s.desk.Unopened) (hn : s.acpSession.isSome = true) :
    Post (fun _ s' => s.Leads world Act.leading s' ∧ s'.desk.Waits ∧
        s'.desk.Starts) (ready world id modes settings) s := by
  apply Post.modify_bind
  apply Post.modify_bind
  apply Post.get_bind
  refine Post.bind (emit_rests world rfl _) ?_
  intro _ s₁ h₁
  have hs₁ : s.Brings { s.desk with ready := true } s₁ := h₁.brought rfl rfl rfl
  refine Post.bind (Q := fun _ s' => s₁.Rests s') ?_ ?_
  · exact Post.forM _ (fun modes _ => emit_rests world rfl s₁) fun _ => .refl s₁
  intro _ s₂ h₂
  refine Post.bind (Q := fun _ s' => s₂.Rests s') ?_ ?_
  · exact Post.when _ (fun _ => emit_rests world rfl s₂) fun _ => .refl s₂
  intro _ s₃ h₃
  apply Post.modify_bind
  refine Post.bind (setStatus_brings world .idle _) ?_
  intro _ s₄ h₄
  have hs₄ : s.Brings { s.desk with ready := true, status := .idle } s₄ :=
    ((hs₁.rests h₂).rests h₃).next (fun d => { d with status := .idle }) (h₄.since rfl rfl)
  have hopened : Desk.Step world s.desk .opened s₄.desk := hs₄.desk ▸ .opened hu hn
  have hd₄ : s₄.desk.Sound := hd.step hopened
  have hstarts₄ : s₄.desk.Starts := by
    rw [hs₄.desk]
    nofun
  refine (nextQueued_moves world hd₄.named).mono ?_
  rintro _ s₅ ⟨h₅, hwaits⟩
  refine ⟨(hs₄.moves (.opened hu hn) rfl).leads h₅, hwaits, ?_⟩
  exact h₅.starts hd₄ hstarts₄

lemma readyWith_moves (modes : Option Modes) (settings : List ConfigOption) {s : Session}
    (hd : s.desk.Sound) (hu : s.desk.Unopened) (hn : s.acpSession.isSome = true) :
    Post (fun _ s' => s.Leads world Act.leading s' ∧ s'.desk.Waits ∧ s'.desk.Starts)
      (readyWith world modes settings) s := by
  rw [readyWith]
  apply Post.get_bind
  obtain ⟨id, hid⟩ := Option.isSome_iff_exists.mp hn
  rw [hid]
  exact ready_moves world id modes settings hd hu hn

lemma fail_opening (message : String) (s : Session) :
    Post (fun _ s' => s.Leads world Act.leading s' ∧ s'.desk.Waits ∧ s'.desk.Starts)
      (fail world message) s := by
  refine (fail_brings world message s).mono fun _ s' h => ⟨?_, ?_, ?_⟩
  · exact Moves.quiet_leads (h.moves (.fail message) rfl)
  · rw [h.desk]
    exact fun hne => absurd rfl hne
  · rw [h.desk]
    nofun

lemma sessionOpened_moves (loaded : Bool) (result : Except Wire.Error Value) {s : Session}
    (hd : s.desk.Sound) (hu : s.desk.Unopened) (hn : loaded = true → s.acpSession.isSome = true) :
    Post (fun _ s' => s.Leads world Act.leading s' ∧ s'.desk.Waits ∧ s'.desk.Starts)
      (sessionOpened world decode loaded result) s := by
  rw [sessionOpened]
  apply Post.get_bind
  cases result with
  | error error => exact fail_opening world _ s
  | ok value =>
    refine Post.ite (fun hl => readyWith_moves world _ _ hd hu (hn hl)) fun _ => ?_
    cases decode.newSession (value.remove "configOptions") with
    | error error => exact fail_opening world _ s
    | ok response =>
      apply Post.modify_bind
      have hnamed : s.Brings { s.desk with acpSession := some response.sessionId }
          { s with acpSession := some response.sessionId } := .of_eq rfl rfl rfl
      have hstep : Desk.Step world s.desk .beside
          { s.desk with acpSession := some response.sessionId } := .named _
      refine Post.mono (readyWith_moves world _ _ (hd.step hstep) ?_ rfl) ?_
      · exact ⟨hu.ready, hu.pending⟩
      · exact fun _ _ h => ⟨(hnamed.moves hstep rfl).before_leads h.1, h.2⟩

lemma startedMs_rests (turn : Option Turn) (s : Session) :
    Post (fun _ s' => s.Rests s') (startedMs world turn) s := by
  cases turn with
  | none => exact ask_rests _ s
  | some turn => exact Post.pure (.refl s)

lemma endStatus_brings (s : Session) :
    Post (fun _ s' => s.Brings { s.desk with
        status := if s.desk.status = .working then .idle else s.desk.status } s')
      (when (decide (s.transcript.status = .working)) (setStatus world .idle)) s := by
  refine Post.when _ (fun hw => ?_) fun hn => ?_
  · rw [if_pos (show s.desk.status = .working from of_decide_eq_true hw)]
    exact setStatus_brings world .idle s
  · rw [if_neg (show ¬s.desk.status = .working from of_decide_eq_false hn)]
    exact (Rests.refl s).brings

lemma turnEnded_moves (id : ℤ) (result : Except Wire.Error Value) {s : Session}
    (hd : s.desk.Sound) (hp : s.desk.pending.lookup id = none) :
    Post (fun _ s' => s.Tallies s' ∧ (s.turn ≠ some id → s'.desk = s.desk) ∧
        (s.turn = some id → s'.desk.Waits ∧ ∃ acts, (∀ act ∈ acts, act.quiet = true) ∧
          Run (Desk.Step world) s.desk.ends acts s'.desk))
      (turnEnded world decode id result) s := by
  rw [turnEnded]
  apply Post.get_bind
  refine Post.when _ (fun hturn => ?_) fun hother => ?_
  · replace hturn : s.turn = some id := of_decide_eq_true hturn
    apply Post.set_bind
    refine Post.bind (resolveAll_moves world _) ?_
    intro _ s₁ h₁
    obtain ⟨acts, hacts, hr⟩ := h₁.run
    have hturn₁ : s₁.desk.turn = none := Desk.turn_settling hr hacts
    apply Post.modify_bind
    rcases turnOutcome decode result with ⟨ending, tokens, error⟩
    refine Post.bind (Q := fun _ s' => s₁.Rests s') ?_ ?_
    · refine Post.forM _ (fun error _ => ?_) fun _ => .of_eq rfl rfl rfl
      exact (notice_rests world _ _ _).mono fun _ _ h => h.after rfl rfl rfl
    intro _ s₂ h₂
    apply Post.get_bind
    refine Post.bind (startedMs_rests world _ s₂) ?_
    intro started s₃ h₃
    refine Post.bind (ask_rests _ s₃) ?_
    intro ended s₄ h₄
    refine Post.bind (emitProjected_rests world (fun _ => rfl) s₄) ?_
    intro _ s₅ h₅
    have hs₅ := (((h₂.trans h₃).trans h₄).trans h₅)
    refine Post.bind (emit_brings world (.turn none) nofun s₅) ?_
    intro _ s₆ h₆
    have hs₆ := hs₅.before (fun d => d.shows (.turn none)) h₆
    apply Post.get_bind
    refine Post.bind (endStatus_brings world s₆) ?_
    intro _ s₇ h₇
    have hs₇ := hs₆.next (fun d => { d with
      status := if d.status = .working then .idle else d.status }) h₇
    have hdesk : s₇.desk = s₁.desk.ends := by
      rw [hs₇.desk, Desk.ends, ← hturn₁]
      rfl
    have hended : Run (Desk.Step world) s.desk.ends acts s₇.desk := by
      have hmid := Desk.run_ends hr hacts
      rwa [← hdesk] at hmid
    have hend : Desk.Step world s.desk .endTurn s.desk.ends := .endTurn hturn hp
    have hd₇ : s₇.desk.Sound := (hd.step hend).run hended
    refine (nextQueued_moves world hd₇.named).mono ?_
    rintro _ s₈ ⟨h₈, hwaits⟩
    obtain ⟨acts', hacts', hr'⟩ := h₈.run
    refine ⟨?_, fun hne => absurd hturn hne, fun _ => ⟨hwaits, acts ++ acts', ?_, hended.append hr'⟩⟩
    · exact .trans (Or.inr ⟨rfl, rfl⟩) ((h₁.tally.trans hs₇.tally).trans h₈.tally)
    · intro act hm
      rcases List.mem_append.mp hm with hm | hm
      · exact Act.quiet_of_settling (hacts act hm)
      · exact hacts' act hm
  · replace hother : s.turn ≠ some id := of_decide_eq_false hother
    exact ⟨.refl s, fun _ => rfl, fun h => absurd h hother⟩

section Response

variable {world decode} {id : ℤ} {s : Session} {kind : Pending}
  (hd : s.desk.Sound) (hs : s.desk.Settled) (hl : s.pending.lookup id = some kind)

def Session.replied (id : ℤ) (s : Session) : Session := { s with pending := s.pending.erase id }

include hs hl

lemma other_settled (hp : kind.isPrompt = false) (ho : kind.opens = false) {s' : Session}
    (h : (s.replied id).Rests s') : (s.replied id).Leads world Act.leading s' ∧ s'.desk.Settled := by
  refine ⟨Moves.quiet_leads h.moves, ?_⟩
  rw [h.desk]
  exact ⟨hs.waits, hs.flies.reply hl hp, hs.starts.reply hl ho, hs.queues⟩

include hd

lemma opening_settled (hk : kind.opens = true) {s' : Session}
    (h : (s.replied id).Leads world Act.leading s') (hw : s'.desk.Waits) (hst : s'.desk.Starts) :
    (s.replied id).Leads world Act.leading s' ∧ s'.desk.Settled := by
  have hp : kind.isPrompt = false := by cases kind <;> first | rfl | cases hk
  exact ⟨h, hw, h.turning.flies (hd.reply id) (hs.flies.reply hl hp), hst,
    h.turning.queues hs.queues⟩

lemma prompt_settled (hk : kind = .prompt) (result : Except Wire.Error Value) :
    Post (fun _ s' => (s.replied id).Leads world Act.leading s' ∧ s'.desk.Settled)
      (turnEnded world decode id result) (s.replied id) := by
  subst hk
  have hp : (s.replied id).desk.pending.lookup id = none := AList.lookup_erase _ _
  have hstarts : (s.replied id).desk.Starts := hs.starts.reply hl rfl
  refine (turnEnded_moves world decode id result (hd.reply id) hp).mono ?_
  rintro _ s' ⟨htally, hother, hended⟩
  by_cases ht : s.turn = some id
  · obtain ⟨hwaits, acts, hacts, hr⟩ := hended ht
    have hend : Desk.Step world (s.replied id).desk .endTurn (s.replied id).desk.ends :=
      .endTurn ht hp
    have hd₁ := (hd.reply id).step hend
    have hturning : ∀ act ∈ acts, act.turning = true :=
      fun act hm => Act.turning_of_quiet (hacts act hm)
    refine ⟨⟨⟨[.endTurn], acts, _, ?_, hacts, Run.nil.snoc hend, hr⟩, htally⟩,
      hwaits, ?_, ?_, ?_⟩
    · intro act hm
      rw [List.mem_singleton.mp hm]
      rfl
    · have hnone : (s.replied id).desk.ends.Flies := nofun
      exact hnone.run hr (fun act hm => Act.ne_reply_of_turning (hturning act hm)) hd₁
    · exact hstarts.ends.run hr (fun act hm => Act.ne_reply_of_turning (hturning act hm)) hd₁
    · have hqueues : (s.replied id).desk.Queues := hs.queues
      exact hqueues.ends.run hr fun act hm => Act.ne_accept_of_turning (hturning act hm)
  · have hdesk := hother ht
    refine ⟨Moves.quiet_leads (Rests.moves ⟨hdesk, htally⟩), ?_⟩
    rw [hdesk]
    refine ⟨hs.waits, ?_, hstarts, hs.queues⟩
    intro id' ht'
    have hne : id' ≠ id := by
      rintro rfl
      exact ht ht'
    change (s.desk.pending.erase id).lookup id' = _
    rw [AList.lookup_erase_ne hne]
    exact hs.flies id' ht'

lemma response_moves (result : Except Wire.Error Value) :
    Post (fun _ s' => (s.replied id).Leads world Act.leading s' ∧ s'.desk.Settled)
      (response world decode id kind result) (s.replied id) := by
  cases kind with
  | handshake =>
    have hu : (s.replied id).desk.Unopened := hd.reply_unopened hl rfl
    refine (initialized_moves world decode result hu).mono fun _ s' h => ?_
    exact opening_settled hd hs hl rfl (Moves.quiet_leads h.1) (h.1.waits hs.waits) h.2
  | newSession =>
    have hu : (s.replied id).desk.Unopened := hd.reply_unopened hl rfl
    refine (sessionOpened_moves world decode false result (hd.reply id) hu nofun).mono fun _ s' h => ?_
    exact opening_settled hd hs hl rfl h.1 h.2.1 h.2.2
  | loadSession =>
    have hu : (s.replied id).desk.Unopened := hd.reply_unopened hl rfl
    have hn : (s.replied id).acpSession.isSome = true := hd.loading id hl
    refine (sessionOpened_moves world decode true result (hd.reply id) hu fun _ => hn).mono ?_
    exact fun _ s' h => opening_settled hd hs hl rfl h.1 h.2.1 h.2.2
  | prompt => exact prompt_settled hd hs hl rfl result
  | setOption =>
    cases result with
    | error error =>
      exact (notice_rests world _ _ _).mono fun _ _ h => other_settled hs hl rfl rfl h
    | ok value =>
      rw [response]
      cases value.get "configOptions" with
      | none => exact Post.pure (other_settled hs hl rfl rfl (.refl _))
      | some settings =>
        exact (emit_rests world rfl _).mono fun _ _ h => other_settled hs hl rfl rfl h
  | setMode mode =>
    cases result with
    | error error =>
      exact (notice_rests world _ _ _).mono fun _ _ h => other_settled hs hl rfl rfl h
    | ok value => exact (emit_rests world rfl _).mono fun _ _ h => other_settled hs hl rfl rfl h

end Response

end Agent

end Sheprd.Acp
