import Mathlib.Data.List.DropRight
import Sheprd.Acp.Bookkeeping
import Sheprd.Lib.Thinning

namespace Sheprd.Acp

open Sheprd.Lib Sheprd.Lib.Exec Sheprd.Chat Session

def Outbound.promptId : Outbound → Option ℤ
  | .request id (.prompt _ _) => some id
  | _ => none

lemma Outbound.promptId_eq_none {line : Outbound} (h : line.promptBlocks = none) :
    line.promptId = none := by
  rcases line with ⟨id, _ | _ | _ | _ | _ | _⟩ | _ | _ | _ | _ <;> first | rfl | cases h

namespace Desk

variable {world : World} {d d' : Desk} {act : Act} {acts : List Act}

def sentIds (d : Desk) : List ℤ := d.outbox.filterMap Outbound.promptId

lemma Step.plain (hs : Step world d act d') (hact : ∀ prompt, act ≠ .deliver prompt) :
    ∃ lines, d'.outbox = d.outbox ++ lines ∧ ∀ line ∈ lines, line.promptBlocks = none := by
  cases hs with
  | tell plain _ => exact ⟨_, rfl, plain⟩
  | calls _ plain _ _ =>
    refine ⟨_, rfl, fun line hm => ?_⟩
    rw [List.mem_singleton.mp hm]
    exact plain _
  | refuse request =>
    refine ⟨_, rfl, fun line hm => ?_⟩
    rw [List.mem_singleton.mp hm]
    rfl
  | answer _ told =>
    refine ⟨_, rfl, fun line hm => ?_⟩
    rcases told with rfl | ⟨outcome, rfl⟩
    · cases hm
    · rw [List.mem_singleton.mp hm]
      rfl
  | @deliver prompt => exact absurd rfl (hact prompt)
  | _ => exact ⟨[], (List.append_nil _).symm, List.forall_mem_nil _⟩

lemma Step.keeps_sent (hs : Step world d act d') (hact : ∀ prompt, act ≠ .deliver prompt) :
    d'.prompts = d.prompts ∧ d'.sentIds = d.sentIds := by
  obtain ⟨lines, houtbox, hplain⟩ := hs.plain hact
  have hids : ∀ line ∈ lines, line.promptId = none :=
    fun line hm => Outbound.promptId_eq_none (hplain line hm)
  constructor
  · rw [prompts, houtbox, List.filterMap_append, List.filterMap_eq_nil_iff.mpr hplain,
      List.append_nil, prompts]
  · rw [sentIds, houtbox, List.filterMap_append, List.filterMap_eq_nil_iff.mpr hids,
      List.append_nil, sentIds]

lemma keeps_queue_run (hr : Run (Step world) d acts d')
    (hacts : ∀ act ∈ acts, act.leading = true) : d'.queued = d.queued ∧ d'.prompts = d.prompts := by
  refine hr.among (P := fun e => e.queued = d.queued ∧ e.prompts = d.prompts) ⟨rfl, rfl⟩
    (fun e act e' hact h hs => ?_) hacts
  have hprompts : e'.prompts = e.prompts := by
    refine (hs.keeps_sent ?_).1
    rintro prompt rfl
    cases hact
  refine ⟨?_, hprompts.trans h.2⟩
  cases hs <;> first | exact h.1 | cases hact

def Sends (world : World) (queued : List Queued) (d d' : Desk) : Prop :=
  ∃ sent rest blocks, queued = sent ++ rest ∧ d'.prompts = d.prompts ++ blocks ∧
    List.Forall₂ (Carries world) sent blocks ∧
    (d'.queued = rest ∨ d'.queued = [] ∧ ∃ message, d'.status = .failed message)

lemma sends_step {queued : List Queued} {e : Desk} (h : Sends world queued d e)
    (hs : Step world e act d') (hact : act.quiet = true) : Sends world queued d d' := by
  obtain ⟨sent, rest, blocks, hqueued, hprompts, hcarries, hrest⟩ := h
  have hkept : (∀ prompt, act ≠ .deliver prompt) → d'.prompts = d.prompts ++ blocks :=
    fun hne => (hs.keeps_sent hne).1.trans hprompts
  cases hs with
  | fail message =>
    exact ⟨sent, rest, blocks, hqueued, hkept nofun, hcarries, Or.inr ⟨rfl, message, rfl⟩⟩
  | @deliver prompt queue session blocks' first free ready carries =>
    rcases hrest with hrest | ⟨hnone, -⟩
    · refine ⟨sent ++ [prompt], queue, blocks ++ [blocks'], ?_, ?_, ?_, Or.inl rfl⟩
      · rw [hqueued, ← hrest, first, List.append_assoc, List.singleton_append]
      · rw [← List.append_assoc, ← hprompts]
        exact List.filterMap_append
      · exact List.rel_append hcarries (.cons carries .nil)
    · rw [hnone] at first
      cases first
  | named id => exact ⟨sent, rest, blocks, hqueued, hkept nofun, hcarries, hrest⟩
  | tell _ _ => exact ⟨sent, rest, blocks, hqueued, hkept nofun, hcarries, hrest⟩
  | numbered => exact ⟨sent, rest, blocks, hqueued, hkept nofun, hcarries, hrest⟩
  | calls _ _ _ _ => exact ⟨sent, rest, blocks, hqueued, hkept nofun, hcarries, hrest⟩
  | answer _ _ => exact ⟨sent, rest, blocks, hqueued, hkept nofun, hcarries, hrest⟩
  | _ => cases hact

lemma sends_run (hr : Run (Step world) d acts d') (hacts : ∀ act ∈ acts, act.quiet = true) :
    Sends world d.queued d d' := by
  refine hr.among ?_ (fun e act e' hact h hs => sends_step h hs hact) hacts
  exact ⟨[], d.queued, [], rfl, (List.append_nil _).symm, .nil, Or.inl rfl⟩

structure Flown (answered : ℤ → Prop) (d : Desk) : Prop where
  distinct : d.sentIds.Nodup
  numbered : ∀ id ∈ d.sentIds, id ≤ d.nextRequest
  awaited : ∀ id ∈ d.sentIds, d.promptPending id ∨ answered id

lemma Flown.mono {answered answered' : ℤ → Prop} (h : Flown answered d)
    (himp : ∀ id, answered id → answered' id) : Flown answered' d :=
  ⟨h.distinct, h.numbered, fun id hm => (h.awaited id hm).imp_right (himp id)⟩

lemma Flown.kept {answered : ℤ → Prop} (h : Flown answered d) (hsent : d'.sentIds = d.sentIds)
    (hnext : d.nextRequest ≤ d'.nextRequest)
    (hpending : ∀ id ∈ d.sentIds, d.promptPending id → d'.promptPending id ∨ answered id) :
    Flown answered d' where
  distinct := hsent ▸ h.distinct
  numbered id hm := (h.numbered id (hsent ▸ hm)).trans hnext
  awaited id hm := by
    rw [hsent] at hm
    rcases h.awaited id hm with hp | ha
    · exact hpending id hm hp
    · exact Or.inr ha

lemma Flown.deliver {answered : ℤ → Prop} {session : String} {blocks : List Wire.ContentBlock}
    (h : Flown answered d) (hd : d.Sound) (queued : List Queued) :
    Flown answered { (d.calls (.prompt session blocks) .prompt).begins with queued := queued } := by
  have hsent : sentIds { (d.calls (.prompt session blocks) .prompt).begins with queued := queued } =
      d.sentIds ++ [d.nextRequest + 1] := List.filterMap_append
  constructor
  · rw [hsent]
    refine List.nodup_append.mpr ⟨h.distinct, List.nodup_singleton _, ?_⟩
    rintro id hm id' hm' rfl
    have hle := h.numbered id hm
    rw [List.mem_singleton.mp hm'] at hle
    omega
  · intro id hm
    rw [hsent] at hm
    rcases List.mem_append.mp hm with hm | hm
    · exact (h.numbered id hm).trans (Int.le_add_one le_rfl)
    · rw [List.mem_singleton.mp hm]
      exact le_rfl
  · intro id hm
    rw [hsent] at hm
    rcases List.mem_append.mp hm with hm | hm
    · refine (h.awaited id hm).imp_left fun hp => ?_
      change (d.calls (.prompt session blocks) .prompt).pending.lookup id = _
      exact hd.calls_kept .prompt hp
    · rw [List.mem_singleton.mp hm]
      exact Or.inl (AList.lookup_insert _)

lemma Flown.step {answered : ℤ → Prop} (h : Flown answered d) (hd : d.Sound)
    (hs : Step world d act d') (hreply : ∀ id ∈ d.sentIds, act = .reply id → answered id) :
    Flown answered d' := by
  have hkept : (∀ prompt, act ≠ .deliver prompt) → d'.sentIds = d.sentIds :=
    fun hne => (hs.keeps_sent hne).2
  cases hs with
  | deliver _ _ _ _ => exact h.deliver hd _
  | calls _ _ _ _ =>
    refine h.kept (hkept (by simp)) (Int.le_add_one le_rfl) fun id _ hp => Or.inl ?_
    exact hd.calls_kept _ hp
  | numbered => exact h.kept (hkept (by simp)) (Int.le_add_one le_rfl) fun id _ hp => Or.inl hp
  | reply id =>
    refine h.kept (hkept (by simp)) le_rfl fun id' hm hp => ?_
    by_cases hid : id' = id
    · exact Or.inr (hreply id' hm (by rw [hid]))
    · refine Or.inl ?_
      rw [promptPending, AList.lookup_erase_ne hid]
      exact hp
  | _ => exact h.kept (hkept (by simp)) le_rfl fun id _ hp => Or.inl hp

lemma Flown.run {answered : ℤ → Prop} (h : Flown answered d) (hd : d.Sound)
    (hr : Run (Step world) d acts d') (hacts : ∀ act ∈ acts, ∀ id, act ≠ .reply id) :
    Flown answered d' := by
  refine (hr.among (P := fun e => e.Sound ∧ Flown answered e) ⟨hd, h⟩ ?_ hacts).2
  intro e act e' hact he hs
  exact ⟨he.1.step hs, he.2.step he.1 hs fun id _ hreply => absurd hreply (hact id)⟩

lemma Flown.single {answered : ℤ → Prop} [DecidablePred answered] (h : Flown answered d)
    (hd : d.Sound) : (d.sentIds.filter fun id => !decide (answered id)).length ≤ 1 := by
  have hone : ∀ id ∈ d.sentIds.filter (fun id => !decide (answered id)), d.promptPending id := by
    intro id hm
    obtain ⟨hm, hn⟩ := List.mem_filter.mp hm
    exact (h.awaited id hm).resolve_right (by simpa using hn)
  have hdistinct := h.distinct.filter fun id => !decide (answered id)
  match hl : d.sentIds.filter fun id => !decide (answered id) with
  | [] => exact Nat.zero_le _
  | [id] => exact le_rfl
  | id :: id' :: ids =>
    rw [hl] at hone hdistinct
    have hsame : id = id' := hd.single id id' (hone id (by simp)) (hone id' (by simp))
    simp [hsame] at hdistinct

lemma Settled.awaited (h : Settled d) (hne : d.queued ≠ []) :
    ∃ id kind, d.pending.lookup id = some kind ∧
      (kind = .prompt ∧ d.turn = some id ∨ kind.opens = true ∧ d.ready = false) := by
  rcases h.waits hne with hturn | hunready
  · obtain ⟨id, hid⟩ := Option.isSome_iff_exists.mp hturn
    exact ⟨id, .prompt, h.flies id hid, Or.inl ⟨rfl, hid⟩⟩
  · obtain ⟨id, kind, hl, ho⟩ := h.starts (h.queues hunready hne)
    exact ⟨id, kind, hl, Or.inr ⟨ho, hunready⟩⟩

end Desk

def Input.Withdraws (prompt : CommandId) : Input → Prop
  | .command .cancel _ _ => True
  | .command (.unqueue id) _ _ => id = prompt
  | .agentExited _ _ => True
  | _ => False

lemma Input.Own.thins {world : World} {input : Input} {own : List Act} {d d' : Desk}
    (hown : Input.Own input own) (hr : Run (Desk.Step world) d own d') :
    Thins (fun prompt => prompt ∈ d.queued ++ own.filterMap Act.accepted ∧ input.Withdraws prompt.id)
        (d.queued ++ own.filterMap Act.accepted) d'.queued ∧ d'.prompts = d.prompts := by
  cases hown with
  | nothing =>
    rw [hr.of_nil]
    exact ⟨.of_eq (List.append_nil _), rfl⟩
  | reply id result =>
    have hs := hr.of_singleton
    refine ⟨?_, (hs.keeps_sent (by simp)).1⟩
    cases hs
    exact .of_eq (List.append_nil _)
  | ask request params =>
    have hs := hr.of_singleton
    refine ⟨?_, (hs.keeps_sent (by simp)).1⟩
    cases hs
    exact .of_eq (List.append_nil _)
  | refuse request params =>
    have hs := hr.of_singleton
    refine ⟨?_, (hs.keeps_sent (by simp)).1⟩
    cases hs
    exact .of_eq (List.append_nil _)
  | accept prompt conn =>
    have hs := hr.of_singleton
    refine ⟨?_, (hs.keeps_sent (by simp)).1⟩
    cases hs
    exact .refl _
  | takeBack conn id queued =>
    have hs := hr.of_singleton
    refine ⟨?_, (hs.keeps_sent (by simp)).1⟩
    cases hs with
    | @takeBack i prompt found =>
      have hnone : [Act.takeBack prompt.id].filterMap Act.accepted = [] := rfl
      rw [hnone, List.append_nil]
      exact .eraseIdx found ⟨List.mem_of_getElem? found, rfl⟩
  | clear conn id =>
    have hs := hr.of_singleton
    refine ⟨?_, (hs.keeps_sent (by simp)).1⟩
    cases hs
    exact .all fun prompt hm => ⟨hm, trivial⟩
  | exit code stderr =>
    have hs := hr.of_singleton
    refine ⟨?_, (hs.keeps_sent (by simp)).1⟩
    cases hs
    exact .all fun prompt hm => ⟨hm, trivial⟩

structure Transition where
  before : Session
  input : Input
  after : Session

namespace Transition

def accepted (t : Transition) : List Queued := Acp.accepted t.before t.input t.after

def acked (t : Transition) : List (CommandId × Option Rejection) := Acp.acked t.before t.input t.after

def answers (t : Transition) : List ℤ :=
  match t.input with
  | .agent (.response (.number id) _) =>
      if id ∈ t.before.outbox.filterMap Outbound.promptId then [id] else []
  | _ => []

def Drops (t : Transition) (prompt : Queued) : Prop :=
  prompt ∈ t.before.transcript.queued ++ t.accepted ∧
    (t.input.Withdraws prompt.id ∨ ∃ message, t.after.transcript.status = .failed message)

end Transition

namespace Session.Handles

variable {world : World} {input : Input} {flow : Flow} {s s' : Session}
  (h : s.Handles world input flow s')

include h

lemma sends : ∃ sent blocks,
    Thins (Transition.Drops ⟨s, input, s'⟩) (s.transcript.queued ++ accepted s input s')
      (sent ++ s'.transcript.queued) ∧
    s'.desk.prompts = s.desk.prompts ++ blocks ∧ List.Forall₂ (Carries world) sent blocks := by
  obtain ⟨own, d, hown, haccepted, ⟨first, rest, d₁, d₂, hfirst, hrest, h₁, h₂, h₃⟩, hdesk⟩ := h.serves
  obtain ⟨hthins, hprompts₁⟩ := hown.thins h₁
  obtain ⟨hqueued₂, hprompts₂⟩ := Desk.keeps_queue_run h₂ hfirst
  obtain ⟨sent, left, blocks, hsplit, hprompts, hcarries, hleft⟩ := Desk.sends_run h₃ hrest
  have hqueued : s'.transcript.queued = d.queued := congrArg Desk.queued hdesk
  have hstatus : s'.transcript.status = d.status := congrArg Desk.status hdesk
  refine ⟨sent, blocks, ?_, ?_, hcarries⟩
  · have hkept : Thins (Transition.Drops ⟨s, input, s'⟩)
        (s.transcript.queued ++ accepted s input s') (sent ++ left) := by
      rw [haccepted] at hthins
      rw [← hsplit, hqueued₂]
      exact hthins.mono fun prompt hp => ⟨hp.1, Or.inl hp.2⟩
    rw [hqueued]
    rcases hleft with hleft | ⟨hnone, message, hfailed⟩
    · rwa [hleft]
    · refine hkept.trans (.append (.refl sent) ?_)
      rw [hnone]
      refine .all fun prompt hm => ⟨hkept.subset (List.mem_append_right _ hm), Or.inr ⟨message, ?_⟩⟩
      exact hstatus.trans hfailed
  · have hsame : s'.desk.prompts = d.prompts := by
      rw [hdesk]
      rfl
    rw [hsame, hprompts, hprompts₂, hprompts₁]

lemma flown {answered : ℤ → Prop} (hd : s.desk.Sound) (hs : s.desk.Flown answered) :
    s'.desk.Flown fun id => answered id ∨ id ∈ Transition.answers ⟨s, input, s'⟩ := by
  obtain ⟨own, d, hown, -, ⟨first, rest, d₁, d₂, hfirst, hrest, h₁, h₂, h₃⟩, hdesk⟩ := h.serves
  have hflown₁ : d₁.Flown fun id => answered id ∨ id ∈ Transition.answers ⟨s, input, s'⟩ := by
    have hs₀ := hs.mono (fun id ha => Or.inl ha :
      ∀ id, answered id → answered id ∨ id ∈ Transition.answers ⟨s, input, s'⟩)
    cases hown with
    | nothing =>
      rw [h₁.of_nil]
      exact hs₀
    | reply id result =>
      refine hs₀.step hd h₁.of_singleton fun id' hm hreply => Or.inr ?_
      obtain rfl : id = id' := by injection hreply
      change id ∈ if id ∈ s.desk.sentIds then [id] else []
      rw [if_pos hm]
      exact List.mem_singleton_self id
    | _ => exact hs₀.step hd h₁.of_singleton nofun
  have hd₁ := hd.run h₁
  have hd₂ := hd₁.run h₂
  have hflown₂ := hflown₁.run hd₁ h₂ fun act hm =>
    Act.ne_reply_of_turning (Act.turning_of_leading (hfirst act hm))
  have hflown := hflown₂.run hd₂ h₃ fun act hm =>
    Act.ne_reply_of_turning (Act.turning_of_quiet (hrest act hm))
  rw [hdesk]
  exact hflown.kept rfl le_rfl fun id _ hp => Or.inl hp

end Session.Handles

lemma forget_oldest {α : Type} (l : List α) (n : ℕ) :
    (if (l.rtake (n + 1)).length = n + 1 then (l.rtake (n + 1)).drop 1 else l.rtake (n + 1)) =
      l.rtake n := by
  simp only [List.rtake, List.length_drop, List.drop_drop]
  by_cases hfull : l.length - (l.length - (n + 1)) = n + 1
  · rw [if_pos hfull]
    congr 1
    omega
  · rw [if_neg hfull]
    congr 1
    omega

lemma remembered_rtake (acks : List (CommandId × Option Rejection))
    (ack : CommandId × Option Rejection) :
    remembered (acks.rtake handledCount) ack.1 ack.2 = (acks ++ [ack]).rtake handledCount := by
  have hcount : handledCount = 255 + 1 := rfl
  rw [remembered, hcount, forget_oldest, List.rtake_concat_succ]

lemma remembered_all (new acks : List (CommandId × Option Rejection)) :
    new.foldl (fun kept ack => remembered kept ack.1 ack.2) (acks.rtake handledCount) =
      (acks ++ new).rtake handledCount := by
  induction new generalizing acks with
  | nil => rw [List.foldl_nil, List.append_nil]
  | cons ack new ih => rw [List.foldl_cons, remembered_rtake, ih, List.append_assoc, List.singleton_append]

def Takes (world : World) (decode : Wire.Decoders) (s : Session) (t : Transition) (s' : Session) : Prop :=
  t.before = s ∧ t.after = s' ∧ Continues world decode s t.input s'

lemma Takes.of_continues {world : World} {decode : Wire.Decoders} {s s' : Session} {input : Input}
    (h : Continues world decode s input s') : Takes world decode s ⟨s, input, s'⟩ s' := ⟨rfl, rfl, h⟩

structure Session.Keeps (world : World) (history : List Transition) (s : Session) : Prop where
  between : s.Between (history.map Transition.input)
  prompts : ∃ sent, Thins (fun prompt => ∃ t ∈ history, t.Drops prompt)
      (history.flatMap Transition.accepted) (sent ++ s.transcript.queued) ∧
    List.Forall₂ (Carries world) sent s.desk.prompts
  flown : s.desk.Flown fun id => id ∈ history.flatMap Transition.answers
  handled : s.handled = (history.flatMap Transition.acked).rtake handledCount

lemma Session.Keeps.handles {world : World} {history : List Transition} {input : Input} {flow : Flow}
    {s s' : Session} (hs : s.Keeps world history) (h : s.Handles world input flow s') :
    s'.Keeps world (history ++ [⟨s, input, s'⟩]) := by
  constructor
  · rw [List.map_append]
    exact h.between hs.between
  · obtain ⟨sent, hthins, hcarries⟩ := hs.prompts
    obtain ⟨sent', blocks, hthins', hprompts, hcarries'⟩ := h.sends
    refine ⟨sent ++ sent', ?_, ?_⟩
    · rw [List.flatMap_append, List.flatMap_singleton, List.append_assoc]
      have hbefore := Thins.append (hthins.mono fun prompt hp => hp) (.refl (accepted s input s'))
      rw [List.append_assoc] at hbefore
      refine Thins.trans (hbefore.mono ?_) (.append (.refl sent) (hthins'.mono ?_))
      · rintro prompt ⟨t, hm, hdrops⟩
        exact ⟨t, List.mem_append_left _ hm, hdrops⟩
      · exact fun prompt hdrops => ⟨_, by simp, hdrops⟩
    · rw [hprompts]
      exact List.rel_append hcarries hcarries'
  · refine (h.flown hs.between.sound hs.flown).mono fun id ha => ?_
    rw [List.flatMap_append, List.flatMap_singleton, List.mem_append]
    exact ha
  · rw [h.handled, hs.handled, remembered_all, List.flatMap_append, List.flatMap_singleton]
    rfl

lemma keeps_begun {world : World} {s : Session} (h : s.desk = Desk.blank.calls .handshake .handshake ∨
    ∃ message, s.desk = Desk.blank.numbers.failed message) : s.Keeps world [] := by
  have hsent : s.desk.prompts = [] ∧ s.desk.sentIds = [] := by
    rcases h with h | ⟨message, h⟩
    · rw [h]
      exact ⟨rfl, rfl⟩
    · rw [h]
      exact ⟨rfl, rfl⟩
  have hempty : s.transcript.queued = [] ∧ s.handled = [] := by
    rcases h with h | ⟨message, h⟩
    · exact ⟨congrArg Desk.queued h, congrArg Desk.handled h⟩
    · exact ⟨congrArg Desk.queued h, congrArg Desk.handled h⟩
  refine ⟨between_begun h, ⟨[], ?_, ?_⟩, ⟨?_, ?_, ?_⟩, hempty.2⟩
  · rw [hempty.1]
    exact .nil
  · rw [hsent.1]
    exact .nil
  · rw [hsent.2]
    exact .nil
  · rw [hsent.2]
    nofun
  · rw [hsent.2]
    nofun

section Conversation

variable {world : World} {decode : Wire.Decoders} {config : Config} {epoch : Uuid}
  {found : List (NoticeLevel × String)} {history : List Transition} {s₀ s : Session}

lemma conversation_keeps
    (hbegun : exec (opening world found) (Session.new config epoch) = (.ok (), s₀))
    (hrun : Run (Takes world decode) s₀ history s) : s.Keeps world history := by
  induction hrun with
  | nil => exact keeps_begun ((opening_brings world config epoch found).of_exec hbegun).2
  | @snoc history s s' t _ hinput ih =>
    obtain ⟨rfl, rfl, hinput⟩ := hinput
    have h := (handle_handles world decode ih.between.sound ih.between.settled _).of_exec hinput
    exact ih.handles h

variable (world decode)

lemma handle_resent (c : Command) (conn : ℕ) (id : CommandId) (s : Session)
    {handled : CommandId × Option Rejection}
    (hfound : (s.handled.find? fun handled => decide (handled.1 = id)) = some handled) :
    ∃ s', exec (handle world decode (.command c conn id)) s = (.ok .goOn, s') ∧
      exec (sendTo world conn (.ack id handled.2)) s = (.ok (), s') ∧ s'.desk = s.desk := by
  have hcommand : exec (command world conn id c) s =
      exec (sendTo world conn (.ack id handled.2)) s := by
    have hget : exec (get : Acting Session) s = (.ok s, s) := rfl
    simp only [command, exec_bind, hget, hfound]
  have hsent := sendTo_rests world conn (.ack id handled.2) s
  obtain ⟨flow, s', hx⟩ := handle_total world decode (.command c conn id) s
  have hbind : exec (handle world decode (.command c conn id)) s =
      exec (sendTo world conn (.ack id handled.2) >>= fun _ => pure Flow.goOn) s := by
    rw [handle, exec_bind, exec_bind, hcommand]
  rw [exec_bind] at hbind
  rcases hsend : exec (sendTo world conn (.ack id handled.2)) s with ⟨r, s''⟩
  rw [hsend, hx] at hbind
  cases r with
  | error fault => cases hbind
  | ok _ =>
    obtain ⟨hflow, rfl⟩ : flow = .goOn ∧ s' = s'' := by
      injection hbind with hr hs
      injection hr with hr
      exact ⟨hr, hs⟩
    exact ⟨s', hflow ▸ hx, rfl, (hsent.of_exec hsend).desk⟩

lemma handle_unsupported (conn : ℕ) (id : CommandId) (s : Session) :
    ∃ s', exec (handle world decode (.unsupported conn id)) s = (.ok .goOn, s') ∧
      s'.desk = { s.desk with handled := remembered s.handled id (some .unsupported) } := by
  obtain ⟨flow, s', hx⟩ := handle_total world decode (.unsupported conn id) s
  have hpost : Post (fun flow s' => flow = .goOn ∧
      s'.desk = { s.desk with handled := remembered s.handled id (some .unsupported) })
      (handle world decode (.unsupported conn id)) s :=
    Post.bind (ack_brings world conn id (some .unsupported) s) fun _ s' h => Post.pure ⟨rfl, h.desk⟩
  obtain ⟨rfl, hdesk⟩ := hpost.of_exec hx
  exact ⟨s', hx, hdesk⟩

end Conversation

section Sample

def ServerMessage.acks : ServerMessage → Option (CommandId × Option Rejection)
  | .ack id rejected => some (id, rejected)
  | _ => none

def paneCommanded : Session :=
  (exec (handle calm garbled (.command (.setAutoAccept true) 1 7)) paneAttached).2

def paneRefused : Session := (exec (handle calm garbled (.unsupported 1 7)) paneCommanded).2

def steps : Session → List Input → List Transition
  | _, [] => []
  | s, input :: inputs => ⟨s, input, after s input⟩ :: steps (after s input) inputs

lemma taken_of_goesOn {s : Session} {inputs : List Input} (h : goesOn s inputs = true) :
    Run (Takes calm accepting) s (steps s inputs) (inputs.foldl after s) := by
  induction inputs generalizing s with
  | nil => exact .nil
  | cons input inputs ih =>
    rw [goesOn, Bool.and_eq_true, decide_eq_true_eq] at h
    exact .cons (.of_continues (exec_eq_ok h.1)) (ih h.2)

def twoPrompts : List Input := paneInputs ++ [.command (.prompt "two" []) 1 8]

def paneQueued : Session := twoPrompts.foldl after paneBegun

def sentBy (s : Session) : List (List Wire.ContentBlock) := s.outbox.filterMap Outbound.promptBlocks

end Sample

end Sheprd.Acp
