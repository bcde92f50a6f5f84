import Sheprd.Acp.Feed
import Sheprd.Chat.WellFormed

namespace Sheprd.Acp

open Sheprd.Lib Sheprd.Lib.Exec Sheprd.Chat

def Session.Goes (s s' : Session) : Prop := Feed.Steps s.feed s'.feed

structure Session.Emits (s s' : Session) : Prop where
  goes : s.Goes s'
  subscribers : s'.subscribers.Sublist s.subscribers

structure Session.Nested (s s' : Session) : Prop extends Session.Emits s s' where
  pictures : s'.pictures = s.pictures

namespace Session

instance : Std.Refl Goes := ⟨fun _ => .refl⟩
instance : IsTrans Session Goes := ⟨fun _ _ _ h h' => h.trans h'⟩

instance : Std.Refl Emits := ⟨fun _ => ⟨.refl, .refl _⟩⟩
instance : IsTrans Session Emits :=
  ⟨fun _ _ _ h h' => ⟨h.goes.trans h'.goes, h'.subscribers.trans h.subscribers⟩⟩

instance : Std.Refl Nested := ⟨fun _ => ⟨⟨.refl, .refl _⟩, rfl⟩⟩
instance : IsTrans Session Nested :=
  ⟨fun _ _ _ h h' => ⟨IsTrans.trans _ _ _ h.toEmits h'.toEmits, h'.pictures.trans h.pictures⟩⟩

variable {s s' : Session}

lemma Goes.of_feed (h : s'.feed = s.feed) : s.Goes s' := by
  rw [Goes, h]
  exact .refl

lemma Emits.of_feed (h : s'.feed = s.feed) : s.Emits s' :=
  ⟨.of_feed h, by rw [show s'.subscribers = s.subscribers from congrArg Feed.subscribers h]⟩

lemma Nested.of_feed (h : s'.feed = s.feed) (hp : s'.pictures = s.pictures) : s.Nested s' :=
  ⟨.of_feed h, hp⟩

lemma remoteClients_eq (h : s'.subscribers = s.subscribers) : s'.remoteClients = s.remoteClients := by
  rw [remoteClients, remoteClients, h]

lemma Emits.fewer (h : s.Emits s') (hc : s'.remoteClients ≠ s.remoteClients) :
    s'.subscribers.length < s.subscribers.length := by
  refine lt_of_le_of_ne h.subscribers.length_le ?_
  intro heq
  exact hc (remoteClients_eq (h.subscribers.eq_of_length heq))

end Session

open Session

section Emit

variable (world : World)

lemma ask_runs {R : Session → Session → Prop} {α : Type} {f : ℕ → α} {s : Session}
    (h : R s { s with tick := s.tick + 1 }) : Runs R (ask f) s := ⟨rfl, h⟩

lemma project_runs {R : Session → Session → Prop} {α : Type} {f : Projector → α × Projector}
    {s : Session} (h : R s { s with projector := (f s.projector).2 }) : Runs R (project f) s :=
  ⟨rfl, h⟩

lemma project_bind {P : Session → Prop} {α β : Type} {f : Projector → α × Projector}
    {g : α → Acting β} {s : Session}
    (h : Ends P (g (f s.projector).1) { s with projector := (f s.projector).2 }) :
    Ends P (project f >>= g) s := h

def sentTo (outbox : ℕ) (message : ServerMessage) (taken : Bool) (s : Session) : Session :=
  { s with
    clients := if taken then s.clients.modify outbox (Client.push message) else s.clients
    tick := s.tick + 1 }

lemma wp_trySend {outbox : ℕ} {message : ServerMessage} {Q : Except Fault Bool → Session → Prop}
    {s : Session} : wp (trySend world outbox message) Q s ↔
      Q (.ok (world.takes s.tick)) (sentTo outbox message (world.takes s.tick) s) := by
  rw [trySend, wp_bind]
  change wp (when (world.takes s.tick) _ >>= fun _ => pure _) Q _ ↔ _
  cases world.takes s.tick <;> exact Iff.rfl

lemma sendAll_spec (message : ServerMessage) (subscribers : List Subscriber) (s : Session) :
    wp (sendAll world message subscribers) (fun r s' => ∃ kept tick, r = .ok kept ∧
      kept.Sublist subscribers ∧
      s' = { s with clients := Feed.deliver message kept s.clients, tick }) s := by
  induction subscribers generalizing s with
  | nil => exact ⟨[], s.tick, rfl, .slnil, rfl⟩
  | cons subscriber rest ih =>
    rw [sendAll, wp_bind, wp_trySend, andThen_ok, wp_bind]
    refine wp_mono (ih _) ?_
    rintro r s' ⟨kept, tick, rfl, hsub, rfl⟩
    rw [andThen_ok, wp_pure]
    cases world.takes s.tick with
    | true => exact ⟨subscriber :: kept, tick, rfl, hsub.cons_cons _, rfl⟩
    | false => exact ⟨kept, tick, rfl, hsub.cons _, rfl⟩

lemma publish_spec {change : Change} {transcript : Transcript} {s : Session}
    (fits : exec (Transcript.apply change) s.transcript = (.ok (), transcript)) :
    Ends s.Nested (publish world change) (s.applied change transcript) := by
  rw [Ends, publish, wp_bind, wp_modify, andThen_ok, wp_bind, wp_get, andThen_ok, wp_bind]
  refine wp_mono (sendAll_spec world _ _ _) ?_
  rintro r s' ⟨kept, tick, rfl, hsub, rfl⟩
  rw [andThen_ok, wp_modify]
  refine ⟨rfl, ⟨⟨?_, hsub⟩, rfl⟩⟩
  exact .single (Feed.Step.change fits hsub)

lemma tellHerdr_runs (update : Update) (s : Session) : Runs Nested (tellHerdr update) s :=
  Runs.modify (.of_feed rfl rfl)

lemma reportActivity_runs (s : Session) : Runs Nested reportActivity s := by
  apply Runs.get_bind
  apply Runs.when
  intro _
  refine Runs.bind (Runs.modify (.of_feed rfl rfl)) ?_
  intro _ s' _
  exact tellHerdr_runs _ s'

lemma dropWhileOver_lt (entry : Entry) (entries : List Entry) (text media drop : ℕ) :
    dropWhileOver (entry :: entries) text media drop < drop + (entries.length + 1) := by
  induction entries generalizing entry text media drop with
  | nil => exact Nat.lt_succ_self drop
  | cons next rest ih =>
    rw [dropWhileOver]
    split
    · have := ih next (text - entrySize entry) (media - entryMedia entry) (drop + 1)
      rw [List.length_cons]
      omega
    · exact Nat.lt_add_of_pos_right (Nat.succ_pos _)

lemma keepFrom_lt {entries : List Entry} (h : 0 < keepFrom entries) :
    keepFrom entries < entries.length := by
  have hmax : 0 < maxEntries := by decide
  cases hk : entries.drop (entries.length - maxEntries) with
  | nil =>
    have hnil : entries = [] := by
      have := List.drop_eq_nil_iff.mp hk
      exact List.length_eq_zero_iff.mp (by omega)
    subst hnil
    exact absurd h (Nat.lt_irrefl 0)
  | cons entry rest =>
    have hlen := congrArg List.length hk
    rw [List.length_drop, List.length_cons] at hlen
    have hlt := dropWhileOver_lt entry rest (sumOf entrySize (entry :: rest))
      (sumOf entryMedia (entry :: rest)) (entries.length - maxEntries)
    rw [keepFrom, hk]
    omega

lemma bound_runs {emit : Change → Acting Unit} {s : Session}
    (he : ∀ before, Runs Nested (emit (.truncate before)) s) : Runs Nested (bound emit) s := by
  apply Runs.get_bind
  apply Runs.when
  intro hpos
  have hlt := keepFrom_lt (of_decide_eq_true hpos)
  rw [List.getElem?_eq_getElem hlt]
  exact he _

section Settle

variable {R : Session → Session → Prop} [IsTrans Session R] {emit : Change → Acting Unit}
  {change : Change} {s : Session} (hR : ∀ s', s.Nested s' → R s s')
  (htruncate : touchesEntries change = true → ∀ s', s.Nested s' → ∀ before,
    Runs Nested (emit (.truncate before)) s')
  (hclients : ∀ s', s.Nested s' → s'.subscribers.length < s.subscribers.length → ∀ count,
    Runs Nested (emit (.clients count)) s')
  (hpictures : ∀ s', s.Nested s' → Runs R (picturesAfter world emit change) s')

include hR htruncate hclients hpictures

lemma afterApply_spec {transcript : Transcript}
    (fits : exec (Transcript.apply change) s.transcript = (.ok (), transcript)) :
    Ends (R s) (afterApply world emit change) (s.applied change transcript) := by
  change Ends (R s) (publish world change >>= _) _
  refine Ends.bind (publish_spec world fits) ?_
  intro _ s₁ h₁
  refine Ends.bind (Runs.after h₁ (Runs.when _ fun ht => bound_runs (htruncate ht s₁ h₁))) ?_
  intro _ s₂ h₂
  change Ends (R s) (when _ _ >>= _) s₂
  refine Ends.bind (Runs.after h₂ (Runs.when _ fun hc => ?_)) ?_
  · exact hclients s₂ h₂ (h₂.fewer (of_decide_eq_true hc)) _
  intro _ s₃ h₃
  refine Ends.bind (Runs.after h₃ (reportActivity_runs s₃)) ?_
  intro _ s₄ h₄
  exact Runs.after (hR s₄ h₄) (hpictures s₄ h₄)

lemma applyChange_runs : Runs R (applyChange world emit change) s := by
  rw [applyChange]
  apply Runs.get_bind
  rcases hr : exec (Transcript.apply change) s.transcript with ⟨r, transcript⟩
  cases r with
  | error e =>
    have hsame : transcript = s.transcript := by
      have := Transcript.apply_error (congrArg Prod.fst hr)
      rwa [hr] at this
    subst hsame
    exact Runs.set (hR s (Std.Refl.refl s))
  | ok u =>
    exact Ends.set_bind (afterApply_spec world hR htruncate hclients hpictures hr)

end Settle

structure Quiet (pictures : Pictures) (change : Change) : Prop where
  push : ∀ entry, change = .push entry → pictures.message = none ∧ Entry.isAgent entry = false
  finished : ∀ entry tool, finishedCall change = some (entry, tool) →
    tool.callId ∈ pictures.tools

lemma Quiet.of_flat {change : Change} (h : touchesEntries change = false) (pictures : Pictures) :
    Quiet pictures change := by
  refine ⟨?_, ?_⟩
  · rintro entry rfl
    cases h
  · intro entry tool hf
    cases change <;> first | cases hf | cases h

lemma picturesBefore_quiet {emit : Change → Acting Unit} {change : Change} {s : Session}
    (hq : Quiet s.pictures change) : exec (picturesBefore world emit change) s = (.ok change, s) := by
  cases change with
  | push entry =>
    obtain ⟨hm, ha⟩ := hq.push entry rfl
    have hclose : exec (closeMessage world emit entry) s = (.ok entry, s) := by
      have hget : exec (get : Acting Session) s = (.ok s, s) := rfl
      simp only [closeMessage, exec_bind, hget, hm]
      rfl
    change exec (if s.pictures.message = some entry.id then _ else _) s = _
    rw [hm, if_neg (by simp), exec_bind, hclose]
    change exec (when (Entry.isAgent entry) _ >>= _) s = _
    rw [ha]
    rfl
  | _ => rfl

lemma picturesAfter_quiet {emit : Change → Acting Unit} {change : Change} {s : Session}
    (hq : Quiet s.pictures change) : Runs Nested (picturesAfter world emit change) s := by
  rw [picturesAfter]
  cases hf : finishedCall change with
  | none => exact Runs.pure ()
  | some call =>
    obtain ⟨entry, tool⟩ := call
    apply Runs.get_bind
    apply Runs.when
    intro hnew
    exact absurd (hq.finished entry tool hf) (of_decide_eq_true hnew)

lemma emitBody_quiet {emit : Change → Acting Unit} {change : Change} {s : Session}
    (hq : Quiet s.pictures change)
    (htruncate : touchesEntries change = true → ∀ s', s.Nested s' → ∀ before,
      Runs Nested (emit (.truncate before)) s')
    (hclients : ∀ s', s.Nested s' → s'.subscribers.length < s.subscribers.length → ∀ count,
      Runs Nested (emit (.clients count)) s') : Runs Nested (emitBody world emit change) s := by
  rw [emitBody, Runs, Ends, wp_bind, wp, picturesBefore_quiet world hq]
  refine applyChange_runs world (fun _ h => h) htruncate hclients ?_
  intro s' h
  exact picturesAfter_quiet world (h.pictures ▸ hq)

lemma emitTo_flat {depth : ℕ} {change : Change} {s : Session}
    (hflat : touchesEntries change = false) (hd : s.subscribers.length + 1 ≤ depth) :
    Runs Nested (emitTo world depth change) s := by
  induction depth generalizing change s with
  | zero => omega
  | succ depth ih =>
    refine emitBody_quiet world (Quiet.of_flat hflat _) ?_ ?_
    · intro ht
      rw [hflat] at ht
      cases ht
    · intro s' _ hlt count
      exact ih rfl (by omega)

lemma emitTo_quiet {depth : ℕ} {change : Change} {s : Session} (hq : Quiet s.pictures change)
    (hd : s.subscribers.length + 2 ≤ depth) : Runs Nested (emitTo world depth change) s := by
  cases depth with
  | zero => omega
  | succ depth =>
    refine emitBody_quiet world hq ?_ ?_
    · intro _ s' h before
      have := h.subscribers.length_le
      exact emitTo_flat world rfl (by omega)
    · intro s' _ hlt count
      exact emitTo_flat world rfl (by omega)

lemma kind_of_finishedCall {change : Change} {entry : Entry} {tool : Tool}
    (h : finishedCall change = some (entry, tool)) : entry.kind = .tool tool := by
  revert h
  cases change with
  | push pushed =>
    rw [finishedCall]
    cases hk : pushed.kind <;> grind
  | replace replaced =>
    rw [finishedCall]
    cases hk : replaced.kind <;> grind
  | _ => simp [finishedCall]

lemma quiet_withImages {pictures : Pictures} {entry : Entry} {tool : Tool}
    (hk : entry.kind = .tool tool) (hm : tool.callId ∈ pictures.tools) (images : List ToolContent) :
    Quiet pictures (.replace (Entry.withImages images entry)) := by
  refine ⟨?_, ?_⟩
  · intro pushed heq
    cases heq
  · intro shown call hf
    simp only [Entry.withImages, hk, finishedCall] at hf
    split at hf
    · cases hf
      exact hm
    · cases hf

section Pictures

variable {emit : Change → Acting Unit} {s : Session}
  (he : ∀ s' change, s'.subscribers.Sublist s.subscribers → Quiet s'.pictures change →
    Runs Nested (emit change) s')

include he

lemma showLinked_runs (paths : List String) {s' : Session} (h : s.Emits s')
    (hm : s'.pictures.message = none) : Runs Nested (showLinked world emit paths) s' := by
  induction paths generalizing s' with
  | nil => exact Runs.pure false
  | cons path paths ih =>
    refine Runs.bind (ask_runs (.of_feed rfl rfl)) ?_
    intro image s₁ h₁
    have hs₁ : s.Emits s₁ := IsTrans.trans _ _ _ h h₁.toEmits
    have hm₁ : s₁.pictures.message = none := by rw [h₁.pictures, hm]
    cases image with
    | none => exact ih hs₁ hm₁
    | some image =>
      have hquiet : Quiet s₁.pictures (Projector.image .agent image s₁.projector).1 := by
        refine ⟨?_, ?_⟩
        · rintro entry heq
          cases heq
          exact ⟨hm₁, rfl⟩
        · intro entry tool hf
          cases hf
      apply project_bind
      refine Ends.bind (P := s₁.Nested) ?_ ?_
      · refine Runs.after (Nested.of_feed rfl rfl) (he _ _ ?_ hquiet)
        exact hs₁.subscribers
      · intro _ s₂ h₂
        refine Runs.after h₂ (Runs.bind (ih ?_ ?_) fun _ _ _ => Runs.pure true)
        · exact IsTrans.trans _ _ _ hs₁ h₂.toEmits
        · rw [h₂.pictures, hm₁]

lemma closeMessage_runs (entry : Entry) : Runs Emits (closeMessage world emit entry) s := by
  rw [closeMessage]
  apply Runs.get_bind
  cases s.pictures.message with
  | none => exact Runs.pure entry
  | some message =>
    have hclosed : s.Emits { s with pictures := { s.pictures with message := none } } :=
      .of_feed rfl
    have hshown := showLinked_runs world he (linkedIn world s message) hclosed rfl
    refine Ends.set_bind (Ends.bind (Runs.after hclosed (hshown.mono fun _ h => h.toEmits)) ?_)
    intro added s₁ h₁
    refine Runs.after h₁ (Runs.ite (fun _ => ?_) fun _ => Runs.pure _)
    refine Runs.bind (project_runs (.of_feed rfl)) ?_
    intro id s₂ _
    exact Runs.pure _

lemma picturesBefore_runs (change : Change) : Runs Emits (picturesBefore world emit change) s := by
  cases change with
  | push entry =>
    apply Runs.get_bind
    refine Runs.ite (fun _ => Runs.pure _) fun _ => ?_
    refine Runs.bind (closeMessage_runs world he entry) ?_
    intro entry s' _
    refine Runs.bind (Runs.when _ fun _ => Runs.modify (.of_feed rfl)) ?_
    intro _ s' _
    exact Runs.pure _
  | _ => exact Runs.pure _

lemma picturesAfter_runs (change : Change) : Runs Emits (picturesAfter world emit change) s := by
  rw [picturesAfter]
  cases hf : finishedCall change with
  | none => exact Runs.pure ()
  | some call =>
    obtain ⟨entry, tool⟩ := call
    apply Runs.get_bind
    apply Runs.when
    intro _
    apply Ends.modify_bind
    generalize hs₁ : ({ s with pictures := { s.pictures with
      tools := insert tool.callId s.pictures.tools } } : Session) = s₁
    have hlooked : s.Emits s₁ := hs₁ ▸ .of_feed rfl
    have hmem : tool.callId ∈ s₁.pictures.tools := by
      subst hs₁
      exact Finset.mem_insert_self _ _
    refine Ends.bind (P := s₁.Nested) (ask_runs (.of_feed rfl rfl)) ?_
    intro images s₂ h₂
    have hs₂ : s.Emits s₂ := IsTrans.trans _ _ _ hlooked h₂.toEmits
    refine Runs.after hs₂ (Runs.when _ fun _ => ?_)
    refine (he s₂ _ hs₂.subscribers ?_).mono fun _ h => h.toEmits
    rw [h₂.pictures]
    exact quiet_withImages (kind_of_finishedCall hf) hmem images

end Pictures

lemma emitTo_runs {depth : ℕ} (change : Change) {s : Session}
    (hd : s.subscribers.length + 3 ≤ depth) : Runs Emits (emitTo world depth change) s := by
  cases depth with
  | zero => omega
  | succ depth =>
    have he : ∀ s' change, s'.subscribers.Sublist s.subscribers → Quiet s'.pictures change →
        Runs Nested (emitTo world depth change) s' := by
      intro s' change hs hq
      have := hs.length_le
      exact emitTo_quiet world hq (by omega)
    refine Runs.bind (picturesBefore_runs world he change) ?_
    intro change s₁ h₁
    have hlen := h₁.subscribers.length_le
    refine applyChange_runs world (fun _ h => h.toEmits) ?_ ?_ ?_
    · intro _ s₂ h₂ before
      have := h₂.subscribers.length_le
      exact emitTo_flat world rfl (by omega)
    · intro s₂ _ hlt count
      exact emitTo_flat world rfl (by omega)
    · intro s₂ h₂
      refine picturesAfter_runs world ?_ change
      intro s' change hs hq
      exact he s' change (hs.trans (h₂.subscribers.trans h₁.subscribers)) hq

lemma emit_runs (change : Change) (s : Session) : Runs Goes (emit world change) s := by
  rw [emit]
  apply Runs.get_bind
  exact (emitTo_runs world change le_rfl).mono fun _ h => h.goes

end Emit

end Sheprd.Acp
