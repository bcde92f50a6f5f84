import Sheprd.Hub.Chat
import Sheprd.Lib.Run

namespace Sheprd.Hub

open Sheprd.Lib Sheprd.Lib.Exec Sheprd.Chat

structure Phone where
  cursor : Option Cursor
  transcript : Transcript
  applied : List Cursor
  failed : Bool

namespace Phone

def step (p : Phone) (step : Step) : Phone :=
  match exec (Transcript.apply step.change) p.transcript with
  | (.ok _, transcript) => ⟨some step.cursor, transcript, p.applied ++ [step.cursor], p.failed⟩
  | (.error _, _) => { p with failed := true }

def receive (p : Phone) : Message → Phone
  | .chatSnapshot _ cursor _ transcript => { p with cursor, transcript }
  | .chatChanges _ changes => changes.foldl step p
  | .chatResumed _ _ _ | .chatConnection _ _ | .reload _ => p

end Phone

inductive Phase where
  | idle
  | subscribed (since : Option Cursor)
  | based (since : Option Cursor) (base : Transcript × Option Cursor)
  | following (held : Option Cursor)
  | gathering (batch : Batch) (held : Option Cursor)
  | sending (messages : List Message) (held : Option Cursor)

structure System where
  state : State
  published : Option Event
  shown : List (Option Cursor × Transcript)
  phase : Phase
  queue : List Event
  phone : Phone

def System.Sends (h : System) : ServerMessage → Prop
  | .snapshot cursor transcript =>
    ∀ c t, (some c, t) ∈ h.shown → c.epoch = cursor.epoch →
      c.seq ≤ cursor.seq ∧ (c = cursor → t = transcript)
  | .change _ cursor => ∃ last, h.state.cursor = some last ∧ cursor = ⟨last.epoch, last.seq + 1⟩
  | _ => True

def System.show (s : State) (shown : List (Option Cursor × Transcript)) : List (Option Cursor × Transcript) :=
  shown ++ [(s.cursor, s.transcript)]

inductive Act where
  | receive (message : ServerMessage)
  | disconnected
  | publish
  | subscribe (since : Option Cursor)
  | base
  | sendOpening
  | take
  | flush
  | send
  | gathered
  | reload
  | leave

variable (pane : String)

inductive Moves (h : System) : Act → System → Prop
  | receive {message : ServerMessage} (idle : h.published = none) (sends : h.Sends message) :
      Moves h (.receive message) { h with
        state := (h.state.receive message).2.1
        published := (h.state.receive message).2.2
        shown := System.show (h.state.receive message).2.1 h.shown }
  | disconnected (idle : h.published = none) :
      Moves h .disconnected { h with
        state := (h.state.setConnected false).1, published := (h.state.setConnected false).2 }
  | publish {event : Event} (published : h.published = some event) :
      Moves h .publish { h with
        published := none
        queue := match h.phase with
          | .idle => h.queue
          | _ => h.queue ++ [event] }
  | subscribe {since : Option Cursor} (idle : h.phase = .idle)
      (known : since = none ∨ since = h.phone.cursor) :
      Moves h (.subscribe since) { h with phase := .subscribed since, queue := [] }
  | base {since : Option Cursor} (subscribed : h.phase = .subscribed since) :
      Moves h .base { h with phase := .based since (h.state.transcript, h.state.cursor) }
  | sendOpening {since : Option Cursor} {base : Transcript × Option Cursor}
      (based : h.phase = .based since base) :
      Moves h .sendOpening { h with
        phase := .following base.2
        phone := h.phone.receive (opening pane since base h.state.connected) }
  | takeFirst {held : Option Cursor} {event : Event} {rest : List Event}
      (following : h.phase = .following held) (queued : h.queue = event :: rest)
      (few : h.queue.length ≤ subscribersQueue) :
      Moves h .take { h with
        phase := .gathering (Batch.default.take event held).1 (Batch.default.take event held).2
        queue := rest }
  | takeNext {batch : Batch} {held : Option Cursor} {event : Event} {rest : List Event}
      (gathering : h.phase = .gathering batch held) (queued : h.queue = event :: rest)
      (few : h.queue.length ≤ subscribersQueue) :
      Moves h .take { h with
        phase := .gathering (batch.take event held).1 (batch.take event held).2, queue := rest }
  | flush {batch : Batch} {held : Option Cursor} (gathering : h.phase = .gathering batch held) :
      Moves h .flush { h with phase := .sending (batch.messages pane h.state.connected) held }
  | send {message : Message} {rest : List Message} {held : Option Cursor}
      (sending : h.phase = .sending (message :: rest) held) :
      Moves h .send { h with phase := .sending rest held, phone := h.phone.receive message }
  | gathered {held : Option Cursor} (sending : h.phase = .sending [] held) :
      Moves h .gathered { h with phase := .following held }
  | reload {held : Option Cursor}
      (gathering : h.phase = .following held ∨ ∃ batch, h.phase = .gathering batch held) :
      Moves h .reload { h with phase := .idle, queue := [], phone := h.phone.receive (.reload pane) }
  | leave : Moves h .leave { h with phase := .idle, queue := [] }

def System.start : System :=
  ⟨.default, none, [(none, State.default.transcript)], .idle, [],
    ⟨none, State.default.transcript, [], false⟩⟩

def Event.isReset : Event → Bool
  | .reset _ _ => true
  | _ => false

def Current (cursor : Option Cursor) (queue : List Event) : Prop :=
  ∀ change c, Event.change change c ∈ queue.takeWhile (fun event => !event.isReset) →
    ∃ base, cursor = some base ∧ base.epoch = c.epoch

section Streams

variable {shown shown' : List (Option Cursor × Transcript)}

def Takes (shown : List (Option Cursor × Transcript)) (from_ : Option Cursor) (step : Step) : Prop :=
  ∃ last t t', from_ = some last ∧ step.cursor = ⟨last.epoch, last.seq + 1⟩ ∧
    (some last, t) ∈ shown ∧ (some step.cursor, t') ∈ shown ∧
    exec (Transcript.apply step.change) t = (.ok (), t')

def Flows (shown : List (Option Cursor × Transcript)) : Option Cursor → List Event → Option Cursor → Prop
  | start, [], last => start = last
  | _, .reset t c :: rest, last => (some c, t) ∈ shown ∧ Flows shown (some c) rest last
  | start, .change change c :: rest, last =>
    Takes shown start ⟨c, change⟩ ∧ Flows shown (some c) rest last
  | start, .connection :: rest, last => Flows shown start rest last

def Leads (shown : List (Option Cursor × Transcript)) : Option Cursor → List Event → Option Cursor → Prop
  | held, [], last => held = last
  | _, .reset t c :: rest, last => (some c, t) ∈ shown ∧ Leads shown (some c) rest last
  | held, .change change c :: rest, last =>
    if Batch.had held c then Leads shown held rest last
    else Takes shown held ⟨c, change⟩ ∧ Leads shown (some c) rest last
  | held, .connection :: rest, last => Leads shown held rest last

def Follows (shown : List (Option Cursor × Transcript)) : Option Cursor → List Step → Option Cursor → Prop
  | start, [], last => start = last
  | start, step :: rest, last => Takes shown start step ∧ Follows shown (some step.cursor) rest last

def Brings (shown : List (Option Cursor × Transcript)) : Option Cursor → List Message → Option Cursor → Prop
  | start, [], last => start = last
  | _, .chatSnapshot _ cursor _ t :: rest, last => (cursor, t) ∈ shown ∧ Brings shown cursor rest last
  | start, .chatChanges _ changes :: rest, last =>
    ∃ middle, Follows shown start changes middle ∧ Brings shown middle rest last
  | start, .chatResumed _ c _ :: rest, last => start = some c ∧ Brings shown start rest last
  | start, .chatConnection _ _ :: rest, last => Brings shown start rest last
  | start, .reload _ :: rest, last => Brings shown start rest last

lemma Takes.mono {start : Option Cursor} {step : Step} (h : Takes shown start step)
    (hs : shown ⊆ shown') : Takes shown' start step := by
  obtain ⟨last, t, t', hl, hc, ht, ht', happly⟩ := h
  exact ⟨last, t, t', hl, hc, hs ht, hs ht', happly⟩

lemma Flows.mono {start last : Option Cursor} {events : List Event}
    (h : Flows shown start events last) (hs : shown ⊆ shown') : Flows shown' start events last := by
  induction events generalizing start with
  | nil => exact h
  | cons event events ih =>
    cases event with
    | reset t c => exact ⟨hs h.1, ih h.2⟩
    | change change c => exact ⟨h.1.mono hs, ih h.2⟩
    | connection => exact ih h

lemma Leads.mono {held last : Option Cursor} {events : List Event}
    (h : Leads shown held events last) (hs : shown ⊆ shown') : Leads shown' held events last := by
  induction events generalizing held with
  | nil => exact h
  | cons event events ih =>
    cases event with
    | reset t c => exact ⟨hs h.1, ih h.2⟩
    | change change c =>
      rw [Leads] at h ⊢
      split at h
      · rename_i hhad
        rw [if_pos hhad]
        exact ih h
      · rename_i hhad
        rw [if_neg hhad]
        exact ⟨h.1.mono hs, ih h.2⟩
    | connection => exact ih h

lemma Follows.mono {start last : Option Cursor} {steps : List Step}
    (h : Follows shown start steps last) (hs : shown ⊆ shown') : Follows shown' start steps last := by
  induction steps generalizing start with
  | nil => exact h
  | cons step steps ih => exact ⟨h.1.mono hs, ih h.2⟩

lemma Brings.mono {start last : Option Cursor} {messages : List Message}
    (h : Brings shown start messages last) (hs : shown ⊆ shown') :
    Brings shown' start messages last := by
  induction messages generalizing start with
  | nil => exact h
  | cons message messages ih =>
    cases message with
    | chatSnapshot pane cursor connected t => exact ⟨hs h.1, ih h.2⟩
    | chatChanges pane changes =>
      obtain ⟨middle, hf, hb⟩ := h
      exact ⟨middle, hf.mono hs, ih hb⟩
    | chatResumed pane c connected => exact ⟨h.1, ih h.2⟩
    | chatConnection pane connected => exact ih h
    | reload pane => exact ih h

lemma Takes.not_had {start : Option Cursor} {step : Step} (h : Takes shown start step) :
    Batch.had start step.cursor = false := by
  obtain ⟨last, -, -, rfl, hc, -⟩ := h
  simp [Batch.had, hc]

lemma Flows.leads {start last : Option Cursor} {events : List Event}
    (h : Flows shown start events last) : Leads shown start events last := by
  induction events generalizing start with
  | nil => exact h
  | cons event events ih =>
    cases event with
    | reset t c => exact ⟨h.1, ih h.2⟩
    | change change c =>
      rw [Leads, if_neg (by rw [h.1.not_had]; simp)]
      exact ⟨h.1, ih h.2⟩
    | connection => exact ih h

lemma Flows.leads_base {start : Option Cursor} {base : Cursor} {events : List Event}
    (h : Flows shown start events (some base)) (hc : Current (some base) events)
    (hlate : ∀ c t, (some c, t) ∈ shown → c.epoch = base.epoch → c.seq ≤ base.seq) :
    Leads shown (some base) events (some base) := by
  induction events generalizing start with
  | nil => rfl
  | cons event events ih =>
    cases event with
    | reset t c => exact ⟨h.1, h.2.leads⟩
    | change change c =>
      have hcurrent : Current (some base) events := by
        intro change' c' hm
        refine hc change' c' ?_
        rw [List.takeWhile_cons_of_pos (by rfl)]
        exact List.mem_cons_of_mem _ hm
      obtain ⟨_, hb, hepoch⟩ := hc change c (by
        rw [List.takeWhile_cons_of_pos (by rfl)]
        exact List.mem_cons_self)
      obtain rfl := Option.some.inj hb
      obtain ⟨_, _, t', _, _, _, ht', _⟩ := h.1
      have hseq := hlate _ _ ht' hepoch.symm
      have hhad : Batch.had (some base) c = true := by
        simp [Batch.had, hepoch, show c.seq ≤ base.seq from hseq]
      rw [Leads, if_pos hhad]
      exact ih h.2 hcurrent
    | connection =>
      refine ih h ?_
      intro change' c' hm
      refine hc change' c' ?_
      rw [List.takeWhile_cons_of_pos (by rfl)]
      exact List.mem_cons_of_mem _ hm

lemma Flows.leads_none {start last : Option Cursor} {events : List Event}
    (h : Flows shown start events last) (hc : Current none events) :
    ∃ last', Leads shown none events last' := by
  induction events generalizing start with
  | nil => exact ⟨none, rfl⟩
  | cons event events ih =>
    cases event with
    | reset t c => exact ⟨last, h.1, h.2.leads⟩
    | change change c =>
      obtain ⟨_, hb, -⟩ := hc change c (by
        rw [List.takeWhile_cons_of_pos (by rfl)]
        exact List.mem_cons_self)
      cases hb
    | connection =>
      refine ih h ?_
      intro change' c' hm
      refine hc change' c' ?_
      rw [List.takeWhile_cons_of_pos (by rfl)]
      exact List.mem_cons_of_mem _ hm

lemma Follows.append {start middle last : Option Cursor} {steps steps' : List Step}
    (h : Follows shown start steps middle) (h' : Follows shown middle steps' last) :
    Follows shown start (steps ++ steps') last := by
  induction steps generalizing start with
  | nil =>
    obtain rfl : start = middle := h
    exact h'
  | cons step steps ih => exact ⟨h.1, ih h.2⟩

lemma Follows.of_append {start last : Option Cursor} {steps steps' : List Step}
    (h : Follows shown start (steps ++ steps') last) :
    ∃ middle, Follows shown start steps middle ∧ Follows shown middle steps' last := by
  induction steps generalizing start with
  | nil => exact ⟨start, rfl, h⟩
  | cons step steps ih =>
    obtain ⟨middle, hm, hl⟩ := ih h.2
    exact ⟨middle, ⟨h.1, hm⟩, hl⟩

lemma Flows.append {start middle last : Option Cursor} {events events' : List Event}
    (h : Flows shown start events middle) (h' : Flows shown middle events' last) :
    Flows shown start (events ++ events') last := by
  induction events generalizing start with
  | nil =>
    obtain rfl : start = middle := h
    exact h'
  | cons event events ih =>
    cases event with
    | reset t c => exact ⟨h.1, ih h.2⟩
    | change change c => exact ⟨h.1, ih h.2⟩
    | connection => exact ih h

lemma Leads.append {held middle last : Option Cursor} {events events' : List Event}
    (h : Leads shown held events middle) (h' : Leads shown middle events' last) :
    Leads shown held (events ++ events') last := by
  induction events generalizing held with
  | nil =>
    obtain rfl : held = middle := h
    exact h'
  | cons event events ih =>
    cases event with
    | reset t c => exact ⟨h.1, ih h.2⟩
    | change change c =>
      rw [Leads] at h
      rw [List.cons_append, Leads]
      split at h
      · rename_i hhad
        rw [if_pos hhad]
        exact ih h
      · rename_i hhad
        rw [if_neg hhad]
        exact ⟨h.1, ih h.2⟩
    | connection => exact ih h

end Streams

namespace System

def toCome (h : System) : List Event := h.queue ++ h.published.toList

end System

def Gathers (shown : List (Option Cursor × Transcript)) (start : Option Cursor) (batch : Batch)
    (held : Option Cursor) : Prop :=
  match batch.reset with
  | none => Follows shown start batch.steps held
  | some (t, c) => (some c, t) ∈ shown ∧ Follows shown (some c) batch.steps held

def Ends (s : State) (last : Option Cursor) : Prop := ∀ c, s.cursor = some c → last = some c

def Comes (h : System) (held : Option Cursor) : Prop :=
  ∃ last, Leads h.shown held h.toCome last ∧ Ends h.state last

def Viewed (h : System) : Prop :=
  match h.phase with
  | .idle => True
  | .subscribed since =>
    (since = none ∨ since = h.phone.cursor) ∧
      ∃ start last, Flows h.shown start h.toCome last ∧ Ends h.state last
  | .based since base =>
    (since = none ∨ since = h.phone.cursor) ∧ (base.2, base.1) ∈ h.shown ∧ Comes h base.2
  | .following held => h.phone.cursor = held ∧ Comes h held
  | .gathering batch held => Gathers h.shown h.phone.cursor batch held ∧ Comes h held
  | .sending messages held => Brings h.shown h.phone.cursor messages held ∧ Comes h held

structure Kept (s : State) (shown : List (Option Cursor × Transcript)) : Prop where
  same : ∀ c t t', (some c, t) ∈ shown → (some c, t') ∈ shown → t = t'
  now : (s.cursor, s.transcript) ∈ shown
  late : ∀ c, s.cursor = some c → ∀ c' t, (some c', t) ∈ shown → c'.epoch = c.epoch → c'.seq ≤ c.seq

structure Fits (shown : List (Option Cursor × Transcript)) (p : Phone) : Prop where
  held : (p.cursor, p.transcript) ∈ shown
  fits : p.failed = false

structure Inv (h : System) : Prop where
  kept : Kept h.state h.shown
  pending : ∀ change c, h.published = some (.change change c) → h.state.cursor = some c
  published : ∃ start last, Flows h.shown start h.published.toList last ∧ Ends h.state last
  phone : Fits h.shown h.phone
  view : Viewed h

section Reader

variable {s : State} {shown : List (Option Cursor × Transcript)}

lemma subset_show : shown ⊆ System.show s shown := List.subset_append_left _ _

lemma mem_show : (s.cursor, s.transcript) ∈ System.show s shown :=
  List.mem_append_right _ (List.mem_singleton_self _)

lemma of_mem_show {known : Option Cursor × Transcript} (h : known ∈ System.show s shown) :
    known ∈ shown ∨ known = (s.cursor, s.transcript) :=
  (List.mem_append.mp h).imp_right List.mem_singleton.mp

lemma Kept.setConnected {connected : Bool} (h : Kept s shown) :
    Kept (s.setConnected connected).1 shown := ⟨h.same, h.now, h.late⟩

lemma Kept.again (h : Kept s shown) : Kept s (System.show s shown) := by
  have hmem : ∀ known, known ∈ System.show s shown → known ∈ shown := by
    intro known hk
    rcases of_mem_show hk with hk | rfl
    · exact hk
    · exact h.now
  exact ⟨fun c t t' ht ht' => h.same c t t' (hmem _ ht) (hmem _ ht'), mem_show,
    fun c hc c' t ht => h.late c hc c' t (hmem _ ht)⟩

lemma Kept.at {c : Cursor} {t : Transcript} (h : Kept s shown)
    (hlate : ∀ c' t', (some c', t') ∈ shown → c'.epoch = c.epoch → c'.seq ≤ c.seq)
    (hsame : ∀ t', (some c, t') ∈ shown → t' = t) :
    Kept { s with cursor := some c, transcript := t }
      (System.show { s with cursor := some c, transcript := t } shown) := by
  have hnew : ∀ {c' u}, (some c', u) ∈ System.show { s with cursor := some c, transcript := t } shown →
      (some c', u) ∈ shown ∨ c' = c ∧ u = t := by
    intro c' u hm
    refine (of_mem_show hm).imp_right ?_
    rintro ⟨⟩
    exact ⟨rfl, rfl⟩
  refine ⟨?_, mem_show, ?_⟩
  · intro c' u u' hu hu'
    rcases hnew hu with hold | ⟨rfl, rfl⟩
    · rcases hnew hu' with hold' | ⟨rfl, rfl⟩
      · exact h.same c' u u' hold hold'
      · exact hsame u hold
    · rcases hnew hu' with hold' | ⟨-, rfl⟩
      · exact (hsame u' hold').symm
      · rfl
  · rintro _ ⟨⟩ c' u hu he
    rcases hnew hu with hold | ⟨rfl, -⟩
    · exact hlate c' u hold he
    · exact le_rfl

lemma Kept.astray {t : Transcript} (h : Kept s shown) :
    Kept { s with cursor := none, transcript := t }
      (System.show { s with cursor := none, transcript := t } shown) := by
  have hold : ∀ {c u}, (some c, u) ∈ System.show { s with cursor := none, transcript := t } shown →
      (some c, u) ∈ shown := by
    intro c u hm
    rcases of_mem_show hm with hm | hm
    · exact hm
    · cases hm
  exact ⟨fun c u u' hu hu' => h.same c u u' (hold hu) (hold hu'), mem_show, fun c hc => by cases hc⟩

variable {h : System} {message : ServerMessage}

lemma change_next {change : Change} {cursor : Cursor} (hk : Kept h.state h.shown)
    (hs : h.Sends (.change change cursor)) : ∀ t, (some cursor, t) ∉ h.shown := by
  obtain ⟨last, hlast, hcursor⟩ := hs
  intro t ht
  have hle := hk.late last hlast _ _ ht (by rw [hcursor])
  rw [hcursor] at hle
  exact absurd hle (by simp)

lemma receive_kept (hk : Kept h.state h.shown) (hs : h.Sends message) :
    let received := h.state.receive message
    Kept received.2.1 (System.show received.2.1 h.shown) ∧
      (∀ change c, received.2.2 = some (.change change c) → received.2.1.cursor = some c) ∧
      ∀ last, Ends h.state last → ∃ last',
        Flows (System.show received.2.1 h.shown) last received.2.2.toList last' ∧
          Ends received.2.1 last' := by
  intro received
  cases message with
  | welcome agent pane version =>
    refine ⟨hk.setConnected.again, ?_, fun last hl => ⟨last, ?_, hl⟩⟩
    · intro change c hc
      simp only [received, State.receive, State.setConnected] at hc
      split at hc
      · cases hc
      · cases hc
    · simp only [received, State.receive, State.setConnected]
      split
      · rfl
      · rfl
  | ack id rejected => exact ⟨hk.again, fun _ _ hc => (by cases hc), fun last hl => ⟨last, rfl, hl⟩⟩
  | bye reason => exact ⟨hk.again, fun _ _ hc => (by cases hc), fun last hl => ⟨last, rfl, hl⟩⟩
  | snapshot cursor transcript =>
    refine ⟨hk.at (fun c t hm he => (hs c t hm he).1) (fun t hm => (hs cursor t hm rfl).2 rfl),
      fun _ _ hc => (by cases hc), fun last hl => ⟨some cursor, ⟨mem_show, rfl⟩, ?_⟩⟩
    rintro _ ⟨⟩
    rfl
  | change change cursor =>
    have hnew := change_next hk hs
    obtain ⟨last, hlast, hcursor⟩ := hs
    cases happly : exec (Transcript.apply change) h.state.transcript with
    | mk result transcript =>
      cases result with
      | error error =>
        have hreceived : received = (false, { h.state with cursor := none, transcript }, none) := by
          simp only [received, State.receive, happly]
        rw [hreceived]
        exact ⟨hk.astray, fun _ _ hc => (by cases hc), fun last _ => ⟨last, rfl, fun c hc => by cases hc⟩⟩
      | ok _ =>
        have hreceived : received = (true, { h.state with cursor := some cursor, transcript },
            some (.change change cursor)) := by
          simp only [received, State.receive, happly]
        rw [hreceived]
        refine ⟨hk.at ?_ fun t' ht' => absurd ht' (hnew t'), ?_, fun start hl => ⟨some cursor, ⟨?_, rfl⟩, ?_⟩⟩
        · intro c' t' hm he
          refine (hk.late last hlast c' t' hm (he.trans (by rw [hcursor]))).trans ?_
          rw [hcursor]
          exact Nat.le_succ _
        · rintro _ _ ⟨⟩
          rfl
        · have hnow := hk.now
          rw [hlast] at hnow
          exact ⟨last, h.state.transcript, transcript, hl last hlast, hcursor, subset_show hnow,
            mem_show, happly⟩
        · rintro _ ⟨⟩
          rfl

end Reader

section PhoneSide

variable {shown : List (Option Cursor × Transcript)} {p : Phone}

lemma Fits.mono {shown' : List (Option Cursor × Transcript)} (h : Fits shown p) (hs : shown ⊆ shown') :
    Fits shown' p := ⟨hs h.held, h.fits⟩

lemma Fits.step {step : Step} (hsame : ∀ c t t', (some c, t) ∈ shown → (some c, t') ∈ shown → t = t')
    (h : Fits shown p) (ht : Takes shown p.cursor step) :
    Fits shown (p.step step) ∧ (p.step step).cursor = some step.cursor := by
  obtain ⟨last, t, t', hlast, hc, hm, hm', happly⟩ := ht
  have hheld := h.held
  rw [hlast] at hheld
  obtain rfl := hsame last _ _ hheld hm
  have hstep : p.step step = ⟨some step.cursor, t', p.applied ++ [step.cursor], p.failed⟩ := by
    rw [Phone.step, happly]
  rw [hstep]
  exact ⟨⟨hm', h.fits⟩, rfl⟩

lemma Fits.steps {last : Option Cursor} {steps : List Step}
    (hsame : ∀ c t t', (some c, t) ∈ shown → (some c, t') ∈ shown → t = t') (h : Fits shown p)
    (hf : Follows shown p.cursor steps last) :
    Fits shown (steps.foldl Phone.step p) ∧ (steps.foldl Phone.step p).cursor = last := by
  induction steps generalizing p with
  | nil => exact ⟨h, hf⟩
  | cons step steps ih =>
    obtain ⟨hfit, hcursor⟩ := h.step hsame hf.1
    exact ih hfit (hcursor ▸ hf.2)

lemma Fits.receive {last : Option Cursor} {message : Message} {messages : List Message}
    (hsame : ∀ c t t', (some c, t) ∈ shown → (some c, t') ∈ shown → t = t') (h : Fits shown p)
    (hb : Brings shown p.cursor (message :: messages) last) :
    Fits shown (p.receive message) ∧ Brings shown (p.receive message).cursor messages last := by
  cases message with
  | chatSnapshot pane cursor connected t => exact ⟨⟨hb.1, h.fits⟩, hb.2⟩
  | chatChanges pane changes =>
    obtain ⟨middle, hf, hb⟩ := hb
    obtain ⟨hfit, rfl⟩ := h.steps hsame hf
    exact ⟨hfit, hb⟩
  | chatResumed pane c connected => exact ⟨h, hb.2⟩
  | chatConnection pane connected => exact ⟨h, hb⟩
  | reload pane => exact ⟨h, hb⟩

lemma brings_chunks {pane : String} {start last : Option Cursor} {chunks : List (List Step)}
    {messages : List Message} {middle : Option Cursor} (hf : Follows shown start chunks.flatten middle)
    (hb : Brings shown middle messages last) :
    Brings shown start (chunks.map (Message.chatChanges pane) ++ messages) last := by
  induction chunks generalizing start with
  | nil =>
    obtain rfl : start = middle := hf
    exact hb
  | cons chunk chunks ih =>
    obtain ⟨next, hc, hr⟩ := Follows.of_append hf
    exact ⟨next, hc, ih hr⟩

lemma Gathers.messages {pane : String} {connected : Bool} {start held : Option Cursor}
    {batch : Batch} (h : Gathers shown start batch held) :
    Brings shown start (batch.messages pane connected) held := by
  have hlast : Brings shown held
      (if batch.connection then [Message.chatConnection pane connected] else []) held := by
    split
    · rfl
    · rfl
  obtain ⟨reset, steps, connection⟩ := batch
  rw [Batch.messages, List.append_assoc]
  cases reset with
  | none => exact brings_chunks (by rwa [splitAtPictures_flatten]) hlast
  | some base => exact ⟨h.1, brings_chunks (by rw [splitAtPictures_flatten]; exact h.2) hlast⟩

lemma Gathers.take {start held last : Option Cursor} {batch : Batch} {event : Event}
    {rest : List Event} (h : Gathers shown start batch held)
    (hl : Leads shown held (event :: rest) last) :
    Gathers shown start (batch.take event held).1 (batch.take event held).2 ∧
      Leads shown (batch.take event held).2 rest last := by
  cases event with
  | reset t c => exact ⟨⟨hl.1, rfl⟩, hl.2⟩
  | connection => exact ⟨h, hl⟩
  | change change c =>
    rw [Leads] at hl
    rw [Batch.take]
    split at hl
    · rename_i hhad
      rw [if_pos hhad]
      exact ⟨h, hl⟩
    · rename_i hhad
      rw [if_neg hhad]
      refine ⟨?_, hl.2⟩
      have hstep : Follows shown held [⟨c, change⟩] (some c) := ⟨hl.1, rfl⟩
      obtain ⟨reset, steps, connection⟩ := batch
      cases reset with
      | none => exact Follows.append h hstep
      | some base => exact ⟨h.1, h.2.append hstep⟩

lemma brings_opening {pane : String} {since : Option Cursor} {base : Transcript × Option Cursor}
    {connected : Bool} (hsince : since = none ∨ since = p.cursor) (hb : (base.2, base.1) ∈ shown) :
    Brings shown p.cursor [opening pane since base connected] base.2 := by
  obtain ⟨t, _ | c⟩ := base
  · exact ⟨hb, rfl⟩
  · rw [opening]
    dsimp only
    split
    · rename_i hs
      rcases hsince with rfl | rfl
      · cases hs
      · exact ⟨hs, hs⟩
    · exact ⟨hb, rfl⟩

end PhoneSide

section Run

variable {pane : String} {h h' : System} {act : Act}

def Grows (h : System) (s : State) (published : Option Event) (shown : List (Option Cursor × Transcript)) :
    Prop :=
  ∀ last, Ends h.state last → ∃ last', Flows shown last published.toList last' ∧ Ends s last'

lemma Comes.grow {s : State} {published : Option Event} {shown : List (Option Cursor × Transcript)}
    {held : Option Cursor} (hc : Comes h held) (idle : h.published = none) (hs : h.shown ⊆ shown)
    (hg : Grows h s published shown) : Comes { h with state := s, published, shown } held := by
  obtain ⟨last, hleads, hends⟩ := hc
  obtain ⟨last', hflows, hends'⟩ := hg last hends
  refine ⟨last', ?_, hends'⟩
  rw [System.toCome, idle, Option.toList_none, List.append_nil] at hleads
  exact (hleads.mono hs).append hflows.leads

lemma Viewed.grow {s : State} {published : Option Event} {shown : List (Option Cursor × Transcript)}
    (hv : Viewed h) (idle : h.published = none) (hs : h.shown ⊆ shown)
    (hg : Grows h s published shown) : Viewed { h with state := s, published, shown } := by
  rw [Viewed.eq_def] at hv ⊢
  cases hp : h.phase with
  | idle => trivial
  | subscribed since =>
    simp only [hp] at hv
    obtain ⟨hsince, start, last, hflows, hends⟩ := hv
    obtain ⟨last', hflows', hends'⟩ := hg last hends
    rw [System.toCome, idle, Option.toList_none, List.append_nil] at hflows
    exact ⟨hsince, start, last', (hflows.mono hs).append hflows', hends'⟩
  | based since base =>
    simp only [hp] at hv
    exact ⟨hv.1, hs hv.2.1, hv.2.2.grow idle hs hg⟩
  | following held =>
    simp only [hp] at hv
    exact ⟨hv.1, hv.2.grow idle hs hg⟩
  | gathering batch held =>
    simp only [hp] at hv
    refine ⟨?_, hv.2.grow idle hs hg⟩
    have hgathers := hv.1
    obtain ⟨reset, steps, connection⟩ := batch
    cases reset with
    | none => exact Follows.mono hgathers hs
    | some base => exact ⟨hs hgathers.1, hgathers.2.mono hs⟩
  | sending messages held =>
    simp only [hp] at hv
    exact ⟨hv.1.mono hs, hv.2.grow idle hs hg⟩

lemma Inv.reads {s : State} {published : Option Event} {shown : List (Option Cursor × Transcript)}
    (hi : Inv h) (idle : h.published = none) (hs : h.shown ⊆ shown) (hk : Kept s shown)
    (hpending : ∀ change c, published = some (.change change c) → s.cursor = some c)
    (hg : Grows h s published shown) : Inv { h with state := s, published, shown } := by
  refine ⟨hk, hpending, ?_, hi.phone.mono hs, hi.view.grow idle hs hg⟩
  obtain ⟨last', hflows, hends⟩ := hg h.state.cursor fun _ hc => hc
  exact ⟨h.state.cursor, last', hflows, hends⟩

lemma Inv.publish {event : Event} (hi : Inv h) (published : h.published = some event) :
    Inv { h with
      published := none
      queue := match h.phase with
        | .idle => h.queue
        | _ => h.queue ++ [event] } := by
  refine ⟨hi.kept, fun _ _ hc => (by cases hc), ⟨h.state.cursor, h.state.cursor, rfl, fun _ hc => hc⟩,
    hi.phone, ?_⟩
  have hcome : h.toCome = h.queue ++ [event] ++ [] := by
    rw [List.append_nil, System.toCome, published]
    rfl
  have hv := hi.view
  rw [Viewed.eq_def] at hv ⊢
  simp only [Comes, hcome] at hv
  cases hp : h.phase with
  | idle => trivial
  | subscribed since =>
    simp only [hp] at hv ⊢
    exact hv
  | based since base =>
    simp only [hp] at hv ⊢
    exact hv
  | following held =>
    simp only [hp] at hv ⊢
    exact hv
  | gathering batch held =>
    simp only [hp] at hv ⊢
    exact hv
  | sending messages held =>
    simp only [hp] at hv ⊢
    exact hv

lemma Inv.current (hi : Inv h) (hc : Current h.state.cursor h.queue) :
    Current h.state.cursor h.toCome := by
  intro change c hm
  rw [System.toCome, List.takeWhile_append] at hm
  split at hm
  · rename_i hall
    rcases List.mem_append.mp hm with hm | hm
    · refine hc change c ?_
      rwa [(List.takeWhile_prefix _).eq_of_length hall]
    · have hpublished := (List.takeWhile_sublist _).subset hm
      exact ⟨c, hi.pending change c (Option.mem_toList.mp hpublished), rfl⟩
  · exact hc change c hm

lemma Inv.base {since : Option Cursor} (hi : Inv h) (subscribed : h.phase = .subscribed since)
    (hc : Current h.state.cursor h.queue) :
    Inv { h with phase := .based since (h.state.transcript, h.state.cursor) } := by
  refine ⟨hi.kept, hi.pending, hi.published, hi.phone, ?_⟩
  have hv := hi.view
  rw [Viewed, subscribed] at hv
  obtain ⟨hsince, start, last, hflows, hends⟩ := hv
  have hcurrent := hi.current hc
  refine ⟨hsince, hi.kept.now, ?_⟩
  change Comes _ h.state.cursor
  cases hcursor : h.state.cursor with
  | none =>
    rw [hcursor] at hcurrent
    obtain ⟨last', hleads⟩ := hflows.leads_none hcurrent
    refine ⟨last', hleads, fun c hc => ?_⟩
    rw [show h.state.cursor = some c from hc] at hcursor
    cases hcursor
  | some c =>
    rw [hcursor] at hcurrent
    rw [hends c hcursor] at hflows
    exact ⟨some c, hflows.leads_base hcurrent (hi.kept.late c hcursor), fun _ hc' => hcursor.symm.trans hc'⟩

lemma Comes.take {held : Option Cursor} {event : Event} {rest : List Event} {start : Option Cursor}
    {batch : Batch} (hg : Gathers h.shown start batch held) (hc : Comes h held)
    (queued : h.queue = event :: rest) :
    Gathers h.shown start (batch.take event held).1 (batch.take event held).2 ∧
      ∃ last, Leads h.shown (batch.take event held).2 (rest ++ h.published.toList) last ∧
        Ends h.state last := by
  obtain ⟨last, hleads, hends⟩ := hc
  rw [System.toCome, queued] at hleads
  obtain ⟨hg, hleads⟩ := hg.take hleads
  exact ⟨hg, last, hleads, hends⟩

lemma Inv.step (hi : Inv h) (hm : Moves pane h act h')
    (hc : act = .base → Current h.state.cursor h.queue) : Inv h' := by
  have hv := hi.view
  cases hm with
  | receive idle sends =>
    obtain ⟨hk, hpending, hg⟩ := receive_kept hi.kept sends
    exact hi.reads idle subset_show hk hpending hg
  | disconnected idle =>
    refine hi.reads idle (fun _ hm => hm) hi.kept.setConnected ?_ ?_
    · intro change c hc
      rw [State.setConnected] at hc
      dsimp only at hc
      split at hc
      · cases hc
      · cases hc
    · intro last hl
      refine ⟨last, ?_, hl⟩
      rw [State.setConnected]
      dsimp only
      split
      · rfl
      · rfl
  | publish published => exact hi.publish published
  | subscribe idle known =>
    exact ⟨hi.kept, hi.pending, hi.published, hi.phone, known, hi.published⟩
  | base subscribed => exact hi.base subscribed (hc rfl)
  | @sendOpening since base based =>
    rw [Viewed, based] at hv
    obtain ⟨hsince, hat, hcomes⟩ := hv
    obtain ⟨hfits, hcursor⟩ := hi.phone.receive hi.kept.same (brings_opening hsince hat)
    exact ⟨hi.kept, hi.pending, hi.published, hfits, hcursor, hcomes⟩
  | @takeFirst held event rest following queued few =>
    rw [Viewed, following] at hv
    obtain ⟨hcursor, hcomes⟩ := hv
    have hnothing : Gathers h.shown h.phone.cursor .default held := hcursor
    have htake := hcomes.take hnothing queued
    exact ⟨hi.kept, hi.pending, hi.published, hi.phone, htake⟩
  | @takeNext batch held event rest gathering queued few =>
    rw [Viewed, gathering] at hv
    have htake := hv.2.take hv.1 queued
    exact ⟨hi.kept, hi.pending, hi.published, hi.phone, htake⟩
  | flush gathering =>
    rw [Viewed, gathering] at hv
    exact ⟨hi.kept, hi.pending, hi.published, hi.phone, hv.1.messages, hv.2⟩
  | send sending =>
    rw [Viewed, sending] at hv
    obtain ⟨hfits, hbrings⟩ := hi.phone.receive hi.kept.same hv.1
    exact ⟨hi.kept, hi.pending, hi.published, hfits, hbrings, hv.2⟩
  | gathered sending =>
    rw [Viewed, sending] at hv
    exact ⟨hi.kept, hi.pending, hi.published, hi.phone, hv⟩
  | reload _ => exact ⟨hi.kept, hi.pending, hi.published, hi.phone, trivial⟩
  | leave => exact ⟨hi.kept, hi.pending, hi.published, hi.phone, trivial⟩

end Run

def Message.steps : Message → List Step
  | .chatChanges _ changes => changes
  | _ => []

def Phase.steps : Phase → List Step
  | .gathering batch _ => batch.steps
  | .sending messages _ => messages.flatMap Message.steps
  | _ => []

def Event.cursor : Event → Option Cursor
  | .change _ cursor => some cursor
  | _ => none

def System.tally (h : System) : List Cursor :=
  h.phone.applied ++ (h.phase.steps.map Step.cursor ++ h.toCome.filterMap Event.cursor)

structure Once (h : System) : Prop where
  nodup : h.tally.Nodup
  known : ∀ c ∈ h.tally, ∃ t, (some c, t) ∈ h.shown

section Tally

variable {pane : String} {h h' : System} {act : Act}

lemma Once.of_sublist (ho : Once h) (hsub : h'.tally.Sublist h.tally) (hs : h.shown ⊆ h'.shown) :
    Once h' := by
  refine ⟨ho.nodup.sublist hsub, fun c hm => ?_⟩
  obtain ⟨t, ht⟩ := ho.known c (hsub.subset hm)
  exact ⟨t, hs ht⟩

lemma applied_step (p : Phone) (step : Step) :
    (p.step step).applied.Sublist (p.applied ++ [step.cursor]) := by
  rw [Phone.step]
  split
  · exact .refl _
  · exact List.sublist_append_left _ _

lemma applied_steps (p : Phone) (steps : List Step) :
    (steps.foldl Phone.step p).applied.Sublist (p.applied ++ steps.map Step.cursor) := by
  induction steps generalizing p with
  | nil => simp
  | cons step steps ih =>
    refine (ih (p.step step)).trans ?_
    rw [List.map_cons, List.append_cons]
    exact (applied_step p step).append_right _

lemma applied_receive (p : Phone) (message : Message) :
    (p.receive message).applied.Sublist (p.applied ++ message.steps.map Step.cursor) := by
  cases message with
  | chatChanges pane changes => exact applied_steps p changes
  | _ => exact List.sublist_append_left _ _

lemma messages_steps (pane : String) (connected : Bool) (batch : Batch) :
    (batch.messages pane connected).flatMap Message.steps = batch.steps := by
  have hchanges : ∀ chunks : List (List Step),
      (chunks.map (Message.chatChanges pane)).flatMap Message.steps = chunks.flatten := by
    intro chunks
    rw [List.flatMap_map]
    exact List.flatMap_id
  obtain ⟨reset, steps, connection⟩ := batch
  rw [Batch.messages, List.flatMap_append, List.flatMap_append, hchanges, splitAtPictures_flatten]
  cases reset with
  | none =>
    cases connection with
    | false => exact List.append_nil steps
    | true => exact List.append_nil steps
  | some base =>
    cases connection with
    | false => exact List.append_nil steps
    | true => exact List.append_nil steps

lemma take_sublist (batch : Batch) (event : Event) (held : Option Cursor) (rest : List Cursor) :
    ((batch.take event held).1.steps.map Step.cursor ++ rest).Sublist
      (batch.steps.map Step.cursor ++ (event.cursor.toList ++ rest)) := by
  cases event with
  | reset t c => exact List.sublist_append_right _ _
  | connection => exact .refl _
  | change change c =>
    rw [Batch.take]
    split
    · exact (List.sublist_append_right _ _).append_left _
    · rw [List.map_append, List.append_assoc]
      exact .refl _

lemma filterMap_cons_cursor (event : Event) (rest : List Event) :
    (event :: rest).filterMap Event.cursor = event.cursor.toList ++ rest.filterMap Event.cursor := by
  cases event with
  | change change c => rfl
  | _ => rfl

lemma receive_new {message : ServerMessage} (hk : Kept h.state h.shown) (sends : h.Sends message) :
    let received := h.state.receive message
    received.2.2.toList.filterMap Event.cursor = [] ∨
      ∃ c, received.2.2.toList.filterMap Event.cursor = [c] ∧ (∀ t, (some c, t) ∉ h.shown) ∧
        received.2.1.cursor = some c := by
  intro received
  cases message with
  | change change cursor =>
    cases happly : exec (Transcript.apply change) h.state.transcript with
    | mk result transcript =>
      cases result with
      | error error =>
        left
        simp only [received, State.receive, happly]
        rfl
      | ok _ =>
        refine .inr ⟨cursor, ?_, change_next hk sends, ?_⟩
        · simp only [received, State.receive, happly]
          rfl
        · simp only [received, State.receive, happly]
  | welcome agent pane version =>
    left
    simp only [received, State.receive, State.setConnected]
    split
    · rfl
    · rfl
  | snapshot cursor transcript => exact .inl rfl
  | ack id rejected => exact .inl rfl
  | bye reason => exact .inl rfl

lemma Once.step (hi : Inv h) (ho : Once h) (hm : Moves pane h act h') : Once h' := by
  have hleft : ∀ h' : System, h'.phase.steps = [] → h'.queue = [] → h'.published = h.published →
      h'.phone.applied = h.phone.applied → h'.shown = h.shown → Once h' := by
    intro h' hphase hqueue hpublished happlied hshown
    refine ho.of_sublist ?_ (by rw [hshown]; exact fun _ hm => hm)
    rw [System.tally, System.tally, hphase, happlied, System.toCome, hqueue, hpublished]
    refine List.Sublist.append_left ?_ _
    refine .trans ?_ (List.sublist_append_right _ _)
    exact (List.sublist_append_right h.queue _).filterMap _
  cases hm with
  | @receive message idle sends =>
    have htally : ∀ s published shown, System.tally { h with state := s, published, shown } =
        h.tally ++ published.toList.filterMap Event.cursor := by
      intro s published shown
      rw [System.tally, System.tally, System.toCome, System.toCome, idle, Option.toList_none,
        List.append_nil, List.filterMap_append, List.append_assoc, List.append_assoc]
    rcases receive_new hi.kept sends with hnone | ⟨c, hc, hnew, hcursor⟩
    · refine ho.of_sublist ?_ subset_show
      rw [htally, hnone, List.append_nil]
    · refine ⟨?_, ?_⟩
      · rw [htally, hc, ← List.concat_eq_append]
        refine ho.nodup.concat ?_
        intro hm
        obtain ⟨t, ht⟩ := ho.known c hm
        exact hnew t ht
      · intro c' hm
        rw [htally, hc] at hm
        rcases List.mem_append.mp hm with hm | hm
        · obtain ⟨t, ht⟩ := ho.known c' hm
          exact ⟨t, subset_show ht⟩
        · rw [List.mem_singleton.mp hm]
          refine ⟨(h.state.receive message).2.1.transcript, ?_⟩
          rw [← hcursor]
          exact mem_show
  | disconnected idle =>
    refine ho.of_sublist ?_ (fun _ hm => hm)
    have hnone : (h.state.setConnected false).2.toList.filterMap Event.cursor = [] := by
      rw [State.setConnected]
      split
      · rfl
      · rfl
    rw [System.tally, System.tally, System.toCome, System.toCome, idle, List.filterMap_append, hnone,
      Option.toList_none, List.append_nil, List.append_nil]
  | @publish event published =>
    refine ho.of_sublist ?_ (fun _ hm => hm)
    have hcome : h.toCome = h.queue ++ [event] := by
      rw [System.toCome, published]
      rfl
    rw [System.tally, System.tally, hcome]
    refine List.Sublist.append_left (List.Sublist.append_left (.filterMap _ ?_) _) _
    rw [System.toCome, Option.toList_none, List.append_nil]
    dsimp only
    split
    · exact List.sublist_append_left _ _
    · exact .refl _
  | subscribe idle known => exact hleft _ rfl rfl rfl rfl rfl
  | base subscribed =>
    refine ho.of_sublist ?_ (fun _ hm => hm)
    rw [System.tally, System.tally, subscribed]
    exact .refl _
  | @sendOpening since base based =>
    refine ho.of_sublist ?_ (fun _ hm => hm)
    have happlied : (h.phone.receive (opening pane since base h.state.connected)).applied =
        h.phone.applied := by
      obtain ⟨t, _ | c⟩ := base
      · rfl
      · rw [opening]
        dsimp only
        split
        · rfl
        · rfl
    rw [System.tally, System.tally, based, happlied]
    exact .refl _
  | @takeFirst held event rest following queued few =>
    refine ho.of_sublist ?_ (fun _ hm => hm)
    rw [System.tally, System.tally, following, System.toCome, System.toCome, queued, List.cons_append,
      filterMap_cons_cursor]
    exact (take_sublist .default event held _).append_left _
  | @takeNext batch held event rest gathering queued few =>
    refine ho.of_sublist ?_ (fun _ hm => hm)
    rw [System.tally, System.tally, gathering, System.toCome, System.toCome, queued, List.cons_append,
      filterMap_cons_cursor]
    exact (take_sublist batch event held _).append_left _
  | @flush batch held gathering =>
    refine ho.of_sublist ?_ (fun _ hm => hm)
    rw [System.tally, System.tally, gathering, Phase.steps, Phase.steps, messages_steps]
    exact .refl _
  | @send message rest held sending =>
    refine ho.of_sublist ?_ (fun _ hm => hm)
    rw [System.tally, System.tally, sending, Phase.steps, Phase.steps, List.flatMap_cons,
      List.map_append, List.append_assoc, ← List.append_assoc h.phone.applied]
    exact (applied_receive h.phone message).append_right _
  | gathered sending =>
    refine ho.of_sublist ?_ (fun _ hm => hm)
    rw [System.tally, System.tally, sending]
    exact .refl _
  | reload _ => exact hleft _ rfl rfl rfl rfl rfl
  | leave => exact hleft _ rfl rfl rfl rfl rfl

end Tally

def Careful (pane : String) (h : System) (act : Act) (h' : System) : Prop :=
  Moves pane h act h' ∧ (act = .base → Current h.state.cursor h.queue)

lemma inv_start : Inv .start := by
  have hnone : ∀ {c : Cursor} {t}, (some c, t) ∉ System.start.shown := by
    intro c t hm
    cases List.mem_singleton.mp hm
  refine ⟨⟨?_, List.mem_singleton_self _, ?_⟩, ?_, ⟨none, none, rfl, fun _ hc => hc⟩,
    ⟨List.mem_singleton_self _, rfl⟩, trivial⟩
  · exact fun c t t' ht => absurd ht hnone
  · intro c hc
    cases hc
  · intro change c hc
    cases hc

lemma once_start : Once .start := by
  refine ⟨.nil, ?_⟩
  intro c hm
  cases hm

theorem phone_follows {pane : String} {acts : List Act} {h : System}
    (hr : Run (Careful pane) .start acts h) :
    h.phone.failed = false ∧ h.phone.applied.Nodup ∧ (h.phone.cursor, h.phone.transcript) ∈ h.shown ∧
      ∀ c, h.phone.cursor = some c → ∀ t, (some c, t) ∈ h.shown → t = h.phone.transcript := by
  obtain ⟨hi, ho⟩ : Inv h ∧ Once h := by
    refine hr.invariant (P := fun h => Inv h ∧ Once h) ⟨inv_start, once_start⟩ ?_
    rintro t act u ⟨hi, ho⟩ ⟨hm, hc⟩
    exact ⟨hi.step hm hc, ho.step hi hm⟩
  have hheld := hi.phone.held
  refine ⟨hi.phone.fits, ho.nodup.sublist (List.sublist_append_left _ _), hheld, ?_⟩
  intro c hc t ht
  rw [hc] at hheld
  exact hi.kept.same c _ _ ht hheld

def oldRun : Cursor := ⟨0, 0⟩

def newRun : Cursor := ⟨1, 0⟩

def said (text : String) : Change := .push ⟨1, .agent text⟩

def newTranscript : Transcript := { Transcript.new "Claude" with entries := [⟨1, .agent "new"⟩] }

theorem phone_follows_change :
    ∃ h, Run (Careful "p") .start
      [.receive (.snapshot oldRun (.new "Claude")), .publish, .subscribe none, .base, .sendOpening,
        .receive (.change (said "old") ⟨0, 1⟩), .publish, .take, .flush, .send] h ∧
      h.phone.applied = [⟨0, 1⟩] ∧ h.phone.failed = false := by
  have hr : ∃ h, Run (Careful "p") .start
      [.receive (.snapshot oldRun (.new "Claude")), .publish, .subscribe none, .base, .sendOpening,
        .receive (.change (said "old") ⟨0, 1⟩), .publish, .take, .flush, .send] h ∧
      h.phone.applied = [⟨0, 1⟩] := by
    refine ⟨_, .cons ⟨.receive rfl ?_, by simp⟩ <| .cons ⟨.publish rfl, by simp⟩ <|
      .cons ⟨.subscribe rfl (.inl rfl), by simp⟩ <| .cons ⟨.base rfl, ?_⟩ <|
      .cons ⟨.sendOpening rfl, by simp⟩ <| .cons ⟨.receive rfl ?_, by simp⟩ <|
      .cons ⟨.publish rfl, by simp⟩ <| .cons ⟨.takeFirst rfl rfl ?_, by simp⟩ <|
      .cons ⟨.flush rfl, by simp⟩ <| .cons ⟨.send rfl, by simp⟩ .nil, ?_⟩
    · intro c t hm
      cases List.mem_singleton.mp hm
    · intro _ change c hm
      cases hm
    · exact ⟨oldRun, rfl, rfl⟩
    · decide
    · rfl
  obtain ⟨h, hr, happlied⟩ := hr
  exact ⟨h, hr, happlied, (phone_follows hr).1⟩

lemma epoch_ne {shown : List (Option Cursor × Transcript)} {epoch : Uuid} {c : Cursor} {t : Transcript}
    (hall : shown.all (fun known => known.1.all fun c => decide (c.epoch ≠ epoch)) = true)
    (hm : (some c, t) ∈ shown) : c.epoch ≠ epoch := by
  simpa using List.all_eq_true.mp hall _ hm

theorem queued_change_of_older_run_fails :
    ∃ h, Run (Moves "p") .start
      [.receive (.snapshot oldRun (.new "Claude")), .publish, .subscribe none,
        .receive (.change (said "old") ⟨0, 1⟩), .publish, .receive (.snapshot newRun newTranscript),
        .base, .sendOpening, .take, .flush, .send] h ∧
      h.phone.failed = true := by
  refine ⟨_, .cons (.receive rfl ?_) <| .cons (.publish rfl) <|
    .cons (.subscribe rfl (.inl rfl)) <| .cons (.receive rfl ?_) <| .cons (.publish rfl) <|
    .cons (.receive rfl ?_) <| .cons (.base rfl) <| .cons (.sendOpening rfl) <|
    .cons (.takeFirst rfl rfl ?_) <| .cons (.flush rfl) <| .cons (.send rfl) .nil, ?_⟩
  · intro c t hm
    cases List.mem_singleton.mp hm
  · exact ⟨oldRun, rfl, rfl⟩
  · intro c t hm hepoch
    exact absurd hepoch (epoch_ne (by decide) hm)
  · decide
  · rfl

end Sheprd.Hub
