import Sheprd.Lib.Dict
import Sheprd.Lib.Json
import Sheprd.Lib.Run

namespace Sheprd.Core

open Sheprd.Lib

def maxInFlight : ℕ := 64

def maxOutbound : ℕ := 1024

inductive Method where
  | docGet
  | docSet
  | eventsSubscribe
  | hello
  | terminalAttach
  | terminalKill
  | terminalList
  | terminalRun

def Method.streams : Method → Bool
  | .eventsSubscribe | .terminalAttach => true
  | _ => false

inductive Kind where
  | data
  | credit
  | close
  | resize
  | focus
  | facts

structure Frame where
  channel : ℕ
  kind : Kind

structure Route where
  channel : ℕ
  opening : ℕ
  deriving DecidableEq

structure Reply where
  id : ℕ
  result : Except Value Value
  route : Option Route

def Reply.opening (reply : Reply) : Option ℕ := reply.route.map Route.opening

inductive Phase where
  | begun
  | listed
  | refused
  | waiting
  | expired
  | answered (reply : Reply)
  | returned

def Phase.reply : Phase → Option Reply
  | .answered reply => some reply
  | _ => none

structure Call where
  method : Method
  phase : Phase
  mailbox : Option Reply
  heard : List ℕ

inductive Worker where
  | serving
  | delivering (id : ℕ) (reply : Reply)
  | losing
  | gone

structure Conn where
  lost : Bool
  worker : Worker
  nextId : ℕ
  pending : Finset ℕ
  routes : Dict ℕ Route
  calls : Dict ℕ Call
  outbound : List Frame
  streams : List Route
  opened : List ℕ
  closing : List ℕ
  closed : List ℕ

def asU64 (value : Value) : Option ℕ := value.asNat.filter (· < 2 ^ 64)

def asU32 (value : Value) : Option ℕ := value.asNat.filter (· < 2 ^ 32)

namespace Conn

def answerId (message : Value) : Option ℕ := (message.get "id").bind asU64

def answerResult (message : Value) : Except Value Value :=
  match message.get "error" with
  | some error => .error error
  | none => .ok ((message.get "result").getD .null)

def answerChannel (message : Value) : Option ℕ :=
  match answerResult message with
  | .ok result => (result.get "channel").bind asU32
  | .error _ => none

def answer (s : Conn) (message : Value) : Conn :=
  match answerId message with
  | none => s
  | some id =>
    let channel := answerChannel message
    let route := channel.map fun channel => (⟨channel, s.opened.length⟩ : Route)
    let s := { s with opened := s.opened ++ channel.toList }
    if id ∈ s.pending then
      { s with
        pending := s.pending.erase id
        routes := route.elim s.routes fun route => s.routes.insert route.channel route
        worker := .delivering id ⟨id, answerResult message, route⟩ }
    else s

def setCall (s : Conn) (id : ℕ) (call : Call) : Conn := { s with calls := s.calls.insert id call }

def openings (s : Conn) (channel : ℕ) : List ℕ :=
  (List.range s.opened.length).filter fun opening => s.opened[opening]? = some channel

def fresh : Conn := ⟨false, .serving, 1, ∅, ∅, ∅, [], [], [], [], []⟩

end Conn

inductive Act where
  | start (method : Method)
  | list (id : ℕ)
  | send (id : ℕ)
  | unsent (id : ℕ)
  | expire (id : ℕ)
  | hear (id : ℕ)
  | hangUp (id : ℕ)
  | giveUp (id : ℕ)
  | conclude (id : ℕ)
  | answer (message : Value)
  | deliver
  | data (channel : ℕ)
  | close (channel : ℕ)
  | write
  | lose
  | clear
  | frame (route : Route) (kind : Kind)
  | drop (route : Route)

section Step

variable (fits : Method → Value → Bool)

def Call.stream (call : Call) (reply : Reply) : Option Route :=
  match reply.result with
  | .ok result => if call.method.streams ∧ fits call.method result then reply.route else none
  | .error _ => none

namespace Conn

inductive Step (s : Conn) : Act → Conn → Prop
  | start {method : Method} (connected : s.lost = false) :
      Step s (.start method)
        { s.setCall s.nextId ⟨method, .begun, none, []⟩ with nextId := s.nextId + 1 }
  | busy {id : ℕ} {call : Call} (called : s.calls.lookup id = some call)
      (begun : call.phase = .begun) (full : maxInFlight ≤ s.pending.card) :
      Step s (.list id) (s.setCall id { call with phase := .returned })
  | list {id : ℕ} {call : Call} (called : s.calls.lookup id = some call)
      (begun : call.phase = .begun) (room : s.pending.card < maxInFlight) :
      Step s (.list id)
        { s.setCall id { call with phase := .listed } with pending := insert id s.pending }
  | send {id : ℕ} {call : Call} (called : s.calls.lookup id = some call)
      (listed : call.phase = .listed) (room : s.outbound.length < maxOutbound)
      (connected : s.worker ≠ .gone) :
      Step s (.send id)
        { s.setCall id { call with phase := .waiting } with outbound := s.outbound ++ [⟨0, .data⟩] }
  | unsent {id : ℕ} {call : Call} (called : s.calls.lookup id = some call)
      (listed : call.phase = .listed) :
      Step s (.unsent id) (s.setCall id { call with phase := .refused })
  | expire {id : ℕ} {call : Call} (called : s.calls.lookup id = some call)
      (waiting : call.phase = .waiting) (empty : call.mailbox = none) :
      Step s (.expire id) (s.setCall id { call with phase := .expired })
  | hear {id : ℕ} {call : Call} {reply : Reply} (called : s.calls.lookup id = some call)
      (waiting : call.phase = .waiting) (mail : call.mailbox = some reply) :
      Step s (.hear id)
        (s.setCall id ⟨call.method, .answered reply, none, call.heard ++ [reply.id]⟩)
  | hangUp {id : ℕ} {call : Call} (called : s.calls.lookup id = some call)
      (waiting : call.phase = .waiting) (empty : call.mailbox = none) (unlisted : id ∉ s.pending)
      (unheld : ∀ reply, s.worker ≠ .delivering id reply) :
      Step s (.hangUp id) (s.setCall id { call with phase := .returned })
  | giveUp {id : ℕ} {call : Call} (called : s.calls.lookup id = some call)
      (failed : call.phase = .refused ∨ call.phase = .expired) :
      Step s (.giveUp id)
        { s.setCall id { call with phase := .returned, mailbox := none } with
          pending := s.pending.erase id }
  | conclude {id : ℕ} {call : Call} {reply : Reply} (called : s.calls.lookup id = some call)
      (answered : call.phase = .answered reply) :
      Step s (.conclude id)
        { s.setCall id { call with phase := .returned } with
          streams := s.streams ++ (call.stream fits reply).toList }
  | answer {message : Value} (serving : s.worker = .serving) :
      Step s (.answer message) (s.answer message)
  | delivered {id : ℕ} {reply : Reply} {call : Call} (held : s.worker = .delivering id reply)
      (called : s.calls.lookup id = some call) (listening : call.phase ≠ .returned)
      (empty : call.mailbox = none) :
      Step s .deliver { s.setCall id { call with mailbox := some reply } with worker := .serving }
  | unheard {id : ℕ} {reply : Reply} (held : s.worker = .delivering id reply)
      (deaf : ∀ call, s.calls.lookup id = some call →
        call.phase = .returned ∨ call.mailbox ≠ none) :
      Step s .deliver
        { s with
          worker := .serving
          routes := reply.route.elim s.routes fun route => s.routes.erase route.channel }
  | data {channel : ℕ} (serving : s.worker = .serving) : Step s (.data channel) s
  | close {channel : ℕ} (serving : s.worker = .serving) :
      Step s (.close channel)
        { s with routes := s.routes.erase channel, closed := s.closed ++ s.openings channel }
  | write {frame : Frame} {rest : List Frame} (serving : s.worker = .serving)
      (queued : s.outbound = frame :: rest) : Step s .write { s with outbound := rest }
  | lose (serving : s.worker = .serving) : Step s .lose { s with lost := true, worker := .losing }
  | clear (losing : s.worker = .losing) :
      Step s .clear { s with pending := ∅, routes := ∅, worker := .gone }
  | frame {route : Route} {kind : Kind} (live : route ∈ s.streams) (other : kind ≠ .close)
      (room : s.outbound.length < maxOutbound) (connected : s.worker ≠ .gone) :
      Step s (.frame route kind) { s with outbound := s.outbound ++ [⟨route.channel, kind⟩] }
  | drop {route : Route} (live : route ∈ s.streams) (room : s.outbound.length < maxOutbound)
      (connected : s.worker ≠ .gone) :
      Step s (.drop route)
        { s with
          streams := s.streams.erase route
          outbound := s.outbound ++ [⟨route.channel, .close⟩]
          closing := s.closing ++ [route.opening] }
  | dropUnsent {route : Route} (live : route ∈ s.streams)
      (full : maxOutbound ≤ s.outbound.length ∨ s.worker = .gone) :
      Step s (.drop route) { s with streams := s.streams.erase route }

def Over (s : Conn) (opening : ℕ) : Prop := s.lost = true ∨ opening ∈ s.closed

def Safe (s : Conn) : Act → Prop
  | .answer message =>
    ∀ id, answerId message = some id → answerChannel message ≠ none → id ∈ s.pending
  | .deliver => ∀ id reply, s.worker = .delivering id reply → reply.route ≠ none →
    ∃ call, s.calls.lookup id = some call ∧ call.phase ≠ .returned
  | .giveUp id => ∀ call reply opening, s.calls.lookup id = some call →
    call.mailbox = some reply → reply.opening = some opening → s.Over opening
  | .conclude id => ∀ call reply opening, s.calls.lookup id = some call →
    call.phase = .answered reply → reply.opening = some opening →
    s.Over opening ∨ call.stream fits reply = reply.route
  | .drop route => s.outbound.length < maxOutbound ∨ s.Over route.opening
  | _ => True

end Conn

end Step

def Call.carries (call : Call) (opening : ℕ) : Prop :=
  call.mailbox.bind Reply.opening = some opening ∨
    call.phase.reply.bind Reply.opening = some opening

namespace Conn

inductive Underway (s : Conn) (opening : ℕ) : Prop
  | worker {id : ℕ} {reply : Reply} (held : s.worker = .delivering id reply)
      (route : reply.opening = some opening)
  | call {id : ℕ} {call : Call} (called : s.calls.lookup id = some call)
      (carries : call.carries opening)

inductive Accounted (s : Conn) (opening : ℕ) : Prop
  | live {route : Route} (live : route ∈ s.streams) (of : route.opening = opening)
  | closing (queued : opening ∈ s.closing)
  | done (done : s.Over opening)
  | underway (underway : s.Underway opening)

def Asked (s : Conn) (id : ℕ) : Prop := id ∈ s.pending ∨ ∃ reply, s.worker = .delivering id reply

end Conn

structure Call.Own (call : Call) (asked : Prop) (id : ℕ) : Prop where
  heard : call.heard = [] ∨ call.heard = [id]
  mail : ∀ reply, call.mailbox = some reply → reply.id = id ∧ call.heard = []
  begun : call.phase = .begun → call.mailbox = none ∧ call.heard = []
  asked : asked → call.mailbox = none ∧ call.heard = [] ∧ call.phase ≠ .begun

namespace Conn

structure Inv (s : Conn) : Prop where
  below : ∀ id call, s.calls.lookup id = some call → id < s.nextId
  pending : ∀ id ∈ s.pending, id < s.nextId
  bound : s.pending.card ≤ maxInFlight
  own : ∀ id call, s.calls.lookup id = some call → call.Own (s.Asked id) id
  held : ∀ id reply, s.worker = .delivering id reply →
    reply.id = id ∧ id ∉ s.pending ∧ id < s.nextId
  stopped : s.worker = .losing ∨ s.worker = .gone → s.lost = true

end Conn

lemma Call.Own.mono {call : Call} {p q : Prop} {id : ℕ} (h : call.Own p id) (hpq : q → p) :
    call.Own q id :=
  ⟨h.heard, h.mail, h.begun, fun hq => h.asked (hpq hq)⟩

lemma Call.Own.move {call call' : Call} {asked : Prop} {id : ℕ} (h : call.Own asked id)
    (hheard : call'.heard = call.heard) (hmail : call'.mailbox = call.mailbox ∨ call'.mailbox = none)
    (hphase : call'.phase ≠ .begun) : call'.Own asked id := by
  refine ⟨hheard ▸ h.heard, ?_, fun hb => absurd hb hphase, ?_⟩
  · intro reply hr
    rcases hmail with hmail | hmail
    · rw [hmail] at hr
      rw [hheard]
      exact h.mail reply hr
    · rw [hmail] at hr
      cases hr
  · intro ha
    obtain ⟨hnone, hnil, -⟩ := h.asked ha
    refine ⟨?_, hheard.trans hnil, hphase⟩
    rcases hmail with hmail | hmail
    · exact hmail.trans hnone
    · exact hmail

namespace Conn

variable {fits : Method → Value → Bool} {s t : Conn} {act : Act}

lemma of_setCall {id id' : ℕ} {call call' : Call}
    (h : (s.calls.insert id call).lookup id' = some call') :
    id' = id ∧ call' = call ∨ id' ≠ id ∧ s.calls.lookup id' = some call' := by
  by_cases hid : id' = id
  · subst hid
    rw [AList.lookup_insert] at h
    exact Or.inl ⟨rfl, (Option.some.inj h).symm⟩
  · rw [AList.lookup_insert_ne hid] at h
    exact Or.inr ⟨hid, h⟩

lemma Inv.set {id : ℕ} {call : Call} (h : s.Inv) (hcalls : t.calls = s.calls.insert id call)
    (hnext : s.nextId ≤ t.nextId) (hid : id < t.nextId) (hown : call.Own (t.Asked id) id)
    (hasked : ∀ id', id' ≠ id → t.Asked id' → s.Asked id') (hpending : ∀ i ∈ t.pending, i < t.nextId)
    (hbound : t.pending.card ≤ maxInFlight)
    (hheld : ∀ id reply, t.worker = .delivering id reply →
      reply.id = id ∧ id ∉ t.pending ∧ id < t.nextId)
    (hstop : t.worker = .losing ∨ t.worker = .gone → t.lost = true) : t.Inv := by
  refine ⟨?_, hpending, hbound, ?_, hheld, hstop⟩
  · intro id' call' hl
    rw [hcalls] at hl
    rcases of_setCall hl with ⟨rfl, rfl⟩ | ⟨-, hl⟩
    · exact hid
    · exact lt_of_lt_of_le (h.below _ _ hl) hnext
  · intro id' call' hl
    rw [hcalls] at hl
    rcases of_setCall hl with ⟨rfl, rfl⟩ | ⟨hne, hl⟩
    · exact hown
    · exact (h.own _ _ hl).mono (hasked _ hne)

lemma Inv.move {id : ℕ} {call call' : Call} (h : s.Inv) (hl : s.calls.lookup id = some call)
    (hcalls : t.calls = s.calls.insert id call') (hpending : t.pending = s.pending)
    (hworker : t.worker = s.worker) (hnext : t.nextId = s.nextId) (hlost : t.lost = s.lost)
    (hown : call'.Own (s.Asked id) id) : t.Inv := by
  have hasked : ∀ id, t.Asked id ↔ s.Asked id := by
    intro id
    rw [Asked, Asked, hpending, hworker]
  refine h.set hcalls hnext.ge ?_ ?_ ?_ ?_ ?_ ?_ ?_
  · rw [hnext]
    exact h.below _ _ hl
  · exact hown.mono (hasked id).mp
  · exact fun id' _ => (hasked id').mp
  · rw [hpending, hnext]
    exact h.pending
  · rw [hpending]
    exact h.bound
  · rw [hworker, hpending, hnext]
    exact h.held
  · rw [hworker, hlost]
    exact h.stopped

lemma Inv.keep (h : s.Inv) (hcalls : t.calls = s.calls) (hnext : t.nextId = s.nextId)
    (hpending : t.pending ⊆ s.pending) (hasked : ∀ id, t.Asked id → s.Asked id)
    (hheld : ∀ id reply, t.worker = .delivering id reply →
      reply.id = id ∧ id ∉ t.pending ∧ id < t.nextId)
    (hstop : t.worker = .losing ∨ t.worker = .gone → t.lost = true) : t.Inv := by
  refine ⟨?_, ?_, ?_, ?_, hheld, hstop⟩
  · rw [hcalls, hnext]
    exact h.below
  · rw [hnext]
    exact fun i hi => h.pending i (hpending hi)
  · exact le_trans (Finset.card_le_card hpending) h.bound
  · intro id call hl
    rw [hcalls] at hl
    exact (h.own _ _ hl).mono (hasked id)

lemma Inv.answer (h : s.Inv) (message : Value) : (s.answer message).Inv := by
  rw [Conn.answer]
  cases hid : answerId message with
  | none => exact h
  | some id =>
    dsimp only
    by_cases hp : id ∈ s.pending
    · rw [if_pos hp]
      refine h.keep rfl rfl (Finset.erase_subset _ _) ?_ ?_ ?_
      · rintro id' (hm | ⟨reply, hw⟩)
        · exact Or.inl (Finset.mem_of_mem_erase hm)
        · obtain ⟨rfl, -⟩ := Worker.delivering.inj hw
          exact Or.inl hp
      · intro id' reply hw
        obtain ⟨rfl, rfl⟩ := Worker.delivering.inj hw
        exact ⟨rfl, Finset.notMem_erase _ _, h.pending _ hp⟩
      · simp
    · rw [if_neg hp]
      exact h.keep rfl rfl (Finset.Subset.refl _) (fun _ ha => ha) h.held h.stopped

lemma Inv.start (h : s.Inv) (method : Method) :
    Inv { s.setCall s.nextId ⟨method, .begun, none, []⟩ with nextId := s.nextId + 1 } := by
  refine h.set rfl (Nat.le_succ _) (Nat.lt_succ_self _) ?_ (fun _ _ ha => ha)
    (fun i hi => Nat.lt_succ_of_lt (h.pending i hi)) h.bound ?_ h.stopped
  · refine ⟨Or.inl rfl, nofun, fun _ => ⟨rfl, rfl⟩, ?_⟩
    rintro (hm | ⟨reply, hw⟩)
    · exact absurd (h.pending _ hm) (lt_irrefl _)
    · exact absurd (h.held _ _ hw).2.2 (lt_irrefl _)
  · intro id reply hw
    obtain ⟨hr, hn, hlt⟩ := h.held _ _ hw
    exact ⟨hr, hn, Nat.lt_succ_of_lt hlt⟩

lemma Inv.list {id : ℕ} {call : Call} (h : s.Inv) (hl : s.calls.lookup id = some call)
    (hbegun : call.phase = .begun) (hroom : s.pending.card < maxInFlight) :
    Inv { s.setCall id { call with phase := .listed } with pending := insert id s.pending } := by
  have hid := h.below _ _ hl
  have hnot : ¬s.Asked id := fun ha => ((h.own _ _ hl).asked ha).2.2 hbegun
  refine h.set rfl le_rfl hid ?_ ?_ (Finset.forall_mem_insert _ _ _ |>.mpr ⟨hid, h.pending⟩)
    (le_trans (Finset.card_insert_le _ _) hroom) ?_ h.stopped
  · obtain ⟨hnone, hnil⟩ := (h.own _ _ hl).begun hbegun
    exact ⟨(h.own _ _ hl).heard, (h.own _ _ hl).mail, nofun, fun _ => ⟨hnone, hnil, nofun⟩⟩
  · rintro id' hne (hm | hw)
    · exact Or.inl (Finset.mem_of_mem_insert_of_ne hm hne)
    · exact Or.inr hw
  · intro id' reply hw
    obtain ⟨hr, hn, hlt⟩ := h.held _ _ hw
    refine ⟨hr, ?_, hlt⟩
    intro hm
    rcases Finset.mem_insert.mp hm with rfl | hm
    · exact hnot (Or.inr ⟨_, hw⟩)
    · exact hn hm

lemma Inv.hear {id : ℕ} {call : Call} {reply : Reply} (h : s.Inv)
    (hl : s.calls.lookup id = some call) (hmail : call.mailbox = some reply) :
    (s.setCall id ⟨call.method, .answered reply, none, call.heard ++ [reply.id]⟩).Inv := by
  obtain ⟨hid, hnil⟩ := (h.own _ _ hl).mail _ hmail
  refine h.move hl rfl rfl rfl rfl rfl ⟨Or.inr ?_, nofun, nofun, ?_⟩
  · rw [hnil, hid]
    rfl
  · intro ha
    rw [((h.own _ _ hl).asked ha).1] at hmail
    cases hmail

lemma Inv.giveUp {id : ℕ} {call : Call} (h : s.Inv) (hl : s.calls.lookup id = some call) :
    Inv { s.setCall id { call with phase := .returned, mailbox := none } with
      pending := s.pending.erase id } := by
  have hasked : ∀ id', Asked { s with pending := s.pending.erase id } id' → s.Asked id' := by
    rintro id' (hm | hw)
    · exact Or.inl (Finset.mem_of_mem_erase hm)
    · exact Or.inr hw
  have hown : Call.Own { call with phase := .returned, mailbox := none } (s.Asked id) id :=
    (h.own _ _ hl).move rfl (Or.inr rfl) (by simp)
  refine h.set rfl le_rfl (h.below _ _ hl) (hown.mono (hasked id)) (fun id' _ => hasked id')
    (fun i hi => h.pending i (Finset.mem_of_mem_erase hi)) (le_trans (Finset.card_erase_le) h.bound) ?_
    h.stopped
  intro id' reply hw
  obtain ⟨hr, hn, hlt⟩ := h.held _ _ hw
  exact ⟨hr, fun hm => hn (Finset.mem_of_mem_erase hm), hlt⟩

lemma Inv.delivered {id : ℕ} {call : Call} {reply : Reply} (h : s.Inv)
    (hheld : s.worker = .delivering id reply) (hl : s.calls.lookup id = some call) :
    Inv { s.setCall id { call with mailbox := some reply } with worker := .serving } := by
  obtain ⟨hr, hn, hlt⟩ := h.held _ _ hheld
  obtain ⟨-, hnil, hbegun⟩ := (h.own _ _ hl).asked (Or.inr ⟨reply, hheld⟩)
  refine h.set rfl le_rfl hlt ?_ ?_ h.pending h.bound (fun _ _ hw => by cases hw) (by simp)
  · refine ⟨(h.own _ _ hl).heard, ?_, fun hb => absurd hb hbegun, ?_⟩
    · intro reply' hm
      obtain rfl := Option.some.inj hm
      exact ⟨hr, hnil⟩
    · rintro (hm | ⟨_, hw⟩)
      · exact absurd hm hn
      · cases hw
  · rintro id' _ (hm | ⟨_, hw⟩)
    · exact Or.inl hm
    · cases hw

lemma Inv.settled (h : s.Inv) (hcalls : t.calls = s.calls) (hnext : t.nextId = s.nextId)
    (hpending : t.pending ⊆ s.pending) (hworker : ∀ id reply, t.worker ≠ .delivering id reply)
    (hstop : t.worker = .losing ∨ t.worker = .gone → t.lost = true) : t.Inv := by
  refine h.keep hcalls hnext hpending ?_ (fun _ _ hw => absurd hw (hworker _ _)) hstop
  rintro id (hm | ⟨_, hw⟩)
  · exact Or.inl (hpending hm)
  · exact absurd hw (hworker _ _)

lemma Inv.step (h : s.Inv) (hs : Step fits s act t) : t.Inv := by
  cases hs with
  | @start method connected => exact h.start method
  | @busy id call called begun full =>
    exact h.move called rfl rfl rfl rfl rfl ((h.own _ _ called).move rfl (Or.inl rfl) (by simp))
  | @list id call called begun room => exact h.list called begun room
  | @send id call called listed room connected =>
    exact h.move called rfl rfl rfl rfl rfl ((h.own _ _ called).move rfl (Or.inl rfl) (by simp))
  | @unsent id call called listed =>
    exact h.move called rfl rfl rfl rfl rfl ((h.own _ _ called).move rfl (Or.inl rfl) (by simp))
  | @expire id call called waiting empty =>
    exact h.move called rfl rfl rfl rfl rfl ((h.own _ _ called).move rfl (Or.inl rfl) (by simp))
  | @hear id call reply called waiting mail => exact h.hear called mail
  | @hangUp id call called waiting empty unlisted unheld =>
    exact h.move called rfl rfl rfl rfl rfl ((h.own _ _ called).move rfl (Or.inl rfl) (by simp))
  | @giveUp id call called failed => exact h.giveUp called
  | @conclude id call reply called answered =>
    exact h.move called rfl rfl rfl rfl rfl ((h.own _ _ called).move rfl (Or.inl rfl) (by simp))
  | @answer message serving => exact h.answer message
  | @delivered id reply call held called listening empty => exact h.delivered held called
  | @unheard id reply held deaf =>
    exact h.settled rfl rfl (Finset.Subset.refl _) (by simp) (by simp)
  | @data channel serving => exact h
  | @close channel serving =>
    exact h.keep rfl rfl (Finset.Subset.refl _) (fun _ ha => ha) h.held h.stopped
  | @write frame rest serving queued =>
    exact h.keep rfl rfl (Finset.Subset.refl _) (fun _ ha => ha) h.held h.stopped
  | lose serving =>
    exact h.settled rfl rfl (Finset.Subset.refl _) (by simp) fun _ => rfl
  | clear losing =>
    exact h.settled rfl rfl (Finset.empty_subset _) (by simp) fun _ => h.stopped (Or.inl losing)
  | @frame route kind live other room connected =>
    exact h.keep rfl rfl (Finset.Subset.refl _) (fun _ ha => ha) h.held h.stopped
  | @drop route live room connected =>
    exact h.keep rfl rfl (Finset.Subset.refl _) (fun _ ha => ha) h.held h.stopped
  | @dropUnsent route live full =>
    exact h.keep rfl rfl (Finset.Subset.refl _) (fun _ ha => ha) h.held h.stopped

lemma inv_fresh : fresh.Inv := by
  refine ⟨?_, ?_, ?_, ?_, nofun, ?_⟩
  · simp [fresh]
  · simp [fresh]
  · simp [fresh]
  · simp [fresh]
  · simp [fresh]

lemma Accounted.of {opening : ℕ} (h : s.Accounted opening) (hlost : s.lost = true → t.lost = true)
    (hclosing : s.closing ⊆ t.closing) (hclosed : s.closed ⊆ t.closed)
    (hlive : ∀ route ∈ s.streams, route.opening = opening → t.Accounted opening)
    (hunder : s.Underway opening → t.Accounted opening) : t.Accounted opening := by
  cases h with
  | live live hof => exact hlive _ live hof
  | closing queued => exact .closing (hclosing queued)
  | done done =>
    rcases done with hl | hc
    · exact .done (Or.inl (hlost hl))
    · exact .done (Or.inr (hclosed hc))
  | underway underway => exact hunder underway

lemma Accounted.move {opening id : ℕ} {call' : Call} (h : s.Accounted opening)
    (hcalls : t.calls = s.calls.insert id call') (hworker : t.worker = s.worker)
    (hlost : t.lost = s.lost) (hclosing : t.closing = s.closing) (hclosed : t.closed = s.closed)
    (hstreams : s.streams ⊆ t.streams)
    (hcarries : ∀ call, s.calls.lookup id = some call → call.carries opening →
      call'.carries opening) : t.Accounted opening := by
  apply h.of (by rw [hlost]; exact fun h => h) (by rw [hclosing]; exact fun _ h => h)
    (by rw [hclosed]; exact fun _ h => h)
  · exact fun route hm hof => .live (hstreams hm) hof
  · intro hu
    apply Accounted.underway
    cases hu with
    | worker held route => exact .worker (by rw [hworker, held]) route
    | @call id' call called carries =>
      by_cases hid : id' = id
      · subst hid
        exact .call (by rw [hcalls, AList.lookup_insert]) (hcarries _ called carries)
      · exact .call (by rw [hcalls, AList.lookup_insert_ne hid, called]) carries

lemma Accounted.keep {opening : ℕ} (h : s.Accounted opening) (hcalls : t.calls = s.calls)
    (hworker : ∀ id reply, s.worker = .delivering id reply → t.worker = s.worker)
    (hlost : s.lost = true → t.lost = true) (hclosing : s.closing ⊆ t.closing)
    (hclosed : s.closed ⊆ t.closed)
    (hlive : ∀ route ∈ s.streams, route.opening = opening → t.Accounted opening) :
    t.Accounted opening := by
  apply h.of hlost hclosing hclosed hlive
  intro hu
  apply Accounted.underway
  cases hu with
  | worker held route => exact .worker (by rw [hworker _ _ held, held]) route
  | call called carries => exact .call (by rw [hcalls, called]) carries

lemma Accounted.answer {opening : ℕ} {message : Value} (serving : s.worker = .serving)
    (hsafe : s.Safe fits (.answer message))
    (h : ∀ opening < s.opened.length, s.Accounted opening)
    (hlt : opening < (s.answer message).opened.length) : (s.answer message).Accounted opening := by
  have hnone : ∀ id reply, s.worker = .delivering id reply → False := by
    intro id reply hw
    rw [serving] at hw
    cases hw
  rw [Conn.answer] at hlt ⊢
  cases hid : answerId message with
  | none =>
    rw [hid] at hlt
    exact h _ hlt
  | some id =>
    rw [hid] at hlt
    dsimp only at hlt ⊢
    by_cases hold : opening < s.opened.length
    · split
      · exact (h _ hold).keep rfl (fun _ _ hw => (hnone _ _ hw).elim) (fun h => h)
          (fun _ h => h) (fun _ h => h) fun route hm hof => .live hm hof
      · exact (h _ hold).keep rfl (fun _ _ hw => (hnone _ _ hw).elim) (fun h => h)
          (fun _ h => h) (fun _ h => h) fun route hm hof => .live hm hof
    · -- the stream this answer opens: its call is listed, so the worker holds its route
      cases hchannel : answerChannel message with
      | none =>
        split at hlt
        · simp [hchannel] at hlt
          omega
        · simp [hchannel] at hlt
          omega
      | some channel =>
        have hp := hsafe id hid (by simp [hchannel])
        rw [if_pos hp] at hlt ⊢
        simp only [hchannel, List.length_append, Option.toList_some, List.length_singleton] at hlt
        obtain rfl : opening = s.opened.length := by omega
        exact .underway (.worker rfl rfl)

lemma carries_same {opening id : ℕ} {call call' : Call} (hl : s.calls.lookup id = some call)
    (hmail : call'.mailbox = call.mailbox) (hnone : call.phase.reply = none) :
    ∀ call₀, s.calls.lookup id = some call₀ → call₀.carries opening → call'.carries opening := by
  intro call₀ hl₀ hc
  obtain rfl := Option.some.inj (hl.symm.trans hl₀)
  rcases hc with hc | hc
  · exact Or.inl (hmail ▸ hc)
  · rw [hnone] at hc
    cases hc

lemma Accounted.quiet {opening id : ℕ} {call call' : Call} {calls : Dict ℕ Call}
    {pending : Finset ℕ} {outbound : List Frame} (h : s.Accounted opening)
    (hl : s.calls.lookup id = some call) (hcalls : calls = s.calls.insert id call')
    (hmail : call'.mailbox = call.mailbox) (hnone : call.phase.reply = none) :
    Accounted { s with calls, pending, outbound } opening :=
  h.move hcalls rfl rfl rfl rfl (fun _ h => h) (carries_same hl hmail hnone)

lemma Accounted.hear {opening id : ℕ} {call : Call} {reply : Reply} (h : s.Accounted opening)
    (hl : s.calls.lookup id = some call) (hwaiting : call.phase = .waiting)
    (hmail : call.mailbox = some reply) :
    (s.setCall id ⟨call.method, .answered reply, none, call.heard ++ [reply.id]⟩).Accounted opening := by
  refine h.move rfl rfl rfl rfl rfl (fun _ h => h) ?_
  intro call₀ hl₀ hc
  obtain rfl := Option.some.inj (hl.symm.trans hl₀)
  rcases hc with hc | hc
  · rw [hmail] at hc
    exact Or.inr hc
  · rw [hwaiting] at hc
    cases hc

lemma Accounted.giveUp {opening id : ℕ} {call : Call} (h : s.Accounted opening)
    (hsafe : s.Safe fits (.giveUp id)) (hl : s.calls.lookup id = some call)
    (hfailed : call.phase = .refused ∨ call.phase = .expired) :
    Accounted { s.setCall id { call with phase := .returned, mailbox := none } with
      pending := s.pending.erase id } opening := by
  by_cases hc : call.carries opening
  · rcases hc with hc | hc
    · obtain ⟨reply, hm, ho⟩ := Option.bind_eq_some_iff.mp hc
      exact .done (hsafe _ _ _ hl hm ho)
    · rcases hfailed with hf | hf
      · rw [hf] at hc
        cases hc
      · rw [hf] at hc
        cases hc
  · refine h.move rfl rfl rfl rfl rfl (fun _ h => h) ?_
    intro call₀ hl₀ hc₀
    obtain rfl := Option.some.inj (hl.symm.trans hl₀)
    exact absurd hc₀ hc

lemma Accounted.conclude {opening id : ℕ} {call : Call} {reply : Reply} (h : s.Accounted opening)
    (hsafe : s.Safe fits (.conclude id)) (hl : s.calls.lookup id = some call)
    (hanswered : call.phase = .answered reply) :
    Accounted { s.setCall id { call with phase := .returned } with
      streams := s.streams ++ (call.stream fits reply).toList } opening := by
  by_cases hc : reply.opening = some opening
  · rcases hsafe _ _ _ hl hanswered hc with hover | hstream
    · exact .done hover
    · obtain ⟨route, hr, ho⟩ := Option.map_eq_some_iff.mp hc
      have hmem : route ∈ s.streams ++ (call.stream fits reply).toList := by
        rw [hstream, hr]
        simp
      exact .live hmem ho
  · refine h.move rfl rfl rfl rfl rfl (List.subset_append_left _ _) ?_
    intro call₀ hl₀ hc₀
    obtain rfl := Option.some.inj (hl.symm.trans hl₀)
    rcases hc₀ with hm | hp
    · exact Or.inl hm
    · rw [hanswered] at hp
      exact absurd hp hc

lemma Accounted.delivered {opening id : ℕ} {call : Call} {reply : Reply} (h : s.Accounted opening)
    (hheld : s.worker = .delivering id reply) (hl : s.calls.lookup id = some call)
    (hempty : call.mailbox = none) :
    Accounted { s.setCall id { call with mailbox := some reply } with worker := .serving } opening := by
  refine h.of (fun h => h) (fun _ h => h) (fun _ h => h) (fun _ hm hof => .live hm hof) ?_
  intro hu
  apply Accounted.underway
  cases hu with
  | worker held route =>
    obtain ⟨rfl, rfl⟩ := Worker.delivering.inj (hheld.symm.trans held)
    exact .call (AList.lookup_insert _) (Or.inl route)
  | @call id' call' called carries =>
    by_cases hid : id' = id
    · subst hid
      obtain rfl := Option.some.inj (hl.symm.trans called)
      rcases carries with hm | hp
      · rw [hempty] at hm
        cases hm
      · exact .call (AList.lookup_insert _) (Or.inr hp)
    · exact .call (by rw [setCall, AList.lookup_insert_ne hid, called]) carries

lemma Accounted.unheard {opening id : ℕ} {reply : Reply} {routes : Dict ℕ Route} (hi : s.Inv)
    (h : s.Accounted opening) (hsafe : s.Safe fits .deliver) (hheld : s.worker = .delivering id reply)
    (hdeaf : ∀ call, s.calls.lookup id = some call → call.phase = .returned ∨ call.mailbox ≠ none) :
    Accounted { s with worker := .serving, routes } opening := by
  refine h.of (fun h => h) (fun _ h => h) (fun _ h => h) (fun _ hm hof => .live hm hof) ?_
  intro hu
  apply Accounted.underway
  cases hu with
  | worker held route =>
    obtain ⟨rfl, rfl⟩ := Worker.delivering.inj (hheld.symm.trans held)
    have hroute : reply.route ≠ none := by
      intro hn
      rw [Reply.opening, hn] at route
      cases route
    obtain ⟨call, called, hlistens⟩ := hsafe _ _ hheld hroute
    have hempty := ((hi.own _ _ called).asked (Or.inr ⟨reply, hheld⟩)).1
    exact ((hdeaf _ called).elim hlistens (absurd hempty)).elim
  | call called carries => exact .call called carries

lemma Accounted.drop {opening : ℕ} {route : Route} {outbound : List Frame} {closing : List ℕ}
    (h : s.Accounted opening) (hclosing : s.closing ⊆ closing)
    (hdropped : route.opening = opening →
      Accounted { s with streams := s.streams.erase route, outbound, closing } opening) :
    Accounted { s with streams := s.streams.erase route, outbound, closing } opening := by
  refine h.keep rfl (fun _ _ _ => rfl) (fun h => h) hclosing (fun _ h => h) ?_
  intro route' hm hof
  by_cases hr : route' = route
  · exact hdropped (hr ▸ hof)
  · exact .live ((List.mem_erase_of_ne hr).mpr hm) hof

lemma Accounted.step (hi : s.Inv) (h : ∀ opening < s.opened.length, s.Accounted opening)
    (hsafe : s.Safe fits act) (hs : Step fits s act t) :
    ∀ opening < t.opened.length, t.Accounted opening := by
  intro opening hlt
  cases hs with
  | @start method connected =>
    refine (h _ hlt).move rfl rfl rfl rfl rfl (fun _ h => h) ?_
    intro call called _
    exact absurd (hi.below _ _ called) (lt_irrefl _)
  | @busy id call called begun full =>
    exact (h _ hlt).quiet called rfl rfl (by rw [begun]; rfl)
  | @list id call called begun room =>
    exact (h _ hlt).quiet called rfl rfl (by rw [begun]; rfl)
  | @send id call called listed room connected =>
    exact (h _ hlt).quiet called rfl rfl (by rw [listed]; rfl)
  | @unsent id call called listed =>
    exact (h _ hlt).quiet called rfl rfl (by rw [listed]; rfl)
  | @expire id call called waiting empty =>
    exact (h _ hlt).quiet called rfl rfl (by rw [waiting]; rfl)
  | @hear id call reply called waiting mail => exact (h _ hlt).hear called waiting mail
  | @hangUp id call called waiting empty unlisted unheld =>
    exact (h _ hlt).quiet called rfl rfl (by rw [waiting]; rfl)
  | @giveUp id call called failed => exact (h _ hlt).giveUp hsafe called failed
  | @conclude id call reply called answered => exact (h _ hlt).conclude hsafe called answered
  | @answer message serving => exact Accounted.answer serving hsafe h hlt
  | @delivered id reply call held called listening empty => exact (h _ hlt).delivered held called empty
  | @unheard id reply held deaf => exact Accounted.unheard hi (h _ hlt) hsafe held deaf
  | @data channel serving => exact h _ hlt
  | @close channel serving =>
    exact (h _ hlt).keep rfl (fun _ _ _ => rfl) (fun h => h) (fun _ h => h)
      (List.subset_append_left _ _) fun _ hm hof => .live hm hof
  | @write frame rest serving queued =>
    exact (h _ hlt).keep rfl (fun _ _ _ => rfl) (fun h => h) (fun _ h => h) (fun _ h => h)
      fun _ hm hof => .live hm hof
  | lose serving => exact .done (Or.inl rfl)
  | clear losing => exact .done (Or.inl (hi.stopped (Or.inl losing)))
  | @frame route kind live other room connected =>
    exact (h _ hlt).keep rfl (fun _ _ _ => rfl) (fun h => h) (fun _ h => h) (fun _ h => h)
      fun _ hm hof => .live hm hof
  | @drop route live room connected =>
    exact (h _ hlt).drop (List.subset_append_left _ _) fun hof => .closing (by simp [hof])
  | @dropUnsent route live full =>
    refine (h _ hlt).drop (fun _ h => h) fun hof => ?_
    rcases hsafe with hroom | hover
    · rcases full with hfull | hgone
      · exact absurd hroom hfull.not_gt
      · exact .done (Or.inl (hi.stopped (Or.inr hgone)))
    · exact .done (hof ▸ hover)

theorem streams_accounted {acts : List Act} (h : Run (Step fits) fresh acts s) :
    (∀ id call, s.calls.lookup id = some call → call.heard = [] ∨ call.heard = [id]) ∧
      s.pending.card ≤ maxInFlight ∧
      (Run (fun s act t => s.Safe fits act ∧ Step fits s act t) fresh acts s →
        ∀ opening < s.opened.length, s.Accounted opening) := by
  have hinv : ∀ t acts, Run (Step fits) fresh acts t → t.Inv :=
    fun t acts h => h.invariant inv_fresh fun _ _ _ hi hs => hi.step hs
  refine ⟨fun id call hl => ((hinv _ _ h).own id call hl).heard, (hinv _ _ h).bound, ?_⟩
  intro hsafe
  have hall : s.Inv ∧ ∀ opening < s.opened.length, s.Accounted opening := by
    refine hsafe.invariant (P := fun s => s.Inv ∧ ∀ opening < s.opened.length, s.Accounted opening)
      ⟨inv_fresh, fun _ hlt => absurd hlt (Nat.not_lt_zero _)⟩ ?_
    rintro t act u ⟨hi, ha⟩ ⟨hsafe, hs⟩
    exact ⟨hi.step hs, Accounted.step hi ha hsafe hs⟩
  exact hall.2

def subscribing (phase : Phase) : Conn :=
  ⟨false, .serving, 2, {1}, ∅, AList.insert 1 ⟨.eventsSubscribe, phase, none, []⟩ ∅,
    [⟨0, .data⟩], [], [], [], []⟩

def subscribed : Value :=
  .object [("channel", .number "5"), ("seq", .number "0"), ("terminals", .array [])]

def subscribedAnswer : Value := .object [("id", .number "1"), ("result", subscribed)]

def subscribedReply : Reply := ⟨1, .ok subscribed, some ⟨5, 0⟩⟩

def answered (phase : Phase) (mailbox : Option Reply) (heard : List ℕ) (streams : List Route) :
    Conn :=
  { subscribing phase with
    pending := ∅
    routes := AList.insert 5 ⟨5, 0⟩ ∅
    calls := AList.insert 1 ⟨.eventsSubscribe, phase, mailbox, heard⟩ ∅
    streams := streams
    opened := [5] }

lemma answerId_subscribed : answerId subscribedAnswer = some 1 := by decide +kernel

lemma answer_subscribing (phase : Phase) :
    (subscribing phase).answer subscribedAnswer =
      { answered phase none [] [] with worker := .delivering 1 subscribedReply } := by
  have hchannel : answerChannel subscribedAnswer = some 5 := by decide +kernel
  simp only [Conn.answer, answerId_subscribed, hchannel]
  rfl

def parses (method : Method) (value : Value) : Bool :=
  match method with
  | .eventsSubscribe =>
    ((value.get "seq").bind asU64).isSome && ((value.get "terminals").bind Value.asArray).isSome
  | _ => false

abbrev SafeRun : List Act → Conn → Prop :=
  Run (fun s act t => s.Safe parses act ∧ Step parses s act t) fresh

lemma run_subscribing : SafeRun [.start .eventsSubscribe, .list 1, .send 1] (subscribing .waiting) := by
  have h₁ : Step parses fresh (.start .eventsSubscribe)
      { subscribing .begun with pending := ∅, outbound := [] } := .start rfl
  have h₂ : Step parses { subscribing .begun with pending := ∅, outbound := [] } (.list 1)
      { subscribing .listed with outbound := [] } := by
    have hcalled : (subscribing .begun).calls.lookup 1 =
        some ⟨.eventsSubscribe, .begun, none, []⟩ := rfl
    exact Step.list (s := { subscribing .begun with pending := ∅, outbound := [] }) hcalled rfl
      (by decide)
  have h₃ : Step parses { subscribing .listed with outbound := [] } (.send 1)
      (subscribing .waiting) := by
    have hcalled : (subscribing .listed).calls.lookup 1 =
        some ⟨.eventsSubscribe, .listed, none, []⟩ := rfl
    exact Step.send (s := { subscribing .listed with outbound := [] }) hcalled rfl (by decide) nofun
  exact ((Run.nil.snoc ⟨trivial, h₁⟩).snoc ⟨trivial, h₂⟩).snoc ⟨trivial, h₃⟩

lemma run_answered {phase : Phase} {acts : List Act} (h : SafeRun acts (subscribing phase))
    (hphase : phase ≠ .returned) :
    SafeRun (acts ++ [.answer subscribedAnswer] ++ [.deliver])
      (answered phase (some subscribedReply) [] []) := by
  have hcalled : (answered phase none [] []).calls.lookup 1 =
      some ⟨.eventsSubscribe, phase, none, []⟩ := rfl
  have h₁ : Step parses (subscribing phase) (.answer subscribedAnswer)
      { answered phase none [] [] with worker := .delivering 1 subscribedReply } := by
    rw [← answer_subscribing]
    exact .answer rfl
  have h₂ : Step parses { answered phase none [] [] with worker := .delivering 1 subscribedReply }
      .deliver (answered phase (some subscribedReply) [] []) := by
    exact Step.delivered (s := { answered phase none [] [] with
      worker := .delivering 1 subscribedReply }) rfl hcalled hphase rfl
  refine (h.snoc ⟨?_, h₁⟩).snoc ⟨?_, h₂⟩
  · intro id hid _
    rw [answerId_subscribed] at hid
    obtain rfl := Option.some.inj hid
    exact Finset.mem_singleton_self 1
  · intro id reply hw _
    obtain ⟨rfl, -⟩ := Worker.delivering.inj hw
    exact ⟨_, hcalled, hphase⟩

theorem streams_accounted_subscribed : (answered .returned none [1] [⟨5, 0⟩]).Accounted 0 := by
  have hheard : Step parses (answered .waiting (some subscribedReply) [] []) (.hear 1)
      (answered (.answered subscribedReply) none [1] []) := by
    have hcalled : (answered .waiting (some subscribedReply) [] []).calls.lookup 1 =
        some ⟨.eventsSubscribe, .waiting, some subscribedReply, []⟩ := rfl
    exact .hear hcalled rfl rfl
  have hcalled : (answered (.answered subscribedReply) none [1] []).calls.lookup 1 =
      some ⟨.eventsSubscribe, .answered subscribedReply, none, [1]⟩ := rfl
  have hstream : Call.stream parses ⟨.eventsSubscribe, .answered subscribedReply, none, [1]⟩
      subscribedReply = some ⟨5, 0⟩ := by
    have hparses : parses .eventsSubscribe subscribed = true := by decide +kernel
    simp [Call.stream, subscribedReply, Method.streams, hparses]
  have hconclude : Step parses (answered (.answered subscribedReply) none [1] []) (.conclude 1)
      (answered .returned none [1] [⟨5, 0⟩]) := by
    have h : Step parses _ _ _ := .conclude hcalled rfl
    rwa [hstream] at h
  have hsafe : Safe parses (answered (.answered subscribedReply) none [1] []) (.conclude 1) := by
    intro call reply opening hl hphase _
    obtain rfl := Option.some.inj (hcalled.symm.trans hl)
    obtain rfl := Phase.answered.inj hphase
    exact Or.inr hstream
  have hfree : Safe parses (answered .waiting (some subscribedReply) [] []) (.hear 1) := trivial
  have hanswered := run_answered run_subscribing nofun
  have hrun := (hanswered.snoc ⟨hfree, hheard⟩).snoc ⟨hsafe, hconclude⟩
  exact (streams_accounted (hrun.mono fun _ _ _ h => h.2)).2.2 hrun 0 (by decide)

theorem timed_out_subscription_leaks :
    ∃ acts s, Run (Step parses) fresh acts s ∧ 0 < s.opened.length ∧ ¬s.Accounted 0 := by
  have hexpire : Step parses (subscribing .waiting) (.expire 1) (subscribing .expired) := by
    have hcalled : (subscribing .waiting).calls.lookup 1 =
        some ⟨.eventsSubscribe, .waiting, none, []⟩ := rfl
    exact .expire hcalled rfl rfl
  have hgiveUp : Step parses (answered .expired (some subscribedReply) [] []) (.giveUp 1)
      (answered .returned none [] []) := by
    have hcalled : (answered .expired (some subscribedReply) [] []).calls.lookup 1 =
        some ⟨.eventsSubscribe, .expired, some subscribedReply, []⟩ := rfl
    exact .giveUp hcalled (Or.inr rfl)
  have hfree : Safe parses (subscribing .waiting) (.expire 1) := trivial
  have hrun := run_answered (run_subscribing.snoc ⟨hfree, hexpire⟩) nofun
  refine ⟨_, _, (hrun.mono fun _ _ _ h => h.2).snoc hgiveUp, by decide, ?_⟩
  intro h
  cases h with
  | live live _ => simp [answered] at live
  | closing queued => simp [answered, subscribing] at queued
  | done done => simp [answered, subscribing, Over] at done
  | underway underway =>
    cases underway with
    | worker held _ => cases held
    | call called carries =>
      rcases of_setCall (s := fresh) called with ⟨-, rfl⟩ | ⟨-, hl⟩
      · simp [Call.carries, Phase.reply] at carries
      · simp [fresh] at hl

end Conn

end Sheprd.Core
