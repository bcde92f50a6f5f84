import Sheprd.Client.Handled
import Sheprd.Client.Worker

namespace Sheprd.Client

open Sheprd.Lib Sheprd.Lib.Exec Sheprd.Protocol

def Session.outstanding (s : Session) : List String :=
  (s.pending.map fun p => p.id).toList ++ (s.barrier.map fun b => b.pending.id).toList

structure LeaseKept (c c' : Connection) : Prop where
  ids : ∃ ids, responses c'.emitted = responses c.emitted ++ ids ∧
    c.session.outstanding = ids ++ c'.session.outstanding
  barrier : c'.session.barrier.isSome = true → c.session.barrier.isSome = true
  refused : ∀ b, c'.session.barrier = some b → b.refused = true →
    c'.session.pipelineBarriers = false ∨ ∃ b₀, c.session.barrier = some b₀ ∧ b₀.refused = true
  pipelines : c'.session.pipelineBarriers = true → c.session.pipelineBarriers = true
  welcome : c'.session.welcome = c.session.welcome
  bytes : c.session.responseBytes ≤ maxResponseBytes → c'.session.responseBytes ≤ maxResponseBytes

structure LeaseEnded (c c' : Connection) : Prop where
  ids : ∃ ids, responses c'.emitted = responses c.emitted ++ ids ∧ ids <+: c.session.outstanding
  bytes : c.session.responseBytes ≤ maxResponseBytes → c'.session.responseBytes ≤ maxResponseBytes

instance : Std.Refl LeaseKept where
  refl _ := ⟨⟨[], (List.append_nil _).symm, rfl⟩, id, fun b hb hr => Or.inr ⟨b, hb, hr⟩, id, rfl, id⟩

instance : IsTrans Connection LeaseKept where
  trans a b c h h' := by
    obtain ⟨ids, hr, ho⟩ := h.ids
    obtain ⟨ids', hr', ho'⟩ := h'.ids
    refine ⟨⟨ids ++ ids', by rw [hr', hr, List.append_assoc], by rw [ho, ho', List.append_assoc]⟩,
      fun hb => h.barrier (h'.barrier hb), ?_, fun hp => h.pipelines (h'.pipelines hp),
      h'.welcome.trans h.welcome, fun hb => h'.bytes (h.bytes hb)⟩
    intro b₂ hb₂ hf
    rcases h'.refused b₂ hb₂ hf with hp | ⟨b₁, hb₁, hf₁⟩
    · exact Or.inl hp
    · rcases h.refused b₁ hb₁ hf₁ with hp | h₀
      · exact Or.inl (Bool.eq_false_iff.mpr fun ht => by simp [h'.pipelines ht] at hp)
      · exact Or.inr h₀

lemma LeaseKept.ended {c c' : Connection} (h : LeaseKept c c') : LeaseEnded c c' := by
  obtain ⟨ids, hr, ho⟩ := h.ids
  exact ⟨⟨ids, hr, ho ▸ List.prefix_append _ _⟩, h.bytes⟩

lemma LeaseKept.then_ended {a b c : Connection} (h : LeaseKept a b) (h' : LeaseEnded b c) :
    LeaseEnded a c := by
  obtain ⟨ids, hr, ho⟩ := h.ids
  obtain ⟨ids', hr', hp⟩ := h'.ids
  refine ⟨⟨ids ++ ids', by rw [hr', hr, List.append_assoc], ?_⟩, fun hb => h'.bytes (h.bytes hb)⟩
  rw [ho]
  exact (List.prefix_append_right_inj ids).mpr hp

def LeaseResult (c : Connection) : Except Error Unit → Connection → Prop
  | .ok _, c' => LeaseKept c c'
  | .error _, c' => LeaseEnded c c'

variable (parse : Parsers) (sink : List Emission → ClientEvent → Option Error)

lemma keeps_lease {m : Handling Unit} (h : Keeps LeaseKept m) (c : Connection) :
    wp m (LeaseResult c) c := by
  refine wp_mono (h c) ?_
  intro r c' hk
  cases r with
  | ok u => exact hk
  | error e => exact hk.ended

lemma responses_append (a b : List Emission) : responses (a ++ b) = responses a ++ responses b :=
  List.filterMap_append

lemma emit_lease {event : ClientEvent} (h : event.asResponse = none) :
    Keeps LeaseKept (emit sink event) := by
  intro c
  refine wp_mono (emit_emits sink event c) ?_
  rintro r c' ⟨sent, rest, he, rfl, -⟩
  have hr : responses (c.tell sent).emitted = responses c.emitted := by
    rw [Connection.tell, responses_append]
    have hnil : responses (sent.map (Emission.mk c.session.snapshot)) = [] := by
      refine List.filterMap_eq_nil_iff.mpr ?_
      intro e hmem
      obtain ⟨ev, hev, rfl⟩ := List.mem_map.mp hmem
      have hev' : ev ∈ [event] := he ▸ List.mem_append_left rest hev
      rw [List.mem_singleton.mp hev']
      exact h
    rw [hnil, List.append_nil]
  exact ⟨⟨[], by rw [hr, List.append_nil], rfl⟩, id, fun b hb hf => Or.inr ⟨b, hb, hf⟩, id, rfl, id⟩

lemma update_lease {f : Session → Session} (h : ∀ s, (f s).pending = s.pending ∧
      (f s).barrier = s.barrier ∧ (f s).pipelineBarriers = s.pipelineBarriers ∧
      (f s).welcome = s.welcome) : Keeps LeaseKept (update f) := by
  intro c
  obtain ⟨hp, hb, hl, hw⟩ := h c.session
  refine ⟨⟨[], (List.append_nil _).symm, ?_⟩, ?_, ?_, ?_, hw, ?_⟩
  · change c.session.outstanding = (f c.session).outstanding
    rw [Session.outstanding, Session.outstanding, hp, hb]
  · change (f c.session).barrier.isSome = true → _
    rw [hb]
    exact id
  · intro b hb' hf
    exact Or.inr ⟨b, hb ▸ hb', hf⟩
  · change (f c.session).pipelineBarriers = true → _
    rw [hl]
    exact id
  · change _ → (f c.session).responseBytes ≤ _
    rw [Session.responseBytes, Session.responseBytes, hp, hb]
    exact id

lemma emitShown_lease (current : PaneSurfaceFrame) : Keeps LeaseKept (emitShown sink current) :=
  .bind .get fun _ => .bind (update_lease fun _ => ⟨rfl, rfl, rfl, rfl⟩) fun _ =>
    .bind (.when _ (emit_lease sink rfl)) fun _ => emit_lease sink rfl

lemma acceptSnapshot_lease (next : ClientShellSnapshot) :
    Keeps LeaseKept (acceptSnapshot sink next) := by
  refine .bind .get fun c => .bind (.refuse _ _) fun _ =>
    .bind (update_lease fun _ => ⟨rfl, rfl, rfl, rfl⟩) fun _ =>
    .bind (emit_lease sink rfl) fun _ => .when _ ?_
  split
  · exact emitShown_lease sink _
  · exact .pure ()

lemma acceptSurface_lease (surface : PaneSurfaceFrame) :
    Keeps LeaseKept (acceptSurface sink surface) :=
  .bind .get fun _ => .bind (.require _ _) fun _ => .bind (.refuse _ _) fun _ =>
    .bind (.lift _ _) fun _ => .bind (.lift _ _) fun _ =>
    .bind (update_lease fun _ => ⟨rfl, rfl, rfl, rfl⟩) fun _ =>
    .bind (.when _ (emit_lease sink rfl)) fun _ => .bind (.when _ (emit_lease sink rfl)) fun _ =>
    update_lease fun _ => ⟨rfl, rfl, rfl, rfl⟩

lemma patchSurface_lease
    (apply : PaneSurfaceFrame → Option (Except Protocol.Error Unit × PaneSurfaceFrame)) :
    Keeps LeaseKept (patchSurface sink apply) :=
  .bind .get fun _ => .bind (.require _ _) fun _ => .bind (.require _ _) fun _ =>
    .bind (update_lease fun _ => ⟨rfl, rfl, rfl, rfl⟩) fun _ => .bind (.lift _ _) fun _ =>
    .bind .get fun _ => .when _ (emitShown_lease sink _)

lemma handleControl_lease (kind data : String) :
    Keeps LeaseKept (handleControl parse sink kind data) := by
  refine .ite (.bind (.require _ _) fun next => acceptSnapshot_lease sink next)
    (.ite ?_ (.ite ?_ (.ite ?_ (.pure ()))))
  · exact .bind .get fun c => .bind (.refuse _ _) fun _ => .bind (.lift _ _) fun scroll =>
      patchSurface_lease sink _
  · exact .bind .get fun c => .bind (.refuse _ _) fun _ => .bind (.lift _ _) fun delta =>
      .bind (.require _ _) fun base => .bind (.require _ _) fun result =>
      .bind (.lift _ _) fun next => acceptSurface_lease sink next
  · exact .bind .get fun c => .bind (.refuse _ _) fun _ => .bind (.lift _ _) fun reuse =>
      .bind (.require _ _) fun base => .bind (.lift _ _) fun next =>
      acceptSurface_lease sink next

lemma wp_update {f : Session → Session} {Q : Except Error Unit → Connection → Prop}
    {c : Connection} :
    wp (update f) Q c ↔ Q (.ok ()) { c with session := f c.session } := Iff.rfl

lemma emit_cases (event : ClientEvent) (c : Connection) :
    wp (emit sink event) (fun r c' => r = .ok () ∧ c' = c.tell [event] ∨ r.isOk = false ∧ c' = c)
      c := by
  refine wp_mono (emit_emits sink event c) ?_
  intro r c' h
  rcases Emits.concat (show Emits sink c ([] ++ [event]) r c' from h) with ⟨hr, rfl⟩ | ⟨hr, sent, hpre, rfl⟩
  · exact Or.inl ⟨hr, by rw [tell_nil]⟩
  · rw [List.prefix_nil.mp hpre, tell_nil]
    exact Or.inr ⟨hr, rfl⟩

structure Delivered (id : String) (c : Connection) (r : Except Error Unit) (c' : Connection) :
    Prop where
  ids : ∃ ids, responses c'.emitted = responses c.emitted ++ ids ∧
    ids <+: id :: c.session.outstanding ∧
    (r.isOk = true → id :: c.session.outstanding = ids ++ c'.session.outstanding)
  barrier : c'.session.barrier = c.session.barrier ∨ c'.session.barrier = none
  pending : c'.session.pending = c.session.pending
  pipelines : c'.session.pipelineBarriers = c.session.pipelineBarriers
  welcome : c'.session.welcome = c.session.welcome

lemma Delivered.bytes {id : String} {c c' : Connection} {r : Except Error Unit}
    (h : Delivered id c r c') : c'.session.responseBytes ≤ c.session.responseBytes := by
  rw [Session.responseBytes, Session.responseBytes, h.pending]
  rcases h.barrier with hb | hb
  · rw [hb]
  · rw [hb]
    exact Nat.add_le_add_left (Nat.zero_le _) _

lemma Delivered.lease {id : String} {c c₁ c' : Connection} {r : Except Error Unit}
    (h : Delivered id c₁ r c') (he : c₁.emitted = c.emitted)
    (ho : c.session.outstanding = id :: c₁.session.outstanding)
    (hb : c₁.session.barrier = c.session.barrier ∨ c₁.session.barrier = none)
    (hp : c₁.session.pipelineBarriers = c.session.pipelineBarriers)
    (hw : c₁.session.welcome = c.session.welcome)
    (hl : c₁.session.responseBytes ≤ c.session.responseBytes) : LeaseResult c r c' := by
  obtain ⟨ids, hr, hpre, hok⟩ := h.ids
  rw [he] at hr
  have hbar : c'.session.barrier = c.session.barrier ∨ c'.session.barrier = none := by
    rcases h.barrier with hb' | hb'
    · rw [hb']
      exact hb
    · exact Or.inr hb'
  cases r with
  | error e => exact ⟨⟨ids, hr, ho ▸ hpre⟩, fun hm => (h.bytes.trans hl).trans hm⟩
  | ok u =>
    refine ⟨⟨ids, hr, ho.trans (hok rfl)⟩, ?_, ?_, ?_, h.welcome.trans hw,
      fun hm => (h.bytes.trans hl).trans hm⟩
    · intro hsome
      rcases hbar with hbar | hbar
      · exact hbar ▸ hsome
      · exact absurd hsome (by simp [hbar])
    · intro b hsome hf
      rcases hbar with hbar | hbar
      · exact Or.inr ⟨b, hbar.symm.trans hsome, hf⟩
      · exact absurd hsome (by simp [hbar])
    · rw [h.pipelines, hp]
      exact fun hpl => hpl

lemma deliverResponse_delivered (id : String) (response : Value) {c : Connection}
    (hp : c.session.pending = none) :
    wp (deliverResponse sink id response) (Delivered id c) c := by
  rw [deliverResponse, wp_bind]
  refine wp_mono (emit_cases sink _ c) ?_
  rintro r c₁ (⟨rfl, rfl⟩ | ⟨hr, rfl⟩)
  · rw [andThen_ok, wp_bind, wp_get, andThen_ok]
    have htold : ∀ e, responses (c.tell [.response id e]).emitted = responses c.emitted ++ [id] := by
      intro e
      rw [Connection.tell, responses_append]
      rfl
    have hstay : Delivered id c (.ok ()) (c.tell [.response id response]) :=
      ⟨⟨[id], htold _, ⟨_, rfl⟩, fun _ => rfl⟩, Or.inl rfl, rfl, rfl, rfl⟩
    rw [wp_when]
    refine ⟨fun _ => ?_, fun _ => hstay⟩
    have hsame : (c.tell [.response id response]).session.barrier = c.session.barrier := rfl
    rw [hsame]
    cases hb : c.session.barrier with
    | none => exact hstay
    | some b =>
      dsimp only
      cases hh : b.held with
      | none => exact hstay
      | some held =>
        dsimp only
        have hout : c.session.outstanding = [b.pending.id] := by
          rw [Session.outstanding, hp, hb]
          rfl
        rw [wp_bind, wp_update, andThen_ok]
        refine wp_mono (emit_cases sink _ _) ?_
        rintro r c₂ (⟨rfl, rfl⟩ | ⟨hr, rfl⟩)
        · refine ⟨⟨[id, b.pending.id], ?_, ?_, fun _ => ?_⟩, Or.inr rfl, rfl, rfl, rfl⟩
          · change responses ((c.tell [.response id response]).emitted ++ _) = _
            rw [responses_append, htold, List.append_assoc]
            rfl
          · rw [hout]
          · rw [hout]
            simp [Session.outstanding, Connection.tell, hp]
        · refine ⟨⟨[id], htold _, ⟨_, rfl⟩, ?_⟩, Or.inr rfl, rfl, rfl, rfl⟩
          intro hok
          rw [hr] at hok
          exact absurd hok (by simp)
  · cases r with
    | ok u => exact absurd hr (by simp [Except.isOk, Except.toBool])
    | error e =>
      exact ⟨⟨[], (List.append_nil _).symm, List.nil_prefix, by simp [Except.isOk, Except.toBool]⟩,
        Or.inl rfl, rfl, rfl, rfl⟩

lemma readResponse_same (requestId : String) (bytes : List UInt8) (c : Connection) :
    wp (readResponse parse requestId bytes) (fun _ c' => c' = c) c := by
  rw [readResponse, wp_bind, wp_require]
  refine ⟨fun _ => rfl, fun response _ => ?_⟩
  rw [andThen_ok, wp_bind, wp_refuse]
  exact ⟨fun _ => rfl, fun _ => rfl⟩

lemma receiveForPending_lease {c : Connection} {p : Pending} {requestId : String}
    (finalChunk : Bool) {data : List UInt8} (hp : c.session.pending = some p)
    (hid : p.id = requestId)
    (hroom : ¬maxResponseBytes - c.session.responseBytes < data.length) :
    wp (receiveForPending parse sink p requestId finalChunk data) (LeaseResult c) c := by
  have hbytes : c.session.responseBytes =
      p.bytes.length + c.session.barrier.elim 0 fun b => b.pending.bytes.length := by
    rw [Session.responseBytes, hp]
    rfl
  have hout : c.session.outstanding =
      p.id :: (c.session.barrier.map fun b => b.pending.id).toList := by
    rw [Session.outstanding, hp]
    rfl
  rw [receiveForPending, wp_bind, wp_update, andThen_ok, wp_when]
  constructor
  · intro _
    rw [wp_bind, wp_update, andThen_ok, wp_bind]
    set c₂ : Connection := { c with session := { c.session with pending := none } } with hc₂
    have hle : c₂.session.responseBytes ≤ c.session.responseBytes := by
      rw [hbytes, Session.responseBytes]
      exact Nat.add_le_add_right (Nat.zero_le _) _
    have hout₂ : c.session.outstanding = requestId :: c₂.session.outstanding := by
      rw [hout, hid]
      rfl
    refine wp_mono (readResponse_same parse requestId _ c₂) ?_
    rintro r c' rfl
    cases r with
    | error e => exact ⟨⟨[], (List.append_nil _).symm, List.nil_prefix⟩, hle.trans⟩
    | ok response =>
      rw [andThen_ok]
      exact wp_mono (deliverResponse_delivered sink requestId response (c := c₂) rfl)
        fun r c' hd => hd.lease rfl hout₂ (Or.inl rfl) rfl rfl hle
  · intro _
    refine ⟨⟨[], (List.append_nil _).symm, ?_⟩, id, fun b hb hf => Or.inr ⟨b, hb, hf⟩, id, rfl, ?_⟩
    · rw [hout]
      rfl
    · intro h
      rw [Session.responseBytes]
      simp only [Option.elim_some, List.length_append]
      omega

lemma Session.responseBytes_of_barrier {s : Session} {b : Barrier} (hb : s.barrier = some b) :
    s.responseBytes = (s.pending.elim 0 fun p => p.bytes.length) + b.pending.bytes.length := by
  rw [Session.responseBytes, hb]
  rfl

lemma Session.outstanding_of_barrier {s : Session} {b : Barrier} (hb : s.barrier = some b) :
    s.outstanding = (s.pending.map fun p => p.id).toList ++ [b.pending.id] := by
  rw [Session.outstanding, hb]
  rfl

lemma LeaseKept.of_barrier {c : Connection} {b : Barrier} (b' : Barrier) {pipelines : Bool} {room : ℕ}
    (hb : c.session.barrier = some b) (hroom : ¬maxResponseBytes - c.session.responseBytes < room)
    (hid : b'.pending.id = b.pending.id)
    (hlen : b'.pending.bytes.length ≤ b.pending.bytes.length + room)
    (hrefused : b'.refused = true → pipelines = false)
    (hpipelines : pipelines = true → c.session.pipelineBarriers = true) :
    LeaseKept c { c with session := { c.session with
      barrier := some b', pipelineBarriers := pipelines } } := by
  refine ⟨⟨[], (List.append_nil _).symm, ?_⟩, ?_, ?_, hpipelines, rfl, ?_⟩
  · rw [Session.outstanding_of_barrier hb, ← hid]
    rfl
  · intro _
    rw [hb]
    rfl
  · rintro _ ⟨⟩ hf
    exact Or.inl (hrefused hf)
  · intro h
    rw [Session.responseBytes_of_barrier hb] at hroom h
    rw [Session.responseBytes_of_barrier rfl]
    dsimp only
    omega

lemma receiveForBarrier_lease {c : Connection} {b : Barrier} {requestId : String}
    (finalChunk : Bool) {data : List UInt8} (hb : c.session.barrier = some b)
    (ha : b.awaits requestId = true)
    (hroom : ¬maxResponseBytes - c.session.responseBytes < data.length) :
    wp (receiveForBarrier parse sink b requestId finalChunk data) (LeaseResult c) c := by
  simp only [Barrier.awaits, Bool.and_eq_true, decide_eq_true_eq, Bool.not_eq_true',
    Option.isNone_iff_eq_none] at ha
  obtain ⟨⟨hid, -⟩, hfresh⟩ := ha
  rw [receiveForBarrier, wp_bind, wp_update, andThen_ok, wp_when]
  constructor
  · intro _
    rw [wp_bind, wp_update, andThen_ok, wp_bind]
    refine wp_mono (readResponse_same parse requestId _ _) ?_
    rintro r c' rfl
    cases r with
    | error e =>
      exact (LeaseKept.of_barrier { b with pending := { b.pending with bytes := [] } } hb hroom rfl
        (Nat.zero_le _) (by simp [hfresh]) id).ended
    | ok response =>
      rw [andThen_ok, wp_bind, settleBarrier, wp_ite]
      constructor
      · intro _
        exact LeaseKept.of_barrier _ hb hroom rfl (Nat.zero_le _) (fun _ => rfl) (by simp)
      · intro _
        rw [wp_bind, wp_get, andThen_ok, wp_ite]
        constructor
        · intro _
          exact LeaseKept.of_barrier _ hb hroom rfl (List.length_append.le) (by simp [hfresh]) id
        · intro hpend
          have hp : c.session.pending = none := by simpa using hpend
          rw [wp_bind, wp_update, andThen_ok, wp_pure, andThen_ok, wp_when]
          refine ⟨fun _ => ?_, fun h => absurd rfl h⟩
          refine wp_mono (deliverResponse_delivered sink requestId response hp) ?_
          intro r c' hd
          refine hd.lease rfl ?_ (Or.inr rfl) rfl rfl ?_
          · rw [Session.outstanding_of_barrier hb, hid, Session.outstanding, hp]
            rfl
          · rw [Session.responseBytes_of_barrier hb, Session.responseBytes]
            exact Nat.add_le_add_left (Nat.zero_le _) _
  · intro _
    exact LeaseKept.of_barrier _ hb hroom rfl (List.length_append.le) (by simp [hfresh]) id

lemma receiveChunk_lease (bootId requestId : String) (finalChunk : Bool) (data : List UInt8)
    (c : Connection) :
    wp (receiveChunk parse sink bootId requestId finalChunk data) (LeaseResult c) c := by
  have hstay : LeaseEnded c c := (Std.Refl.refl c : LeaseKept c c).ended
  rw [receiveChunk, wp_bind, wp_get, andThen_ok, wp_bind, wp_refuse]
  refine ⟨fun _ => hstay, fun _ => ?_⟩
  rw [andThen_ok, wp_bind, wp_refuse]
  refine ⟨fun _ => hstay, fun hroom => ?_⟩
  rw [andThen_ok]
  cases hb : c.session.barrier.filter fun b => b.awaits requestId with
  | some b =>
    obtain ⟨hsome, ha⟩ := Option.filter_eq_some_iff.mp hb
    exact receiveForBarrier_lease parse sink finalChunk hsome ha hroom
  | none =>
    dsimp only
    cases hp : c.session.pending.filter fun p => decide (p.id = requestId) with
    | some p =>
      obtain ⟨hsome, hid⟩ := Option.filter_eq_some_iff.mp hp
      exact receiveForPending_lease parse sink finalChunk hsome (of_decide_eq_true hid) hroom
    | none => exact hstay

lemma handleWelcomed_lease (message : ServerMessage) (c : Connection) :
    wp (handleWelcomed parse sink message) (LeaseResult c) c := by
  cases message with
  | endpointControl kind data => exact keeps_lease (handleControl_lease parse sink kind data) c
  | paneSurface next => exact keeps_lease (acceptSurface_lease sink next) c
  | paneSurfacePatch patch => exact keeps_lease (patchSurface_lease sink _) c
  | clientShellEndpointResponseChunk bootId requestId finalChunk data =>
    exact receiveChunk_lease parse sink bootId requestId finalChunk data c
  | serverShutdown reason => exact keeps_lease (.throw _) c
  | _ => exact keeps_lease (emit_lease sink rfl) c

structure SameSlots (c c' : Connection) : Prop where
  pending : c'.session.pending = c.session.pending
  barrier : c'.session.barrier = c.session.barrier
  responses : responses c'.emitted = responses c.emitted

instance : Std.Refl SameSlots := ⟨fun _ => ⟨rfl, rfl, rfl⟩⟩

instance : IsTrans Connection SameSlots where
  trans _ _ _ h h' :=
    ⟨h'.pending.trans h.pending, h'.barrier.trans h.barrier, h'.responses.trans h.responses⟩

lemma emit_slots (event : ClientEvent) (h : event.asResponse = none) :
    Keeps SameSlots (emit sink event) := by
  intro c
  refine wp_mono (emit_cases sink event c) ?_
  rintro r c' (⟨-, rfl⟩ | ⟨-, rfl⟩)
  · refine ⟨rfl, rfl, ?_⟩
    rw [Connection.tell, responses_append]
    simp [responses, h]
  · exact ⟨rfl, rfl, rfl⟩

lemma handshake_slots (now : ℕ) (message : ServerMessage) :
    Keeps SameSlots (handshake parse sink now message) := by
  cases message with
  | endpointControl kind data =>
    refine .bind (.refuse _ _) fun _ => .bind (.require _ _) fun w =>
      .bind (.refuse _ _) fun _ => ?_
    cases w.error with
    | some error => exact .throw _
    | none =>
      exact .bind (.refuse _ _) fun _ => .bind .get fun c => .bind (.refuse _ _) fun _ =>
        .bind (.refuse _ _) fun _ => .bind (.modify fun c => ⟨rfl, rfl, rfl⟩) fun _ =>
        .bind (emit_slots sink _ rfl) fun _ => .modify fun c => ⟨rfl, rfl, rfl⟩
  | _ => exact .throw _

lemma handleMessage_lease (now : ℕ) (message : ServerMessage) (c : Connection) :
    wp (handleMessage parse sink now message)
      (fun r c' => LeaseResult c r c' ∨ c.session.welcome = none ∧ SameSlots c c') c := by
  rw [handleMessage, wp_bind, wp_update, andThen_ok, wp_bind, wp_get, andThen_ok, wp_ite]
  set c₁ : Connection := { c with session := { c.session with
    health := c.session.health.map fun _ => ⟨now, none⟩ } } with hc₁
  constructor
  · intro hw
    refine wp_mono (handshake_slots parse sink now message c₁) ?_
    intro r c' h
    exact Or.inr ⟨Option.isNone_iff_eq_none.mp hw, h.pending, h.barrier, h.responses⟩
  · intro _
    refine wp_mono (handleWelcomed_lease parse sink message c₁) ?_
    intro r c' h
    have hsame : LeaseKept c c₁ :=
      ⟨⟨[], (List.append_nil _).symm, rfl⟩, id, fun b hb hf => Or.inr ⟨b, hb, hf⟩, id, rfl, id⟩
    cases r with
    | ok u => exact Or.inl (IsTrans.trans _ _ _ hsame h)
    | error e => exact Or.inl (hsame.then_ended h)

end Sheprd.Client
