import Sheprd.Client.Session

namespace Sheprd.Client

open Sheprd.Lib Sheprd.Lib.Exec Sheprd.Protocol

def ClientEvent.projects : ClientEvent → Bool
  | .snapshot _ | .surface _ | .surfaceImages _ => true
  | _ => false

structure Quiet (c c' : Connection) : Prop where
  snapshot : c'.session.snapshot = c.session.snapshot
  surface : c'.session.surface = c.session.surface
  images : c'.session.images = c.session.images
  emitted : ∃ more, c'.emitted = c.emitted ++ more ∧ ∀ e ∈ more, e.event.projects = false

instance : Std.Refl Quiet := ⟨fun c => ⟨rfl, rfl, rfl, [], by simp, by simp⟩⟩

instance : IsTrans Connection Quiet where
  trans a b c h h' := by
    obtain ⟨more, he, hp⟩ := h.emitted
    obtain ⟨more', he', hp'⟩ := h'.emitted
    refine ⟨h'.snapshot.trans h.snapshot, h'.surface.trans h.surface, h'.images.trans h.images,
      more ++ more', by rw [he', he, List.append_assoc], ?_⟩
    intro e h
    rcases List.mem_append.mp h with h | h
    · exact hp e h
    · exact hp' e h

def Connection.tell (c : Connection) (events : List ClientEvent) : Connection :=
  { c with emitted := c.emitted ++ events.map (Emission.mk c.session.snapshot) }

lemma tell_nil (c : Connection) : c.tell [] = c := by
  rw [Connection.tell, List.map_nil, List.append_nil]

lemma tell_append (c : Connection) (a b : List ClientEvent) :
    (c.tell a).tell b = c.tell (a ++ b) := by
  simp only [Connection.tell, List.map_append, List.append_assoc]

variable (parse : Parsers) (sink : List Emission → ClientEvent → Option Error)

def Emits (c : Connection) (events : List ClientEvent) (r : Except Error Unit)
    (c' : Connection) : Prop :=
  ∃ sent rest, events = sent ++ rest ∧ c' = c.tell sent ∧
    (rest = [] ∧ r = .ok () ∨ rest ≠ [] ∧ ∃ log event e, sink log event = some e ∧ r = .error e)

lemma emits_nil (c : Connection) : Emits sink c [] (.ok ()) c :=
  ⟨[], [], rfl, (tell_nil c).symm, Or.inl ⟨rfl, rfl⟩⟩

variable {sink} in
lemma Emits.ok {c c' : Connection} {events : List ClientEvent} {u : Unit}
    (h : Emits sink c events (.ok u) c') : c' = c.tell events := by
  obtain ⟨sent, rest, rfl, rfl, ⟨rfl, -⟩ | ⟨-, _, _, e, -, he⟩⟩ := h
  · rw [List.append_nil]
  · exact absurd he (by simp)

variable {sink} in
lemma Emits.concat {c c' : Connection} {front : List ClientEvent} {event : ClientEvent}
    {r : Except Error Unit} (h : Emits sink c (front ++ [event]) r c') :
    r = .ok () ∧ c' = (c.tell front).tell [event] ∨
      r.isOk = false ∧ ∃ sent, sent <+: front ∧ c' = c.tell sent := by
  obtain ⟨sent, rest, he, rfl, ⟨rfl, rfl⟩ | ⟨hrest, _, _, e, -, rfl⟩⟩ := h
  · rw [List.append_nil] at he
    exact Or.inl ⟨rfl, by rw [tell_append, he]⟩
  · refine Or.inr ⟨rfl, sent, ?_, rfl⟩
    rcases List.prefix_concat_iff.mp ⟨rest, he.symm⟩ with hall | hpre
    · rw [hall] at he
      exact absurd (List.self_eq_append_right.mp he) hrest
    · exact hpre

lemma emit_emits (event : ClientEvent) (c : Connection) :
    wp (emit sink event) (Emits sink c [event]) c := by
  rw [emit, wp_bind, wp_get, andThen_ok]
  cases hs : sink c.emitted event with
  | some e => exact ⟨[], [event], rfl, (tell_nil c).symm, Or.inr ⟨by simp, _, _, e, hs, rfl⟩⟩
  | none => exact ⟨[event], [], rfl, rfl, Or.inl ⟨rfl, rfl⟩⟩

lemma emits_bind {m : Handling Unit} {m' : Unit → Handling Unit} {a b : List ClientEvent}
    {c : Connection} (hm : wp m (Emits sink c a) c)
    (hm' : ∀ c, wp (m' ()) (Emits sink c b) c) : wp (m >>= m') (Emits sink c (a ++ b)) c := by
  refine wp_bind.mpr (wp_mono hm ?_)
  rintro r c₁ ⟨sent, rest, ha, rfl, hr⟩
  rcases hr with ⟨rfl, rfl⟩ | ⟨hrest, log, event, e, hs, rfl⟩
  · rw [andThen_ok]
    refine wp_mono (hm' _) ?_
    rintro r c₂ ⟨sent', rest', hb, rfl, hr⟩
    rw [List.append_nil] at ha
    exact ⟨a ++ sent', rest', by rw [hb, List.append_assoc], by rw [tell_append, ha], hr⟩
  · exact ⟨sent, rest ++ b, by rw [ha, List.append_assoc], rfl,
      Or.inr ⟨by simp [hrest], log, event, e, hs, rfl⟩⟩

lemma when_emits (flag : Bool) (event : ClientEvent) (c : Connection) :
    wp (when flag (emit sink event)) (Emits sink c (if flag then [event] else [])) c := by
  cases flag with
  | true => exact emit_emits sink event c
  | false => exact emits_nil sink c

lemma emit_quiet {event : ClientEvent} (h : event.projects = false) :
    Keeps Quiet (emit sink event) := by
  intro c
  refine wp_mono (emit_emits sink event c) ?_
  rintro r c' ⟨sent, rest, he, rfl, -⟩
  refine ⟨rfl, rfl, rfl, _, rfl, ?_⟩
  intro e hmem
  obtain ⟨ev, hev, rfl⟩ := List.mem_map.mp hmem
  have : ev ∈ [event] := he ▸ List.mem_append_left _ hev
  rw [List.mem_singleton.mp this]
  exact h

lemma update_quiet {f : Session → Session}
    (h : ∀ s, (f s).snapshot = s.snapshot ∧ (f s).surface = s.surface ∧ (f s).images = s.images) :
    Keeps Quiet (update f) := by
  intro c
  obtain ⟨hs, hu, hi⟩ := h c.session
  exact ⟨hs, hu, hi, [], (List.append_nil _).symm, by simp⟩

lemma acceptWelcome_quiet (now : ℕ) (w : EndpointServerWelcome) :
    Keeps Quiet (acceptWelcome sink now w) := by
  refine .bind (.refuse _ _) fun _ => ?_
  cases w.error with
  | some error => exact .throw _
  | none =>
    refine .bind (.refuse _ _) fun _ => .bind .get fun c => .bind (.refuse _ _) fun _ =>
      .bind (.refuse _ _) fun _ => .bind (update_quiet ?_) fun _ =>
      .bind (emit_quiet sink rfl) fun _ => update_quiet ?_
    · exact fun s => ⟨rfl, rfl, rfl⟩
    · exact fun s => ⟨rfl, rfl, rfl⟩

lemma handshake_quiet (now : ℕ) (message : ServerMessage) :
    Keeps Quiet (handshake parse sink now message) := by
  cases message with
  | endpointControl kind data =>
    exact .bind (.refuse _ _) fun _ => .bind (.require _ _) fun w => acceptWelcome_quiet sink now w
  | _ => exact .throw _

lemma deliverResponse_quiet (requestId : String) (response : Value) :
    Keeps Quiet (deliverResponse sink requestId response) := by
  refine .bind (emit_quiet sink rfl) fun _ => .bind .get fun c => .when _ ?_
  cases c.session.barrier with
  | none => exact .pure ()
  | some b =>
    dsimp only
    cases b.held with
    | none => exact .pure ()
    | some held =>
      exact .bind (update_quiet fun s => ⟨rfl, rfl, rfl⟩) fun _ => emit_quiet sink rfl

lemma readResponse_quiet (requestId : String) (bytes : List UInt8) :
    Keeps Quiet (readResponse parse requestId bytes) :=
  .bind (.require _ _) fun _ => .bind (.refuse _ _) fun _ => .pure _

lemma settleBarrier_quiet (b : Barrier) (bytes : List UInt8) (response : Value) :
    Keeps Quiet (settleBarrier b bytes response) := by
  refine .ite (.bind (update_quiet ?_) fun _ => .pure _)
    (.bind .get fun c => .ite (.bind (update_quiet ?_) fun _ => .pure _)
      (.bind (update_quiet ?_) fun _ => .pure _))
  all_goals exact fun s => ⟨rfl, rfl, rfl⟩

lemma receiveChunk_quiet (bootId requestId : String) (finalChunk : Bool) (data : List UInt8) :
    Keeps Quiet (receiveChunk parse sink bootId requestId finalChunk data) := by
  refine .bind .get fun c => .bind (.refuse _ _) fun _ => .bind (.refuse _ _) fun _ => ?_
  cases c.session.barrier.filter fun b => b.awaits requestId with
  | some b =>
    refine .bind (update_quiet fun s => ⟨rfl, rfl, rfl⟩) fun _ => .when _
      (.bind (update_quiet fun s => ⟨rfl, rfl, rfl⟩) fun _ => .bind (readResponse_quiet _ _ _)
        fun response => .bind (settleBarrier_quiet _ _ _) fun ready => .when _ ?_)
    exact deliverResponse_quiet sink _ _
  | none =>
    dsimp only
    cases c.session.pending.filter fun p => decide (p.id = requestId) with
    | none => exact .throw _
    | some p =>
      exact .bind (update_quiet fun s => ⟨rfl, rfl, rfl⟩) fun _ => .when _
        (.bind (update_quiet fun s => ⟨rfl, rfl, rfl⟩) fun _ => .bind (readResponse_quiet _ _ _)
          fun response => deliverResponse_quiet sink _ _)

namespace Connection

def withSnapshot (c : Connection) (snapshot : ClientShellSnapshot) : Connection :=
  { c with session := { c.session with snapshot := some snapshot } }

def withSurface (c : Connection) (surface : PaneSurfaceFrame) : Connection :=
  { c with session := { c.session with surface := some surface } }

def withImages (c : Connection) (images : ImageStore) : Connection :=
  { c with session := { c.session with images } }

end Connection

def imagesEvents (changed : Bool × ImageStore) : List ClientEvent :=
  if changed.1 then [.surfaceImages changed.2.images] else []

def Shows (c : Connection) (current : PaneSurfaceFrame) (r : Except Error Unit)
    (c' : Connection) : Prop :=
  Emits sink (c.withImages c.session.images.showLatest.2)
    (imagesEvents c.session.images.showLatest ++ [.surface current]) r c'

structure SnapshotFits (c : Connection) (next : ClientShellSnapshot) : Prop where
  bootId : next.bootId ≠ ""
  follows : ∀ s, c.session.snapshot = some s → s.bootId = next.bootId ∧ s.revision ≤ next.revision

structure SurfaceFits (c : Connection) (snapshot : ClientShellSnapshot)
    (surface : PaneSurfaceFrame) : Prop where
  held : c.session.snapshot = some snapshot
  bootId : surface.bootId = snapshot.bootId
  newer : ∀ old, c.session.surface = some old → old.surfaceRevision < surface.surfaceRevision
  frame : surface.frame.Valid
  popup : ∀ popup, surface.popup = some popup → popup.frame.Valid

inductive Handled (c : Connection) : Except Error Unit → Connection → Prop
  | quiet {r : Except Error Unit} {c' : Connection} (h : Quiet c c') : Handled c r c'
  | snapshot {next : ClientShellSnapshot} {r : Except Error Unit} {c' : Connection}
      (fits : SnapshotFits c next) (h : Emits sink (c.withSnapshot next) [.snapshot next] r c') :
      Handled c r c'
  | caughtUp {next : ClientShellSnapshot} {current : PaneSurfaceFrame} {r : Except Error Unit}
      {c' : Connection} (fits : SnapshotFits c next) (held : c.session.surface = some current)
      (projection : current.projectionRevision = next.revision)
      (changed : ∀ s, c.session.snapshot = some s → s.revision ≠ next.revision)
      (h : Shows sink ((c.withSnapshot next).tell [.snapshot next]) current r c') : Handled c r c'
  | surface {snapshot : ClientShellSnapshot} {surface : PaneSurfaceFrame} {r : Except Error Unit}
      {c₁ : Connection} (fits : SurfaceFits c snapshot surface) (shown : Bool)
      (projection : shown = decide (surface.projectionRevision = snapshot.revision))
      (h : Emits sink (c.withImages (acceptImages c.session.images surface shown).2)
        (imagesEvents (acceptImages c.session.images surface shown) ++
          (if shown then [.surface (ImageStore.stripped surface)] else [])) r c₁) :
      Handled c r (if r.isOk then c₁.withSurface (ImageStore.stripped surface) else c₁)
  | patched {current next : PaneSurfaceFrame} {patch : PaneSurfacePatch}
      (held : c.session.surface = some current) (fits : PatchFits current patch)
      (h : Patched current next patch)
      (behind : ∀ s, c.session.snapshot = some s → s.revision ≠ next.projectionRevision) :
      Handled c (.ok ()) (c.withSurface next)
  | patchedShown {snapshot : ClientShellSnapshot} {current next : PaneSurfaceFrame}
      {patch : PaneSurfacePatch} {r : Except Error Unit} {c' : Connection}
      (held : c.session.surface = some current) (fits : PatchFits current patch)
      (h : Patched current next patch) (snap : c.session.snapshot = some snapshot)
      (projection : snapshot.revision = next.projectionRevision)
      (shows : Shows sink (c.withSurface next) next r c') : Handled c r c'

lemma emitShown_shows (current : PaneSurfaceFrame) (c : Connection) :
    wp (emitShown sink current) (Shows sink c current) c := by
  rw [emitShown, wp_bind, wp_get, andThen_ok, wp_bind]
  exact emits_bind sink (when_emits sink _ _ _) fun c => emit_emits sink _ c

section Refusals

variable {sink} {α δ : Type} {c : Connection}

lemma handled_error (e : Error) : Handled sink c (.error e) c := .quiet (Std.Refl.refl c)

lemma handled_get {f : Connection → Handling Unit} (h : wp (f c) (Handled sink c) c) :
    wp (get >>= f) (Handled sink c) c := wp_bind.mpr h

lemma handled_refuse {p : Prop} [Decidable p] {e : Error} {f : Unit → Handling Unit}
    (h : ¬p → wp (f ()) (Handled sink c) c) : wp (refuse p e >>= f) (Handled sink c) c :=
  wp_bind.mpr (wp_refuse.mpr ⟨fun _ => handled_error e, h⟩)

lemma handled_require {o : Option α} {e : Error} {f : α → Handling Unit}
    (h : ∀ a, o = some a → wp (f a) (Handled sink c) c) :
    wp (require o e >>= f) (Handled sink c) c :=
  wp_bind.mpr (wp_require.mpr ⟨fun _ => handled_error e, h⟩)

lemma handled_lift {g : δ → Error} {r : Except δ α} {f : α → Handling Unit}
    (h : ∀ a, r = .ok a → wp (f a) (Handled sink c) c) :
    wp (lift g r >>= f) (Handled sink c) c :=
  wp_bind.mpr (wp_lift.mpr ⟨fun _ _ => handled_error _, h⟩)

end Refusals

lemma acceptSnapshot_handled (next : ClientShellSnapshot) (c : Connection) :
    wp (acceptSnapshot sink next) (Handled sink c) c := by
  apply handled_get
  apply handled_refuse
  intro hfits
  have fits : SnapshotFits c next := by
    rw [not_or] at hfits
    refine ⟨hfits.1, ?_⟩
    intro s hs
    simpa [hs] using hfits.2
  rw [wp_bind]
  change wp (emit sink (.snapshot next) >>= _) _ (c.withSnapshot next)
  refine wp_bind.mpr (wp_mono (emit_emits sink _ _) ?_)
  intro r c₁ hsent
  cases r with
  | error e => exact .snapshot fits hsent
  | ok u =>
    have hc₁ := hsent.ok
    rw [andThen_ok, wp_when]
    constructor
    · intro hchanged
      split
      · rename_i current hcur
        obtain ⟨hheld, hproj⟩ := Option.filter_eq_some_iff.mp hcur
        refine wp_mono (emitShown_shows sink current c₁) ?_
        intro r c' hshows
        refine .caughtUp fits hheld (by simpa using hproj) ?_ (hc₁ ▸ hshows)
        intro s hs
        simpa [hs] using hchanged
      · exact .snapshot fits hsent
    · intro _
      exact .snapshot fits hsent

lemma acceptSurface_handled (surface : PaneSurfaceFrame) (c : Connection) :
    wp (acceptSurface sink surface) (Handled sink c) c := by
  apply handled_get
  apply handled_require
  intro snapshot hheld
  apply handled_refuse
  intro hid
  simp only [surfaceOutdated, Bool.or_eq_true, not_or, decide_eq_true_eq, not_not] at hid
  apply handled_lift
  intro _ hframe
  apply handled_lift
  intro _ hpopup
  have fits : SurfaceFits c snapshot surface := by
    refine ⟨hheld, hid.1, ?_, surface.frame.validate_ok_iff.mp hframe, ?_⟩
    · intro old hold
      have hnot := hid.2
      rw [hold] at hnot
      simpa using hnot
    · intro popup hp
      rw [hp] at hpopup
      exact popup.frame.validate_ok_iff.mp hpopup
  rw [wp_bind]
  set shown := decide (surface.projectionRevision = snapshot.revision) with hshown
  change wp (_ >>= fun _ => _ >>= fun _ => _) _
    (c.withImages (acceptImages c.session.images surface shown).2)
  rw [← bind_assoc]
  refine wp_bind.mpr (wp_mono (emits_bind sink (when_emits sink _ _ _)
    fun c => when_emits sink _ _ c) ?_)
  intro r c₁ hsent
  cases r with
  | error e => exact .surface fits shown hshown hsent
  | ok u => exact .surface fits shown hshown hsent

lemma patchSurface_handled {apply : PaneSurfaceFrame → Option (Except Protocol.Error Unit ×
      PaneSurfaceFrame)} (patch : PaneSurfacePatch)
    (happly : ∀ s, (∃ e, apply s = some (.error e, s)) ∨
      ∃ s', PatchFits s patch ∧ apply s = some (.ok (), s') ∧ Patched s s' patch)
    (c : Connection) : wp (patchSurface sink apply) (Handled sink c) c := by
  apply handled_get
  apply handled_require
  intro current hheld
  apply handled_require
  rintro ⟨result, next⟩ hresult
  rw [wp_bind]
  change wp (_ >>= _) _ (c.withSurface next)
  rcases happly current with ⟨e, he⟩ | ⟨s', hfits, hs', hpatched⟩
  · rw [he] at hresult
    cases hresult
    have hc : c.withSurface current = c := by
      simp only [Connection.withSurface, ← hheld]
    rw [hc]
    exact handled_error _
  · rw [hs'] at hresult
    cases hresult
    change wp (emitPatched sink next) _ (c.withSurface next)
    rw [emitPatched, wp_bind, wp_get, andThen_ok, wp_when]
    constructor
    · intro hshown
      obtain ⟨snapshot, hsnap, hproj⟩ := Option.any_eq_true _ _ |>.mp hshown
      refine wp_mono (emitShown_shows sink next _) ?_
      intro r c' hshows
      exact .patchedShown hheld hfits hpatched hsnap (by simpa using hproj) hshows
    · intro hbehind
      refine .patched hheld hfits hpatched ?_
      intro s hs
      change ¬(Option.any _ c.session.snapshot = true) at hbehind
      simpa [hs] using hbehind

lemma acceptScroll_handled (data : String) (c : Connection) :
    wp (acceptScroll parse sink data) (Handled sink c) c := by
  apply handled_get
  apply handled_refuse
  intro _
  apply handled_lift
  intro scroll _
  exact patchSurface_handled sink scroll.patch (fun s => applyScrollPatch_spec s scroll) c

lemma acceptDelta_handled (data : String) (c : Connection) :
    wp (acceptDelta parse sink data) (Handled sink c) c := by
  apply handled_get
  apply handled_refuse
  intro _
  apply handled_lift
  intro delta _
  apply handled_require
  intro base _
  apply handled_require
  intro result _
  apply handled_lift
  intro next _
  exact acceptSurface_handled sink next c

lemma acceptReuse_handled (data : String) (c : Connection) :
    wp (acceptReuse parse sink data) (Handled sink c) c := by
  apply handled_get
  apply handled_refuse
  intro _
  apply handled_lift
  intro reuse _
  apply handled_require
  intro base _
  apply handled_lift
  intro next _
  exact acceptSurface_handled sink next c

lemma handleControl_handled (kind data : String) (c : Connection) :
    wp (handleControl parse sink kind data) (Handled sink c) c := by
  rw [handleControl]
  split_ifs
  · apply handled_require
    intro next _
    exact acceptSnapshot_handled sink next c
  · exact acceptScroll_handled parse sink data c
  · exact acceptDelta_handled parse sink data c
  · exact acceptReuse_handled parse sink data c
  · exact .quiet (Std.Refl.refl c)

lemma keeps_handled {m : Handling Unit} (h : Keeps Quiet m) (c : Connection) :
    wp m (Handled sink c) c := wp_mono (h c) fun _ _ hq => .quiet hq

lemma handleWelcomed_handled (message : ServerMessage) (c : Connection) :
    wp (handleWelcomed parse sink message) (Handled sink c) c := by
  cases message with
  | endpointControl kind data => exact handleControl_handled parse sink kind data c
  | paneSurface next => exact acceptSurface_handled sink next c
  | paneSurfacePatch patch =>
    refine patchSurface_handled sink patch (fun s => ?_) c
    rcases applyPatch_spec s patch with ⟨e, -, he⟩ | h
    · exact Or.inl ⟨e, he⟩
    · exact Or.inr h
  | clientShellEndpointResponseChunk bootId requestId finalChunk data =>
    exact keeps_handled sink (receiveChunk_quiet parse sink _ _ _ _) c
  | serverShutdown reason => exact handled_error _
  | _ => exact keeps_handled sink (emit_quiet sink rfl) c

lemma handleMessage_handled (now : ℕ) (message : ServerMessage) (c : Connection) :
    wp (handleMessage parse sink now message)
      (fun r c' => ∃ c₁, Quiet c c₁ ∧ Handled sink c₁ r c') c := by
  rw [handleMessage, wp_bind]
  refine wp_mono (update_quiet ?_ c) ?_
  · exact fun s => ⟨rfl, rfl, rfl⟩
  · intro r c₁ hq
    cases r with
    | error e => exact ⟨c₁, hq, handled_error e⟩
    | ok u =>
      rw [andThen_ok, wp_bind, wp_get, andThen_ok, wp_ite]
      constructor
      · intro _
        exact wp_mono (handshake_quiet parse sink now message c₁)
          fun _ _ h => ⟨c₁, hq, .quiet h⟩
      · intro _
        exact wp_mono (handleWelcomed_handled parse sink message c₁) fun _ _ h => ⟨c₁, hq, h⟩

lemma Emits.emitted_grows {c c' : Connection} {events : List ClientEvent}
    {r : Except Error Unit} (h : Emits sink c events r c') : c.emitted <+: c'.emitted := by
  obtain ⟨sent, rest, -, rfl, -⟩ := h
  exact List.prefix_append _ _

lemma Handled.emitted_grows {c c' : Connection} {r : Except Error Unit}
    (h : Handled sink c r c') : c.emitted <+: c'.emitted := by
  cases h with
  | quiet hq =>
    obtain ⟨more, he, -⟩ := hq.emitted
    exact ⟨more, he.symm⟩
  | snapshot fits hsent => exact hsent.emitted_grows
  | caughtUp fits held projection changed hshows =>
    exact (List.prefix_append _ _).trans (Emits.emitted_grows sink hshows)
  | surface fits shown projection hsent =>
    split
    · exact hsent.emitted_grows
    · exact hsent.emitted_grows
  | patched held fits hp behind => exact List.prefix_refl _
  | patchedShown held fits hp snap projection hshows =>
    have hgrows := Emits.emitted_grows sink hshows
    exact hgrows

def Settled (r : Except Error Unit) : Prop := r = .ok () ∨ ∀ log event, sink log event = none

variable {sink} in
lemma Emits.settled {c c' : Connection} {events : List ClientEvent} {r : Except Error Unit}
    (h : Emits sink c events r c') (hs : Settled sink r) : r = .ok () ∧ c' = c.tell events := by
  obtain ⟨sent, rest, rfl, rfl, ⟨rfl, hr⟩ | ⟨-, log, event, e, he, hr⟩⟩ := h
  · exact ⟨hr, by rw [List.append_nil]⟩
  · rcases hs with hok | hnone
    · exact absurd (hr.symm.trans hok) (by simp)
    · exact absurd (he.symm.trans (hnone log event)) (by simp)

lemma handleMessages_run {I : Connection → Prop} {P : Except Error Unit → Prop} (goesOn : P (.ok ()))
    (quiet : ∀ c c', I c → Quiet c c' → I c')
    (step : ∀ c r c', I c → Handled sink c r c' → P r → I c')
    (messages : List (ℕ × ServerMessage)) {c : Connection} (h : I c)
    (hs : P (handleMessages parse sink messages c).1) :
    I (handleMessages parse sink messages c).2 := by
  induction messages generalizing c with
  | nil => exact h
  | cons m messages ih =>
    obtain ⟨now, message⟩ := m
    obtain ⟨c₁, hq, hh⟩ := handleMessage_handled parse sink now message c
    rw [handleMessages] at hs ⊢
    have hnext := step c₁ _ _ (quiet c c₁ h hq) hh
    rcases hr : exec (handleMessage parse sink now message) c with ⟨r, c'⟩
    rw [hr] at hnext hs
    cases r with
    | error e => exact hnext hs
    | ok u => exact ih (hnext goesOn) hs

lemma handleMessages_invariant {I : Connection → Prop} (quiet : ∀ c c', I c → Quiet c c' → I c')
    (step : ∀ c r c', I c → Handled sink c r c' → I c') (messages : List (ℕ × ServerMessage))
    {c : Connection} (h : I c) : I (handleMessages parse sink messages c).2 :=
  handleMessages_run parse sink (P := fun _ => True) trivial quiet
    (fun c r c' hI hh _ => step c r c' hI hh) messages h trivial

end Sheprd.Client
