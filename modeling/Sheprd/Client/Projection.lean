import Sheprd.Client.Handled

namespace Sheprd.Client

open Sheprd.Lib Sheprd.Lib.Exec Sheprd.Protocol

def ClientEvent.asSurface : ClientEvent → Option PaneSurfaceFrame
  | .surface s => some s
  | _ => none

def surfaces (emitted : List Emission) : List PaneSurfaceFrame :=
  emitted.filterMap fun e => e.event.asSurface

lemma surfaces_append (a b : List Emission) : surfaces (a ++ b) = surfaces a ++ surfaces b :=
  List.filterMap_append

lemma surfaces_plain {emitted : List Emission} (h : ∀ e ∈ emitted, e.event.asSurface = none) :
    surfaces emitted = [] := List.filterMap_eq_nil_iff.mpr h

lemma surfaces_tell_plain (c : Connection) {events : List ClientEvent}
    (h : ∀ e ∈ events, e.asSurface = none) :
    surfaces (c.tell events).emitted = surfaces c.emitted := by
  have hplain : surfaces (events.map (Emission.mk c.session.snapshot)) = [] := by
    apply surfaces_plain
    intro e hmem
    obtain ⟨event, hev, rfl⟩ := List.mem_map.mp hmem
    exact h event hev
  rw [Connection.tell, surfaces_append, hplain, List.append_nil]

structure Projecting (c : Connection) : Prop where
  bootId : ∀ surface, c.session.surface = some surface →
    ∃ snapshot, c.session.snapshot = some snapshot ∧ snapshot.bootId = surface.bootId
  frame : ∀ surface, c.session.surface = some surface →
    surface.frame.Valid ∧ ∀ popup, surface.popup = some popup → popup.frame.Valid
  increasing : (surfaces c.emitted).Pairwise fun a b => a.surfaceRevision < b.surfaceRevision
  projected : ∀ e ∈ c.emitted, ∀ s, e.event.asSurface = some s →
    ∃ snapshot, e.held = some snapshot ∧ s.projectionRevision = snapshot.revision
  behind : ∀ s ∈ surfaces c.emitted, ∃ surface snapshot, c.session.surface = some surface ∧
    c.session.snapshot = some snapshot ∧ s.surfaceRevision ≤ surface.surfaceRevision ∧
    (s.surfaceRevision = surface.surfaceRevision →
      surface.projectionRevision ≤ snapshot.revision)

lemma projecting_new (started : ℕ) (surfaceActive remote : Bool) :
    Projecting ⟨.new started surfaceActive remote, []⟩ where
  bootId := fun _ h => absurd h (by simp [Session.new])
  frame := fun _ h => absurd h (by simp [Session.new])
  increasing := .nil
  projected := fun _ h => absurd h (by simp)
  behind := fun _ h => absurd h (by simp [surfaces])

namespace Projecting

lemma of_same {c c' : Connection} (h : Projecting c)
    (hs : c'.session.snapshot = c.session.snapshot) (hu : c'.session.surface = c.session.surface)
    {more : List Emission} (he : c'.emitted = c.emitted ++ more)
    (hp : ∀ e ∈ more, e.event.asSurface = none) : Projecting c' := by
  have hsur : surfaces c'.emitted = surfaces c.emitted := by
    rw [he, surfaces_append, surfaces_plain hp, List.append_nil]
  constructor
  · rw [hs, hu]
    exact h.bootId
  · rw [hu]
    exact h.frame
  · rw [hsur]
    exact h.increasing
  · intro e hmem s hsome
    rw [he] at hmem
    rcases List.mem_append.mp hmem with hmem | hmem
    · exact h.projected e hmem s hsome
    · exact absurd hsome (by simp [hp e hmem])
  · rw [hsur, hs, hu]
    exact h.behind

lemma quiet {c c' : Connection} (h : Projecting c) (hq : Quiet c c') : Projecting c' := by
  obtain ⟨more, he, hp⟩ := hq.emitted
  refine h.of_same hq.snapshot hq.surface he ?_
  intro e hmem
  have hnot := hp e hmem
  cases hev : e.event with
  | surface s => exact absurd hnot (by simp [hev, ClientEvent.projects])
  | _ => rfl

lemma withImages {c : Connection} (h : Projecting c) (images : ImageStore) :
    Projecting (c.withImages images) :=
  ⟨h.bootId, h.frame, h.increasing, h.projected, h.behind⟩

lemma tell_plain {c : Connection} (h : Projecting c) {events : List ClientEvent}
    (hp : ∀ e ∈ events, e.asSurface = none) : Projecting (c.tell events) := by
  refine h.of_same rfl rfl
    (rfl : (c.tell events).emitted = c.emitted ++ events.map (Emission.mk c.session.snapshot)) ?_
  intro e hmem
  obtain ⟨event, hev, rfl⟩ := List.mem_map.mp hmem
  exact hp event hev

lemma withSnapshot {c : Connection} (h : Projecting c) {next : ClientShellSnapshot}
    (fits : SnapshotFits c next) : Projecting (c.withSnapshot next) where
  bootId := by
    intro surface hs
    obtain ⟨snapshot, hsnap, hboot⟩ := h.bootId surface hs
    exact ⟨next, rfl, (fits.follows snapshot hsnap).1.symm.trans hboot⟩
  frame := h.frame
  increasing := h.increasing
  projected := h.projected
  behind := by
    intro s hs
    obtain ⟨surface, snapshot, hsurf, hsnap, hle, heq⟩ := h.behind s hs
    exact ⟨surface, next, hsurf, rfl, hle,
      fun he => UInt64.le_trans (heq he) (fits.follows snapshot hsnap).2⟩

lemma withSurface {c : Connection} (h : Projecting c) {snapshot : ClientShellSnapshot}
    {surface : PaneSurfaceFrame} (fits : SurfaceFits c snapshot surface) :
    Projecting (c.withSurface surface) where
  bootId := by
    rintro _ ⟨⟩
    exact ⟨snapshot, fits.held, fits.bootId.symm⟩
  frame := by
    rintro _ ⟨⟩
    exact ⟨fits.frame, fits.popup⟩
  increasing := h.increasing
  projected := h.projected
  behind := by
    intro s hs
    obtain ⟨old, _, hold, -, hle, -⟩ := h.behind s hs
    have hlt := fits.newer old hold
    refine ⟨surface, snapshot, rfl, fits.held, UInt64.le_of_lt (UInt64.lt_of_le_of_lt hle hlt), ?_⟩
    intro he
    exact absurd (he ▸ hle) (UInt64.not_le.mpr hlt)

lemma tell_surface {c : Connection} (h : Projecting c) {snapshot : ClientShellSnapshot}
    {current : PaneSurfaceFrame} (hheld : c.session.surface = some current)
    (hsnap : c.session.snapshot = some snapshot)
    (hproj : current.projectionRevision = snapshot.revision)
    (hnew : ∀ s ∈ surfaces c.emitted, s.surfaceRevision < current.surfaceRevision) :
    Projecting (c.tell [.surface current]) := by
  have hsur : surfaces (c.tell [.surface current]).emitted = surfaces c.emitted ++ [current] := by
    rw [Connection.tell, surfaces_append]
    rfl
  refine ⟨h.bootId, h.frame, ?_, ?_, ?_⟩
  · rw [hsur]
    refine List.pairwise_append.mpr ⟨h.increasing, List.pairwise_singleton _ _, ?_⟩
    intro a ha b hb
    rw [List.mem_singleton.mp hb]
    exact hnew a ha
  · intro e hmem s hs
    rcases List.mem_append.mp hmem with hmem | hmem
    · exact h.projected e hmem s hs
    · obtain rfl := List.mem_singleton.mp hmem
      cases hs
      exact ⟨snapshot, hsnap, hproj⟩
  · intro s hs
    rw [hsur] at hs
    refine ⟨current, snapshot, hheld, hsnap, ?_, fun _ => hproj ▸ UInt64.le_refl _⟩
    rcases List.mem_append.mp hs with hs | hs
    · exact UInt64.le_of_lt (hnew s hs)
    · rw [List.mem_singleton.mp hs]
      exact UInt64.le_refl _

end Projecting

section Steps

variable {sink : List Emission → ClientEvent → Option Error}

lemma imagesEvents_plain (changed : Bool × ImageStore) :
    ∀ e ∈ imagesEvents changed, e.asSurface = none := by
  intro e he
  rw [imagesEvents] at he
  split at he
  · rw [List.mem_singleton.mp he]
    rfl
  · exact absurd he (by simp)

lemma Projecting.shows {c c' : Connection} {r : Except Error Unit} (h : Projecting c)
    {snapshot : ClientShellSnapshot} {current : PaneSurfaceFrame}
    (hheld : c.session.surface = some current) (hsnap : c.session.snapshot = some snapshot)
    (hproj : current.projectionRevision = snapshot.revision)
    (hnew : ∀ s ∈ surfaces c.emitted, s.surfaceRevision < current.surfaceRevision)
    (hs : Shows sink c current r c') : Projecting c' := by
  have himages := h.withImages c.session.images.showLatest.2
  rcases hs.concat with ⟨-, rfl⟩ | ⟨-, sent, hpre, rfl⟩
  · refine (himages.tell_plain (imagesEvents_plain _)).tell_surface hheld hsnap hproj ?_
    rw [surfaces_tell_plain _ (imagesEvents_plain _)]
    exact hnew
  · exact himages.tell_plain fun e he => imagesEvents_plain _ e (hpre.subset he)

lemma Projecting.newer {c : Connection} (h : Projecting c) {next : PaneSurfaceFrame}
    (hlt : ∀ old, c.session.surface = some old → old.surfaceRevision < next.surfaceRevision) :
    ∀ s ∈ surfaces c.emitted, s.surfaceRevision < next.surfaceRevision := by
  intro s hs
  obtain ⟨surface, -, hsurf, -, hle, -⟩ := h.behind s hs
  exact UInt64.lt_of_le_of_lt hle (hlt surface hsurf)

lemma patched_fits {c : Connection} (h : Projecting c) {current next : PaneSurfaceFrame}
    {patch : PaneSurfacePatch} (hheld : c.session.surface = some current)
    (fits : PatchFits current patch) (hp : Patched current next patch) :
    ∃ snapshot, SurfaceFits c snapshot next := by
  obtain ⟨snapshot, hsnap, hboot⟩ := h.bootId current hheld
  refine ⟨snapshot, hsnap, hp.bootId.trans hboot.symm, ?_, hp.valid, ?_⟩
  · intro old hold
    rw [hheld] at hold
    cases hold
    have hsucc := checkedSucc_eq_some fits.succ
    rw [UInt64.lt_iff_toNat_lt, hp.revision]
    omega
  · intro popup hpop
    rw [hp.popup, fits.popup] at hpop
    exact absurd hpop (by simp)

lemma SurfaceFits.stripped {c : Connection} {snapshot : ClientShellSnapshot}
    {surface : PaneSurfaceFrame} (h : SurfaceFits c snapshot surface) :
    SurfaceFits c snapshot (ImageStore.stripped surface) :=
  ⟨h.held, h.bootId, h.newer, h.frame, h.popup⟩

lemma Projecting.surface {c c₁ : Connection} (h : Projecting c) {snapshot : ClientShellSnapshot}
    {next : PaneSurfaceFrame} {r : Except Error Unit} (fits : SurfaceFits c snapshot next)
    (accepted : Bool × ImageStore) (shown : Bool)
    (hproj : shown = true → next.projectionRevision = snapshot.revision)
    (hsent : Emits sink (c.withImages accepted.2)
      (imagesEvents accepted ++ (if shown then [.surface next] else [])) r c₁) :
    Projecting (if r.isOk then c₁.withSurface next else c₁) := by
  have himages := h.withImages accepted.2
  have hretained := (h.withSurface fits).withImages accepted.2
  cases shown with
  | true =>
    rcases hsent.concat with ⟨rfl, rfl⟩ | ⟨hr, sent, hpre, rfl⟩
    · refine (hretained.tell_plain (imagesEvents_plain accepted)).tell_surface rfl fits.held
        (hproj rfl) ?_
      rw [surfaces_tell_plain _ (imagesEvents_plain _)]
      exact h.newer fits.newer
    · rw [hr]
      exact himages.tell_plain fun e he => imagesEvents_plain _ e (hpre.subset he)
  | false =>
    obtain ⟨sent, rest, he, rfl, hr⟩ := hsent
    have hplain : ∀ e ∈ sent, e.asSurface = none := by
      intro e hmem
      refine imagesEvents_plain accepted e ?_
      have : e ∈ imagesEvents accepted ++ [] := he ▸ List.mem_append_left rest hmem
      simpa using this
    split
    · exact hretained.tell_plain hplain
    · exact himages.tell_plain hplain

lemma Projecting.handled {c c' : Connection} {r : Except Error Unit} (h : Projecting c)
    (hh : Handled sink c r c') : Projecting c' := by
  cases hh with
  | quiet hq => exact h.quiet hq
  | snapshot fits hsent =>
    obtain ⟨sent, rest, he, rfl, -⟩ := hsent
    refine (h.withSnapshot fits).tell_plain ?_
    intro e hmem
    have hsub : e ∈ [_] := he ▸ List.mem_append_left rest hmem
    rw [List.mem_singleton.mp hsub]
    rfl
  | @caughtUp next current _ _ fits held projection changed hshows =>
    have hsnap : Projecting ((c.withSnapshot next).tell [.snapshot next]) :=
      (h.withSnapshot fits).tell_plain (by simp [ClientEvent.asSurface])
    refine hsnap.shows held rfl projection ?_ hshows
    rw [surfaces_tell_plain _ (by simp [ClientEvent.asSurface])]
    intro s hs
    obtain ⟨surface, snapshot, hsurf, hold, hle, heq⟩ := h.behind s hs
    obtain rfl := Option.some.inj (held.symm.trans hsurf)
    have hne := changed snapshot hold
    have hfollows := (fits.follows snapshot hold).2
    rcases UInt64.lt_or_eq_of_le hle with hlt | he
    · exact hlt
    · have hback := heq he
      rw [projection] at hback
      exact absurd (UInt64.le_antisymm hfollows hback) hne
  | surface fits shown projection hsent =>
    refine h.surface fits.stripped _ shown ?_ hsent
    intro hs
    rw [hs] at projection
    exact of_decide_eq_true projection.symm
  | patched held fits hp behind =>
    obtain ⟨snapshot, hfits⟩ := patched_fits h held fits hp
    exact h.withSurface hfits
  | patchedShown held fits hp snap projection hshows =>
    obtain ⟨snapshot, hfits⟩ := patched_fits h held fits hp
    exact (h.withSurface hfits).shows rfl snap projection.symm (h.newer hfits.newer) hshows

def Forward (c c' : Connection) : Prop :=
  ∀ s, c.session.snapshot = some s →
    ∃ s', c'.session.snapshot = some s' ∧ s'.bootId = s.bootId ∧ s.revision ≤ s'.revision

lemma Forward.of_eq {c c' : Connection} (h : c'.session.snapshot = c.session.snapshot) :
    Forward c c' := fun s hs => ⟨s, h.trans hs, rfl, UInt64.le_refl _⟩

lemma Forward.trans {a b c : Connection} (h : Forward a b) (h' : Forward b c) : Forward a c := by
  intro s hs
  obtain ⟨s₁, hs₁, hb, hr⟩ := h s hs
  obtain ⟨s₂, hs₂, hb', hr'⟩ := h' s₁ hs₁
  exact ⟨s₂, hs₂, hb'.trans hb, UInt64.le_trans hr hr'⟩

lemma Forward.snapshot {c c' : Connection} {next : ClientShellSnapshot} (fits : SnapshotFits c next)
    (h : c'.session.snapshot = some next) : Forward c c' := by
  intro s hs
  exact ⟨next, h, (fits.follows s hs).1.symm, (fits.follows s hs).2⟩

lemma emits_session {c c' : Connection} {events : List ClientEvent} {r : Except Error Unit}
    (h : Emits sink c events r c') : c'.session = c.session := by
  obtain ⟨sent, rest, -, rfl, -⟩ := h
  rfl

lemma Forward.handled {c c' : Connection} {r : Except Error Unit} (hh : Handled sink c r c') :
    Forward c c' := by
  cases hh with
  | quiet hq => exact .of_eq hq.snapshot
  | snapshot fits hsent => exact .snapshot fits (by rw [emits_session hsent]; rfl)
  | caughtUp fits held projection changed hshows =>
    exact .snapshot fits (by rw [emits_session hshows]; rfl)
  | surface fits shown projection hsent =>
    obtain ⟨sent, rest, -, rfl, -⟩ := hsent
    apply Forward.of_eq
    split
    · rfl
    · rfl
  | patched held fits hp behind => exact .of_eq rfl
  | patchedShown held fits hp snap projection hshows =>
    exact .of_eq (by rw [emits_session hshows]; rfl)

end Steps

theorem session_projection (parse : Parsers) (sink : List Emission → ClientEvent → Option Error)
    (started : ℕ) (surfaceActive remote : Bool) (messages later : List (ℕ × ServerMessage)) :
    let c := (handleMessages parse sink messages ⟨.new started surfaceActive remote, []⟩).2
    (∀ surface, c.session.surface = some surface →
      (∃ snapshot, c.session.snapshot = some snapshot ∧ snapshot.bootId = surface.bootId) ∧
      surface.frame.validate = .ok () ∧
      ∀ popup, surface.popup = some popup → popup.frame.validate = .ok ()) ∧
    (∀ snapshot, c.session.snapshot = some snapshot →
      ∃ next, (handleMessages parse sink later c).2.session.snapshot = some next ∧
        next.bootId = snapshot.bootId ∧ snapshot.revision ≤ next.revision) ∧
    (c.emitted.filterMap fun e => e.event.asSurface).Pairwise
      (fun a b => a.surfaceRevision < b.surfaceRevision) ∧
    ∀ e ∈ c.emitted, ∀ surface, e.event = .surface surface →
      ∃ snapshot, e.held = some snapshot ∧ surface.projectionRevision = snapshot.revision := by
  intro c
  have hc : Projecting c := handleMessages_invariant parse sink (fun _ _ h hq => h.quiet hq)
    (fun _ _ _ h hh => h.handled hh) messages (projecting_new started surfaceActive remote)
  refine ⟨?_, ?_, hc.increasing, ?_⟩
  · intro surface hs
    refine ⟨hc.bootId surface hs, surface.frame.validate_ok_iff.mpr (hc.frame surface hs).1, ?_⟩
    intro popup hp
    exact popup.frame.validate_ok_iff.mpr ((hc.frame surface hs).2 popup hp)
  · exact handleMessages_invariant parse sink (fun _ _ h hq => h.trans (.of_eq hq.snapshot))
      (fun _ _ _ h hh => h.trans (.handled hh)) later (Forward.of_eq (c := c) rfl)
  · intro e hmem surface he
    exact hc.projected e hmem surface (by rw [he]; rfl)

end Sheprd.Client
