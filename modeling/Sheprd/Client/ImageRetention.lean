import Sheprd.Client.Projection

namespace Sheprd.Client

open Sheprd.Lib Sheprd.Lib.Exec Sheprd.Protocol

def ClientEvent.asImages : ClientEvent → Option SurfaceImages
  | .surfaceImages images => some images
  | _ => none

def publishedImages (emitted : List Emission) : SurfaceImages :=
  (emitted.filterMap fun e => e.event.asImages).getLast?.getD ∅

def lastSurface (emitted : List Emission) : Option PaneSurfaceFrame := (surfaces emitted).getLast?

def references (surface : Option PaneSurfaceFrame) : Finset SurfaceGraphicsAssetKey :=
  surface.elim ∅ fun s => referenced s.graphics

structure Retaining (c : Connection) : Prop where
  sound : c.session.images.Sound
  latest : c.session.images.latest = references c.session.surface
  shown : c.session.images.shown = references (lastSurface c.emitted)
  published : publishedImages c.emitted = c.session.images.images

lemma retaining_new (started : ℕ) (surfaceActive remote : Bool) :
    Retaining ⟨.new started surfaceActive remote, []⟩ :=
  ⟨ImageStore.sound_empty, rfl, rfl, rfl⟩

lemma publishedImages_append (a b : List Emission) :
    publishedImages (a ++ b) =
      ((b.filterMap fun e => e.event.asImages).getLast?.getD (publishedImages a)) := by
  rw [publishedImages, List.filterMap_append, List.getLast?_append]
  cases (b.filterMap fun e => e.event.asImages).getLast? <;> rfl

lemma published_plain {a b : List Emission} (h : ∀ e ∈ b, e.event.asImages = none) :
    publishedImages (a ++ b) = publishedImages a := by
  rw [publishedImages_append, List.filterMap_eq_nil_iff.mpr h]
  rfl

lemma lastSurface_plain {a b : List Emission} (h : ∀ e ∈ b, e.event.asSurface = none) :
    lastSurface (a ++ b) = lastSurface a := by
  rw [lastSurface, surfaces_append, surfaces_plain h, List.append_nil, lastSurface]

lemma not_projects {event : ClientEvent} (h : event.projects = false) :
    event.asSurface = none ∧ event.asImages = none := by
  cases event with
  | surface s => exact absurd h (by simp [ClientEvent.projects])
  | surfaceImages i => exact absurd h (by simp [ClientEvent.projects])
  | _ => exact ⟨rfl, rfl⟩

namespace ImageStore

lemma showLatest_unchanged {store : ImageStore} (h : store.showLatest.1 = false) :
    store.showLatest.2.images = store.images := prune_unchanged h

end ImageStore

structure ImagesAccepted (store after : ImageStore) (changed emits : Bool)
    (next : PaneSurfaceFrame) : Prop where
  sound : after.Sound
  latest : after.latest = referenced next.graphics
  shown : after.shown = if emits then referenced next.graphics else store.shown
  unchanged : changed = false → after.images = store.images
  lookup : emits = false → ∀ key ∈ store.shown, ∀ image, store.images.lookup key = some image →
    after.images.lookup key = some image

lemma acceptImages_spec {store : ImageStore} (h : store.Sound) (surface : PaneSurfaceFrame)
    (emits : Bool) :
    ImagesAccepted store (acceptImages store surface emits).2 (acceptImages store surface emits).1
      emits (ImageStore.stripped surface) := by
  have hr := ImageStore.receive_spec h surface
  cases emits with
  | false => exact ⟨hr.sound, hr.latest, hr.shown, hr.unchanged, fun _ => hr.lookup⟩
  | true =>
    refine ⟨ImageStore.showLatest_sound hr.sound, hr.latest, hr.latest, ?_, by simp⟩
    intro hc
    obtain ⟨hc₁, hc₂⟩ := Bool.or_eq_false_iff.mp hc
    exact (ImageStore.showLatest_unchanged hc₂).trans (hr.unchanged hc₁)

lemma surfaces_sent (held : Option ClientShellSnapshot) (changed : Bool × ImageStore)
    (emits : Bool) (next : PaneSurfaceFrame) :
    surfaces ((imagesEvents changed ++ if emits then [ClientEvent.surface next] else []).map
      (Emission.mk held)) = if emits then [next] else [] := by
  rw [List.map_append, surfaces_append, surfaces_plain]
  · cases emits <;> rfl
  · intro e hmem
    obtain ⟨event, hev, rfl⟩ := List.mem_map.mp hmem
    exact imagesEvents_plain _ event hev

lemma published_sent (a : List Emission) (held : Option ClientShellSnapshot)
    (changed : Bool × ImageStore) (emits : Bool) (next : PaneSurfaceFrame) :
    publishedImages (a ++ (imagesEvents changed ++
      if emits then [ClientEvent.surface next] else []).map (Emission.mk held)) =
      if changed.1 then changed.2.images else publishedImages a := by
  rw [List.map_append, ← List.append_assoc, published_plain]
  · rw [publishedImages_append, imagesEvents]
    cases changed.1 <;> rfl
  · intro e hmem
    obtain ⟨event, hev, rfl⟩ := List.mem_map.mp hmem
    cases emits with
    | true =>
      obtain rfl := List.mem_singleton.mp hev
      rfl
    | false => exact absurd hev (by simp)

namespace Retaining

lemma of_same {c c' : Connection} (h : Retaining c) (hi : c'.session.images = c.session.images)
    (hu : references c'.session.surface = references c.session.surface) {more : List Emission}
    (he : c'.emitted = c.emitted ++ more)
    (hp : ∀ e ∈ more, e.event.asSurface = none ∧ e.event.asImages = none) : Retaining c' where
  sound := by
    rw [hi]
    exact h.sound
  latest := by
    rw [hi, hu]
    exact h.latest
  shown := by
    rw [hi, he, lastSurface_plain fun e hm => (hp e hm).1]
    exact h.shown
  published := by
    rw [hi, he, published_plain fun e hm => (hp e hm).2]
    exact h.published

lemma quiet {c c' : Connection} (h : Retaining c) (hq : Quiet c c') : Retaining c' := by
  obtain ⟨more, he, hp⟩ := hq.emitted
  exact h.of_same hq.images (by rw [hq.surface]) he fun e hm => not_projects (hp e hm)

lemma publish {c : Connection} (h : Retaining c) {changed : Bool × ImageStore} (emits : Bool)
    {next : PaneSurfaceFrame}
    (ha : ImagesAccepted c.session.images changed.2 changed.1 emits next) :
    Retaining (((c.withImages changed.2).tell
      (imagesEvents changed ++ if emits then [.surface next] else [])).withSurface next) where
  sound := ha.sound
  latest := ha.latest
  shown := by
    change changed.2.shown = references (lastSurface (c.emitted ++ _))
    rw [ha.shown, lastSurface, surfaces_append, surfaces_sent]
    cases emits with
    | true => simp [references]
    | false => simpa [lastSurface] using h.shown
  published := by
    change publishedImages (c.emitted ++ _) = changed.2.images
    rw [published_sent, h.published]
    cases hc : changed.1 with
    | true => rfl
    | false => exact (ha.unchanged hc).symm

lemma shows {c : Connection} (h : Retaining c) {current : PaneSurfaceFrame}
    (hheld : c.session.surface = some current) :
    Retaining ((c.withImages c.session.images.showLatest.2).tell
      (imagesEvents c.session.images.showLatest ++ [.surface current])) := by
  have hl : c.session.images.latest = referenced current.graphics := by
    rw [h.latest, hheld]
    rfl
  have hsame : (c.withImages c.session.images.showLatest.2).tell
      (imagesEvents c.session.images.showLatest ++ [.surface current]) =
      ((c.withImages c.session.images.showLatest.2).tell
        (imagesEvents c.session.images.showLatest ++ [.surface current])).withSurface current := by
    simp only [Connection.withSurface, Connection.tell, Connection.withImages, ← hheld]
  rw [hsame]
  exact h.publish true
    ⟨ImageStore.showLatest_sound h.sound, hl, hl, ImageStore.showLatest_unchanged, by simp⟩

end Retaining

section Steps

variable {sink : List Emission → ClientEvent → Option Error}

lemma Retaining.tell_snapshot {c : Connection} (h : Retaining c) (next : ClientShellSnapshot) :
    Retaining ((c.withSnapshot next).tell [.snapshot next]) := by
  refine h.of_same rfl rfl (rfl : ((c.withSnapshot next).tell [.snapshot next]).emitted =
    c.emitted ++ [Emission.mk (some next) (.snapshot next)]) ?_
  intro e he
  rw [List.mem_singleton.mp he]
  exact ⟨rfl, rfl⟩

lemma Retaining.patched {c : Connection} (h : Retaining c) {current next : PaneSurfaceFrame}
    (hheld : c.session.surface = some current) (hg : next.graphics = current.graphics) :
    Retaining (c.withSurface next) := by
  refine h.of_same rfl ?_ (List.append_nil _).symm (by simp)
  change referenced next.graphics = _
  rw [hheld, hg]
  rfl

lemma Retaining.handled {c c' : Connection} {r : Except Error Unit} (h : Retaining c)
    (hh : Handled sink c r c') (hs : Settled sink r) : Retaining c' := by
  cases hh with
  | quiet hq => exact h.quiet hq
  | snapshot fits hsent =>
    obtain ⟨-, rfl⟩ := hsent.settled hs
    exact h.tell_snapshot _
  | caughtUp fits held projection changed hshows =>
    obtain ⟨-, rfl⟩ := Emits.settled hshows hs
    exact (h.tell_snapshot _).shows held
  | surface fits shown projection hsent =>
    obtain ⟨rfl, rfl⟩ := hsent.settled hs
    exact h.publish shown (acceptImages_spec h.sound _ shown)
  | patched held fits hp behind => exact h.patched held hp.graphics
  | patchedShown held fits hp snap projection hshows =>
    obtain ⟨-, rfl⟩ := Emits.settled hshows hs
    exact (h.patched held hp.graphics).shows rfl

lemma sound_handled {c c' : Connection} {r : Except Error Unit} (h : c.session.images.Sound)
    (hh : Handled sink c r c') : c'.session.images.Sound := by
  cases hh with
  | quiet hq =>
    rw [hq.images]
    exact h
  | snapshot fits hsent =>
    rw [emits_session hsent]
    exact h
  | caughtUp fits held projection changed hshows =>
    rw [emits_session hshows]
    exact ImageStore.showLatest_sound h
  | @surface _ surface _ _ fits shown projection hsent =>
    obtain ⟨sent, rest, -, rfl, -⟩ := hsent
    have ha := (acceptImages_spec h surface shown).sound
    split
    · exact ha
    · exact ha
  | patched held fits hp behind => exact h
  | patchedShown held fits hp snap projection hshows =>
    rw [emits_session hshows]
    exact ImageStore.showLatest_sound h

structure KeptSince (c c' : Connection) : Prop where
  emitted : surfaces c.emitted <+: surfaces c'.emitted
  kept : surfaces c'.emitted = surfaces c.emitted →
    c'.session.images.shown = c.session.images.shown ∧
    ∀ key ∈ c.session.images.shown, ∀ image, c.session.images.images.lookup key = some image →
      c'.session.images.images.lookup key = some image

lemma KeptSince.of_images {c c' : Connection} (hi : c'.session.images = c.session.images)
    (he : surfaces c'.emitted = surfaces c.emitted) : KeptSince c c' := by
  refine ⟨he ▸ List.prefix_refl _, fun _ => ?_⟩
  rw [hi]
  exact ⟨rfl, fun _ _ _ h => h⟩

lemma KeptSince.of_emitted {c c' : Connection} {s : PaneSurfaceFrame}
    (he : surfaces c'.emitted = surfaces c.emitted ++ [s]) : KeptSince c c' := by
  refine ⟨he ▸ List.prefix_append _ _, fun hsame => ?_⟩
  rw [he] at hsame
  exact absurd hsame (by simp)

lemma KeptSince.trans {a b c : Connection} (h : KeptSince a b) (h' : KeptSince b c) :
    KeptSince a c := by
  refine ⟨h.emitted.trans h'.emitted, ?_⟩
  intro hsame
  have hba : surfaces b.emitted = surfaces a.emitted := by
    have hle := h'.emitted.length_le
    rw [hsame] at hle
    exact (h.emitted.eq_of_length_le hle).symm
  obtain ⟨hs, hk⟩ := h.kept hba
  obtain ⟨hs', hk'⟩ := h'.kept (hsame.trans hba.symm)
  refine ⟨hs'.trans hs, ?_⟩
  intro key hkey image hi
  exact hk' key (hs ▸ hkey) image (hk key hkey image hi)

lemma keptSince_quiet {c c' : Connection} (hq : Quiet c c') : KeptSince c c' := by
  obtain ⟨more, he, hp⟩ := hq.emitted
  refine .of_images hq.images ?_
  rw [he, surfaces_append, surfaces_plain fun e hm => (not_projects (hp e hm)).1, List.append_nil]

lemma surfaces_shows (c : Connection) (changed : Bool × ImageStore) (current : PaneSurfaceFrame) :
    surfaces (c.tell (imagesEvents changed ++ [.surface current])).emitted =
      surfaces c.emitted ++ [current] := by
  rw [Connection.tell, surfaces_append]
  exact congrArg _ (surfaces_sent _ changed true current)

lemma keptSince_handled {c c' : Connection} {r : Except Error Unit}
    (h : c.session.images.Sound) (hh : Handled sink c r c') (hs : Settled sink r) :
    KeptSince c c' := by
  cases hh with
  | quiet hq => exact keptSince_quiet hq
  | snapshot fits hsent =>
    obtain ⟨-, rfl⟩ := hsent.settled hs
    exact .of_images rfl (surfaces_tell_plain _ (by simp [ClientEvent.asSurface]))
  | @caughtUp next current _ _ fits held projection changed hshows =>
    obtain ⟨-, rfl⟩ := Emits.settled hshows hs
    refine .of_emitted (s := current) ?_
    rw [surfaces_shows]
    exact congrArg (· ++ _) (surfaces_tell_plain _ (by simp [ClientEvent.asSurface]))
  | @surface _ surface _ _ fits shown projection hsent =>
    obtain ⟨rfl, rfl⟩ := hsent.settled hs
    have ha := acceptImages_spec h surface shown
    have hsur : surfaces (c.emitted ++ List.map (Emission.mk c.session.snapshot)
        (imagesEvents (acceptImages c.session.images surface shown) ++
          if shown then [ClientEvent.surface (ImageStore.stripped surface)] else [])) =
        surfaces c.emitted ++ if shown then [ImageStore.stripped surface] else [] := by
      rw [surfaces_append, surfaces_sent]
    cases shown with
    | true => exact .of_emitted hsur
    | false =>
      have hsame := hsur.trans (List.append_nil _)
      refine ⟨?_, fun _ => ⟨ha.shown, ha.lookup rfl⟩⟩
      exact ⟨[], (List.append_nil _).trans hsame.symm⟩
  | patched held fits hp behind => exact .of_images rfl rfl
  | patchedShown held fits hp snap projection hshows =>
    obtain ⟨-, rfl⟩ := Emits.settled hshows hs
    exact .of_emitted (surfaces_shows _ _ _)

end Steps

lemma sound_frees {store : ImageStore} (h : store.Sound)
    (latest shown : Finset SurfaceGraphicsAssetKey) :
    ImageStore.freed { store with latest, shown } ≤ store.bytes :=
  @ImageStore.freed_le { store with latest, shown } h.bytes_eq

theorem image_store_retention (parse : Parsers)
    (sink : List Emission → ClientEvent → Option Error) (started : ℕ)
    (surfaceActive remote : Bool) (messages later : List (ℕ × ServerMessage)) :
    let run := handleMessages parse sink messages ⟨.new started surfaceActive remote, []⟩
    let store := run.2.session.images
    let next := handleMessages parse sink later run.2
    store.bytes = (store.images.entries.map fun e => e.2.data.length).sum ∧
    (∀ latest shown, ImageStore.freed { store with latest, shown } ≤ store.bytes) ∧
    (∀ surface latest shown, ImageStore.freed { (store.receive surface).2.1 with latest, shown } ≤
      (store.receive surface).2.1.bytes) ∧
    store.images.entries.length ≤ maxImages ∧
    store.bytes ≤ maxImageBytes ∧
    (∀ key ∈ store.images, key ∈ store.latest ∨ key ∈ store.shown) ∧
    (Settled sink run.1 →
      (∀ key ∈ store.images, key ∈ references run.2.session.surface ∨
        key ∈ references (lastSurface run.2.emitted)) ∧
      publishedImages run.2.emitted = store.images ∧
      (Settled sink next.1 → surfaces next.2.emitted = surfaces run.2.emitted →
        ∀ key ∈ references (lastSurface run.2.emitted), ∀ image,
          store.images.lookup key = some image →
          next.2.session.images.images.lookup key = some image)) := by
  intro run store next
  have hsound : store.Sound := handleMessages_invariant parse sink
    (I := fun c => c.session.images.Sound) (fun _ _ h hq => hq.images ▸ h)
    (fun _ _ _ h hh => sound_handled h hh) messages ImageStore.sound_empty
  refine ⟨hsound.bytes_eq, sound_frees hsound, ?_, hsound.count_le, hsound.bytes_le, hsound.kept, ?_⟩
  · intro surface
    exact sound_frees (ImageStore.receive_spec hsound surface).sound
  · intro hs
    have hr : Retaining run.2 := handleMessages_run parse sink (Or.inl rfl) (fun _ _ h hq => h.quiet hq)
      (fun _ _ _ h hh hs => h.handled hh hs) messages
      (retaining_new started surfaceActive remote) hs
    refine ⟨?_, hr.published, ?_⟩
    · intro key hk
      rw [← hr.latest, ← hr.shown]
      exact hsound.kept key hk
    · intro hs' hsame key hk image hi
      have hkept : run.2.session.images.Sound ∧ KeptSince run.2 run.2 :=
        ⟨hsound, .of_images rfl rfl⟩
      have hlast := handleMessages_run parse sink (P := Settled sink) (Or.inl rfl)
        (I := fun c => c.session.images.Sound ∧ KeptSince run.2 c)
        (fun _ _ h hq => ⟨hq.images ▸ h.1, h.2.trans (keptSince_quiet hq)⟩)
        (fun _ _ _ h hh hs => ⟨sound_handled h.1 hh, h.2.trans (keptSince_handled h.1 hh hs)⟩)
        later hkept hs'
      rw [← hr.shown] at hk
      exact (hlast.2.kept hsame).2 key hk image hi

end Sheprd.Client
