import Sheprd.Acp.Desk
import Sheprd.Acp.Emission

namespace Sheprd.Acp

open Sheprd.Lib Sheprd.Lib.Exec Sheprd.Chat

lemma map_eraseIdx_findIdx? {α κ : Type} [DecidableEq κ] (key : α → κ) (k : κ) {l : List α} {i : ℕ}
    (h : l.findIdx? (fun a => decide (key a = k)) = some i) :
    (l.eraseIdx i).map key = (l.map key).erase k := by
  induction l generalizing i with
  | nil => simp at h
  | cons a l ih =>
    by_cases ha : key a = k
    · obtain rfl : 0 = i := by simpa [List.findIdx?_cons, ha] using h
      simp [ha]
    · rw [List.findIdx?_cons, decide_eq_false ha, if_neg Bool.false_ne_true] at h
      obtain ⟨j, hj, rfl⟩ := Option.map_eq_some_iff.mp h
      rw [List.eraseIdx_cons_succ, List.map_cons, List.map_cons, ih hj,
        List.erase_cons_tail (by simpa using ha)]

namespace Session

def Counted (s : Session) : Prop := s.transcript.clients = s.remoteClients

def Tallies (s s' : Session) : Prop :=
  s'.Counted ∨ (s'.remoteClients = s.remoteClients ∧ s'.transcript.clients = s.transcript.clients)

structure Rests (s s' : Session) : Prop where
  desk : s'.desk = s.desk
  tally : s.Tallies s'

structure Tells (change : Change) (s s' : Session) : Prop where
  desk : s'.desk = s.desk.shows change
  tally : (∀ count, change ≠ .clients count) → s.Tallies s'
  counted : change = .clients s.remoteClients → s'.Counted

variable {s s' s'' : Session}

lemma Tallies.refl (s : Session) : s.Tallies s := Or.inr ⟨rfl, rfl⟩

lemma Tallies.trans (h : s.Tallies s') (h' : s'.Tallies s'') : s.Tallies s'' := by
  rcases h' with h' | ⟨hr', hc'⟩
  · exact Or.inl h'
  rcases h with h | ⟨hr, hc⟩
  · exact Or.inl (by rw [Counted, hc', hr', h])
  · exact Or.inr ⟨hr'.trans hr, hc'.trans hc⟩

lemma Tallies.counted (h : s.Tallies s') (hs : s.Counted) : s'.Counted := by
  rcases h with h | ⟨hr, hc⟩
  · exact h
  · rw [Counted, hr, hc, hs]

lemma Rests.refl (s : Session) : s.Rests s := ⟨rfl, .refl s⟩

lemma Rests.trans (h : s.Rests s') (h' : s'.Rests s'') : s.Rests s'' :=
  ⟨h'.desk.trans h.desk, h.tally.trans h'.tally⟩

lemma Rests.of_eq (hd : s'.desk = s.desk) (hs : s'.subscribers = s.subscribers)
    (ht : s'.transcript = s.transcript) : s.Rests s' :=
  ⟨hd, Or.inr ⟨remoteClients_eq hs, by rw [ht]⟩⟩

lemma Rests.after (h : s'.Rests s'') (hd : s'.desk = s.desk) (hs : s'.subscribers = s.subscribers)
    (ht : s'.transcript = s.transcript) : s.Rests s'' := .trans (.of_eq hd hs ht) h

lemma Tells.before {change : Change} (h : s.Tells change s') (h' : s'.Rests s'') :
    s.Tells change s'' where
  desk := h'.desk.trans h.desk
  tally other := (h.tally other).trans h'.tally
  counted hc := h'.tally.counted (h.counted hc)

lemma Tells.rests {change : Change} (h : s.Tells change s') (neutral : s.desk.shows change = s.desk)
    (other : ∀ count, change ≠ .clients count) : s.Rests s' :=
  ⟨h.desk.trans neutral, h.tally other⟩

end Session

open Session

structure Aside (t t' : Transcript) : Prop where
  clients : t'.clients = t.clients
  permissions : t'.permissions = t.permissions
  queued : t'.queued = t.queued
  status : t'.status = t.status
  turn : t'.turn = t.turn

instance : Std.Refl Aside := ⟨fun _ => ⟨rfl, rfl, rfl, rfl, rfl⟩⟩
instance : IsTrans Transcript Aside := ⟨fun _ _ _ h h' =>
  ⟨h'.clients.trans h.clients, h'.permissions.trans h.permissions, h'.queued.trans h.queued,
    h'.status.trans h.status, h'.turn.trans h.turn⟩⟩

namespace Aside

open Transcript

lemma pushEntry (entry : Entry) : Keeps Aside (pushEntry entry) := by
  refine Keeps.bind Keeps.get ?_
  intro t
  split
  · exact Keeps.throw _
  · exact Keeps.modify fun _ => ⟨rfl, rfl, rfl, rfl, rfl⟩

lemma appendText (id : EntryId) (text : String) : Keeps Aside (appendText id text) := by
  refine Keeps.bind Keeps.get fun t => Keeps.bind (Keeps.require _ _) fun i => ?_
  exact Keeps.bind (Keeps.require _ _) fun kind => Keeps.modify fun _ => ⟨rfl, rfl, rfl, rfl, rfl⟩

lemma replaceEntry (entry : Entry) : Keeps Aside (replaceEntry entry) := by
  refine Keeps.bind Keeps.get fun t => Keeps.bind (Keeps.require _ _) fun i => ?_
  exact Keeps.modify fun _ => ⟨rfl, rfl, rfl, rfl, rfl⟩

lemma truncateBefore (before : EntryId) : Keeps Aside (truncateBefore before) := by
  refine Keeps.bind Keeps.get fun t => Keeps.when _ ?_
  exact Keeps.modify fun _ => ⟨rfl, rfl, rfl, rfl, rfl⟩

lemma setCurrentMode (id : String) : Keeps Aside (setCurrentMode id) := by
  refine Keeps.bind Keeps.get fun t => Keeps.bind (Keeps.require _ _) fun modes => ?_
  exact Keeps.modify fun _ => ⟨rfl, rfl, rfl, rfl, rfl⟩

lemma record (activity : Chat.Activity) : Keeps Aside (record activity) := by
  refine Keeps.bind (Keeps.refuse _ _) fun _ => Keeps.bind Keeps.get fun t => ?_
  split
  · exact Keeps.modify fun _ => ⟨rfl, rfl, rfl, rfl, rfl⟩
  · refine Keeps.bind (Keeps.when _ (Keeps.bind (Keeps.require _ _) fun ended => ?_)) fun _ => ?_
    · exact Keeps.modify fun _ => ⟨rfl, rfl, rfl, rfl, rfl⟩
    · exact Keeps.modify fun _ => ⟨rfl, rfl, rfl, rfl, rfl⟩

end Aside

structure Session.Reflects (s : Session) (change : Change) (t : Transcript) : Prop where
  desk : ({ s with transcript := t } : Session).desk = s.desk.shows change
  clients : (∀ count, change ≠ .clients count) → t.clients = s.transcript.clients
  counted : ∀ count, change = .clients count → t.clients = count

lemma Aside.reflects {s : Session} {change : Change} {t : Transcript} (h : Aside s.transcript t)
    (neutral : s.desk.shows change = s.desk) (other : ∀ count, change ≠ .clients count) :
    s.Reflects change t := by
  refine ⟨?_, fun _ => h.clients, fun count hc => absurd hc (other count)⟩
  rw [neutral]
  simp only [Session.desk, h.permissions, h.queued, h.status, h.turn]

lemma applyFitting_reflects (change : Change) (s : Session) :
    wp (Transcript.applyFitting change) (fun _ t => s.Reflects change t) s.transcript := by
  cases change with
  | push entry => exact wp_mono (Aside.pushEntry entry _) fun _ _ h => h.reflects rfl (by simp)
  | append id text => exact wp_mono (Aside.appendText id text _) fun _ _ h => h.reflects rfl (by simp)
  | replace entry => exact wp_mono (Aside.replaceEntry entry _) fun _ _ h => h.reflects rfl (by simp)
  | truncate before =>
    exact wp_mono (Aside.truncateBefore before _) fun _ _ h => h.reflects rfl (by simp)
  | currentMode id => exact wp_mono (Aside.setCurrentMode id _) fun _ _ h => h.reflects rfl (by simp)
  | activity activity => exact wp_mono (Aside.record activity _) fun _ _ h => h.reflects rfl (by simp)
  | permissionAsked permission =>
    rw [Transcript.applyFitting, Transcript.askPermission, wp_bind, wp_get, andThen_ok, wp_bind,
      wp_refuse]
    have hmem : (s.transcript.permissions.any fun known => decide (known.id = permission.id)) = true ↔
        permission.id ∈ s.desk.permissions := by
      simp [Session.desk]
    constructor
    · intro hany
      refine ⟨?_, fun _ => rfl, by simp⟩
      rw [Desk.shows, if_pos (hmem.mp hany)]
    · intro hnone
      rw [andThen_ok, wp_modify]
      refine ⟨?_, fun _ => rfl, by simp⟩
      rw [Desk.shows, if_neg fun h => hnone (hmem.mpr h)]
      simp [Session.desk]
  | permissionResolved id =>
    rw [Transcript.applyFitting, Transcript.resolvePermission, wp_bind, wp_get, andThen_ok, wp_bind,
      wp_require]
    constructor
    · intro hnone
      refine ⟨?_, fun _ => rfl, by simp⟩
      rw [Desk.shows, List.erase_of_not_mem ?_]
      intro hm
      obtain ⟨permission, hp, rfl⟩ := List.mem_map.mp hm
      simpa using List.findIdx?_eq_none_iff.mp hnone permission hp
    · intro i hi
      rw [andThen_ok, wp_modify]
      refine ⟨?_, fun _ => rfl, by simp⟩
      simp only [Session.desk, Desk.shows, map_eraseIdx_findIdx? _ id hi]
  | clients count => exact ⟨rfl, fun h => absurd rfl (h count), fun _ h => by cases h; rfl⟩
  | _ => exact ⟨rfl, fun _ => rfl, by simp⟩

lemma apply_reflects (change : Change) (s : Session) :
    s.Reflects change (exec (Transcript.apply change) s.transcript).2 := by
  rw [Transcript.apply]
  cases ho : change.overlongAnswers with
  | none => exact applyFitting_reflects change s
  | some id =>
    have haside : Aside s.transcript s.transcript := Std.Refl.refl _
    cases change with
    | push entry => exact haside.reflects rfl (by simp)
    | replace entry => exact haside.reflects rfl (by simp)
    | _ => cases ho

section Emit

variable (world : World)

lemma publish_rests (change : Change) (s : Session) :
    Post (fun _ s' => s'.desk = s.desk ∧ s'.transcript = s.transcript) (publish world change) s := by
  rw [Post, publish, wp_bind, wp_modify, andThen_ok, wp_bind, wp_get, andThen_ok, wp_bind]
  refine wp_mono (sendAll_spec world _ _ _) ?_
  rintro r s' ⟨kept, tick, rfl, -, rfl⟩
  rw [andThen_ok, wp_modify]
  intro _ _
  exact ⟨rfl, rfl⟩

lemma reportActivity_rests (s : Session) : Post (fun _ s' => s.Rests s') reportActivity s := by
  apply Post.get_bind
  apply Post.when
  · intro _
    apply Post.modify_bind
    exact Post.modify (.of_eq rfl rfl rfl)
  · intro _
    exact .refl s

lemma ask_rests {α : Type} (f : ℕ → α) (s : Session) : Post (fun _ s' => s.Rests s') (ask f) s :=
  Post.get_bind (Post.set_bind (Post.pure (.of_eq rfl rfl rfl)))

lemma project_rests {α : Type} (f : Projector → α × Projector) (s : Session) :
    Post (fun _ s' => s.Rests s') (project f) s :=
  Post.get_bind (Post.set_bind (Post.pure (.of_eq rfl rfl rfl)))

section Nested

variable {emit : Change → Acting Unit}
  (he : ∀ change s, Post (fun _ s' => s.Tells change s') (emit change) s)

include he

lemma bound_rests (s : Session) : Post (fun _ s' => s.Rests s') (bound emit) s := by
  apply Post.get_bind
  apply Post.when
  · intro _
    cases hentry : s.transcript.entries[keepFrom s.transcript.entries]? with
    | none => exact Post.throw _
    | some entry => exact (he _ s).mono fun _ _ h => h.rests rfl (by simp)
  · intro _
    exact .refl s

lemma showLinked_rests (paths : List String) (s : Session) :
    Post (fun _ s' => s.Rests s') (showLinked world emit paths) s := by
  induction paths generalizing s with
  | nil => exact Post.pure (.refl s)
  | cons path paths ih =>
    refine Post.bind (ask_rests _ s) ?_
    intro image s₁ h₁
    cases image with
    | none => exact (ih s₁).mono fun _ _ h => h₁.trans h
    | some image =>
      refine Post.bind (Q := fun change s' => s.Rests s' ∧ ∃ entry, change = .push entry) ?_ ?_
      · exact Post.get_bind (Post.set_bind (Post.pure ⟨h₁.trans (.of_eq rfl rfl rfl), _, rfl⟩))
      rintro _ s₂ ⟨h₂, entry, rfl⟩
      refine Post.bind (he _ s₂) ?_
      intro _ s₃ h₃
      have hs₃ := h₂.trans (h₃.rests rfl (by simp))
      exact Post.bind (ih s₃) fun _ _ h => Post.pure (hs₃.trans h)

lemma closeMessage_rests (entry : Entry) (s : Session) :
    Post (fun _ s' => s.Rests s') (closeMessage world emit entry) s := by
  rw [closeMessage]
  apply Post.get_bind
  cases s.pictures.message with
  | none => exact Post.pure (.refl s)
  | some message =>
    apply Post.set_bind
    refine Post.bind (showLinked_rests world he _ _) ?_
    intro added s₁ h₁
    have hs₁ : s.Rests s₁ := h₁.after rfl rfl rfl
    refine Post.ite (fun _ => ?_) fun _ => Post.pure hs₁
    exact Post.bind (project_rests _ s₁) fun _ _ h => Post.pure (hs₁.trans h)

lemma picturesBefore_rests (change : Change) (s : Session) :
    Post (fun change' s' => s.Rests s' ∧ (s' = s ∧ change' = change ∨
      ∃ entry entry', change = .push entry ∧ change' = .push entry'))
      (picturesBefore world emit change) s := by
  cases change with
  | push entry =>
    apply Post.get_bind
    refine Post.ite (fun _ => Post.pure ⟨.refl s, Or.inl ⟨rfl, rfl⟩⟩) fun _ => ?_
    refine Post.bind (closeMessage_rests world he entry s) ?_
    intro entry' s₁ h₁
    refine Post.bind (Q := fun _ s' => s.Rests s') (Post.when _ (fun _ => ?_) fun _ => h₁) ?_
    · exact Post.modify (h₁.trans (.of_eq rfl rfl rfl))
    · exact fun _ _ h => Post.pure ⟨h, Or.inr ⟨entry, entry', rfl, rfl⟩⟩
  | _ => exact Post.pure ⟨.refl s, Or.inl ⟨rfl, rfl⟩⟩

lemma picturesAfter_rests (change : Change) (s : Session) :
    Post (fun _ s' => s.Rests s') (picturesAfter world emit change) s := by
  rw [picturesAfter]
  cases finishedCall change with
  | none => exact Post.pure (.refl s)
  | some call =>
    apply Post.get_bind
    refine Post.when _ (fun _ => ?_) fun _ => .refl s
    apply Post.modify_bind
    refine Post.bind (ask_rests _ _) ?_
    intro images s₁ h₁
    have hs₁ : s.Rests s₁ := h₁.after rfl rfl rfl
    refine Post.when _ (fun _ => ?_) fun _ => hs₁
    exact (he _ s₁).mono fun _ _ h => hs₁.trans (h.rests rfl (by simp))

lemma afterApply_tells {change : Change} {transcript : Transcript} {s : Session}
    (hr : s.Reflects change transcript) :
    Post (fun _ s' => s.Tells change s') (afterApply world emit change)
      (s.applied change transcript) := by
  have hdesk : (s.applied change transcript).desk = s.desk.shows change := hr.desk
  change Post _ (publish world change >>= _) _
  refine Post.bind (publish_rests world change _) ?_
  rintro _ s₁ ⟨hd₁, ht₁⟩
  refine Post.bind (Q := fun _ s' => s₁.Rests s')
    (Post.when _ (fun _ => bound_rests he s₁) fun _ => .refl s₁) ?_
  intro _ s₂ h₂
  have hd₂ : s₂.desk = s.desk.shows change := by rw [h₂.desk, hd₁, hdesk]
  have hclients₂ : s₂.Counted ∨ s₂.transcript.clients = transcript.clients := by
    rcases h₂.tally with h | ⟨-, h⟩
    · exact Or.inl h
    · exact Or.inr (by rw [h, ht₁]; rfl)
  change Post _ (when _ _ >>= _) s₂
  refine Post.bind (Q := fun _ s' => s.Tells change s') (Post.when _ (fun _ => ?_) fun hsame => ?_) ?_
  · refine (he _ s₂).mono fun _ s₃ h₃ => ?_
    have hcounted := h₃.counted rfl
    exact ⟨h₃.desk.trans hd₂, fun _ => Or.inl hcounted, fun _ => hcounted⟩
  · have hremote : s₂.remoteClients = s.remoteClients := not_not.mp (of_decide_eq_false hsame)
    refine ⟨hd₂, fun other => ?_, fun hc => ?_⟩
    · exact hclients₂.imp_right fun h => ⟨hremote, h.trans (hr.clients other)⟩
    · rcases hclients₂ with h | h
      · exact h
      · rw [Counted, h, hr.counted _ hc, hremote]
  intro _ s₃ h₃
  refine Post.bind (reportActivity_rests s₃) ?_
  intro _ s₄ h₄
  exact (picturesAfter_rests world he change s₄).mono fun _ _ h => h₃.before (h₄.trans h)

lemma applyChange_tells (change : Change) (s : Session) :
    Post (fun _ s' => s.Tells change s') (applyChange world emit change) s := by
  have hr := apply_reflects change s
  rw [applyChange]
  apply Post.get_bind
  rcases hx : exec (Transcript.apply change) s.transcript with ⟨r, transcript⟩
  rw [hx] at hr
  cases r with
  | ok u => exact Post.set_bind (afterApply_tells world he hr)
  | error e =>
    obtain rfl : transcript = s.transcript := by
      have := Transcript.apply_error (congrArg Prod.fst hx)
      rwa [hx] at this
    refine Post.set ⟨hr.desk, fun _ => .refl s, fun hc => ?_⟩
    exact (hr.counted _ hc)

lemma emitBody_tells (change : Change) (s : Session) :
    Post (fun _ s' => s.Tells change s') (emitBody world emit change) s := by
  refine Post.bind (picturesBefore_rests world he change s) ?_
  rintro change' s₁ ⟨h₁, ⟨rfl, rfl⟩ | ⟨entry, entry', rfl, rfl⟩⟩
  · exact applyChange_tells world he _ s₁
  · refine (applyChange_tells world he _ s₁).mono fun _ s₂ h₂ => ?_
    have hs₂ := h₁.trans (h₂.rests rfl nofun)
    exact ⟨hs₂.desk, fun _ => hs₂.tally, nofun⟩

end Nested

lemma emitTo_tells (depth : ℕ) (change : Change) (s : Session) :
    Post (fun _ s' => s.Tells change s') (emitTo world depth change) s := by
  induction depth generalizing change s with
  | zero => exact Post.throw _
  | succ depth ih => exact emitBody_tells world ih change s

lemma emit_tells (change : Change) (s : Session) :
    Post (fun _ s' => s.Tells change s') (emit world change) s :=
  Post.get_bind (emitTo_tells world _ change s)

end Emit

end Sheprd.Acp
