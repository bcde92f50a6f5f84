import Sheprd.Acp.Desk

namespace Sheprd.Acp

open Sheprd.Lib Sheprd.Chat

namespace Act

def settling : Act → Bool
  | .answer => true
  | .fail => true
  | _ => false

def quiet : Act → Bool
  | .beside => true
  | .answer => true
  | .fail => true
  | .deliver _ => true
  | _ => false

def steady : Act → Bool
  | .accept _ => false
  | .endTurn => false
  | .opened => false
  | .reply _ => false
  | _ => true

def leading : Act → Bool
  | .beside => true
  | .endTurn => true
  | .opened => true
  | _ => false

def turning : Act → Bool
  | .endTurn => true
  | .opened => true
  | act => act.quiet

lemma steady_of_quiet {act : Act} (h : act.quiet = true) : act.steady = true := by
  cases act <;> first | rfl | cases h

lemma quiet_of_settling {act : Act} (h : act.settling = true) : act.quiet = true := by
  cases act <;> first | rfl | cases h

lemma turning_of_quiet {act : Act} (h : act.quiet = true) : act.turning = true := by
  cases act <;> first | rfl | cases h

lemma turning_of_leading {act : Act} (h : act.leading = true) : act.turning = true := by
  cases act <;> first | rfl | cases h

lemma ne_reply_of_turning {act : Act} (h : act.turning = true) (id : ℤ) : act ≠ .reply id := by
  rintro rfl
  cases h

lemma ne_accept_of_turning {act : Act} (h : act.turning = true) (prompt : Queued) :
    act ≠ .accept prompt := by
  rintro rfl
  cases h

lemma ne_reply_of_steady {act : Act} (h : act.steady = true) (id : ℤ) : act ≠ .reply id := by
  rintro rfl
  cases h

lemma ne_accept_of_steady {act : Act} (h : act.steady = true) (prompt : Queued) :
    act ≠ .accept prompt := by
  rintro rfl
  cases h

end Act

namespace Desk

def promptPending (d : Desk) (id : ℤ) : Prop := d.pending.lookup id = some .prompt

structure Sound (d : Desk) : Prop where
  asked : ∀ permission, permission ∈ d.asked ↔ permission ∈ d.permissions
  numbered : ∀ permission ∈ d.permissions, permission ≤ d.nextPermission
  distinct : d.permissions.Nodup
  working : d.status = .working → d.turn.isSome = true
  running : d.running = d.turn.isSome
  unready : d.ready = false → d.status ≠ .idle ∧ d.status ≠ .working
  named : d.ready = true → d.acpSession.isSome = true
  loading : ∀ id, d.pending.lookup id = some .loadSession → d.acpSession.isSome = true
  ordered : ∀ id ∈ d.pending, id ≤ d.nextRequest
  current : d.ready = true → ∀ id, d.promptPending id → d.turn = some id
  single : ∀ id id', d.promptPending id → d.promptPending id' → id = id'
  opening : ∀ id kind, d.pending.lookup id = some kind → kind.opens = true → d.ready = false ∧
    ∀ id' kind', d.pending.lookup id' = some kind' → id' ≠ id →
      kind'.isPrompt = false ∧ kind'.opens = false

variable {world : World} {d d' : Desk} {act : Act}

namespace Sound

lemma calls {call : AgentRequest} {kind : Pending} (h : Sound d) (other : kind.isPrompt = false)
    (opening : kind.opens = true → d.Unopened)
    (loading : kind = .loadSession → d.acpSession.isSome = true) : Sound (d.calls call kind) := by
  have hold : ∀ id, (d.calls call kind).promptPending id → d.promptPending id := by
    intro id hp
    rcases Dict.of_lookup_insert hp with ⟨-, rfl⟩ | hp
    · cases other
    · exact hp
  refine { h with loading := ?_, ordered := ?_, current := ?_, single := ?_, opening := ?_ }
  · intro id hl
    rcases Dict.of_lookup_insert hl with ⟨-, hk⟩ | hl
    · exact loading hk.symm
    · exact h.loading id hl
  · intro id hm
    rcases (AList.mem_insert _).mp hm with rfl | hm
    · exact le_rfl
    · exact (h.ordered id hm).trans (Int.le_add_one le_rfl)
  · exact fun hr id hp => h.current hr id (hold id hp)
  · exact fun id id' hp hp' => h.single id id' (hold id hp) (hold id' hp')
  · intro id kind₁ hl ho
    rcases Dict.of_lookup_insert hl with ⟨rfl, rfl⟩ | hl
    · refine ⟨(opening ho).ready, fun id' kind' hl' hne => ?_⟩
      rcases Dict.of_lookup_insert hl' with ⟨rfl, -⟩ | hl'
      · exact absurd rfl hne
      · exact (opening ho).pending id' kind' hl'
    · refine ⟨(h.opening id kind₁ hl ho).1, fun id' kind' hl' hne => ?_⟩
      rcases Dict.of_lookup_insert hl' with ⟨-, rfl⟩ | hl'
      · refine ⟨other, ?_⟩
        by_contra hk
        have := ((opening (eq_true_of_ne_false hk)).pending id kind₁ ‹_›).2
        rw [ho] at this
        cases this
      · exact (h.opening id kind₁ hl ho).2 id' kind' hl' hne

lemma deliver {session : String} {blocks : List Wire.ContentBlock} (h : Sound d)
    (free : d.turn = none) (ready : d.ready = true) (queued : List Queued) :
    Sound { (d.calls (.prompt session blocks) .prompt).begins with queued := queued } := by
  have hnone : ∀ id, ¬d.promptPending id := by
    intro id hp
    have := h.current ready id hp
    rw [free] at this
    cases this
  have honly : ∀ id, (d.calls (.prompt session blocks) .prompt).promptPending id →
      id = d.nextRequest + 1 := by
    intro id hp
    rcases Dict.of_lookup_insert hp with ⟨rfl, -⟩ | hp
    · rfl
    · exact absurd hp (hnone id)
  have hclosed : ∀ id kind, d.pending.lookup id = some kind → kind.opens = false := by
    intro id kind hl
    by_contra hk
    have := (h.opening id kind hl (eq_true_of_ne_false hk)).1
    rw [ready] at this
    cases this
  refine { h with
    working := fun _ => rfl, running := rfl, unready := ?_, loading := ?_, ordered := ?_, current := ?_,
    single := ?_, opening := ?_ }
  · intro hr
    rw [show d.ready = false from hr] at ready
    cases ready
  · intro id hl
    rcases Dict.of_lookup_insert hl with ⟨-, hk⟩ | hl
    · cases hk
    · exact h.loading id hl
  · intro id hm
    rcases (AList.mem_insert _).mp hm with rfl | hm
    · exact le_rfl
    · exact (h.ordered id hm).trans (Int.le_add_one le_rfl)
  · exact fun _ id hp => congrArg some (honly id hp).symm
  · exact fun id id' hp hp' => (honly id hp).trans (honly id' hp').symm
  · intro id kind hl ho
    rcases Dict.of_lookup_insert hl with ⟨-, rfl⟩ | hl
    · cases ho
    · rw [hclosed id kind hl] at ho
      cases ho

lemma reply (h : Sound d) (id : ℤ) : Sound { d with pending := d.pending.erase id } where
  asked := h.asked
  numbered := h.numbered
  distinct := h.distinct
  working := h.working
  running := h.running
  unready := h.unready
  named := h.named
  loading id' hl := h.loading id' (Dict.of_lookup_erase hl).2
  ordered id' hm := h.ordered id' ((AList.mem_erase).mp hm).2
  current hr id' hp := h.current hr id' (Dict.of_lookup_erase hp).2
  single id₁ id₂ hp hp' := h.single id₁ id₂ (Dict.of_lookup_erase hp).2 (Dict.of_lookup_erase hp').2
  opening id₁ kind hl ho :=
    ⟨(h.opening id₁ kind (Dict.of_lookup_erase hl).2 ho).1, fun id₂ kind' hl' hne =>
      (h.opening id₁ kind (Dict.of_lookup_erase hl).2 ho).2 id₂ kind' (Dict.of_lookup_erase hl').2 hne⟩

lemma settle (h : Sound d) (permission : PermissionId) (lines : List Outbound) :
    Sound (d.settle permission lines) := by
  refine { h with asked := ?_, numbered := ?_, distinct := ?_ }
  · intro p
    rw [Desk.settle, AList.mem_erase, h.distinct.mem_erase_iff, h.asked p]
  · exact fun p hp => h.numbered p (List.mem_of_mem_erase hp)
  · exact h.distinct.erase permission

lemma asks (h : Sound d) (request : RequestId) (options : List String) :
    Sound (d.asks request options) := by
  have hfresh : d.nextPermission + 1 ∉ d.permissions := by
    intro hm
    exact absurd (h.numbered _ hm) (Nat.not_succ_le_self _)
  have hpermissions : (d.asks request options).permissions =
      d.permissions ++ [d.nextPermission + 1] := if_neg hfresh
  refine { h with asked := ?_, numbered := ?_, distinct := ?_ }
  · intro p
    rw [hpermissions, Desk.asks, AList.mem_insert, h.asked p]
    simp [or_comm]
  · intro p hp
    rw [hpermissions] at hp
    rcases List.mem_append.mp hp with hp | hp
    · exact (h.numbered p hp).trans (Nat.le_succ _)
    · rw [List.mem_singleton.mp hp]
      exact le_rfl
  · rw [hpermissions]
    exact List.nodup_append.mpr ⟨h.distinct, List.nodup_singleton _, by
      rintro a ha b hb rfl
      rw [List.mem_singleton.mp hb] at ha
      exact hfresh ha⟩

lemma step (h : Sound d) (hs : Step world d act d') : Sound d' := by
  cases hs with
  | named id => exact { h with named := fun _ => rfl, loading := fun _ _ => rfl }
  | tell _ _ => exact { h with }
  | numbered =>
    exact { h with ordered := fun id hm => (h.ordered id hm).trans (Int.le_add_one le_rfl) }
  | calls other _ opening loading => exact h.calls other opening loading
  | ask request options => exact h.asks request options
  | refuse request => exact { h with }
  | answer _ _ => exact h.settle _ _
  | fail message => exact { h with working := nofun, unready := fun _ => ⟨nofun, nofun⟩ }
  | accept prompt => exact { h with }
  | deliver _ free ready _ => exact h.deliver free ready _
  | takeBack _ => exact { h with }
  | clear => exact { h with }
  | @endTurn id current answered =>
    refine { h with working := ?_, running := rfl, unready := ?_, current := ?_ }
    · intro hw
      rw [ends] at hw
      split at hw
      · cases hw
      · rename_i hn
        exact absurd hw hn
    · intro hr
      obtain ⟨hidle, hworking⟩ := h.unready hr
      rw [ends, if_neg hworking]
      exact ⟨hidle, hworking⟩
    · intro hr id' hp
      obtain rfl : id = id' := Option.some.inj (current.symm.trans (h.current hr id' hp))
      rw [promptPending, ends, answered] at hp
      cases hp
  | exit message =>
    exact { h with
      asked := fun _ => by simp [exits], numbered := nofun, distinct := .nil, working := nofun
      running := rfl, unready := fun _ => ⟨nofun, nofun⟩, named := nofun, current := nofun
      opening := fun id kind hl ho => ⟨rfl, (h.opening id kind hl ho).2⟩ }
  | opened unopened named =>
    exact { h with
      working := nofun
      unready := nofun
      named := fun _ => named
      current := fun _ id hp => by cases (unopened.pending id _ hp).1
      opening := fun id kind hl ho => by
        rw [(unopened.pending id kind hl).2] at ho
        cases ho }
  | reply id => exact h.reply id
  | ack handled => exact { h with }

lemma run {acts : List Act} (h : Sound d) (hr : Run (Step world) d acts d') : Sound d' :=
  hr.invariant h fun _ _ _ hs ha => hs.step ha

end Sound

lemma shows_asked (d : Desk) (request : RequestId) (options : List String) {permission : Permission}
    (hid : permission.id = d.nextPermission + 1) :
    Desk.shows { d with
      nextPermission := d.nextPermission + 1
      asked := d.asked.insert (d.nextPermission + 1) ⟨options, request⟩ }
      (.permissionAsked permission) = d.asks request options := by
  rw [shows, hid]
  by_cases hm : d.nextPermission + 1 ∈ d.permissions
  · rw [if_pos hm, asks, if_pos hm]
  · rw [if_neg hm, asks, if_neg hm]

lemma deliver_accepted {call : AgentRequest} {kind : Pending} {next : Queued} (hq : d.queued = []) :
    { (calls call kind { d with queued := d.queued ++ [next] }).begins with queued := [] } =
      (d.calls call kind).begins := by
  simp [Desk.calls, begins, hq]

lemma Step.ends (hs : Step world d act d') (hq : act.settling = true) :
    Step world d.ends act d'.ends := by
  cases hs with
  | answer found told => exact .answer found told
  | fail message => exact .fail message
  | _ => cases hq

lemma run_ends {acts : List Act} (hr : Run (Step world) d acts d')
    (hq : ∀ act ∈ acts, act.settling = true) : Run (Step world) d.ends acts d'.ends := by
  induction hr with
  | nil => exact .nil
  | snoc _ ha ih =>
    refine (ih fun act hm => hq act (List.mem_append_left _ hm)).snoc (ha.ends (hq _ ?_))
    simp

lemma turn_settling {acts : List Act} (hr : Run (Step world) d acts d')
    (hq : ∀ act ∈ acts, act.settling = true) : d'.turn = d.turn := by
  refine hr.among (P := fun e => e.turn = d.turn) rfl (fun e act e' hq he hs => ?_) hq
  cases hs <;> first | exact he | cases hq

def Waits (d : Desk) : Prop := d.queued ≠ [] → d.turn.isSome = true ∨ d.ready = false

def Flies (d : Desk) : Prop := ∀ id, d.turn = some id → d.promptPending id

def Starts (d : Desk) : Prop :=
  d.status = .starting → ∃ id kind, d.pending.lookup id = some kind ∧ kind.opens = true

def Queues (d : Desk) : Prop := d.ready = false → d.queued ≠ [] → d.status = .starting

structure Settled (d : Desk) : Prop where
  waits : d.Waits
  flies : d.Flies
  starts : d.Starts
  queues : d.Queues

lemma Settled.of_empty (hq : d.queued = []) (ht : d.turn = none) (hs : d.Starts) : Settled d where
  waits hne := absurd hq hne
  flies id h := by
    rw [ht] at h
    cases h
  starts := hs
  queues _ hne := absurd hq hne

lemma nonempty_of_eraseIdx {α : Type} {l : List α} {i : ℕ} (h : l.eraseIdx i ≠ []) : l ≠ [] := by
  rintro rfl
  exact h rfl

lemma Sound.calls_kept (h : Sound d) {call : AgentRequest} (kind : Pending) {kind' : Pending} {id : ℤ}
    (hl : d.pending.lookup id = some kind') :
    (d.calls call kind).pending.lookup id = some kind' := by
  have hid : id ≠ d.nextRequest + 1 := by
    rintro rfl
    have hm : d.nextRequest + 1 ∈ d.pending := AList.lookup_isSome.mp (by rw [hl]; rfl)
    exact absurd (h.ordered _ hm) (by omega)
  rw [Desk.calls, AList.lookup_insert_ne hid, hl]

lemma Waits.step (h : Waits d) (hq : act.steady = true) (hs : Step world d act d') : Waits d' := by
  cases hs with
  | fail message => exact fun hne => absurd rfl hne
  | deliver _ _ _ _ => exact fun _ => Or.inl rfl
  | takeBack _ => exact fun hne => h (nonempty_of_eraseIdx hne)
  | clear => exact fun hne => absurd rfl hne
  | exit message => exact fun hne => absurd rfl hne
  | accept _ => cases hq
  | endTurn _ _ => cases hq
  | opened _ _ => cases hq
  | _ => exact h

lemma Flies.step (h : Flies d) (hd : Sound d) (hq : ∀ id, act ≠ .reply id) (hs : Step world d act d') :
    Flies d' := by
  cases hs with
  | calls _ _ _ _ => exact fun id ht => hd.calls_kept _ (h id ht)
  | deliver _ _ _ _ =>
    intro id ht
    obtain rfl := Option.some.inj ht
    exact AList.lookup_insert _
  | endTurn _ _ => nofun
  | exit message => nofun
  | reply id => exact absurd rfl (hq id)
  | _ => exact h

lemma Starts.ends (h : Starts d) : Starts d.ends := by
  intro hst
  refine h ?_
  rw [Desk.ends] at hst
  split at hst
  · cases hst
  · exact hst

lemma Starts.step (h : Starts d) (hd : Sound d) (hq : ∀ id, act ≠ .reply id) (hs : Step world d act d') :
    Starts d' := by
  cases hs with
  | calls _ _ _ _ =>
    intro hst
    obtain ⟨id, kind, hl, ho⟩ := h hst
    exact ⟨id, kind, hd.calls_kept _ hl, ho⟩
  | fail message => nofun
  | deliver _ _ _ _ => nofun
  | endTurn _ _ => exact h.ends
  | exit message => nofun
  | opened _ _ => nofun
  | reply id => exact absurd rfl (hq id)
  | _ => exact h

lemma Queues.ends (h : Queues d) : Queues d.ends := by
  intro hr hne
  rw [Desk.ends, if_neg]
  · exact h hr hne
  · rw [h hr hne]
    nofun

lemma Queues.step (h : Queues d) (hq : ∀ prompt, act ≠ .accept prompt)
    (hs : Step world d act d') : Queues d' := by
  cases hs with
  | fail message => exact fun _ hne => absurd rfl hne
  | deliver _ _ ready _ =>
    intro hr
    rw [show d.ready = false from hr] at ready
    cases ready
  | takeBack _ => exact fun hr hne => h hr (nonempty_of_eraseIdx hne)
  | clear => exact fun _ hne => absurd rfl hne
  | exit message => exact fun _ hne => absurd rfl hne
  | accept prompt => exact absurd rfl (hq prompt)
  | endTurn _ _ => exact h.ends
  | opened _ _ => nofun
  | _ => exact h

section Reply

variable {id : ℤ} {kind : Pending} (hl : d.pending.lookup id = some kind)

include hl

lemma Starts.reply (hk : kind.opens = false) (h : Starts d) :
    Starts { d with pending := d.pending.erase id } := by
  intro hst
  obtain ⟨id', kind', hl', ho⟩ := h hst
  refine ⟨id', kind', ?_, ho⟩
  rw [AList.lookup_erase_ne, hl']
  rintro rfl
  rw [hl] at hl'
  cases hl'
  rw [hk] at ho
  cases ho

lemma Flies.reply (hk : kind.isPrompt = false) (h : Flies d) :
    Flies { d with pending := d.pending.erase id } := by
  intro id' ht
  have hp := h id' ht
  rw [promptPending, AList.lookup_erase_ne, hp]
  rintro rfl
  rw [promptPending, hl] at hp
  cases hp
  cases hk

lemma Sound.reply_unopened (h : Sound d) (hk : kind.opens = true) :
    Unopened { d with pending := d.pending.erase id } where
  ready := (h.opening id kind hl hk).1
  pending id' kind' hl' :=
    (h.opening id kind hl hk).2 id' kind' (Dict.of_lookup_erase hl').2 (Dict.of_lookup_erase hl').1

end Reply

section Runs

variable {acts : List Act} (hr : Run (Step world) d acts d')

include hr

lemma Waits.run (hq : ∀ act ∈ acts, act.steady = true) (h : Waits d) : Waits d' :=
  hr.among h (fun _ _ _ hq h hs => h.step hq hs) hq

lemma Flies.run (hq : ∀ act ∈ acts, ∀ id, act ≠ .reply id) (hd : Sound d) (h : Flies d) : Flies d' :=
  (hr.among (P := fun d => Sound d ∧ Flies d) ⟨hd, h⟩
    (fun _ _ _ hq h hs => ⟨h.1.step hs, h.2.step h.1 hq hs⟩) hq).2

lemma Starts.run (hq : ∀ act ∈ acts, ∀ id, act ≠ .reply id) (hd : Sound d) (h : Starts d) : Starts d' :=
  (hr.among (P := fun d => Sound d ∧ Starts d) ⟨hd, h⟩
    (fun _ _ _ hq h hs => ⟨h.1.step hs, h.2.step h.1 hq hs⟩) hq).2

lemma Queues.run (hq : ∀ act ∈ acts, ∀ prompt, act ≠ .accept prompt) (h : Queues d) : Queues d' :=
  hr.among h (fun _ _ _ hq h hs => h.step hq hs) hq

lemma Settled.run (hq : ∀ act ∈ acts, act.steady = true) (hd : Sound d) (h : Settled d) :
    Settled d' where
  waits := h.waits.run hr hq
  flies := h.flies.run hr (fun act hm => Act.ne_reply_of_steady (hq act hm)) hd
  starts := h.starts.run hr (fun act hm => Act.ne_reply_of_steady (hq act hm)) hd
  queues := h.queues.run hr fun act hm => Act.ne_accept_of_steady (hq act hm)

end Runs

end Desk

end Sheprd.Acp
