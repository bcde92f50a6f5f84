import Sheprd.FanOut.Kept

namespace Sheprd.FanOut

open Sheprd.Lib

namespace Journal

def Copied (j : Journal) (revision : ℕ) (records : List Record) : Prop :=
  ∃ t, j.copies[revision]? = some t ∧ j.memory[t]? = some records

structure Coherent (j : Journal) : Prop where
  now : ∃ past, j.memory = past ++ [j.state.records]
  count : j.copies.length = j.state.revision + 1
  ordered : j.copies.Pairwise (· < ·)
  past : ∀ t ∈ j.copies, t < j.memory.length
  behind : j.state.rewound ≤ j.state.revision
  file : j.Copied j.written j.file
  pending : ∀ pending ∈ j.pending, j.Copied pending.revision pending.records

def Held (j : Journal) : Prop :=
  match j.holder with
  | .staged made pending call =>
      pending.revision = made ∧ j.Copied made pending.records ∧ (call.isSome = true → j.written < made)
  | .checked made pending call =>
      made ≤ pending.revision ∧ j.Copied pending.revision pending.records ∧
        j.state.rewound < pending.revision ∧ (call.isSome = true → j.written < made)
  | .failed made _ _ _ => j.written < made ∧ made ≤ j.state.revision
  | _ => True

variable {j : Journal}

lemma copies_le {copies : List ℕ} (h : copies.Pairwise (· < ·)) {r r' t t' : ℕ} (hle : r ≤ r')
    (ht : copies[r]? = some t) (ht' : copies[r']? = some t') : t ≤ t' := by
  rcases hle.eq_or_lt with rfl | hlt
  · rw [ht] at ht'
    exact (Option.some.inj ht').le
  · obtain ⟨hr, rfl⟩ := List.getElem?_eq_some_iff.mp ht
    obtain ⟨hr', rfl⟩ := List.getElem?_eq_some_iff.mp ht'
    exact (List.pairwise_iff_getElem.mp h r r' hr hr' hlt).le

section Went

variable {state : State}

lemma copies_went (state : State) (j : Journal) :
    ∃ new, (j.went state).copies = j.copies ++ new ∧
      (new = [] ∧ state.revision = j.state.revision ∨
        new = [j.memory.length] ∧ state.revision ≠ j.state.revision) := by
  by_cases h : state.revision = j.state.revision
  · exact ⟨[], by simp [went, h], Or.inl ⟨rfl, h⟩⟩
  · exact ⟨[j.memory.length], by simp [went, h], Or.inr ⟨rfl, h⟩⟩

lemma Copied.went {revision : ℕ} {records : List Record} (h : j.Copied revision records)
    (state : State) : (j.went state).Copied revision records := by
  obtain ⟨t, ht, hm⟩ := h
  obtain ⟨new, hcopies, -⟩ := copies_went state j
  refine ⟨t, ?_, ?_⟩
  · rw [hcopies, List.getElem?_append_left (List.getElem?_eq_some_iff.mp ht).1, ht]
  · change (j.memory ++ [state.records])[t]? = _
    rw [List.getElem?_append_left (List.getElem?_eq_some_iff.mp hm).1, hm]

lemma Coherent.copied (h : Coherent j) (hnew : state.revision = j.state.revision + 1) :
    (j.went state).Copied state.revision state.records := by
  obtain ⟨new, hcopies, hnone | hnext⟩ := copies_went state j
  · omega
  · refine ⟨j.memory.length, ?_, ?_⟩
    · rw [hcopies, hnext.1, hnew, ← h.count]
      simp
    · change (j.memory ++ [state.records])[j.memory.length]? = _
      simp

lemma Coherent.went (h : Coherent j)
    (hnext : state.revision = j.state.revision ∨ state.revision = j.state.revision + 1)
    (hbehind : state.rewound ≤ state.revision) : Coherent (j.went state) := by
  have hlength : (j.went state).memory.length = j.memory.length + 1 := List.length_append
  obtain ⟨new, hcopies, hnew⟩ := copies_went state j
  refine ⟨⟨j.memory, rfl⟩, ?_, ?_, ?_, hbehind, h.file.went state, fun p hp => (h.pending p hp).went state⟩
  · rw [hcopies, List.length_append, h.count]
    rcases hnew with ⟨rfl, hsame⟩ | ⟨rfl, hother⟩
    · exact congrArg (· + 1) hsame.symm
    · have hrevision := hnext.resolve_left hother
      change _ + 1 = state.revision + 1
      rw [hrevision]
  · rw [hcopies]
    rcases hnew with ⟨rfl, -⟩ | ⟨rfl, -⟩
    · rw [List.append_nil]
      exact h.ordered
    · refine List.pairwise_append.mpr ⟨h.ordered, List.pairwise_singleton _ _, fun t ht t' ht' => ?_⟩
      rw [List.mem_singleton.mp ht']
      exact h.past t ht
  · intro t ht
    rw [hlength]
    rw [hcopies] at ht
    rcases List.mem_append.mp ht with ht | ht
    · exact (h.past t ht).trans (Nat.lt_succ_self _)
    · rcases hnew with ⟨rfl, -⟩ | ⟨rfl, -⟩
      · cases ht
      · rw [List.mem_singleton.mp ht]
        exact Nat.lt_succ_self _

end Went

lemma Coherent.calls (h : Coherent j) {holder : Holder} {suspended : List Suspended}
    {pending : List Pending} (hp : ∀ p ∈ pending, j.Copied p.revision p.records) :
    Coherent { j with holder, suspended, pending } :=
  ⟨h.now, h.count, h.ordered, h.past, h.behind, h.file, hp⟩

lemma Held.kept {j' : Journal} (h : Held j) (hholder : j'.holder = j.holder)
    (hwritten : j'.written = j.written)
    (hcopied : ∀ revision records, j.Copied revision records → j'.Copied revision records)
    (hrewound : j'.state.rewound = j.state.rewound) (hrevision : j.state.revision ≤ j'.state.revision) :
    Held j' := by
  rw [Held] at h ⊢
  rw [hholder, hwritten, hrewound]
  cases hj : j.holder with
  | staged made pending call =>
    rw [hj] at h
    exact ⟨h.1, hcopied _ _ h.2.1, h.2.2⟩
  | checked made pending call =>
    rw [hj] at h
    exact ⟨h.1, hcopied _ _ h.2.1, h.2.2⟩
  | failed made call index step =>
    rw [hj] at h
    exact ⟨h.1, h.2.trans hrevision⟩
  | _ => trivial

end Journal

def State.Untouched (change : State → Bool × State) : Prop :=
  ∀ s, (change s).2.revision = s.revision ∧ (change s).2.rewound = s.rewound

namespace State

lemma start_untouched (record : Record) : Untouched (start record) := by
  intro s
  rw [start]
  split <;> exact ⟨rfl, rfl⟩

lemma advance_untouched (id : UInt64) (report : Report) : Untouched (advance id report) :=
  fun _ => ⟨rfl, rfl⟩

lemma settle_untouched (id : UInt64) (indices : List ℕ) : Untouched (settle id indices) :=
  fun _ => ⟨rfl, rfl⟩

lemma forget_untouched (id : UInt64) : Untouched (forget id) := fun _ => ⟨rfl, rfl⟩

lemma advanceUnsaved_untouched (id : UInt64) (report : Report) : Untouched (advanceUnsaved id report) := by
  intro s
  rw [advanceUnsaved]
  split <;> exact ⟨rfl, rfl⟩

lemma claim_untouched (usable : Record → Bool) (s : State) :
    (s.claim usable).2.revision = s.revision ∧ (s.claim usable).2.rewound = s.rewound := by
  rw [claim]
  split <;> exact ⟨rfl, rfl⟩

end State

namespace Journal

variable {j j' : Journal} {act : Act} {change : State → Bool × State}

lemma Coherent.update (h : Coherent j) (hu : State.Untouched change) {pending : Option Pending}
    {state : State} (hupdate : j.state.update j.path change = (pending, state)) :
    Coherent (j.went state) ∧ state.rewound = j.state.rewound ∧
      j.state.revision ≤ state.revision ∧
      ∀ p ∈ pending, (j.went state).Copied p.revision p.records ∧ p.revision = j.state.revision + 1 := by
  obtain ⟨hrevision, hrewound⟩ := hu j.state
  have hbehind := h.behind
  rcases State.update_cases j.path change j.state with hsame | ⟨-, -, hnew⟩
  · rw [hupdate] at hsame
    cases hsame
    refine ⟨h.went (Or.inl hrevision) ?_, hrewound, hrevision.ge, nofun⟩
    omega
  · rw [hupdate] at hnew
    cases hnew
    have hnext : (change j.state).2.revision + 1 = j.state.revision + 1 := congrArg (· + 1) hrevision
    refine ⟨h.went (Or.inr hnext) ?_, hrewound, ?_, ?_⟩
    · change (change j.state).2.rewound ≤ (change j.state).2.revision + 1
      omega
    · change _ ≤ (change j.state).2.revision + 1
      omega
    · intro p hp
      obtain rfl := Option.some.inj hp
      exact ⟨h.copied hnext, hnext⟩

lemma Coherent.made (h : Coherent j) (hu : State.Untouched change) :
    Coherent (j.made (j.state.update j.path change)) := by
  obtain ⟨hc, -, -, hp⟩ := h.update hu rfl
  refine hc.calls fun p hm => ?_
  rcases List.mem_append.mp hm with hm | hm
  · exact (h.pending p hm).went _
  · exact (hp p (Option.mem_toList.mp hm)).1

lemma Held.made (h : Held j) (hc : Coherent j) (hu : State.Untouched change) :
    Held (j.made (j.state.update j.path change)) := by
  obtain ⟨-, hrewound, hrevision, -⟩ := hc.update hu rfl
  exact h.kept rfl rfl (fun _ _ hcopied => hcopied.went _) hrewound hrevision

lemma Coherent.stays (h : Coherent j) : Coherent (j.went j.state) := h.went (Or.inl rfl) h.behind

lemma Coherent.written_le (h : Coherent j) : j.written ≤ j.state.revision := by
  obtain ⟨t, ht, -⟩ := h.file
  have hlt := (List.getElem?_eq_some_iff.mp ht).1
  rw [h.count] at hlt
  exact Nat.le_of_lt_succ hlt

lemma Coherent.retake (h : Coherent j) (pending : Pending) (hcopied : j.Copied pending.revision pending.records) :
    Coherent (j.went (j.state.retake pending).2) ∧
      (j.went (j.state.retake pending).2).Copied (j.state.retake pending).1.revision
        (j.state.retake pending).1.records ∧
      pending.revision ≤ (j.state.retake pending).1.revision ∧
      (j.state.retake pending).2.rewound < (j.state.retake pending).1.revision := by
  have hbehind := h.behind
  rw [State.retake]
  split
  · rename_i hold
    refine ⟨h.went (Or.inr rfl) ?_, h.copied rfl, ?_, ?_⟩
    · exact hbehind.trans (Nat.le_succ _)
    · exact (hold.trans hbehind).trans (Nat.le_succ _)
    · exact Nat.lt_succ_of_le hbehind
  · rename_i hnew
    exact ⟨h.stays, hcopied.went _, le_rfl, not_le.mp hnew⟩

def Holder.idle : Holder → Bool
  | .staged _ _ _ => false
  | .checked _ _ _ => false
  | .failed _ _ _ _ => false
  | _ => true

lemma Held.of_idle (h : Holder.idle j.holder = true) : Held j := by
  rw [Held]
  cases hj : j.holder with
  | staged made pending call =>
    rw [hj] at h
    cases h
  | checked made pending call =>
    rw [hj] at h
    cases h
  | failed made call index step =>
    rw [hj] at h
    cases h
  | _ => trivial

lemma Coherent.beside (h : Coherent j) {state : State}
    (hstate : state.revision = j.state.revision ∧ state.rewound = j.state.rewound) :
    Coherent (j.went state) := by
  have hbehind := h.behind
  exact h.went (Or.inl hstate.1) (by omega)

lemma Held.beside (h : Held j) {state : State}
    (hstate : state.revision = j.state.revision ∧ state.rewound = j.state.rewound) :
    Held (j.went state) :=
  h.kept rfl rfl (fun _ _ hcopied => hcopied.went state) hstate.2 hstate.1.ge

lemma step_coherent (h : Coherent j) (hheld : Held j) (hs : Step j act j') : Coherent j' ∧ Held j' := by
  have hpending : ∀ p ∈ j.pending, ∀ state, (j.went state).Copied p.revision p.records :=
    fun p hp state => (h.pending p hp).went state
  have hstays : Coherent (j.went j.state) := h.stays
  cases hs with
  | @start record _ _ =>
    exact ⟨h.made (State.start_untouched record), hheld.made h (State.start_untouched record)⟩
  | @refuse record _ _ =>
    have hu := State.start_untouched record j.state
    exact ⟨(h.beside hu).calls fun p hp => hpending p hp _, hheld.beside hu⟩
  | @long record _ => exact ⟨h.beside ⟨rfl, rfl⟩, hheld.beside ⟨rfl, rfl⟩⟩
  | @follow record front back _ =>
    have hc : Coherent (j.went (j.state.follow record)) := h.beside ⟨rfl, rfl⟩
    exact ⟨hc.calls fun p hp => hpending p hp _, hheld.beside ⟨rfl, rfl⟩⟩
  | @look id report _ =>
    have hu := State.advanceUnsaved_untouched id report j.state
    exact ⟨h.beside hu, hheld.beside hu⟩
  | advance _ => exact ⟨hstays.calls fun p hp => hpending p hp _, hheld.beside ⟨rfl, rfl⟩⟩
  | @stage id report front back _ =>
    have hmade := h.made (State.advance_untouched id report)
    exact ⟨hmade.calls hmade.pending, hheld.made h (State.advance_untouched id report)⟩
  | settle id indices =>
    exact ⟨h.made (State.settle_untouched id indices), hheld.made h (State.settle_untouched id indices)⟩
  | forget id => exact ⟨h.made (State.forget_untouched id), hheld.made h (State.forget_untouched id)⟩
  | claim usable =>
    have hu := State.claim_untouched usable j.state
    exact ⟨h.beside hu, hheld.beside hu⟩
  | @write pending front back free among =>
    have hin : ∀ p ∈ front ++ back, p ∈ j.pending := by
      intro p hp
      rw [among]
      simp only [List.mem_append, List.mem_cons] at hp ⊢
      tauto
    have hm : pending ∈ j.pending := by
      rw [among]
      simp
    exact ⟨hstays.calls fun p hp => hpending p (hin p hp) _, rfl, hpending pending hm _, nofun⟩
  | enter _ => exact ⟨hstays.calls fun p hp => hpending p hp _, .of_idle rfl⟩
  | readLane _ => exact ⟨hstays.calls fun p hp => hpending p hp _, .of_idle rfl⟩
  | readBase _ => exact ⟨hstays.calls fun p hp => hpending p hp _, .of_idle rfl⟩
  | @recordUnsaved call _ _ =>
    have hu := State.advanceUnsaved_untouched call.id call.report j.state
    exact ⟨(h.beside hu).calls fun p hp => hpending p hp _, .of_idle rfl⟩
  | recordLook _ _ => exact ⟨hstays.calls fun p hp => hpending p hp _, .of_idle rfl⟩
  | @recordSame call state _ same =>
    obtain ⟨hc, -⟩ := h.update (State.advance_untouched _ _) same
    exact ⟨hc.calls fun p hp => hpending p hp _, .of_idle rfl⟩
  | @recordStage call pending state _ changed =>
    obtain ⟨hc, -, -, hp⟩ := h.update (State.advance_untouched _ _) changed
    obtain ⟨hcopied, hnew⟩ := hp pending rfl
    have hwritten := h.written_le
    refine ⟨hc.calls fun p hp => hpending p hp _, rfl, hcopied, fun _ => ?_⟩
    change j.written < pending.revision
    omega
  | @retake made pending call staged =>
    rw [Held, staged] at hheld
    obtain ⟨rfl, hcopied, hnew⟩ := hheld
    obtain ⟨hc, hcopied', hle, hrewound⟩ := h.retake pending hcopied
    exact ⟨hc.calls fun p hp => hpending p hp _, hle, hcopied', hrewound, hnew⟩
  | skip _ _ => exact ⟨hstays.calls fun p hp => hpending p hp _, .of_idle rfl⟩
  | @save made pending call checked newer =>
    rw [Held, checked] at hheld
    obtain ⟨-, hcopied, -⟩ := hheld
    refine ⟨⟨hstays.now, hstays.count, hstays.ordered, hstays.past, hstays.behind, ?_, ?_⟩, .of_idle rfl⟩
    · exact hcopied.went _
    · exact fun p hp => hpending p hp _
  | fail _ _ _ => exact ⟨hstays.calls fun p hp => hpending p hp _, .of_idle rfl⟩
  | @failRecord made pending call index step checked newer before =>
    rw [Held, checked] at hheld
    obtain ⟨hle, ⟨t, ht, -⟩, -, hnew⟩ := hheld
    refine ⟨hstays.calls fun p hp => hpending p hp _, hnew rfl, ?_⟩
    have hlt := (List.getElem?_eq_some_iff.mp ht).1
    rw [h.count] at hlt
    change made ≤ j.state.revision
    omega
  | @rewind made call index step _ =>
    have hc : Coherent (j.went (j.state.rewind call.id index step)) := h.went (Or.inl rfl) le_rfl
    exact ⟨hc.calls fun p hp => hpending p hp _, .of_idle rfl⟩

lemma coherent_opened (path : Bool) (records : List Record) : Coherent (opened path records) where
  now := ⟨[], rfl⟩
  count := rfl
  ordered := List.pairwise_singleton _ _
  past t ht := by
    rw [List.mem_singleton.mp ht]
    exact Nat.one_pos
  behind := le_rfl
  file := ⟨0, rfl, rfl⟩
  pending := nofun

lemma run_coherent {acts : List Act} (h : Coherent j) (hheld : Held j) (hr : Run Step j acts j') :
    Coherent j' ∧ Held j' :=
  hr.invariant (P := fun j => Coherent j ∧ Held j) ⟨h, hheld⟩
    fun _ _ _ h hs => step_coherent h.1 h.2 hs

end Journal

end Sheprd.FanOut
