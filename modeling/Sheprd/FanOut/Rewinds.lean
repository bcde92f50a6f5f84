import Sheprd.FanOut.Copies
import Sheprd.FanOut.Lanes

namespace Sheprd.FanOut

open Sheprd.Lib

def Recording.undo (call : Recording) : Option (UInt64 × ℕ × Checkpoint) :=
  call.before.map (Prod.mk call.id)

def Holder.undo : Holder → Option (UInt64 × ℕ × Checkpoint)
  | .known call => call.undo
  | .looked call => call.undo
  | .staged _ _ call => call.bind Recording.undo
  | .checked _ _ call => call.bind Recording.undo
  | .failed _ call index step => some (call.id, index, step)
  | _ => none

def Orderly (j : Journal) (act : Act) (j' : Journal) : Prop :=
  Step j act j' ∧ ∀ id, act.replaces = some id → ∀ lane ∈ j.holder.undo, lane.1 ≠ id

variable {j j' : Journal} {act : Act}

lemma Step.undo (hs : Step j act j') :
    j'.holder.undo = none ∨ j'.holder.undo = j.holder.undo ∨
      act.replaces = none ∧ j'.state = j.state ∧ ∃ id index,
        j'.holder.undo = (j.state.step id index).map fun step => (id, index, step) := by
  cases hs with
  | write _ _ => exact Or.inl rfl
  | enter _ => exact Or.inl rfl
  | @readLane id index progress _ =>
    refine Or.inr (Or.inr ⟨rfl, rfl, id, index, ?_⟩)
    change ((j.state.step id index).map (Prod.mk index)).map (Prod.mk id) = _
    rw [Option.map_map]
    rfl
  | readBase _ => exact Or.inl rfl
  | recordUnsaved _ _ => exact Or.inl rfl
  | recordLook known _ =>
    rw [known]
    exact Or.inr (Or.inl rfl)
  | recordSame _ _ => exact Or.inl rfl
  | recordStage looked _ =>
    rw [looked]
    exact Or.inr (Or.inl rfl)
  | retake staged =>
    rw [staged]
    exact Or.inr (Or.inl rfl)
  | skip _ _ => exact Or.inl rfl
  | save _ _ => exact Or.inl rfl
  | fail _ _ _ => exact Or.inl rfl
  | @failRecord _ _ call index step checked _ before =>
    rw [checked]
    refine Or.inr (Or.inl ?_)
    change some (call.id, index, step) = call.before.map (Prod.mk call.id)
    rw [before]
    rfl
  | rewind _ => exact Or.inl rfl
  | _ => exact Or.inr (Or.inl rfl)

lemma Turns.absent {records : List Record} {id : UInt64} (ht : Turns j act records)
    (hother : act.replaces ≠ some id) (h : recordOf j.state.records id = none) :
    recordOf records id = none := by
  refine recordOf_eq_none.mpr fun record hm hid => ?_
  subst hid
  have hid := (ht.ids record hm).resolve_left hother
  obtain ⟨known, hk, heq⟩ := List.mem_map.mp hid
  exact recordOf_eq_none.mp h known hk heq

namespace Mark

variable {mark mark' : Mark}

def Safe (mark : Mark) (j : Journal) : Prop :=
  j.holder.undo = some (mark.id, mark.index, mark.step) → recordOf j.state.records mark.id = none

lemma after_quiet {records : List Record} (hquiet : act.replaces = none)
    (ha : mark.after (act, records) = some mark') : mark' = mark := by
  cases act with
  | start record => cases hquiet
  | settle id indices => cases hquiet
  | forget id => cases hquiet
  | stage id report => exact (Option.some.inj (Option.ite_none_left_eq_some.mp ha).2).symm
  | _ => exact (Option.some.inj ha).symm

lemma after_id {records : List Record} (ha : mark.after (act, records) = some mark') :
    mark'.id = mark.id ∧ (act.replaces ≠ some mark.id → mark' = mark) := by
  cases act with
  | settle id indices =>
    rw [after] at ha
    split at ha
    · rename_i hid
      obtain rfl := Option.some.inj (Option.ite_none_left_eq_some.mp ha).2
      exact ⟨rfl, fun hother => absurd (congrArg some hid.symm) hother⟩
    · obtain rfl := Option.some.inj ha
      exact ⟨rfl, fun _ => rfl⟩
  | start record =>
    obtain rfl := Option.some.inj (Option.ite_none_left_eq_some.mp ha).2
    exact ⟨rfl, fun _ => rfl⟩
  | forget id =>
    obtain rfl := Option.some.inj (Option.ite_none_left_eq_some.mp ha).2
    exact ⟨rfl, fun _ => rfl⟩
  | _ =>
    obtain rfl := after_quiet rfl ha
    exact ⟨rfl, fun _ => rfl⟩

lemma Back.turn {records : List Record} (h : mark.Back j.state.records) (hsafe : mark.Safe j)
    (hkept : WellKept j.state.records) (ht : Turns j act records)
    (ha : mark.after (act, records) = some mark') : mark'.Back records := by
  cases ht with
  | same quiet =>
    rw [after_quiet quiet ha]
    exact h
  | start _ => exact h.start ha
  | stage id report => exact h.stage hkept.distinct ha
  | settle id indices => exact h.settle hkept.distinct ha
  | forget id => exact h.forget ha
  | @rewind made call index step failed =>
    obtain rfl := Option.some.inj ha
    by_cases hlane : mark.id = call.id ∧ mark.index = index ∧ step = mark.step
    · obtain ⟨hid, rfl, rfl⟩ := hlane
      have hnone : recordOf j.state.records mark.id = none := by
        apply hsafe
        rw [failed, hid]
        rfl
      have habsent := (Turns.rewind failed).absent (by simp [Act.replaces]) hnone
      rw [back_iff, habsent]
      nofun
    · exact h.rewind hkept.distinct fun hid hindex hstep => hlane ⟨hid, hindex, hstep⟩

lemma Back.safe_read {id : UInt64} {index : ℕ} (h : mark.Back j.state.records)
    (hstate : j'.state = j.state)
    (hundo : j'.holder.undo = (j.state.step id index).map fun step => (id, index, step)) :
    mark.Safe j' := by
  intro hat
  rw [hundo] at hat
  obtain ⟨step, hstep, hlane⟩ := Option.map_eq_some_iff.mp hat
  simp only [Prod.mk.injEq] at hlane
  obtain ⟨rfl, rfl, rfl⟩ := hlane
  rw [hstate]
  by_contra hfound
  obtain ⟨record, hr⟩ := Option.ne_none_iff_exists'.mp hfound
  refine back_iff.mp h record hr ?_
  have hfirst : recordOf (j.state.records ++ j.state.unsaved) mark.id = some record := by
    rw [recordOf, List.find?_append]
    change (recordOf j.state.records mark.id).or _ = _
    rw [hr]
    rfl
  have hstep' : (recordOf (j.state.records ++ j.state.unsaved) mark.id).bind
      (fun record => record.stepAt mark.index) = some mark.step := hstep
  rwa [hfirst] at hstep'

lemma Safe.step (h : mark.Back j.state.records) (hsafe : mark.Safe j) (ho : Orderly j act j')
    (ha : mark.after (act, j'.state.records) = some mark') : mark'.Safe j' := by
  obtain ⟨hs, halone⟩ := ho
  rcases hs.undo with hnone | hsame | ⟨hquiet, hstate, id, index, hundo⟩
  · intro hat
    rw [hnone] at hat
    cases hat
  · obtain ⟨hid, hsteady⟩ := after_id ha
    intro hat
    rw [hsame] at hat
    have hother : act.replaces ≠ some mark.id := by
      intro hr
      exact halone mark.id hr _ hat hid
    obtain rfl := hsteady hother
    exact hs.turns.absent hother (hsafe hat)
  · rw [after_quiet hquiet ha]
    exact h.safe_read hstate hundo

end Mark

lemma run_memory {acts : List Act} (hr : Run Step j acts j') :
    ∃ tail, j'.memory = j.memory ++ tail ∧ tail.length = acts.length := by
  induction hr with
  | nil => exact ⟨[], (List.append_nil _).symm, rfl⟩
  | @snoc acts t u act _ hs ih =>
    obtain ⟨tail, hmemory, hlength⟩ := ih
    refine ⟨tail ++ [u.state.records], ?_, ?_⟩
    · rw [hs.memory, hmemory, List.append_assoc]
    · rw [List.length_append, List.length_append, hlength]
      rfl

def sections (j : Journal) (acts : List Act) (j' : Journal) : List (Act × List Record) :=
  acts.zip (j'.memory.drop j.memory.length)

lemma sections_snoc {acts : List Act} {u : Journal} (hr : Run Step j acts j') (hs : Step j' act u) :
    sections j (acts ++ [act]) u = sections j acts j' ++ [(act, u.state.records)] := by
  obtain ⟨tail, hmemory, hlength⟩ := run_memory hr
  rw [sections, sections, hs.memory, hmemory, List.append_assoc, List.drop_left, List.drop_left,
    List.zip_append hlength.symm]
  rfl

namespace Mark

variable {mark : Mark}

lemma carried_concat (parts : List (Act × List Record)) (part : Act × List Record) :
    mark.carried (parts ++ [part]) = (mark.carried parts).bind fun mark => mark.after part := by
  rw [carried, List.foldlM_append]
  simp [carried]

lemma Back.run {acts : List Act} (h : mark.Back j.state.records) (hsafe : mark.Safe j)
    (hkept : WellKept j.state.records) (hr : Run Orderly j acts j') :
    WellKept j'.state.records ∧
      ∀ later ∈ mark.carried (sections j acts j'), later.Back j'.state.records ∧ later.Safe j' := by
  induction hr with
  | nil =>
    refine ⟨hkept, fun later hl => ?_⟩
    obtain rfl : mark = later := Option.some.inj hl
    exact ⟨h, hsafe⟩
  | @snoc acts t u act hr ho ih =>
    obtain ⟨hkept, ih⟩ := ih
    have hturns := ho.1.turns
    refine ⟨hturns.kept hkept, fun later hl => ?_⟩
    rw [sections_snoc (hr.mono fun _ _ _ ho => ho.1) ho.1, carried_concat] at hl
    obtain ⟨known, hk, ha⟩ := Option.bind_eq_some_iff.mp hl
    obtain ⟨hback, hsafe⟩ := ih known hk
    exact ⟨hback.turn hsafe hkept hturns ha, hsafe.step hback ho ha⟩

end Mark

lemma run_state {acts : List Act} (hr : Run Step j acts j')
    (hnow : ∃ past, j.memory = past ++ [j.state.records]) :
    ∃ past, j'.memory = past ++ [j'.state.records] := by
  refine hr.invariant (P := fun j => ∃ past, j.memory = past ++ [j.state.records]) hnow ?_
  exact fun t _ _ _ (hs : Step t _ _) => ⟨t.memory, hs.memory⟩

lemma run_part {acts : List Act} {k : ℕ} {records : List Record}
    (hnow : ∃ past, j.memory = past ++ [j.state.records]) (hr : Run Orderly j acts j')
    (hk : k ≤ acts.length) (hrecords : j'.memory[j.memory.length - 1 + k]? = some records) :
    ∃ t, Run Orderly j (acts.take k) t ∧ t.state.records = records ∧
      sections j (acts.take k) t = (sections j acts j').take k := by
  have hsteps : ∀ {s t acts}, Run Orderly s acts t → Run Step s acts t :=
    fun h => h.mono fun _ _ _ ho => ho.1
  rw [← List.take_append_drop k acts] at hr
  obtain ⟨t, ht, hrest⟩ := hr.of_append
  obtain ⟨tail, htail, hlength⟩ := run_memory (hsteps ht)
  obtain ⟨rest, hmemory, -⟩ := run_memory (hsteps hrest)
  obtain ⟨past, hpast⟩ := run_state (hsteps ht) hnow
  rw [List.length_take_of_le hk] at hlength
  refine ⟨t, ht, ?_, ?_⟩
  · have hpositive : 0 < j.memory.length := by
      obtain ⟨past, hpast⟩ := hnow
      rw [hpast, List.length_append]
      exact Nat.succ_pos _
    have hcount : past.length + 1 = j.memory.length + k := by
      have := congrArg List.length (hpast.symm.trans htail)
      simpa [hlength] using this
    have hat : j.memory.length - 1 + k = past.length := by omega
    rw [hmemory, hpast, hat, List.append_assoc, List.getElem?_append_right le_rfl, Nat.sub_self] at hrecords
    exact Option.some.inj hrecords
  · have htake : (acts.zip (tail ++ rest)).take k = (acts.take k).zip ((tail ++ rest).take k) :=
      List.take_zipWith
    rw [sections, sections, hmemory, htail, List.append_assoc, List.drop_left, List.drop_left, htake,
      List.take_left' hlength]

def Act.wrote : Act → Bool
  | .skip => true
  | .save => true
  | _ => false

namespace Journal

lemma step_copies (hs : Step j act j') : j'.copies = (j.went j'.state).copies := by
  cases hs <;> rfl

lemma step_rewound (h : Coherent j) (hs : Step j act j') : j.state.rewound ≤ j'.state.rewound := by
  have hupdate : ∀ {change : State → Bool × State} {pending : Option Pending} {state : State},
      State.Untouched change → j.state.update j.path change = (pending, state) →
        j.state.rewound ≤ state.rewound :=
    fun hu heq => (h.update hu heq).2.1.ge
  cases hs with
  | @start record _ _ => exact hupdate (State.start_untouched record) rfl
  | @refuse record _ _ => exact (State.start_untouched record j.state).2.ge
  | @look id report _ => exact (State.advanceUnsaved_untouched id report j.state).2.ge
  | @stage id report _ _ _ => exact hupdate (State.advance_untouched id report) rfl
  | settle id indices => exact hupdate (State.settle_untouched id indices) rfl
  | forget id => exact hupdate (State.forget_untouched id) rfl
  | claim usable => exact (State.claim_untouched usable j.state).2.ge
  | @recordUnsaved call _ _ =>
    exact (State.advanceUnsaved_untouched call.id call.report j.state).2.ge
  | @recordSame call _ _ same => exact hupdate (State.advance_untouched call.id call.report) same
  | @recordStage call _ _ _ changed =>
    exact hupdate (State.advance_untouched call.id call.report) changed
  | @retake _ pending _ _ =>
    change _ ≤ (j.state.retake pending).2.rewound
    rw [State.retake]
    split <;> exact le_rfl
  | rewind _ => exact h.behind
  | _ => exact le_rfl

structure Since (r written : ℕ) (file : List Record) (j : Journal) : Prop where
  later : r ≤ j.memory.length
  copied : ∀ revision t, j.copies[revision]? = some t → j.state.rewound < revision → r ≤ t
  file : j.written = written ∧ j.file = file ∨ ∃ t, j.copies[j.written]? = some t ∧ r ≤ t

lemma step_file (hs : Step j act j') :
    j'.written = j.written ∧ j'.file = j.file ∨
      ∃ made pending call, j.holder = .checked made pending call ∧ j.written < pending.revision ∧
        j'.written = pending.revision ∧ j'.file = pending.records := by
  cases hs with
  | save checked newer => exact Or.inr ⟨_, _, _, checked, newer, rfl, rfl⟩
  | _ => exact Or.inl ⟨rfl, rfl⟩

variable {r written : ℕ} {file : List Record}

lemma Since.step (h : Since r written file j) (hc : Coherent j) (hheld : Held j)
    (hs : Step j act j') : Since r written file j' := by
  have hmemory : j'.memory.length = j.memory.length + 1 := by
    rw [hs.memory, List.length_append]
    rfl
  obtain ⟨new, hcopies, hnew⟩ := copies_went j'.state j
  rw [← step_copies hs] at hcopies
  have hkept : ∀ {revision t : ℕ}, j.copies[revision]? = some t → j'.copies[revision]? = some t := by
    intro revision t ht
    rw [hcopies, List.getElem?_append_left (List.getElem?_eq_some_iff.mp ht).1, ht]
  refine ⟨?_, ?_, ?_⟩
  · have := h.later
    omega
  · intro revision t ht hrewound
    rw [hcopies] at ht
    by_cases hold : revision < j.copies.length
    · rw [List.getElem?_append_left hold] at ht
      exact h.copied revision t ht ((step_rewound hc hs).trans_lt hrewound)
    · rw [List.getElem?_append_right (not_lt.mp hold)] at ht
      have hm := List.mem_of_getElem? ht
      rcases hnew with ⟨rfl, -⟩ | ⟨rfl, -⟩
      · cases hm
      · rw [List.mem_singleton.mp hm]
        exact h.later
  · rcases step_file hs with ⟨hwritten, hfile⟩ | ⟨made, pending, call, checked, -, hwritten, -⟩
    · rw [hwritten, hfile]
      exact h.file.imp_right fun ⟨t, ht, hr⟩ => ⟨t, hkept ht, hr⟩
    · right
      rw [Held, checked] at hheld
      obtain ⟨-, ⟨t, ht, -⟩, hrewound, -⟩ := hheld
      rw [hwritten]
      exact ⟨t, hkept ht, h.copied _ t ht hrewound⟩

lemma Since.run {acts : List Act} (h : Since r written file j) (hc : Coherent j) (hheld : Held j)
    (hr : Run Step j acts j') : Since r written file j' := by
  have hall : Since r written file j' ∧ Coherent j' ∧ Held j' := by
    refine hr.invariant (P := fun j => Since r written file j ∧ Coherent j ∧ Held j)
      ⟨h, hc, hheld⟩ ?_
    intro t act u ⟨h, hc, hheld⟩ (hs : Step t act u)
    exact ⟨h.step hc hheld hs, step_coherent hc hheld hs⟩
  exact hall.1

lemma since_rewind (hc : Coherent j) (hs : Step j .rewind j') :
    Since j.memory.length j.written j.file j' := by
  have hcopies := step_copies hs
  have hmemory := hs.memory
  cases hs with
  | @rewind made' call' index' step' _ =>
    have hsame : (j.went (j.state.rewind call'.id index' step')).copies = j.copies := by
      simp [went, State.rewind]
    refine ⟨?_, ?_, Or.inl ⟨rfl, rfl⟩⟩
    · rw [hmemory, List.length_append]
      exact Nat.le_add_right _ _
    · intro revision t ht hrewound
      rw [hcopies] at ht
      have hlt := (List.getElem?_eq_some_iff.mp (hsame ▸ ht)).1
      rw [hc.count] at hlt
      change j.state.revision < revision at hrewound
      omega

def Includes (j : Journal) (revision : ℕ) : Prop :=
  ∃ i m, j.copies[revision]? = some i ∧ j.copies[j.written]? = some m ∧ i ≤ m

lemma Coherent.includes (h : Coherent j) {revision : ℕ} (hle : revision ≤ j.written) :
    j.Includes revision := by
  obtain ⟨m, hm, -⟩ := h.file
  have hlt : revision < j.copies.length := hle.trans_lt (List.getElem?_eq_some_iff.mp hm).1
  have hi : j.copies[revision]? = some j.copies[revision] := List.getElem?_eq_getElem hlt
  exact ⟨_, m, hi, hm, copies_le h.ordered hle hi hm⟩

lemma step_written_le (hs : Step j act j') : j.written ≤ j'.written := by
  rcases step_file hs with ⟨hwritten, -⟩ | ⟨_, pending, _, _, newer, hwritten, -⟩
  · exact hwritten.ge
  · rw [hwritten]
    exact newer.le

lemma step_wrote {made : ℕ} {pending : Pending} {call : Option Recording} (hheld : Held j)
    (hchecked : j.holder = .checked made pending call) (hs : Step j act j')
    (hwrote : act.wrote = true) : made ≤ j'.written := by
  rw [Held, hchecked] at hheld
  obtain ⟨hmade, -⟩ := hheld
  cases hs with
  | skip checked newer =>
    rw [hchecked] at checked
    cases checked
    exact hmade.trans newer
  | save checked _ =>
    rw [hchecked] at checked
    cases checked
    exact hmade
  | _ => cases hwrote

end Journal

theorem file_without_rewound {path : Bool} {found : List Record} (hfound : WellKept found)
    {acts : List Act} (hr : Run Step (Journal.opened path found) acts j) :
    j.Copied j.written j.file ∧
      (∀ act j', Step j act j' → j.written ≤ j'.written) ∧
      (∀ made pending call act j', j.holder = .checked made pending call → Step j act j' →
        act.wrote = true → j'.Includes made) ∧
      ∀ made call index step j₁, j.holder = .failed made call index step → Step j .rewind j₁ →
        ∀ later j₂, Run Step j₁ later j₂ →
          (j₂.file = j.file ∧ j₂.written = j.written ∧ j.written < made) ∨
          ∃ k ≤ later.length, j₂.copies[j₂.written]? = some (j.memory.length + k) ∧
            ∀ reached, call.report.reaches = some (index, reached) →
              laneStep j₁.state.records call.id index ≠ some reached → Run Orderly j₁ later j₂ →
                ∀ mark ∈ Mark.carried ⟨call.id, index, reached⟩ ((sections j₁ later j₂).take k),
                  mark.Back j₂.file := by
  obtain ⟨hc, hheld⟩ := Journal.run_coherent (Journal.coherent_opened path found) trivial hr
  obtain ⟨hkept, -⟩ := kept_run (by simpa [Journal.opened] using hfound) hfound hr
  refine ⟨hc.file, fun act j' hs => Journal.step_written_le hs, ?_, ?_⟩
  · intro made pending call act j' hchecked hs hwrote
    exact (Journal.step_coherent hc hheld hs).1.includes (Journal.step_wrote hheld hchecked hs hwrote)
  · intro made call index step j₁ hfailed hs later j₂ hlater
    obtain ⟨hc₁, hheld₁⟩ := Journal.step_coherent hc hheld hs
    obtain ⟨hc₂, -⟩ := Journal.run_coherent hc₁ hheld₁ hlater
    rcases ((Journal.since_rewind hc hs).run hc₁ hheld₁ hlater).file with ⟨hwritten, hfile⟩ | ⟨t, ht, hle⟩
    · left
      rw [Journal.Held, hfailed] at hheld
      exact ⟨hfile, hwritten, hheld.1⟩
    · right
      obtain ⟨tail, hmemory, hlength⟩ := run_memory hlater
      have hlast : j₁.memory.length = j.memory.length + 1 := by
        rw [hs.memory, List.length_append]
        rfl
      have hlt := hc₂.past t (List.mem_of_getElem? ht)
      rw [hmemory, List.length_append, hlength] at hlt
      obtain ⟨k, rfl⟩ := Nat.exists_eq_add_of_le hle
      have hk : k ≤ later.length := by omega
      refine ⟨k, hk, ht, fun reached _ hback horderly mark hmark => ?_⟩
      obtain ⟨t', ht', hrecords⟩ := hc₂.file
      rw [ht] at ht'
      obtain rfl := Option.some.inj ht'
      have hat : j₁.memory.length - 1 + k = j.memory.length + k := by omega
      obtain ⟨part, hpart, hstate, hsections⟩ := run_part ⟨j.memory, hs.memory⟩ horderly hk (hat ▸ hrecords)
      have hsafe : Mark.Safe ⟨call.id, index, reached⟩ j₁ := by
        cases hs with
        | rewind _ =>
          intro undone
          cases undone
      have hback : Mark.Back ⟨call.id, index, reached⟩ j₁.state.records := hback
      have hrun := (hback.run hsafe (hs.turns.kept hkept) hpart).2
      rw [hsections] at hrun
      rw [← hstate]
      exact (hrun mark hmark).1

def unsaved : Journal where
  path := true
  state := ⟨[oneLane none .creatingWorktree], [], [], 1, 0⟩
  written := 0
  file := [oneLane none .planned]
  holder := .failed 1 ⟨1, .lane 0 .creatingWorktree, some (0, .planned)⟩ 0 .planned
  suspended := []
  pending := []
  memory := List.replicate 4 [oneLane none .planned] ++
    List.replicate 3 [oneLane none .creatingWorktree]
  copies := [0, 4]

def rewound : Journal :=
  { unsaved.went (unsaved.state.rewind 1 0 .planned) with holder := .free }

theorem file_without_rewound_base :
    (∃ acts, Run Step (Journal.opened true [oneLane none .planned]) acts unsaved) ∧
      Step unsaved .rewind rewound ∧ ∃ later j, Run Orderly rewound later j ∧
        j.file = [oneLane (some "c") .planned] ∧ laneStep j.file 1 0 ≠ some .creatingWorktree := by
  have hfound : WellKept [oneLane none .planned] := ⟨by decide, by decide, by decide⟩
  have henter : Step (Journal.opened true [oneLane none .planned])
      (.enter 1 (.lane 0 .creatingWorktree)) _ := .enter rfl
  have hr : Run Step (Journal.opened true [oneLane none .planned]) _ unsaved :=
    (((((Run.nil.snoc henter).snoc (.readLane rfl)).snoc (.recordLook rfl rfl)).snoc
      (.recordStage rfl rfl)).snoc (.retake rfl)).snoc (.failRecord rfl (by decide) rfl)
  have hfailed : unsaved.holder =
      .failed 1 ⟨1, .lane 0 .creatingWorktree, some (0, .planned)⟩ 0 .planned := rfl
  have hs : Step unsaved .rewind rewound := .rewind hfailed
  have hbase : Orderly rewound (.enter 1 (.base "c")) _ := ⟨.enter rfl, nofun⟩
  have hlater : Run Orderly rewound _ _ :=
    (((((Run.nil.snoc hbase).snoc ⟨.readBase rfl, nofun⟩).snoc ⟨.recordLook rfl rfl, nofun⟩).snoc
      ⟨.recordStage rfl rfl, nofun⟩).snoc ⟨.retake rfl, nofun⟩).snoc ⟨.save rfl (by decide), nofun⟩
  rcases (file_without_rewound hfound hr).2.2.2 _ _ _ _ _ hfailed hs _ _
    (hlater.mono fun _ _ _ ho => ho.1) with ⟨hfile, -⟩ | ⟨k, hk, hcopied, hback⟩
  · exact absurd hfile (by decide)
  · refine ⟨⟨_, hr⟩, hs, _, _, hlater, rfl, ?_⟩
    obtain rfl : k = 4 := by
      have hat : some 11 = some (7 + k) := hcopied
      have hat := Option.some.inj hat
      omega
    exact hback .creatingWorktree rfl (by decide) hlater ⟨1, 0, .creatingWorktree⟩ rfl

end Sheprd.FanOut
