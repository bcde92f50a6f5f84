import Sheprd.FanOut.Kept

namespace Sheprd.FanOut

open Sheprd.Lib

def Progress.step : Progress → Option Checkpoint
  | .settingUp => none
  | .creatingWorktree => some .creatingWorktree
  | .created _ => some .created
  | .startingAgent => some .startingAgent
  | .prompting => some .prompting
  | .running => some .prompted
  | .failed => none

def Report.reaches : Report → Option (ℕ × Checkpoint)
  | .base _ => none
  | .lane index progress => progress.step.map (Prod.mk index)

section Find

variable {id : UInt64} {change : Record → Bool × Option Record} {records : List Record}

def recordOf (records : List Record) (id : UInt64) : Option Record :=
  records.find? fun record => decide (record.id = id)

lemma recordOf_eq_none : recordOf records id = none ↔ ∀ record ∈ records, record.id ≠ id := by
  simp [recordOf]

lemma recordOf_filter {other : UInt64} (hne : id ≠ other) :
    recordOf (records.filter fun record => decide (record.id ≠ other)) id = recordOf records id := by
  induction records with
  | nil => rfl
  | cons record records ih =>
    by_cases ho : record.id = other
    · have hid : record.id ≠ id := fun h => hne (h.symm.trans ho)
      simpa [recordOf, ho, hid, Ne.symm hne] using ih
    · by_cases hid : record.id = id
      · simp [recordOf, hid, hne]
      · simpa [recordOf, ho, hid] using ih

lemma recordOf_concat {record : Record} (hne : record.id ≠ id) :
    recordOf (records ++ [record]) id = recordOf records id := by
  simp [recordOf, List.find?_append, hne]

lemma recordOf_changeFirst_ne {other : UInt64} (hne : id ≠ other)
    (hid : ∀ record, ∀ kept ∈ (change record).2, kept.id = record.id) :
    recordOf (changeFirst other change records).2 id = recordOf records id := by
  induction records with
  | nil => rfl
  | cons record records ih =>
    rw [changeFirst]
    split
    · rename_i ho
      have hr : ¬record.id = id := fun h => hne (h.symm.trans ho)
      cases hc : (change record).2 with
      | none => simp [recordOf, hc, hr]
      | some kept => simp [recordOf, hc, hr, hid record kept hc]
    · by_cases hr : record.id = id
      · simp [recordOf, hr]
      · simpa [recordOf, hr] using ih

lemma recordOf_changeFirst (hdistinct : (records.map Record.id).Nodup)
    (hid : ∀ record, ∀ kept ∈ (change record).2, kept.id = record.id) :
    recordOf (changeFirst id change records).2 id =
      (recordOf records id).bind fun record => (change record).2 := by
  induction records with
  | nil => rfl
  | cons record records ih =>
    rw [List.map_cons, List.nodup_cons] at hdistinct
    rw [changeFirst]
    split
    · rename_i hr
      have hnone : recordOf records id = none := by
        refine recordOf_eq_none.mpr fun other hm ho => hdistinct.1 ?_
        rw [hr, ← ho]
        exact List.mem_map_of_mem hm
      have hfirst : recordOf (record :: records) id = some record := by simp [recordOf, hr]
      rw [hfirst, Option.bind_some]
      cases hc : (change record).2 with
      | none => simpa [hc] using hnone
      | some kept => simp [recordOf, hc, hid record kept hc, hr]
    · rename_i hr
      have hrest : recordOf (record :: records) id = recordOf records id := by simp [recordOf, hr]
      rw [hrest, ← ih hdistinct.2]
      simp [recordOf, hr]

end Find

lemma SavedLane.reach_step (lane : SavedLane) (step : Checkpoint) :
    (lane.reach step).2.step = lane.step ∨ (lane.reach step).2.step = step := by
  rw [SavedLane.reach]
  split
  · exact Or.inl rfl
  · exact Or.inr rfl

lemma SavedLane.advance_step (lane : SavedLane) (progress : Progress) :
    (lane.advance progress).2.step = lane.step ∨
      progress.step = some (lane.advance progress).2.step := by
  have hreach : ∀ step, (lane.reach step).2.step = lane.step ∨
      some step = some (lane.reach step).2.step := fun step =>
    (lane.reach_step step).imp_right fun h => congrArg some h.symm
  cases progress with
  | settingUp => exact Or.inl rfl
  | failed => exact Or.inl rfl
  | creatingWorktree => exact hreach _
  | startingAgent => exact hreach _
  | prompting => exact hreach _
  | running => exact hreach _
  | created checkout =>
    rw [SavedLane.advance]
    split
    · exact Or.inl rfl
    · exact (SavedLane.reach_step { lane with checkout := some checkout.saved } .created).imp_right
        fun h => congrArg some h.symm

namespace Record

def stepAt (record : Record) (index : ℕ) : Option Checkpoint :=
  record.lanes[index]?.map SavedLane.step

lemma advance_stepAt (record : Record) (report : Report) (i : ℕ) :
    (record.advance report).2.stepAt i = record.stepAt i ∨
      ∃ reached, report.reaches = some (i, reached) ∧
        (record.advance report).2.stepAt i = some reached := by
  cases report with
  | base commit =>
    rw [advance]
    split <;> exact Or.inl rfl
  | lane index progress =>
    rw [advance]
    split
    · rename_i lane hlane
      by_cases hi : index = i
      · subst hi
        have hstep : stepAt { record with lanes := record.lanes.set index (lane.advance progress).2 } index =
            some (lane.advance progress).2.step := by
          rw [stepAt, List.getElem?_set_self (List.getElem?_eq_some_iff.mp hlane).1]
          rfl
        rw [hstep]
        rcases lane.advance_step progress with hsame | hreached
        · left
          rw [hsame, stepAt, hlane]
          rfl
        · exact Or.inr ⟨_, by rw [Report.reaches, hreached]; rfl, rfl⟩
      · left
        rw [stepAt, List.getElem?_set_ne hi, stepAt]
    · exact Or.inl rfl

lemma rewind_stepAt (record : Record) (index : ℕ) (step : Checkpoint) (i : ℕ) :
    (record.rewind index step).stepAt i = record.stepAt i ∨
      i = index ∧ (record.rewind index step).stepAt i = some step := by
  rw [stepAt, rewind, List.getElem?_modify, stepAt]
  cases record.lanes[i]? with
  | none => exact Or.inl rfl
  | some lane =>
    by_cases hi : index = i
    · by_cases hc : step.hasCheckout = lane.checkout.isSome
      · right
        simp [hi, hc]
      · left
        simp [hi, hc]
    · left
      simp [hi]

end Record

def rank (indices : List ℕ) (index : ℕ) : ℕ :=
  ((List.range index).filter fun i => decide (i ∉ indices)).length

lemma kept_getElem? {α : Type} (indices : List ℕ) (lanes : List α) (k i : ℕ)
    (hi : k + i ∉ indices) :
    ((lanes.zipIdx k).filter fun entry => decide (entry.2 ∉ indices))[
      ((List.range' k i).filter fun i => decide (i ∉ indices)).length]?.map Prod.fst = lanes[i]? := by
  induction lanes generalizing k i with
  | nil => simp
  | cons lane lanes ih =>
    cases i with
    | zero =>
      have hk : k ∉ indices := hi
      simp [hk]
    | succ i =>
      have hnext := ih (k + 1) i (by rwa [Nat.add_right_comm, Nat.add_assoc])
      rw [List.range'_succ, List.zipIdx_cons]
      by_cases hk : k ∈ indices
      · simpa [hk] using hnext
      · simpa [hk] using hnext

lemma Record.settle_stepAt (record : Record) {indices : List ℕ} {i : ℕ} (hi : i ∉ indices) :
    (record.settle indices).stepAt (rank indices i) = record.stepAt i := by
  have hkept := kept_getElem? indices record.lanes 0 i (by rwa [Nat.zero_add])
  rw [← List.range_eq_range'] at hkept
  rw [stepAt, settle, List.getElem?_map, rank, hkept, stepAt]

structure Mark where
  id : UInt64
  index : ℕ
  step : Checkpoint

namespace Mark

def after (mark : Mark) : Act × List Record → Option Mark
  | (.start record, _) => if mark.id = record.id then none else some mark
  | (.stage id report, records) =>
      if mark.id = id ∧ report.reaches = some (mark.index, mark.step) ∧
          laneStep records mark.id mark.index = some mark.step then none
      else some mark
  | (.settle id indices, _) =>
      if mark.id = id then
        if mark.index ∈ indices then none else some { mark with index := rank indices mark.index }
      else some mark
  | (.forget id, _) => if mark.id = id then none else some mark
  | _ => some mark

def carried (mark : Mark) (sections : List (Act × List Record)) : Option Mark :=
  sections.foldlM after mark

def Back (mark : Mark) (records : List Record) : Prop :=
  laneStep records mark.id mark.index ≠ some mark.step

variable {mark mark' : Mark} {records : List Record} {id : UInt64}

lemma back_iff : mark.Back records ↔
    ∀ record ∈ recordOf records mark.id, record.stepAt mark.index ≠ some mark.step := by
  rw [Back, laneStep]
  change ¬(recordOf records mark.id).bind (fun record => record.stepAt mark.index) = _ ↔ _
  cases recordOf records mark.id with
  | none => simp
  | some record => simp

lemma back_of_recordOf {records' : List Record} (h : mark.Back records)
    (heq : recordOf records' mark.id = recordOf records mark.id) : mark.Back records' := by
  rw [back_iff, heq]
  exact back_iff.mp h

lemma Back.start {record : Record} {s : State} (h : mark.Back s.records)
    (ha : mark.after (.start record, (s.start record).2.records) = some mark') :
    mark'.Back (s.start record).2.records := by
  obtain ⟨hne, hm⟩ := Option.ite_none_left_eq_some.mp ha
  obtain rfl := Option.some.inj hm
  rw [State.start]
  split
  · exact back_of_recordOf h (recordOf_filter hne)
  · refine back_of_recordOf h ?_
    rw [recordOf_concat (Ne.symm hne), recordOf_filter hne]

lemma Back.advance (h : mark.Back records) (hdistinct : (records.map Record.id).Nodup)
    {report : Report}
    (hother : ¬(mark.id = id ∧ report.reaches = some (mark.index, mark.step))) :
    mark.Back (advanceIn id report records).2 := by
  have hid := advance_ids report
  by_cases hsame : mark.id = id
  · subst hsame
    rw [back_iff, advanceIn, recordOf_changeFirst hdistinct hid]
    intro record hr
    obtain ⟨known, hk, hr⟩ := Option.bind_eq_some_iff.mp hr
    obtain rfl := Option.some.inj hr
    rcases known.advance_stepAt report mark.index with heq | ⟨reached, hreaches, heq⟩
    · rw [heq]
      exact back_iff.mp h known hk
    · rw [heq]
      rintro hstep
      obtain rfl := Option.some.inj hstep
      exact hother ⟨rfl, hreaches⟩
  · exact back_of_recordOf h (recordOf_changeFirst_ne hsame hid)

lemma Back.stage (h : mark.Back records) (hdistinct : (records.map Record.id).Nodup)
    {report : Report}
    (ha : mark.after (.stage id report, (advanceIn id report records).2) = some mark') :
    mark'.Back (advanceIn id report records).2 := by
  obtain ⟨hother, hm⟩ := Option.ite_none_left_eq_some.mp ha
  obtain rfl := Option.some.inj hm
  by_cases hreaches : mark.id = id ∧ report.reaches = some (mark.index, mark.step)
  · exact fun hat => hother ⟨hreaches.1, hreaches.2, hat⟩
  · exact h.advance hdistinct hreaches

lemma Back.settle (h : mark.Back records) (hdistinct : (records.map Record.id).Nodup)
    {indices : List ℕ}
    (ha : mark.after (.settle id indices, (settleIn id indices records).2) = some mark') :
    mark'.Back (settleIn id indices records).2 := by
  have hid := settle_ids indices
  rw [after] at ha
  split at ha
  · rename_i hsame
    subst hsame
    obtain ⟨hkept, hm⟩ := Option.ite_none_left_eq_some.mp ha
    obtain rfl := Option.some.inj hm
    rw [back_iff, settleIn, recordOf_changeFirst hdistinct hid]
    intro record hr
    obtain ⟨known, hk, hr⟩ := Option.bind_eq_some_iff.mp hr
    obtain ⟨-, hr⟩ := Option.ite_none_right_eq_some.mp hr
    obtain rfl := Option.some.inj hr
    change (known.settle indices).stepAt (rank indices mark.index) ≠ some mark.step
    rw [known.settle_stepAt hkept]
    exact back_iff.mp h known hk
  · rename_i hne
    obtain rfl := Option.some.inj ha
    exact back_of_recordOf h (recordOf_changeFirst_ne hne hid)

lemma Back.forget (h : mark.Back records)
    (ha : mark.after (.forget id, records.filter fun record => decide (record.id ≠ id)) = some mark') :
    mark'.Back (records.filter fun record => decide (record.id ≠ id)) := by
  obtain ⟨hne, hm⟩ := Option.ite_none_left_eq_some.mp ha
  obtain rfl := Option.some.inj hm
  exact back_of_recordOf h (recordOf_filter hne)

lemma Back.rewind (h : mark.Back records) (hdistinct : (records.map Record.id).Nodup) {index : ℕ}
    {step : Checkpoint} (hspared : mark.id = id → mark.index = index → step ≠ mark.step) :
    mark.Back (rewindIn id index step records) := by
  have hid := rewind_ids index step
  by_cases hsame : mark.id = id
  · subst hsame
    rw [back_iff, rewindIn, recordOf_changeFirst hdistinct hid]
    intro record hr
    obtain ⟨known, hk, hr⟩ := Option.bind_eq_some_iff.mp hr
    obtain rfl := Option.some.inj hr
    rcases known.rewind_stepAt index step mark.index with heq | ⟨hi, heq⟩
    · rw [heq]
      exact back_iff.mp h known hk
    · rw [heq]
      exact fun hstep => hspared rfl hi (Option.some.inj hstep)
  · exact back_of_recordOf h (recordOf_changeFirst_ne hsame hid)

end Mark

end Sheprd.FanOut
