import Sheprd.FanOut.Journal

namespace Sheprd.FanOut

namespace SavedLane

lemma valid_iff {lane : SavedLane} : lane.valid = true ↔
    (AgentKind.parse lane.kind).isSome = true ∧ FanOut.fits lane.branch = true ∧
      FanOut.fits lane.agent = true ∧ lane.step.hasCheckout = lane.checkout.isSome ∧
      lane.checkout.all SavedCheckout.fits = true := by
  simp only [valid, Bool.and_eq_true, decide_eq_true_eq, and_assoc]

lemma reach_valid {lane : SavedLane} {checkout : Option SavedCheckout} {step : Checkpoint}
    (h : lane.valid = true) (hfits : checkout.all SavedCheckout.fits = true)
    (hsame : step.hasCheckout ≠ checkout.isSome → checkout = lane.checkout) :
    (SavedLane.reach { lane with checkout } step).2.valid = true := by
  obtain ⟨hkind, hbranch, hagent, hstep, -⟩ := valid_iff.mp h
  rw [reach]
  split
  · rename_i hne
    rw [hsame hne]
    exact h
  · rename_i heq
    exact valid_iff.mpr ⟨hkind, hbranch, hagent, not_not.mp heq, hfits⟩

lemma advance_valid {lane : SavedLane} (h : lane.valid = true) (progress : Progress) :
    (lane.advance progress).2.valid = true := by
  have hfits : lane.checkout.all SavedCheckout.fits = true := (valid_iff.mp h).2.2.2.2
  cases progress with
  | settingUp => exact h
  | failed => exact h
  | creatingWorktree => exact reach_valid h hfits fun _ => rfl
  | startingAgent => exact reach_valid h hfits fun _ => rfl
  | prompting => exact reach_valid h hfits fun _ => rfl
  | running => exact reach_valid h hfits fun _ => rfl
  | created checkout =>
    rw [advance]
    split
    · exact h
    · rename_i hnew
      have hnew : checkout.saved.fits = true ∧ lane.checkout.isSome = false := by simpa using hnew
      exact reach_valid h hnew.1 fun hne => absurd rfl hne

end SavedLane

namespace Record

lemma valid_iff {record : Record} : record.valid = true ↔
    (([record.origin.endpointId, record.origin.host, record.origin.endpointLabel,
        record.origin.workspaceId, record.origin.repoKey, record.origin.repoLabel,
        record.origin.base].all fits = true ∧ record.commit.all fits = true) ∧
      (record.prompt.all fun prompt => decide (prompt.utf8ByteSize ≤ maxPromptBytes)) = true) ∧
      record.lanes ≠ [] ∧ record.lanes.length ≤ maxLanes ∧ ∀ lane ∈ record.lanes, lane.valid = true := by
  simp only [valid, Bool.and_eq_true, Bool.not_eq_true', List.isEmpty_eq_false_iff,
    decide_eq_true_eq, List.all_eq_true, and_assoc]

lemma valid_lanes {record : Record} (h : record.valid = true) {lanes : List SavedLane}
    (hne : lanes ≠ []) (hlength : lanes.length ≤ record.lanes.length)
    (hlanes : ∀ lane ∈ lanes, lane.valid = true) : Record.valid { record with lanes } = true := by
  obtain ⟨htexts, -, hmax, -⟩ := valid_iff.mp h
  exact valid_iff.mpr ⟨htexts, hne, hlength.trans hmax, hlanes⟩

lemma advance_id (record : Record) (report : Report) : (record.advance report).2.id = record.id := by
  cases report with
  | base commit =>
    rw [advance]
    split <;> rfl
  | lane index progress =>
    rw [advance]
    split <;> rfl

lemma advance_valid {record : Record} (h : record.valid = true) (report : Report) :
    (record.advance report).2.valid = true := by
  cases report with
  | base commit =>
    rw [advance]
    split
    · rename_i hfits
      obtain ⟨⟨⟨horigin, -⟩, hprompt⟩, hlanes⟩ := valid_iff.mp h
      exact valid_iff.mpr ⟨⟨⟨horigin, hfits⟩, hprompt⟩, hlanes⟩
    · exact h
  | lane index progress =>
    obtain ⟨-, hne, -, hlanes⟩ := valid_iff.mp h
    rw [advance]
    split
    · rename_i lane hlane
      refine valid_lanes h ?_ List.length_set.le ?_
      · simpa using hne
      · intro other hm
        rcases List.mem_or_eq_of_mem_set hm with hm | rfl
        · exact hlanes other hm
        · exact SavedLane.advance_valid (hlanes lane (List.mem_of_getElem? hlane)) progress
    · exact h

lemma settle_valid {record : Record} (h : record.valid = true) (indices : List ℕ)
    (hworth : (record.settle indices).worthKeeping = true) :
    (record.settle indices).valid = true := by
  obtain ⟨-, -, -, hlanes⟩ := valid_iff.mp h
  refine valid_lanes h ?_ ?_ ?_
  · intro hnil
    rw [worthKeeping, settle, hnil] at hworth
    cases hworth
  · rw [List.length_map]
    exact (List.length_filter_le _ _).trans List.length_zipIdx.le
  · intro lane hm
    obtain ⟨entry, hentry, rfl⟩ := List.mem_map.mp hm
    exact hlanes entry.1 (List.fst_mem_of_mem_zipIdx (List.mem_of_mem_filter hentry))

lemma rewind_valid {record : Record} (h : record.valid = true) (index : ℕ) (step : Checkpoint) :
    (record.rewind index step).valid = true := by
  obtain ⟨-, hne, -, hlanes⟩ := valid_iff.mp h
  refine valid_lanes h ?_ (by rw [List.length_modify]) ?_
  · simpa using hne
  · intro lane hm
    obtain ⟨i, hi, rfl⟩ := List.mem_iff_getElem.mp hm
    rw [List.getElem_modify]
    have hi' : i < record.lanes.length := by simpa using hi
    have hlane := hlanes _ (List.getElem_mem hi')
    split
    · split
      · rename_i hcheckout
        obtain ⟨hkind, hbranch, hagent, -, hfits⟩ := SavedLane.valid_iff.mp hlane
        exact SavedLane.valid_iff.mpr ⟨hkind, hbranch, hagent, hcheckout, hfits⟩
      · exact hlane
    · exact hlane

end Record

structure WellKept (records : List Record) : Prop where
  valid : ∀ record ∈ records, record.valid = true
  distinct : (records.map Record.id).Nodup
  few : records.length ≤ maxRecords

lemma wellKept_nil : WellKept [] := ⟨List.forall_mem_nil _, .nil, Nat.zero_le _⟩

def oneLane (commit : Option String) (step : Checkpoint) : Record where
  id := 1
  origin := ⟨"", "", "", "", "", "", ""⟩
  commit := commit
  prompt := none
  lanes := [⟨"claude", "", "", step, none⟩]

section ChangeFirst

variable {id : UInt64} {change : Record → Bool × Option Record} {records : List Record}

lemma changeFirst_ids (hid : ∀ record, ∀ kept ∈ (change record).2, kept.id = record.id) :
    ((changeFirst id change records).2.map Record.id).Sublist (records.map Record.id) := by
  induction records with
  | nil => exact .slnil
  | cons record records ih =>
    rw [changeFirst]
    split
    · cases hc : (change record).2 with
      | none =>
        simp only [hc]
        exact List.sublist_cons_self _ _
      | some kept =>
        simp only [hc, Option.toList_some, List.singleton_append, List.map_cons, hid record kept hc]
        exact List.Sublist.refl _
    · exact ih.cons_cons _

lemma changeFirst_forall {P : Record → Prop} (h : ∀ record ∈ records, P record)
    (hchange : ∀ record, P record → ∀ kept ∈ (change record).2, P kept) :
    ∀ record ∈ (changeFirst id change records).2, P record := by
  induction records with
  | nil => exact List.forall_mem_nil _
  | cons record records ih =>
    obtain ⟨hrecord, hrest⟩ := List.forall_mem_cons.mp h
    rw [changeFirst]
    split
    · intro other hm
      rcases List.mem_append.mp hm with hm | hm
      · exact hchange record hrecord other (Option.mem_toList.mp hm)
      · exact hrest other hm
    · exact List.forall_mem_cons.mpr ⟨hrecord, ih hrest⟩

lemma WellKept.changeFirst (h : WellKept records)
    (hid : ∀ record, ∀ kept ∈ (change record).2, kept.id = record.id)
    (hchange : ∀ record, record.valid = true → ∀ kept ∈ (change record).2, kept.valid = true) :
    WellKept (changeFirst id change records).2 := by
  have hids : ((FanOut.changeFirst id change records).2.map Record.id).Sublist
      (records.map Record.id) := changeFirst_ids hid
  refine ⟨changeFirst_forall h.valid hchange, h.distinct.sublist hids, ?_⟩
  have hlength := hids.length_le
  rw [List.length_map, List.length_map] at hlength
  exact hlength.trans h.few

end ChangeFirst

section Ids

variable (id : UInt64) (records : List Record)

lemma advance_ids (report : Report) :
    ∀ record : Record, ∀ kept ∈ some (record.advance report).2, kept.id = record.id := by
  intro record kept hk
  obtain rfl := Option.some.inj hk
  exact record.advance_id report

lemma settle_ids (indices : List ℕ) : ∀ record : Record, ∀ kept ∈
    (if (record.settle indices).worthKeeping then some (record.settle indices) else none),
    kept.id = record.id := by
  intro record kept hk
  obtain ⟨-, hk⟩ := Option.ite_none_right_eq_some.mp hk
  obtain rfl := Option.some.inj hk
  rfl

lemma rewind_ids (index : ℕ) (step : Checkpoint) :
    ∀ record : Record, ∀ kept ∈ some (record.rewind index step), kept.id = record.id := by
  intro record kept hk
  obtain rfl := Option.some.inj hk
  rfl

lemma advanceIn_ids (report : Report) :
    ((advanceIn id report records).2.map Record.id).Sublist (records.map Record.id) :=
  changeFirst_ids (advance_ids report)

lemma settleIn_ids (indices : List ℕ) :
    ((settleIn id indices records).2.map Record.id).Sublist (records.map Record.id) :=
  changeFirst_ids (settle_ids indices)

lemma rewindIn_ids (index : ℕ) (step : Checkpoint) :
    ((rewindIn id index step records).map Record.id).Sublist (records.map Record.id) :=
  changeFirst_ids (rewind_ids index step)

end Ids

namespace WellKept

variable {records : List Record} (h : WellKept records)

include h

lemma filter (p : Record → Bool) : WellKept (records.filter p) where
  valid record hm := h.valid record (List.mem_of_mem_filter hm)
  distinct := h.distinct.sublist (List.filter_sublist.map Record.id)
  few := (List.length_filter_le p records).trans h.few

lemma advanceIn (id : UInt64) (report : Report) : WellKept (advanceIn id report records).2 := by
  refine h.changeFirst (advance_ids report) fun record hv kept hk => ?_
  obtain rfl := Option.some.inj hk
  exact Record.advance_valid hv report

lemma settleIn (id : UInt64) (indices : List ℕ) : WellKept (settleIn id indices records).2 := by
  refine h.changeFirst (settle_ids indices) fun record hv kept hk => ?_
  obtain ⟨hworth, hk⟩ := Option.ite_none_right_eq_some.mp hk
  obtain rfl := Option.some.inj hk
  exact Record.settle_valid hv indices hworth

lemma rewindIn (id : UInt64) (index : ℕ) (step : Checkpoint) :
    WellKept (rewindIn id index step records) := by
  refine h.changeFirst (rewind_ids index step) fun record hv kept hk => ?_
  obtain rfl := Option.some.inj hk
  exact Record.rewind_valid hv index step

lemma push {record : Record} (hvalid : record.valid = true)
    (hnew : ∀ known ∈ records, known.id ≠ record.id) (hroom : records.length < maxRecords) :
    WellKept (records ++ [record]) where
  valid known hm := by
    rcases List.mem_append.mp hm with hm | hm
    · exact h.valid known hm
    · rw [List.mem_singleton.mp hm]
      exact hvalid
  distinct := by
    rw [List.map_append]
    refine List.nodup_append.mpr ⟨h.distinct, List.nodup_singleton _, ?_⟩
    rintro _ hm _ hm' rfl
    obtain ⟨known, hk, hid⟩ := List.mem_map.mp hm
    exact hnew known hk (hid.trans (List.mem_singleton.mp hm'))
  few := by
    rw [List.length_append]
    exact hroom

end WellKept

namespace State

variable {s : State} (h : WellKept s.records)

lemma update_cases (path : Bool) (change : State → Bool × State) (s : State) :
    s.update path change = (none, (change s).2) ∨ (path = true ∧ (change s).1 = true ∧
      s.update path change = (some ⟨(change s).2.revision + 1, (change s).2.records⟩,
        { (change s).2 with revision := (change s).2.revision + 1 })) := by
  rw [update]
  rcases change s with ⟨changed, s'⟩
  cases changed with
  | false => exact Or.inl rfl
  | true =>
    cases path with
    | false => exact Or.inl rfl
    | true => exact Or.inr ⟨rfl, rfl, rfl⟩

lemma update_records (path : Bool) (change : State → Bool × State) (s : State) :
    (s.update path change).2.records = (change s).2.records := by
  rcases update_cases path change s with h | ⟨-, -, h⟩
  · rw [h]
  · rw [h]

include h

lemma start_kept {record : Record} (hvalid : record.valid = true) :
    WellKept (s.start record).2.records := by
  have hkept := h.filter fun known => decide (known.id ≠ record.id)
  rw [start]
  split
  · exact hkept
  · rename_i hroom
    refine hkept.push hvalid (fun known hm => ?_) (not_le.mp hroom)
    simpa using (List.mem_filter.mp hm).2

end State

variable {j j' : Journal} {act : Act}

lemma Step.memory (hs : Step j act j') : j'.memory = j.memory ++ [j'.state.records] := by
  cases hs <;> rfl

def Act.replaces : Act → Option UInt64
  | .start record => some record.id
  | .settle id _ => some id
  | .forget id => some id
  | _ => none

inductive Turns (j : Journal) : Act → List Record → Prop
  | same {act : Act} (quiet : act.replaces = none) : Turns j act j.state.records
  | start {record : Record} (valid : record.valid = true) :
      Turns j (.start record) (j.state.start record).2.records
  | stage (id : UInt64) (report : Report) :
      Turns j (.stage id report) (advanceIn id report j.state.records).2
  | settle (id : UInt64) (indices : List ℕ) :
      Turns j (.settle id indices) (settleIn id indices j.state.records).2
  | forget (id : UInt64) :
      Turns j (.forget id) (j.state.records.filter fun record => decide (record.id ≠ id))
  | rewind {made : ℕ} {call : Recording} {index : ℕ} {step : Checkpoint}
      (failed : j.holder = .failed made call index step) :
      Turns j .rewind (rewindIn call.id index step j.state.records)

lemma Turns.of_eq {records records' : List Record} (h : Turns j act records)
    (heq : records' = records) : Turns j act records' := heq ▸ h

lemma Step.turns (hs : Step j act j') : Turns j act j'.state.records := by
  have hupdate : ∀ {change : State → Bool × State},
      (j.state.update j.path change).2.records = (change j.state).2.records :=
    State.update_records _ _ _
  cases hs with
  | start valid _ => exact (Turns.start valid).of_eq hupdate
  | refuse valid _ => exact .start valid
  | @look id report _ =>
    refine (Turns.same rfl).of_eq ?_
    change (j.state.advanceUnsaved id report).2.records = _
    rw [State.advanceUnsaved]
    split <;> rfl
  | @stage id report _ _ _ => exact (Turns.stage id report).of_eq hupdate
  | settle id indices => exact (Turns.settle id indices).of_eq hupdate
  | forget id => exact (Turns.forget id).of_eq hupdate
  | claim usable =>
    refine (Turns.same rfl).of_eq ?_
    change (j.state.claim usable).2.records = _
    rw [State.claim]
    split <;> rfl
  | @recordUnsaved call _ _ =>
    refine (Turns.same rfl).of_eq ?_
    change (j.state.advanceUnsaved call.id call.report).2.records = _
    rw [State.advanceUnsaved]
    split <;> rfl
  | @recordSame call state _ same =>
    refine (Turns.stage call.id call.report).of_eq ?_
    exact (congrArg (fun result => result.2.records) same).symm.trans hupdate
  | @recordStage call pending state _ changed =>
    refine (Turns.stage call.id call.report).of_eq ?_
    exact (congrArg (fun result => result.2.records) changed).symm.trans hupdate
  | @retake made pending call _ =>
    refine (Turns.same rfl).of_eq ?_
    change (j.state.retake pending).2.records = _
    rw [State.retake]
    split <;> rfl
  | rewind failed => exact .rewind failed
  | _ => exact .same rfl

lemma Turns.ids {records : List Record} (ht : Turns j act records) :
    ∀ record ∈ records, act.replaces = some record.id ∨
      record.id ∈ j.state.records.map Record.id := by
  have hsub : ∀ {records : List Record},
      (records.map Record.id).Sublist (j.state.records.map Record.id) →
        ∀ record ∈ records, record.id ∈ j.state.records.map Record.id :=
    fun h record hm => h.subset (List.mem_map_of_mem hm)
  cases ht with
  | same _ => exact fun record hm => Or.inr (List.mem_map_of_mem hm)
  | @start new _ =>
    intro record hm
    rw [State.start] at hm
    split at hm
    · exact Or.inr (hsub (List.filter_sublist.map Record.id) record hm)
    · rcases List.mem_append.mp hm with hm | hm
      · exact Or.inr (hsub (List.filter_sublist.map Record.id) record hm)
      · rw [List.mem_singleton.mp hm]
        exact Or.inl rfl
  | stage id report => exact fun record hm => Or.inr (hsub (advanceIn_ids id _ report) record hm)
  | settle id indices => exact fun record hm => Or.inr (hsub (settleIn_ids id _ indices) record hm)
  | forget id => exact fun record hm => Or.inr (hsub (List.filter_sublist.map Record.id) record hm)
  | @rewind _ _ index step _ =>
    exact fun record hm => Or.inr (hsub (rewindIn_ids _ _ index step) record hm)

lemma Turns.kept {records : List Record} (h : WellKept j.state.records)
    (ht : Turns j act records) : WellKept records := by
  cases ht with
  | same _ => exact h
  | start valid => exact State.start_kept h valid
  | stage id report => exact h.advanceIn id report
  | settle id indices => exact h.settleIn id indices
  | forget id => exact h.filter _
  | rewind failed => exact h.rewindIn _ _ _

lemma kept_run {acts : List Act} (h : ∀ records ∈ j.memory, WellKept records)
    (hnow : WellKept j.state.records) (hr : Lib.Run Step j acts j') :
    WellKept j'.state.records ∧ ∀ records ∈ j'.memory, WellKept records := by
  refine hr.invariant (P := fun j => WellKept j.state.records ∧ ∀ records ∈ j.memory, WellKept records)
    ⟨hnow, h⟩ ?_
  intro j act j' hj (hs : Step j act j')
  have hkept := hs.turns.kept hj.1
  refine ⟨hkept, fun records hm => ?_⟩
  rw [hs.memory] at hm
  rcases List.mem_append.mp hm with hm | hm
  · exact hj.2 records hm
  · rw [List.mem_singleton.mp hm]
    exact hkept

end Sheprd.FanOut
