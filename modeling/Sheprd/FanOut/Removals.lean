import Sheprd.FanOut.Window

set_option linter.dupNamespace false

namespace Sheprd.FanOut

section DropAt

variable {α β : Type}

lemma map_dropAt (f : α → β) (indices : List ℕ) (list : List α) :
    (dropAt indices list).map f = dropAt indices (list.map f) := by
  rw [dropAt, dropAt, List.zipIdx_map, List.filter_map, List.map_map, List.map_map]
  rfl

lemma dropAt_nil (list : List α) : dropAt [] list = list := by
  simp [dropAt]

lemma dropAt_sublist (indices : List ℕ) (list : List α) : (dropAt indices list).Sublist list := by
  have h := (List.filter_sublist (p := fun entry : α × ℕ => decide (entry.2 ∉ indices))
    (l := list.zipIdx)).map Prod.fst
  rwa [List.zipIdx_map_fst] at h

lemma dropAt_rank {indices : List ℕ} {list : List α} {i : ℕ} (hi : i ∉ indices) :
    (dropAt indices list)[rank indices i]? = list[i]? := by
  have hkept := kept_getElem? indices list 0 i (by rwa [Nat.zero_add])
  rw [← List.range_eq_range'] at hkept
  rw [dropAt, List.getElem?_map, rank, hkept]

end DropAt

lemma foldl_rank (gone : List ℕ) (winner n : ℕ) :
    (List.range n).foldl (fun kept index =>
      if index ∈ gone ∧ index < winner then kept - 1 else kept) winner =
      rank gone (min n winner) + (winner - n) := by
  have hfew : ∀ k, rank gone k ≤ k := fun k =>
    (List.length_filter_le _ _).trans (by rw [List.length_range])
  have hsucc : ∀ k, rank gone (k + 1) = rank gone k + if k ∈ gone then 0 else 1 := by
    intro k
    rw [rank, List.range_succ, List.filter_append, List.length_append]
    by_cases hk : k ∈ gone <;> simp [rank, hk]
  induction n with
  | zero => simp [rank]
  | succ n ih =>
    rw [List.range_succ, List.foldl_append, ih]
    simp only [List.foldl_cons, List.foldl_nil]
    rcases lt_or_ge n winner with hlt | hge
    · rw [min_eq_left hlt.le, min_eq_left hlt, hsucc]
      by_cases hg : n ∈ gone
      · rw [if_pos ⟨hg, hlt⟩, if_pos hg]
        omega
      · rw [if_neg (fun h => hg h.1), if_neg hg]
        omega
    · rw [min_eq_right hge, min_eq_right (hge.trans (Nat.le_succ n)),
        if_neg (fun h => (not_lt.mpr hge) h.2)]
      omega

lemma FanOut.keptIndex_eq {f : FanOut} {gone : List ℕ} {winner : ℕ}
    (h : winner < f.lanes.length) : f.keptIndex gone winner = rank gone winner := by
  rw [FanOut.keptIndex, foldl_rank, min_eq_right h.le, Nat.sub_eq_zero_of_le h.le, Nat.add_zero]

section Names

def Record.names (record : Record) : List (Option Lane) := record.lanes.map SavedLane.lane

lemma SavedLane.advance_lane (lane : SavedLane) (progress : Progress) :
    (lane.advance progress).2.lane = lane.lane := by
  have hreach : ∀ (other : SavedLane) (step : Checkpoint), (other.reach step).2.lane = other.lane := by
    intro other step
    rw [SavedLane.reach]
    split <;> rfl
  cases progress with
  | settingUp => rfl
  | failed => rfl
  | creatingWorktree => exact hreach _ _
  | startingAgent => exact hreach _ _
  | prompting => exact hreach _ _
  | running => exact hreach _ _
  | created checkout =>
    rw [SavedLane.advance]
    split
    · rfl
    · exact hreach { lane with checkout := some checkout.saved } _

namespace Record

lemma advance_names (record : Record) (report : Report) :
    (record.advance report).2.names = record.names := by
  cases report with
  | base commit =>
    rw [advance]
    split <;> rfl
  | lane index progress =>
    rw [advance]
    split
    · rename_i lane hlane
      refine List.ext_getElem? fun i => ?_
      rw [names, List.getElem?_map, names, List.getElem?_map]
      by_cases hi : index = i
      · subst hi
        rw [List.getElem?_set_self (List.getElem?_eq_some_iff.mp hlane).1, hlane]
        exact congrArg some (lane.advance_lane progress)
      · rw [List.getElem?_set_ne hi]
    · rfl

lemma rewind_names (record : Record) (index : ℕ) (step : Checkpoint) :
    (record.rewind index step).names = record.names := by
  refine List.ext_getElem? fun i => ?_
  rw [names, rewind, List.getElem?_map, List.getElem?_modify, names, List.getElem?_map]
  cases record.lanes[i]? with
  | none => rfl
  | some lane =>
    by_cases hi : index = i
    · by_cases hc : step.hasCheckout = lane.checkout.isSome
      · simp [hi, hc, SavedLane.lane]
      · simp [hi, hc]
    · simp [hi]

lemma settle_names (record : Record) (indices : List ℕ) :
    (record.settle indices).names = dropAt indices record.names :=
  map_dropAt SavedLane.lane indices record.lanes

end Record

lemma mem_changeFirst {id : UInt64} {change : Record → Bool × Option Record}
    {records : List Record} (hdistinct : (records.map Record.id).Nodup) {record : Record}
    (hm : record ∈ (changeFirst id change records).2) :
    (record ∈ records ∧ record.id ≠ id) ∨
      ∃ known ∈ records, known.id = id ∧ record ∈ (change known).2 := by
  induction records with
  | nil => cases hm
  | cons known records ih =>
    rw [List.map_cons, List.nodup_cons] at hdistinct
    rw [changeFirst] at hm
    split at hm
    · rename_i hid
      rcases List.mem_append.mp hm with hm | hm
      · exact Or.inr ⟨known, List.mem_cons_self, hid, Option.mem_toList.mp hm⟩
      · refine Or.inl ⟨List.mem_cons_of_mem _ hm, fun hsame => hdistinct.1 ?_⟩
        rw [hid, ← hsame]
        exact List.mem_map_of_mem hm
    · rename_i hid
      rcases List.mem_cons.mp hm with rfl | hm
      · exact Or.inl ⟨List.mem_cons_self, hid⟩
      · rcases ih hdistinct.2 hm with ⟨hk, hne⟩ | ⟨other, hk, ho⟩
        · exact Or.inl ⟨List.mem_cons_of_mem _ hk, hne⟩
        · exact Or.inr ⟨other, List.mem_cons_of_mem _ hk, ho⟩

def Lists (records : List Record) (id : UInt64) (lanes : List (Option Lane)) : Prop :=
  ∀ record ∈ records, record.id = id → record.names = lanes

variable {id other : UInt64} {lanes : List (Option Lane)} {records : List Record}

namespace Lists

lemma filter (h : Lists records id lanes) (p : Record → Bool) : Lists (records.filter p) id lanes :=
  fun record hm => h record (List.mem_of_mem_filter hm)

lemma append {more : List Record} (h : Lists records id lanes) (hmore : Lists more id lanes) :
    Lists (records ++ more) id lanes := by
  intro record hm
  rcases List.mem_append.mp hm with hm | hm
  · exact h record hm
  · exact hmore record hm

lemma concat {record : Record} (h : Lists records id lanes) (hne : record.id ≠ id) :
    Lists (records ++ [record]) id lanes := by
  refine h.append fun known hm hid => ?_
  rw [List.mem_singleton.mp hm] at hid
  exact absurd hid hne

variable (hdistinct : (records.map Record.id).Nodup)

include hdistinct

lemma changeFirst {change : Record → Bool × Option Record} (h : Lists records id lanes)
    (hids : ∀ record, ∀ kept ∈ (change record).2, kept.id = record.id)
    (hsame : other ≠ id ∨ ∀ record, ∀ kept ∈ (change record).2, kept.names = record.names) :
    Lists (changeFirst other change records).2 id lanes := by
  intro record hm hid
  rcases mem_changeFirst hdistinct hm with ⟨hk, -⟩ | ⟨known, hk, ho, hc⟩
  · exact h record hk hid
  · have hknown : known.id = id := (hids known record hc).symm.trans hid
    rcases hsame with hne | hnames
    · exact absurd (ho.symm.trans hknown) hne
    · rw [hnames known record hc]
      exact h known hk hknown

lemma advanceIn (h : Lists records id lanes) (report : Report) :
    Lists (advanceIn other report records).2 id lanes := by
  refine h.changeFirst hdistinct (advance_ids report) (Or.inr fun record kept hk => ?_)
  rw [← Option.some.inj hk]
  exact record.advance_names report

lemma rewindIn (h : Lists records id lanes) (index : ℕ) (step : Checkpoint) :
    Lists (rewindIn other index step records) id lanes := by
  refine h.changeFirst hdistinct (rewind_ids index step) (Or.inr fun record kept hk => ?_)
  rw [← Option.some.inj hk]
  exact record.rewind_names index step

lemma settleIn_ne (h : Lists records id lanes) (hne : other ≠ id) (indices : List ℕ) :
    Lists (settleIn other indices records).2 id lanes :=
  h.changeFirst hdistinct (settle_ids indices) (Or.inl hne)

lemma settleIn (h : Lists records id lanes) (indices : List ℕ) :
    Lists (settleIn id indices records).2 id (dropAt indices lanes) := by
  intro record hm hid
  rcases mem_changeFirst hdistinct hm with ⟨-, hne⟩ | ⟨known, hk, ho, hc⟩
  · exact absurd hid hne
  · obtain ⟨-, hc⟩ := Option.ite_none_right_eq_some.mp hc
    rw [← Option.some.inj hc, known.settle_names, h known hk ho]

end Lists

end Names

variable {j j' : Journal} {act : Act}

lemma State.update_unsaved (path : Bool) (change : State → Bool × State) (s : State) :
    (s.update path change).2.unsaved = (change s).2.unsaved := by
  rcases update_cases path change s with h | ⟨-, -, h⟩
  · rw [h]
  · rw [h]

lemma State.follow_unsaved (record : Record) (s : State) :
    (s.follow record).unsaved = s.unsaved.filter (fun known => decide (known.id ≠ record.id)) ++ [record] ∨
      (s.follow record).unsaved =
        (s.unsaved.filter fun known => decide (known.id ≠ record.id)).drop 1 ++ [record] := by
  rw [follow]
  by_cases hfull : maxUnsaved ≤ (s.unsaved.filter fun known => decide (known.id ≠ record.id)).length
  · exact Or.inr (by simp only [if_pos hfull])
  · exact Or.inl (by simp only [if_neg hfull])

inductive Follows (j : Journal) : Act → List Record → Prop
  | same (act : Act) : Follows j act j.state.unsaved
  | follow (record : Record) : Follows j (.follow record) (j.state.follow record).unsaved
  | advance (act : Act) (id : UInt64) (report : Report) :
      Follows j act (advanceIn id report j.state.unsaved).2
  | settle (id : UInt64) (indices : List ℕ) :
      Follows j (.settle id indices) (settleIn id indices j.state.unsaved).2
  | forget (id : UInt64) :
      Follows j (.forget id) (j.state.unsaved.filter fun record => decide (record.id ≠ id))

lemma Follows.of_eq {records records' : List Record} (h : Follows j act records)
    (heq : records' = records) : Follows j act records' := heq ▸ h

lemma Step.follows (hs : Step j act j') : Follows j act j'.state.unsaved := by
  have hupdate : ∀ {change : State → Bool × State},
      (j.state.update j.path change).2.unsaved = (change j.state).2.unsaved :=
    State.update_unsaved _ _ _
  have hlook : ∀ (id : UInt64) (report : Report), Follows j (.look id report)
      (j.state.advanceUnsaved id report).2.unsaved := by
    intro id report
    rw [State.advanceUnsaved]
    split
    · exact .advance _ id report
    · exact .same _
  have hstart : ∀ record : Record, (j.state.start record).2.unsaved = j.state.unsaved := by
    intro record
    rw [State.start]
    split <;> rfl
  cases hs with
  | start valid _ => exact (Follows.same _).of_eq (hupdate.trans (hstart _))
  | refuse valid _ => exact (Follows.same _).of_eq (hstart _)
  | long invalid => exact .follow _
  | follow among => exact .follow _
  | look found => exact hlook _ _
  | stage among => exact (Follows.same _).of_eq hupdate
  | settle id indices => exact (Follows.settle id indices).of_eq hupdate
  | forget id => exact (Follows.forget id).of_eq hupdate
  | claim usable =>
    refine (Follows.same _).of_eq ?_
    change (j.state.claim usable).2.unsaved = _
    rw [State.claim]
    split <;> rfl
  | recordUnsaved known found => exact hlook _ _
  | @recordSame call state _ same =>
    refine (Follows.same _).of_eq ?_
    exact (congrArg (fun result => result.2.unsaved) same).symm.trans hupdate
  | @recordStage call pending state _ changed =>
    refine (Follows.same _).of_eq ?_
    exact (congrArg (fun result => result.2.unsaved) changed).symm.trans hupdate
  | @retake made pending call _ =>
    refine (Follows.same _).of_eq ?_
    change (j.state.retake pending).2.unsaved = _
    rw [State.retake]
    split <;> rfl
  | _ => exact .same _

lemma Follows.distinct {records : List Record} (hf : Follows j act records)
    (h : (j.state.unsaved.map Record.id).Nodup) : (records.map Record.id).Nodup := by
  have hfilter : ∀ p : Record → Bool, ((j.state.unsaved.filter p).map Record.id).Nodup :=
    fun p => h.sublist (List.filter_sublist.map Record.id)
  have hconcat : ∀ (record : Record) (kept : List Record), kept.Sublist
      (j.state.unsaved.filter fun known => decide (known.id ≠ record.id)) →
        ((kept ++ [record]).map Record.id).Nodup := by
    intro record kept hkept
    rw [List.map_append]
    refine List.nodup_append.mpr
      ⟨(hfilter _).sublist (hkept.map Record.id), List.nodup_singleton _, ?_⟩
    rintro _ hm _ hm' rfl
    obtain ⟨known, hk, hid⟩ := List.mem_map.mp hm
    have hne := (List.mem_filter.mp (hkept.subset hk)).2
    exact absurd (hid.trans (List.mem_singleton.mp hm')) (by simpa using hne)
  cases hf with
  | same _ => exact h
  | follow record =>
    rcases j.state.follow_unsaved record with heq | heq
    · rw [heq]
      exact hconcat record _ (List.Sublist.refl _)
    · rw [heq]
      exact hconcat record _ (List.drop_sublist _ _)
  | advance _ id report => exact h.sublist (advanceIn_ids id _ report)
  | settle id indices => exact h.sublist (settleIn_ids id _ indices)
  | forget id => exact hfilter _

structure Tidy (j : Journal) : Prop where
  kept : WellKept j.state.records
  distinct : (j.state.unsaved.map Record.id).Nodup

lemma Tidy.step (h : Tidy j) (hs : Step j act j') : Tidy j' :=
  ⟨hs.turns.kept h.kept, hs.follows.distinct h.distinct⟩

structure Journal.Lists (j : Journal) (id : UInt64) (lanes : List (Option Lane)) : Prop where
  records : FanOut.Lists j.state.records id lanes
  unsaved : FanOut.Lists j.state.unsaved id lanes

variable {id : UInt64} {lanes : List (Option Lane)}

lemma Turns.lists {records : List Record} (ht : Turns j act records) (hspares : act.spares id)
    (hj : Tidy j) (h : Lists j.state.records id lanes) : Lists records id lanes := by
  have hdistinct := hj.kept.distinct
  cases ht with
  | same _ => exact h
  | @start record _ =>
    rw [State.start]
    split
    · exact h.filter _
    · exact (h.filter _).concat hspares
  | stage _ report => exact h.advanceIn hdistinct report
  | settle _ indices => exact h.settleIn_ne hdistinct hspares indices
  | forget _ => exact h.filter _
  | rewind _ => exact h.rewindIn hdistinct _ _

lemma Follows.lists {records : List Record} (hf : Follows j act records) (hspares : act.spares id)
    (hj : Tidy j) (h : Lists j.state.unsaved id lanes) : Lists records id lanes := by
  cases hf with
  | same _ => exact h
  | follow record =>
    rcases j.state.follow_unsaved record with heq | heq
    · rw [heq]
      exact (h.filter _).concat hspares
    · rw [heq]
      refine Lists.concat (fun known hm => ?_) hspares
      exact h.filter _ known (List.mem_of_mem_drop hm)
  | advance _ _ report => exact h.advanceIn hj.distinct report
  | settle _ indices => exact h.settleIn_ne hj.distinct hspares indices
  | forget _ => exact h.filter _

namespace Journal.Lists

lemma step (h : j.Lists id lanes) (hj : Tidy j) (hs : Step j act j') (hspares : act.spares id) :
    j'.Lists id lanes :=
  ⟨hs.turns.lists hspares hj h.records, hs.follows.lists hspares hj h.unsaved⟩

lemma settled (h : j.Lists id lanes) (hj : Tidy j) (indices : List ℕ) :
    (j.settled id indices).Lists id (dropAt indices lanes) where
  records := by
    have heq : (j.settled id indices).state.records = (settleIn id indices j.state.records).2 :=
      State.update_records j.path (State.settle id indices) j.state
    rw [heq]
    exact h.records.settleIn hj.kept.distinct indices
  unsaved := by
    have heq : (j.settled id indices).state.unsaved = (settleIn id indices j.state.unsaved).2 :=
      State.update_unsaved j.path (State.settle id indices) j.state
    rw [heq]
    exact h.unsaved.settleIn hj.distinct indices

lemma forget (h : j.Lists id lanes) (hs : Step j (.forget id) j') : j'.Lists id lanes := by
  cases hs with
  | forget _ =>
    constructor
    · have heq : (j.state.update j.path (State.forget id)).2.records =
          j.state.records.filter fun record => decide (record.id ≠ id) :=
        State.update_records j.path (State.forget id) j.state
      exact heq ▸ h.records.filter _
    · have heq : (j.state.update j.path (State.forget id)).2.unsaved =
          j.state.unsaved.filter fun record => decide (record.id ≠ id) :=
        State.update_unsaved j.path (State.forget id) j.state
      exact heq ▸ h.unsaved.filter _

end Journal.Lists

lemma Tidy.settled (h : Tidy j) (indices : List ℕ) : Tidy (j.settled id indices) :=
  h.step (Step.settle id indices)

end Sheprd.FanOut
