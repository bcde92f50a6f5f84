import Sheprd.FanOut.Removals

set_option linter.dupNamespace false

namespace Sheprd.FanOut

def lanesAt (plan : List Lane) (places : List ℕ) : List (Option Lane) :=
  places.map fun place => plan[place]?

lemma lanesAt_dropAt (plan : List Lane) (indices places : List ℕ) :
    lanesAt plan (dropAt indices places) = dropAt indices (lanesAt plan places) :=
  map_dropAt _ indices places

def FanOut.names (f : FanOut) : List (Option Lane) := f.lanes.map fun view => some view.lane

namespace Removed

lemma gone_length (removed : Removed) :
    removed.gone.length + removed.failures.length = removed.length := by
  induction removed with
  | nil => rfl
  | cons entry removed ih =>
    obtain ⟨index, result⟩ := entry
    cases result with
    | ok _ =>
      have hgone : gone ((index, .ok ()) :: removed) = index :: gone removed := rfl
      have hfail : failures ((index, .ok ()) :: removed) = failures removed := rfl
      rw [hgone, hfail, List.length_cons, List.length_cons]
      omega
    | error error =>
      have hgone : gone ((index, .error error) :: removed) = gone removed := rfl
      have hfail : failures ((index, .error error) :: removed) = error :: failures removed := rfl
      rw [hgone, hfail, List.length_cons, List.length_cons]
      omega

lemma settled_of_failures {removed : Removed} (h : removed.failures ≠ []) (winner : ℕ) :
    removed.settled winner = removed.gone := by
  refine if_neg fun heq => h ?_
  have hlength := removed.gone_length
  rw [heq] at hlength
  exact List.length_eq_zero_iff.mp (by omega)

lemma gone_subset {removed : Removed} {index : ℕ} (h : index ∈ removed.gone) :
    index ∈ removed.map Prod.fst := by
  obtain ⟨entry, hm, heq⟩ := List.mem_filterMap.mp h
  obtain ⟨-, -, rfl⟩ := Option.map_eq_some_iff.mp heq
  exact List.mem_map_of_mem hm

end Removed

inductive Phase (s : Session) (f : FanOut) : Prop
  | idle (quiet : ∀ k, f.stage ≠ .removing k) (work : s.work = none)
      (unsent : ∀ removed, Event.removed removed ∉ f.events) (same : s.left = s.alive)
  | removing {k : ℕ} {doomed : List Doomed} {removed : Removed} (stage : f.stage = .removing k)
      (work : s.work = some (.removing k doomed removed)) (spared : k ∉ doomed.map Prod.fst)
      (kept : k ∉ removed.map Prod.fst) (unsent : ∀ removed, Event.removed removed ∉ f.events)
      (same : s.left = s.alive)
  | settled {k : ℕ} {removed : Removed} (stage : f.stage = .removing k)
      (work : s.work = some (.settled removed)) (kept : k ∉ removed.map Prod.fst)
      (unsent : ∀ removed, Event.removed removed ∉ f.events)
      (behind : s.left = dropAt (removed.settled k) s.alive)
  | sent {k : ℕ} {removed : Removed} {front back : List Event} (stage : f.stage = .removing k)
      (work : s.work = none) (kept : k ∉ removed.map Prod.fst)
      (events : f.events = front ++ .removed removed :: back)
      (once : ∀ removed, Event.removed removed ∉ front ++ back)
      (behind : s.left = dropAt (removed.settled k) s.alive)

structure Shows (plan : List Lane) (s : Session) (f : FanOut) : Prop where
  names : f.names = lanesAt plan s.alive
  chosen : ∀ k, f.stage = .confirm k ∨ f.stage = .removing k →
    (∃ place, s.chosen = some place ∧ s.alive[k]? = some place) ∧
      ∃ view, f.lanes[k]? = some view ∧ view.checkout.isSome = true
  launching : Event.launched ∈ f.events → f.stage = .launching
  once : f.events.Pairwise fun a b => a = .launched → b ≠ .launched
  phase : Phase s f

structure Kept (id : UInt64) (plan : List Lane) (s : Session) : Prop where
  tidy : Tidy s.journal
  saved : s.journal.Lists id (lanesAt plan s.left)
  placed : s.alive.Sublist (List.range plan.length)
  shown : ∀ f, s.fanOut = some f → Shows plan s f

namespace Phase

variable {s t : Session} {f f' : FanOut}

lemma same (h : Phase s f) (hstage : f'.stage = f.stage) (hevents : f'.events = f.events)
    (hwork : t.work = s.work) (halive : t.alive = s.alive) (hleft : t.left = s.left) :
    Phase t f' := by
  cases h with
  | idle quiet work unsent same =>
    exact .idle (by rwa [hstage]) (hwork.trans work) (by rwa [hevents]) (by rw [hleft, same, halive])
  | removing stage work spared kept unsent same =>
    exact .removing (hstage.trans stage) (hwork.trans work) spared kept (by rwa [hevents])
      (by rw [hleft, same, halive])
  | settled stage work kept unsent behind =>
    exact .settled (hstage.trans stage) (hwork.trans work) kept (by rwa [hevents])
      (by rw [hleft, behind, halive])
  | sent stage work kept events once behind =>
    exact .sent (hstage.trans stage) (hwork.trans work) kept (hevents.trans events) once
      (by rw [hleft, behind, halive])

lemma push (h : Phase s f) {event : Event} (hother : ∀ removed, event ≠ .removed removed) :
    Phase s { f with events := f.events ++ [event] } := by
  have hunsent : (∀ removed, Event.removed removed ∉ f.events) →
      ∀ removed, Event.removed removed ∉ f.events ++ [event] := by
    intro hf removed hm
    rcases List.mem_append.mp hm with hm | hm
    · exact hf removed hm
    · exact hother removed (List.mem_singleton.mp hm).symm
  cases h with
  | idle quiet work unsent same => exact .idle quiet work (hunsent unsent) same
  | removing stage work spared kept unsent same =>
    exact .removing stage work spared kept (hunsent unsent) same
  | settled stage work kept unsent behind => exact .settled stage work kept (hunsent unsent) behind
  | @sent k removed front back stage work kept events once behind =>
    have hevents : f.events ++ [event] = front ++ .removed removed :: (back ++ [event]) := by
      rw [events, List.append_assoc, List.cons_append]
    refine .sent stage work kept hevents ?_ behind
    intro results hm
    rw [← List.append_assoc] at hm
    rcases List.mem_append.mp hm with hm | hm
    · exact once results hm
    · exact hother results (List.mem_singleton.mp hm).symm

lemma read {event : Event} {events : List Event} (h : Phase s f) (hnext : f.events = event :: events)
    (hother : ∀ removed, event ≠ .removed removed) : Phase s { f with events } := by
  have hunsent : (∀ removed, Event.removed removed ∉ f.events) →
      ∀ removed, Event.removed removed ∉ events := by
    intro hf removed hm
    exact hf removed (hnext ▸ List.mem_cons_of_mem _ hm)
  cases h with
  | idle quiet work unsent same => exact .idle quiet work (hunsent unsent) same
  | removing stage work spared kept unsent same =>
    exact .removing stage work spared kept (hunsent unsent) same
  | settled stage work kept unsent behind => exact .settled stage work kept (hunsent unsent) behind
  | @sent k removed front back stage work kept heq once behind =>
    rw [hnext] at heq
    cases front with
    | nil => exact absurd (List.cons.inj heq).1 (hother removed)
    | cons first front =>
      refine .sent stage work kept (List.cons.inj heq).2 ?_ behind
      exact fun results hm => once results (List.mem_cons_of_mem _ hm)

lemma idle_of_stage (h : Phase s f) (hquiet : ∀ k, f.stage ≠ .removing k) :
    s.work = none ∧ (∀ removed, Event.removed removed ∉ f.events) ∧ s.left = s.alive := by
  cases h with
  | idle _ work unsent same => exact ⟨work, unsent, same⟩
  | @removing k _ _ stage => exact absurd stage (hquiet k)
  | @settled k _ stage => exact absurd stage (hquiet k)
  | @sent k _ _ _ stage => exact absurd stage (hquiet k)

end Phase

namespace Shows

variable {plan : List Lane} {s t : Session} {f : FanOut} {id : UInt64}

lemma same (h : Shows plan s f) (hwork : t.work = s.work) (halive : t.alive = s.alive)
    (hleft : t.left = s.left) (hchosen : t.chosen = s.chosen) : Shows plan t f where
  names := by rw [h.names, halive]
  chosen := by
    rw [hchosen, halive]
    exact h.chosen
  launching := h.launching
  once := h.once
  phase := h.phase.same rfl rfl hwork halive hleft

lemma lanes_length (h : Shows plan s f) : f.lanes.length = s.alive.length := by
  have hlength := congrArg List.length h.names
  rwa [FanOut.names, lanesAt, List.length_map, List.length_map] at hlength

lemma push (h : Shows plan s f) {event : Event} (hother : ∀ removed, event ≠ .removed removed)
    (hfirst : event = .launched → f.stage = .launching ∧ Event.launched ∉ f.events) :
    Shows plan s { f with events := f.events ++ [event] } where
  names := h.names
  chosen := h.chosen
  launching hm := by
    rcases List.mem_append.mp hm with hm | hm
    · exact h.launching hm
    · exact (hfirst (List.mem_singleton.mp hm).symm).1
  once := by
    refine List.pairwise_append.mpr ⟨h.once, List.pairwise_singleton _ _, ?_⟩
    rintro _ hm b hb rfl rfl
    exact (hfirst (List.mem_singleton.mp hb).symm).2 hm
  phase := h.phase.push hother

lemma modify (h : Shows plan s f) (lanes : List LaneView)
    (hnames : lanes.map LaneView.lane = f.lanes.map LaneView.lane)
    (hheld : ∀ (k : ℕ) (view : LaneView), f.lanes[k]? = some view → view.checkout.isSome = true →
      ∃ view' : LaneView, lanes[k]? = some view' ∧ view'.checkout.isSome = true) :
    Shows plan s { f with lanes } where
  names := by
    have hsome := congrArg (List.map some) hnames
    rw [List.map_map, List.map_map] at hsome
    exact hsome.trans h.names
  chosen k hk := by
    obtain ⟨hplace, view, hview, hcheckout⟩ := h.chosen k hk
    exact ⟨hplace, hheld k view hview hcheckout⟩
  launching := h.launching
  once := h.once
  phase := h.phase.same rfl rfl rfl rfl rfl

lemma update (h : Shows plan s f) (index : ℕ) {change : LaneView → LaneView}
    (hlane : ∀ view, (change view).lane = view.lane)
    (hheld : ∀ view : LaneView, view.checkout.isSome = true → (change view).checkout.isSome = true) :
    Shows plan s { f with lanes := f.lanes.modify index change } := by
  refine h.modify _ ?_ ?_
  · refine List.ext_getElem? fun i => ?_
    rw [List.getElem?_map, List.getElem?_modify, List.getElem?_map]
    cases f.lanes[i]? with
    | none => rfl
    | some view => by_cases hi : index = i <;> simp [hi, hlane]
  · intro k view hview hcheckout
    rw [List.getElem?_modify, hview]
    by_cases hi : index = k
    · exact ⟨change view, by simp [hi], hheld view hcheckout⟩
    · exact ⟨view, by simp [hi], hcheckout⟩

lemma read {event : Event} {events : List Event} (h : Shows plan s f)
    (hnext : f.events = event :: events) (hother : ∀ removed, event ≠ .removed removed) :
    Shows plan s { f with events } where
  names := h.names
  chosen := h.chosen
  launching hm := h.launching (hnext ▸ List.mem_cons_of_mem _ hm)
  once := (hnext ▸ h.once).of_cons
  phase := h.phase.read hnext hother

lemma turn (h : Shows plan s f) (hquiet : ∀ k, f.stage ≠ .removing k) {f' : FanOut}
    (hnames : f'.names = f.names) (hevents : f'.events = f.events)
    (hunlaunched : Event.launched ∉ f.events) (hquiet' : ∀ k, f'.stage ≠ .removing k)
    (hwork : t.work = s.work) (halive : t.alive = s.alive) (hleft : t.left = s.left)
    (hchosen : ∀ k, f'.stage = .confirm k →
      (∃ place, t.chosen = some place ∧ s.alive[k]? = some place) ∧
        ∃ view, f'.lanes[k]? = some view ∧ view.checkout.isSome = true) :
    Shows plan t f' where
  names := by rw [hnames, h.names, halive]
  chosen k hk := by
    rw [halive]
    exact hchosen k (hk.resolve_right (hquiet' k))
  launching hm := absurd (hevents ▸ hm) hunlaunched
  once := hevents ▸ h.once
  phase := by
    obtain ⟨work, unsent, same⟩ := h.phase.idle_of_stage hquiet
    exact .idle hquiet' (hwork.trans work) (hevents ▸ unsent) (by rw [hleft, same, halive])

lemma launched (h : Shows plan s f) : Shows plan s { f with lanes := f.lanes.map LaneView.launched } := by
  have hsame : ∀ view : LaneView, view.launched.lane = view.lane ∧
      view.launched.checkout = view.checkout := by
    intro view
    rw [LaneView.launched]
    split <;> exact ⟨rfl, rfl⟩
  refine h.modify _ ?_ ?_
  · rw [List.map_map]
    exact List.map_congr_left fun view _ => (hsame view).1
  · intro k view hview hcheckout
    refine ⟨view.launched, by rw [List.getElem?_map, hview]; rfl, ?_⟩
    rwa [(hsame view).2]

end Shows

lemma Phase.next {s : Session} {f : FanOut} {removed : Removed} {events : List Event}
    (h : Phase s f) (hnext : f.events = .removed removed :: events) :
    ∃ k, f.stage = .removing k ∧ s.work = none ∧ k ∉ removed.map Prod.fst ∧
      (∀ removed, Event.removed removed ∉ events) ∧
        s.left = dropAt (removed.settled k) s.alive := by
  have hfirst : Event.removed removed ∈ f.events := hnext ▸ List.mem_cons_self
  cases h with
  | idle _ _ unsent => exact absurd hfirst (unsent removed)
  | removing _ _ _ _ unsent => exact absurd hfirst (unsent removed)
  | settled _ _ _ unsent => exact absurd hfirst (unsent removed)
  | @sent k results front back stage work kept heq once behind =>
    rw [hnext] at heq
    cases front with
    | nil =>
      obtain ⟨hresults, rfl⟩ := List.cons.inj heq
      obtain rfl := Event.removed.inj hresults
      exact ⟨k, stage, work, kept, once, behind⟩
    | cons first front =>
      exact absurd ((List.cons.inj heq).1 ▸ List.mem_cons_self) (once removed)

namespace Kept

variable {plan : List Lane} {s t : Session} {f : FanOut} {id : UInt64}

lemma window (h : Kept id plan s) (hjournal : t.journal = s.journal) (hleft : t.left = s.left)
    (halive : t.alive = s.alive) (hshown : ∀ f, t.fanOut = some f → Shows plan t f) :
    Kept id plan t where
  tidy := hjournal ▸ h.tidy
  saved := by
    rw [hjournal, hleft]
    exact h.saved
  placed := halive ▸ h.placed
  shown := hshown

lemma showing (h : Kept id plan s) {f' : FanOut} (hshows : Shows plan s f') :
    Kept id plan (s.showing f') := by
  refine h.window rfl rfl rfl fun g hg => ?_
  obtain rfl := Option.some.inj hg
  exact hshows.same rfl rfl rfl rfl

lemma polled_launched (h : Kept id plan s) {events : List Event} (hshown : s.fanOut = some f)
    (hnext : f.events = .launched :: events) :
    Kept id plan (s.handled id (FanOut.handle { f with events } .launched)) := by
  have hf := h.shown f hshown
  have hstage := hf.launching (hnext ▸ List.mem_cons_self)
  have honce := hnext ▸ hf.once
  have hlast : Event.launched ∉ events := fun hm => List.rel_of_pairwise_cons honce hm rfl rfl
  have hread := (hf.read hnext nofun).launched
  have hshows : Shows plan (s.handled id (FanOut.handle { f with events } .launched))
      { f with events, lanes := f.lanes.map LaneView.launched, stage := .compare } := by
    refine hread.turn ?_ rfl rfl hlast nofun rfl (dropAt_nil _) rfl nofun
    intro k hk
    exact absurd (hstage.symm.trans hk) nofun
  have hjournal : Tidy (s.handled id (FanOut.handle { f with events } .launched)).journal ∧
      (s.handled id (FanOut.handle { f with events } .launched)).journal.Lists id
        (lanesAt plan s.left) := by
    simp only [Session.handled]
    split
    · refine ⟨h.tidy.settled [], ?_⟩
      have hsettled := h.saved.settled h.tidy []
      rwa [dropAt_nil] at hsettled
    · exact ⟨h.tidy, h.saved⟩
  refine ⟨hjournal.1, hjournal.2, ?_, fun g hg => ?_⟩
  · change (dropAt [] s.alive).Sublist _
    rw [dropAt_nil]
    exact h.placed
  · obtain rfl := Option.some.inj hg
    exact hshows

lemma polled_removed (h : Kept id plan s) {removed : Removed} {events : List Event}
    (hshown : s.fanOut = some f) (hnext : f.events = .removed removed :: events) :
    Kept id plan (s.handled id (FanOut.handle { f with events } (.removed removed))) := by
  have hf := h.shown f hshown
  obtain ⟨k, hstage, hwork, hkept, hunsent, hbehind⟩ := hf.phase.next hnext
  obtain ⟨⟨place, hchosen, hplace⟩, view, hview, hcheckout⟩ := hf.chosen k (Or.inr hstage)
  have hgone : k ∉ removed.gone := fun hm => hkept (Removed.gone_subset hm)
  cases hfailures : removed.failures with
  | nil =>
    obtain ⟨checkout, hc⟩ := Option.isSome_iff_exists.mp hcheckout
    have heq : FanOut.handle { f with events } (.removed removed) =
        { fanOut := { f with events }, kept := some (checkout.endpointId, checkout.workspaceId) } := by
      simp only [FanOut.handle, hstage, hfailures, hview, Option.bind_some, hc, Option.map_some]
    rw [heq]
    exact h.window rfl rfl (dropAt_nil _) nofun
  | cons error errors =>
    have hlength : k < f.lanes.length := (List.getElem?_eq_some_iff.mp hview).1
    have hindex : FanOut.keptIndex { f with stage := .removing k, events } removed.gone k =
        rank removed.gone k := FanOut.keptIndex_eq hlength
    have heq : FanOut.handle { f with events } (.removed removed) =
        { fanOut := { f with
            events
            lanes := dropAt removed.gone f.lanes
            error := some (.notRemoved (errors.length + 1) error)
            stage := .confirm (rank removed.gone k) }
          dropped := removed.gone } := by
      simp only [FanOut.handle, hstage, hfailures, hindex]
    rw [heq]
    refine ⟨h.tidy, h.saved, (dropAt_sublist _ _).trans h.placed, fun g hg => ?_⟩
    obtain rfl := Option.some.inj hg
    refine ⟨?_, ?_, ?_, (hnext ▸ hf.once).of_cons, ?_⟩
    · change (dropAt removed.gone f.lanes).map _ = lanesAt plan (dropAt removed.gone s.alive)
      rw [lanesAt_dropAt, ← hf.names, map_dropAt]
      rfl
    · rintro _ (hk | hk)
      · obtain rfl := Stage.confirm.inj hk
        refine ⟨⟨place, hchosen, ?_⟩, view, ?_, hcheckout⟩
        · exact (dropAt_rank hgone).trans hplace
        · exact (dropAt_rank hgone).trans hview
      · cases hk
    · intro hm
      have hlaunching := hf.launching (hnext ▸ List.mem_cons_of_mem _ hm)
      exact absurd (hstage.symm.trans hlaunching) (by simp)
    · refine .idle (by simp) hwork hunsent ?_
      change s.left = dropAt removed.gone s.alive
      rw [hbehind, Removed.settled_of_failures (by rw [hfailures]; nofun)]

lemma polled (h : Kept id plan s) {event : Event} {events : List Event}
    (hshown : s.fanOut = some f) (hnext : f.events = event :: events) :
    Kept id plan (s.handled id (FanOut.handle { f with events } event)) := by
  have hf := h.shown f hshown
  cases event with
  | launched => exact h.polled_launched hshown hnext
  | removed removed => exact h.polled_removed hshown hnext
  | report report =>
    have hread := hf.read hnext nofun
    have hwindow : ∀ f' : FanOut, Shows plan s f' →
        Kept id plan (s.handled id { fanOut := f' }) := by
      intro f' hf'
      refine h.window rfl rfl (dropAt_nil _) fun g hg => ?_
      obtain rfl := Option.some.inj hg
      exact hf'.same rfl (dropAt_nil _) rfl rfl
    cases report with
    | base commit =>
      refine hwindow { f with events, base := some commit } ?_
      exact ⟨hread.names, hread.chosen, hread.launching, hread.once,
        hread.phase.same rfl rfl rfl rfl rfl⟩
    | lane index progress =>
      refine hwindow _ (hread.update index ?_ ?_)
      · intro view
        cases progress <;> rfl
      · intro view hcheckout
        cases progress <;> first | exact hcheckout | rfl

lemma confirmed (h : Kept id plan s) {index : ℕ} {view : LaneView} (hshown : s.fanOut = some f)
    (hcompare : f.stage = .compare) (hview : f.lanes[index]? = some view)
    (hcheckout : view.checkout.isSome = true) :
    Kept id plan { s.showing { f with stage := .confirm index, error := none } with
      chosen := s.alive[index]? } := by
  have hf := h.shown f hshown
  have hquiet : ∀ k, f.stage ≠ .removing k := fun k hk => nomatch hcompare.symm.trans hk
  have hunlaunched : Event.launched ∉ f.events := fun hm =>
    nomatch hcompare.symm.trans (hf.launching hm)
  have hindex : index < s.alive.length :=
    hf.lanes_length ▸ (List.getElem?_eq_some_iff.mp hview).1
  refine h.window rfl rfl rfl fun g hg => ?_
  obtain rfl := Option.some.inj hg
  refine hf.turn hquiet rfl rfl hunlaunched nofun rfl rfl rfl ?_
  intro k hk
  obtain rfl := Stage.confirm.inj hk
  have hplace := List.getElem?_eq_getElem hindex
  exact ⟨⟨_, hplace, hplace⟩, view, hview, hcheckout⟩

lemma kept (h : Kept id plan s) {f' : FanOut} {winner : ℕ} {doomed : List Doomed}
    (hshown : s.fanOut = some f) (hkeep : f.keep winner = some (f', doomed)) :
    Kept id plan { s.showing f' with work := some (.removing winner doomed []) } := by
  have hf := h.shown f hshown
  rw [FanOut.keep] at hkeep
  obtain ⟨⟨hstage, -⟩, hkeep⟩ := Option.ite_none_right_eq_some.mp hkeep
  obtain ⟨rfl, rfl⟩ := Prod.mk.inj (Option.some.inj hkeep)
  have hquiet : ∀ k, f.stage ≠ .removing k := fun k hk => by simp [hstage] at hk
  obtain ⟨-, hunsent, hsame⟩ := hf.phase.idle_of_stage hquiet
  refine h.window rfl rfl rfl fun g hg => ?_
  obtain rfl := Option.some.inj hg
  refine ⟨hf.names, ?_, ?_, hf.once, .removing rfl rfl ?_ List.not_mem_nil hunsent hsame⟩
  · rintro k (hk | hk)
    · cases hk
    · obtain rfl := Stage.removing.inj hk
      exact hf.chosen winner (Or.inl hstage)
  · intro hm
    simp [hf.launching hm] at hstage
  · intro hm
    obtain ⟨lane, hlane, rfl⟩ := List.mem_map.mp hm
    obtain ⟨⟨index, workspace⟩, hd, heq⟩ := List.mem_filterMap.mp hlane
    obtain ⟨checkout, -, rfl⟩ := Option.map_eq_some_iff.mp heq
    obtain ⟨entry, -, hentry⟩ := List.mem_filterMap.mp hd
    obtain ⟨hne, hentry⟩ := Option.ite_none_left_eq_some.mp hentry
    obtain ⟨held, -, hlane⟩ := Option.map_eq_some_iff.mp hentry
    exact hne (Prod.mk.inj hlane).1

lemma removed (h : Kept id plan s) {winner : ℕ} {lane : Doomed} {doomed : List Doomed}
    {removed : Removed} (hwork : s.work = some (.removing winner (lane :: doomed) removed))
    (result : Except String Unit) :
    Kept id plan { s with work := some (.removing winner doomed (removed ++ [(lane.1, result)])) } := by
  refine h.window rfl rfl rfl fun f hshown => ?_
  have hf := h.shown f hshown
  refine ⟨hf.names, hf.chosen, hf.launching, hf.once, ?_⟩
  cases hf.phase with
  | idle _ work => exact nomatch hwork.symm.trans work
  | settled _ work => exact nomatch hwork.symm.trans work
  | sent _ work => exact nomatch hwork.symm.trans work
  | removing stage work spared kept unsent same =>
    obtain ⟨rfl, rfl, rfl⟩ := Work.removing.inj (Option.some.inj (hwork.symm.trans work))
    rw [List.map_cons, List.mem_cons, not_or] at spared
    refine .removing stage rfl spared.2 ?_ unsent same
    rw [List.map_append, List.mem_append, not_or]
    exact ⟨kept, fun hm => spared.1 (List.mem_singleton.mp hm)⟩

lemma settled (h : Kept id plan s) {winner : ℕ} {removed : Removed}
    (hwork : s.work = some (.removing winner [] removed)) :
    Kept id plan { s with
      journal := s.journal.settled id (removed.settled winner)
      left := dropAt (removed.settled winner) s.left
      work := some (.settled removed) } where
  tidy := h.tidy.settled _
  saved := by
    rw [lanesAt_dropAt]
    exact h.saved.settled h.tidy _
  placed := h.placed
  shown f hshown := by
    have hf := h.shown f hshown
    refine ⟨hf.names, hf.chosen, hf.launching, hf.once, ?_⟩
    cases hf.phase with
    | idle _ work => exact nomatch hwork.symm.trans work
    | settled _ work => exact nomatch hwork.symm.trans work
    | sent _ work => exact nomatch hwork.symm.trans work
    | removing stage work spared kept unsent same =>
      obtain ⟨rfl, -, rfl⟩ := Work.removing.inj (Option.some.inj (hwork.symm.trans work))
      exact .settled stage rfl kept unsent (congrArg (dropAt _) same)

lemma sent (h : Kept id plan s) {removed : Removed} (hwork : s.work = some (.settled removed)) :
    Kept id plan { s with
      fanOut := s.fanOut.map fun f => { f with events := f.events ++ [.removed removed] }
      work := none } := by
  refine h.window rfl rfl rfl fun g hg => ?_
  obtain ⟨f, hshown, rfl⟩ := Option.map_eq_some_iff.mp hg
  have hf := h.shown f hshown
  refine ⟨hf.names, hf.chosen, fun hm => ?_, ?_, ?_⟩
  · rcases List.mem_append.mp hm with hm | hm
    · exact hf.launching hm
    · cases List.mem_singleton.mp hm
  · refine List.pairwise_append.mpr ⟨hf.once, List.pairwise_singleton _ _, ?_⟩
    rintro a - b hb - rfl
    cases List.mem_singleton.mp hb
  · cases hf.phase with
    | idle _ work => exact nomatch hwork.symm.trans work
    | removing _ work => exact nomatch hwork.symm.trans work
    | sent _ work => exact nomatch hwork.symm.trans work
    | settled stage work kept unsent behind =>
      obtain rfl := Work.settled.inj (Option.some.inj (hwork.symm.trans work))
      have hlast : ∀ results, Event.removed results ∉ f.events ++ [] := by rwa [List.append_nil]
      exact .sent stage rfl kept rfl hlast behind

lemma step (h : Kept id plan s) (hs : Session.Step id s t) : Kept id plan t := by
  cases hs with
  | elsewhere went spares =>
    refine ⟨h.tidy.step went, h.saved.step h.tidy went spares, h.placed, fun f hshown => ?_⟩
    exact (h.shown f hshown).same rfl rfl rfl rfl
  | report shown report => exact h.showing ((h.shown _ shown).push (by simp) (by simp))
  | launched shown launching first =>
    exact h.showing ((h.shown _ shown).push (by simp) fun _ => ⟨launching, first⟩)
  | poll shown next => exact h.polled shown next
  | @resume f index state shown compare _ =>
    have hf : Shows plan s { f with lanes := f.lanes.modify index fun view => { view with state } } :=
      (h.shown f shown).update index (fun _ => rfl) fun _ hcheckout => hcheckout
    refine h.showing ⟨hf.names, hf.chosen, hf.launching, hf.once, ?_⟩
    exact hf.phase.same rfl rfl rfl rfl rfl
  | confirm shown compare lane keepable => exact h.confirmed shown compare lane keepable
  | @back f index shown asking =>
    have hf := h.shown f shown
    have hquiet : ∀ k, f.stage ≠ .removing k := fun k hk => nomatch asking.symm.trans hk
    refine h.showing (hf.turn hquiet rfl rfl ?_ (by simp) rfl rfl rfl (by simp))
    exact fun hm => nomatch asking.symm.trans (hf.launching hm)
  | forget shown compare settled forgets =>
    exact ⟨h.tidy.step forgets, h.saved.forget forgets, h.placed, nofun⟩
  | keep shown kept => exact h.kept shown kept
  | remove work result => exact h.removed work result
  | settle work => exact h.settled work
  | send work => exact h.sent work

lemma run (h : Kept id plan s) (hr : Relation.ReflTransGen (Session.Step id) s t) :
    Kept id plan t := by
  induction hr with
  | refl => exact h
  | tail _ hs ih => exact ih.step hs

end Kept

section Opened

variable {id : UInt64} {plan : List Lane} {j j' : Journal} {acts : List Act}

lemma AgentKind.parse_name (kind : AgentKind) : AgentKind.parse kind.name = some kind := by
  cases kind <;> rfl

lemma lanesAt_range (plan : List Lane) : lanesAt plan (List.range plan.length) = plan.map some := by
  refine List.ext_getElem? fun i => ?_
  rw [lanesAt, List.getElem?_map, List.getElem?_map]
  rcases lt_or_ge i plan.length with hi | hi
  · rw [List.getElem?_range hi, List.getElem?_eq_getElem hi]
    exact congrArg some (List.getElem?_eq_getElem hi)
  · rw [List.getElem?_eq_none (by rwa [List.length_range]), List.getElem?_eq_none hi]
    rfl

lemma Record.new_names (id : UInt64) (origin : Origin) (prompt : String) (lanes : List Lane) :
    (Record.new id origin prompt lanes).names = lanes.map some := by
  rw [Record.names, Record.new, List.map_map]
  refine List.map_congr_left fun lane _ => ?_
  rw [Function.comp_apply, SavedLane.lane, AgentKind.parse_name]
  rfl

lemma SavedLane.restore_lane {host : String → Option Host} {saved : SavedLane} {view : LaneView}
    (h : saved.restore host = some view) : saved.lane = some view.lane := by
  obtain ⟨lane, hlane, rfl⟩ := Option.map_eq_some_iff.mp h
  exact hlane

lemma restore_lanes {host : String → Option Host} {saved : List SavedLane} {views : List LaneView}
    (h : saved.mapM (SavedLane.restore host) = some views) :
    saved.map SavedLane.lane = views.map fun view => some view.lane := by
  induction saved generalizing views with
  | nil =>
    rw [List.mapM_nil] at h
    cases h
    rfl
  | cons lane saved ih =>
    rw [List.mapM_cons] at h
    obtain ⟨view, hview, h⟩ := Option.bind_eq_some_iff.mp h
    obtain ⟨rest, hrest, h⟩ := Option.bind_eq_some_iff.mp h
    obtain rfl := Option.some.inj h
    rw [List.map_cons, List.map_cons, lane.restore_lane hview, ih hrest]

lemma FanOut.restore_opens {host : String → Option Host} {record : Record} {f : FanOut}
    (h : FanOut.restore host record = some f) :
    f.names = record.names ∧ f.stage = .compare ∧ f.events = [] := by
  obtain ⟨-, h⟩ := Option.ite_none_right_eq_some.mp h
  obtain ⟨-, -, h⟩ := Option.bind_eq_some_iff.mp h
  obtain ⟨lanes, hlanes, rfl⟩ := Option.map_eq_some_iff.mp h
  exact ⟨(restore_lanes hlanes).symm, rfl, rfl⟩

lemma Tidy.run (h : Tidy j) (hr : Lib.Run Step j acts j') : Tidy j' :=
  hr.invariant h fun _ _ _ hj (hs : Step _ _ _) => hj.step hs

lemma Journal.Lists.run {lanes : List (Option Lane)} (h : j.Lists id lanes) (hj : Tidy j)
    (hr : Lib.Run Step j acts j') (hspares : ∀ act ∈ acts, act.spares id) : j'.Lists id lanes := by
  have hboth : Tidy j' ∧ j'.Lists id lanes := by
    refine hr.among (P := fun k => Tidy k ∧ k.Lists id lanes) (L := Act.spares id) ⟨hj, h⟩ ?_ hspares
    exact fun _ _ _ hspare hk (hs : Step _ _ _) => ⟨hk.1.step hs, hk.2.step hk.1 hs hspare⟩
  exact hboth.2

lemma tidy_opened {path : Bool} {found : List Record} (hfound : WellKept found) :
    Tidy (Journal.opened path found) := ⟨hfound, List.nodup_nil⟩

lemma Begins.lists {record : Record} {error : Option Notice} (h : Begins j record error j')
    (hj : Tidy j) (hnew : ∀ known ∈ j.state.records ++ j.state.unsaved, known.id ≠ record.id) :
    Tidy j' ∧ j'.Lists record.id record.names := by
  have hrecords : Lists j.state.records record.id record.names := fun known hm hid =>
    absurd hid (hnew known (List.mem_append_left _ hm))
  have hunsaved : Lists j.state.unsaved record.id record.names := fun known hm hid =>
    absurd hid (hnew known (List.mem_append_right _ hm))
  have hself : ∀ {records : List Record}, Lists records record.id record.names →
      Lists (records ++ [record]) record.id record.names := by
    refine fun h => h.append fun known hm _ => ?_
    rw [List.mem_singleton.mp hm]
  have hstart : Lists (j.state.start record).2.records record.id record.names := by
    rw [State.start]
    split
    · exact hrecords.filter _
    · exact hself (hrecords.filter _)
  have hkeeps : (j.state.start record).2.unsaved = j.state.unsaved := by
    rw [State.start]
    split <;> rfl
  have hfollow : ∀ {k k' : Journal}, k.Lists record.id record.names → Step k (.follow record) k' →
      k'.Lists record.id record.names := by
    intro k k' hk hs
    have hafter : Lists (k.state.follow record).unsaved record.id record.names := by
      rcases k.state.follow_unsaved record with heq | heq
      · rw [heq]
        exact hself (hk.unsaved.filter _)
      · rw [heq]
        refine hself fun known hm => ?_
        exact hk.unsaved.filter _ known (List.mem_of_mem_drop hm)
    cases hs with
    | long _ => exact ⟨hk.records, hafter⟩
    | follow _ => exact ⟨hk.records, hafter⟩
  cases h with
  | saved began taken =>
    refine ⟨hj.step began, ?_⟩
    cases began with
    | start _ _ =>
      have hr : (j.state.update j.path (State.start record)).2.records = _ :=
        State.update_records _ _ _
      have hu : (j.state.update j.path (State.start record)).2.unsaved = _ :=
        State.update_unsaved _ _ _
      exact ⟨hr ▸ hstart, (hu.trans hkeeps) ▸ hunsaved⟩
    | refuse _ refused => exact ⟨hstart, hkeeps ▸ hunsaved⟩
  | long _ follows => exact ⟨hj.step follows, hfollow ⟨hrecords, hunsaved⟩ follows⟩
  | @refused j₁ k _ acts refused full between spares follows =>
    have hrefused : j₁.Lists record.id record.names := by
      cases refused with
      | start _ taken => simp [taken] at full
      | refuse _ _ => exact ⟨hstart, hkeeps ▸ hunsaved⟩
    have htidy := hj.step refused
    exact ⟨(htidy.run between).step follows,
      hfollow (hrefused.run htidy between spares) follows⟩

lemma Kept.opened {f : FanOut} (hj : Tidy j) (hnames : f.names = plan.map some)
    (hsaved : j.Lists id (plan.map some)) (hstage : f.stage = .launching ∨ f.stage = .compare)
    (hevents : f.events = []) : Kept id plan (Session.opened j f) := by
  have hlength : f.lanes.length = plan.length := by
    have hlengths := congrArg List.length hnames
    rwa [FanOut.names, List.length_map, List.length_map] at hlengths
  have hplaces : lanesAt plan (List.range f.lanes.length) = plan.map some := by
    rw [hlength, lanesAt_range]
  have hother : ∀ stage, stage ≠ .launching → stage ≠ .compare → f.stage ≠ stage := by
    rintro stage hlaunching hcompare rfl
    exact hstage.elim hlaunching hcompare
  refine ⟨hj, ?_, ?_, fun g hg => ?_⟩
  · change j.Lists id (lanesAt plan (List.range f.lanes.length))
    rwa [hplaces]
  · exact hlength ▸ List.Sublist.refl _
  · obtain rfl := Option.some.inj hg
    refine ⟨hnames.trans hplaces.symm, ?_, ?_, ?_, ?_⟩
    · rintro k (hk | hk)
      · exact absurd hk (hother _ nofun nofun)
      · exact absurd hk (hother _ nofun nofun)
    · rw [hevents]
      nofun
    · rw [hevents]
      exact .nil
    · exact .idle (fun k => hother _ nofun nofun) rfl (by rw [hevents]; nofun) rfl

lemma Opened.kept {s : Session} (h : Opened id plan j s) (hj : Tidy j) : Kept id plan s := by
  cases h with
  | @launched origin prompt error j' new began =>
    obtain ⟨htidy, hlists⟩ := began.lists hj new
    rw [Record.new_names] at hlists
    refine Kept.opened htidy ?_ hlists (Or.inl rfl) rfl
    rw [FanOut.names, FanOut.launch, List.map_map]
    rfl
  | @restored host record f claimed own unfollowed back lanes =>
    obtain ⟨hnames, hstage, hevents⟩ := FanOut.restore_opens back
    have hplan : f.names = plan.map some := by
      rw [← lanes, List.map_map]
      rfl
    refine Kept.opened hj hplan ⟨fun known hm hid => ?_, fun known hm hid => ?_⟩ (Or.inr hstage) hevents
    · have hsame : known = record :=
        List.inj_on_of_nodup_map hj.kept.distinct hm claimed (hid.trans own.symm)
      rw [hsame, ← hnames, hplan]
    · exact absurd hid (unfollowed known hm)

end Opened

def Journal.recordsOf (j : Journal) (id : UInt64) : List Record :=
  (j.state.records ++ j.state.unsaved).filter fun record => decide (record.id = id)

structure Aligned (id : UInt64) (s : Session) (f : FanOut) : Prop where
  same : (∀ k, f.stage ≠ .removing k) →
    s.left = s.alive ∧ ∀ record ∈ s.journal.recordsOf id, record.names = f.names
  removing : ∀ k, f.stage = .removing k →
    (s.left = s.alive ∧ ∀ record ∈ s.journal.recordsOf id, record.names = f.names) ∨
      ∃ removed : Removed, (s.work = some (.settled removed) ∨ .removed removed ∈ f.events) ∧
        k ∉ removed.gone ∧ s.left = dropAt (removed.settled k) s.alive ∧
          ∀ record ∈ s.journal.recordsOf id, record.names = dropAt (removed.settled k) f.names
  chosen : ∀ k, f.stage = .confirm k ∨ f.stage = .removing k →
    ∃ place, s.chosen = some place ∧ s.alive[k]? = some place ∧
      (f.stage = .confirm k → s.left[k]? = some place)

lemma Kept.aligned {id : UInt64} {plan : List Lane} {s : Session} {f : FanOut}
    (h : Kept id plan s) (hshown : s.fanOut = some f) : Aligned id s f := by
  have hf := h.shown f hshown
  have hrecords : ∀ record ∈ s.journal.recordsOf id, record.names = lanesAt plan s.left := by
    intro record hm
    obtain ⟨hm, hid⟩ := List.mem_filter.mp hm
    rcases List.mem_append.mp hm with hm | hm
    · exact h.saved.records record hm (of_decide_eq_true hid)
    · exact h.saved.unsaved record hm (of_decide_eq_true hid)
  have hsame : s.left = s.alive → ∀ record ∈ s.journal.recordsOf id, record.names = f.names := by
    intro heq record hm
    rw [hrecords record hm, heq, hf.names]
  have hbehind : ∀ indices, s.left = dropAt indices s.alive →
      ∀ record ∈ s.journal.recordsOf id, record.names = dropAt indices f.names := by
    intro indices heq record hm
    rw [hrecords record hm, heq, lanesAt_dropAt, hf.names]
  refine ⟨fun hquiet => ?_, fun k hk => ?_, fun k hk => ?_⟩
  · obtain ⟨-, -, heq⟩ := hf.phase.idle_of_stage hquiet
    exact ⟨heq, hsame heq⟩
  · cases hf.phase with
    | idle quiet => exact absurd hk (quiet k)
    | removing _ _ _ _ _ heq => exact Or.inl ⟨heq, hsame heq⟩
    | @settled _ removed stage work kept _ behind =>
      obtain rfl := Stage.removing.inj (stage.symm.trans hk)
      exact Or.inr ⟨removed, Or.inl work, fun hm => kept (Removed.gone_subset hm), behind,
        hbehind _ behind⟩
    | @sent _ removed _ _ stage _ kept events _ behind =>
      obtain rfl := Stage.removing.inj (stage.symm.trans hk)
      refine Or.inr ⟨removed, Or.inr ?_, fun hm => kept (Removed.gone_subset hm), behind,
        hbehind _ behind⟩
      rw [events]
      exact List.mem_append_right _ List.mem_cons_self
  · obtain ⟨⟨place, hchosen, hplace⟩, -⟩ := hf.chosen k hk
    refine ⟨place, hchosen, hplace, fun hconfirm => ?_⟩
    obtain ⟨-, -, heq⟩ := hf.phase.idle_of_stage fun k' hk' => nomatch hconfirm.symm.trans hk'
    rw [heq, hplace]

theorem removals_aligned {path : Bool} {found : List Record} (hfound : WellKept found)
    {acts : List Act} {j : Journal} (hj : Lib.Run Step (Journal.opened path found) acts j)
    {id : UInt64} {plan : List Lane} {s t : Session} (hs : Opened id plan j s)
    (hr : Relation.ReflTransGen (Session.Step id) s t) {f : FanOut} (hf : t.fanOut = some f) :
    Aligned id t f :=
  ((hs.kept ((tidy_opened hfound).run hj)).run hr).aligned hf

section Failed

def laptop : Host := ⟨.here, none, false⟩

def shownLane (branch : String) : LaneView :=
  ⟨⟨.claude, branch, "agent"⟩, .running, some ⟨"here", laptop, branch, "/work", "pane"⟩⟩

def savedLane (branch : String) : SavedLane :=
  ⟨"claude", branch, "agent", .prompted, some ⟨"here", "local||release", branch, "/work", "pane"⟩⟩

def trio : Record where
  id := 1
  origin := ⟨"here", "local||release", "here", "main", "repo", "repo", "HEAD"⟩
  commit := none
  prompt := some "prompt"
  lanes := [savedLane "a", savedLane "b", savedLane "c"]

def trioShown (stage : Stage) (events : List Event) : FanOut where
  stage := stage
  lanes := [shownLane "a", shownLane "b", shownLane "c"]
  base := none
  error := none
  events := events

lemma laptop_identity : laptop.identity = "local||release" := by decide

lemma savedLane_restore (branch : String) :
    (savedLane branch).restore (fun _ => some laptop) = some (shownLane branch) := by
  have hkind : AgentKind.parse "claude" = some .claude := rfl
  simp [SavedLane.restore, savedLane, SavedLane.lane, hkind, same, laptop_identity, shownLane]

lemma trio_restore : FanOut.restore (fun _ => some laptop) trio = some (trioShown .compare []) := by
  have hworth : trio.worthKeeping = true := rfl
  have hlanes : trio.lanes.mapM (SavedLane.restore fun _ => some laptop) =
      some (trioShown .compare []).lanes := by
    simp [trio, savedLane_restore, trioShown]
  rw [FanOut.restore, if_pos hworth, hlanes]
  simp [same, trio]
  rfl

lemma trio_kept : WellKept [trio] where
  valid record hm := by
    rw [List.mem_singleton.mp hm]
    decide
  distinct := List.nodup_singleton _
  few := by decide

lemma trio_fails : ∃ t f, Relation.ReflTransGen (Session.Step 1)
    (Session.opened (Journal.opened false [trio]) (trioShown .compare [])) t ∧
      t.fanOut = some f ∧ f.stage = .confirm 1 ∧ t.chosen = some 2 := by
  have hkept : (trioShown (.confirm 2) []).keep 2 =
      some (trioShown (.removing 2) [], [(0, laptop, "a"), (1, laptop, "b")]) := rfl
  have hconfirm := @Session.Step.confirm 1
    (Session.opened (Journal.opened false [trio]) (trioShown .compare [])) (trioShown .compare []) 2
    (shownLane "c") rfl rfl rfl rfl
  have hkeep := (Relation.ReflTransGen.single hconfirm).tail (.keep rfl hkept)
  have hgone := hkeep.tail (.remove rfl (.ok ()))
  have hstays := hgone.tail (.remove rfl (.error "busy"))
  have hsettled := hstays.tail (.settle rfl)
  have hsent := hsettled.tail (.send rfl)
  exact ⟨_, _, hsent.tail (.poll rfl rfl), rfl, rfl, rfl⟩

theorem removals_aligned_trio : ∃ t f, t.fanOut = some f ∧ f.stage = .confirm 1 ∧
    t.chosen = some 2 ∧ Aligned 1 t f := by
  obtain ⟨t, f, hr, hf, hstage, hchosen⟩ := trio_fails
  have hopened : Opened 1 [⟨.claude, "a", "agent"⟩, ⟨.claude, "b", "agent"⟩, ⟨.claude, "c", "agent"⟩]
      (Journal.opened false [trio])
      (Session.opened (Journal.opened false [trio]) (trioShown .compare [])) :=
    .restored (List.mem_singleton_self _) rfl nofun trio_restore rfl
  exact ⟨t, f, hf, hstage, hchosen, removals_aligned trio_kept .nil hopened hr hf⟩

end Failed

end Sheprd.FanOut
