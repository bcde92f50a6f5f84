import Sheprd.Vcs.CheckpointsKept

namespace Sheprd.Vcs

open Lib

namespace Checkpoints

variable {c c' : Checkpoints} {host : Host} {lane : Lane}

lemma send_cases (c : Checkpoints) (host : Host) (lane : Lane) (job : Job) {worker : Worker}
    (idle : worker.Idle) (queue : List Job) :
    (∃ busy : Worker, busy.Busy job ∧ c.send host lane job queue worker =
      c.hands.put host { worker := some busy, queue, running := some job }) ∨
      c.send host lane job queue worker =
        c.put host { lane with worker := none, queue := job :: queue } := by
  obtain ⟨requests, executing, results, alive⟩ := worker
  obtain ⟨rfl, rfl, rfl⟩ := idle
  cases alive with
  | true => exact .inl ⟨_, .asked _, rfl⟩
  | false => exact .inr rfl

structure Started (host : Host) (c : Checkpoints) (failures : List (Job × Answer))
    (c' : Checkpoints) (failures' : List (Job × Answer)) : Prop where
  lanes : c'.LanesSound
  due : ∀ errand, c'.tally errand + Vcs.tally errand (failures'.map Prod.fst) =
    c.tally errand + Vcs.tally errand (failures.map Prod.fst)
  fits : ∀ p ∈ failures', p ∈ failures ∨ Fits p.1.request p.2
  ledger : ∃ stamps, stamps.length ≤ 1 ∧ (∀ stamp ∈ stamps, stamp = c'.lastStamp) ∧
    c'.ledger = { c.ledger with handed := c.ledger.handed ++ stamps }
  later : c.lastStamp < c'.lastStamp
  view : c'.view = c.view
  others : ∀ host', host' ≠ host →
    Register.lookup c'.lanes host' = Register.lookup c.lanes host'

lemma others_of_put {lane' : Lane} (host' : Host) (other : host' ≠ host) :
    Register.lookup (c.put host lane').lanes host' = Register.lookup c.lanes host' := by
  unfold put
  rw [Register.lookup_assign, if_neg (Ne.symm other)]

lemma start_started (meets : Host → Meets) (sound : c.LanesSound)
    (free : ∀ lane, Register.lookup c.lanes host = some lane → lane.running = none)
    (failures : List (Job × Answer)) :
    Started host c failures (start meets (c, failures) host).1
      (start meets (c, failures) host).2 := by
  have later : c.lastStamp < (c.stamp (meets host).now).lastStamp :=
    lt_of_lt_of_le (Nat.lt_succ_self _) (le_max_right _ _)
  have untouched : Started host c failures (c.stamp (meets host).now) failures :=
    ⟨⟨sound.distinct, sound.sound⟩, fun _ => rfl, fun _ => .inl, ⟨[], by simp, nofun, by simp; rfl⟩,
      later, rfl, fun _ _ => rfl⟩
  unfold start
  dsimp only
  cases held : Register.lookup (c.stamp (meets host).now).lanes host with
  | none => exact untouched
  | some lane =>
    dsimp only
    have idle := free lane held
    have laneSound := sound.lookup held
    have here := lane_of_lookup held
    cases waiting : lane.queue with
    | nil => exact untouched
    | cons job queue =>
      dsimp only
      obtain ⟨own, captures, minded⟩ := laneSound
      rw [idle] at minded
      have ownQueue : ∀ job' ∈ lane.queue, job'.checkout.host = host :=
        fun job' hj => own job' (List.mem_append_right _ hj)
      have capturesQueue : (waitingCaptures queue).Nodup := by
        rw [waiting, ← List.singleton_append, waitingCaptures_append] at captures
        exact captures.of_append_right
      rw [waiting] at ownQueue captures
      cases employed : lane.employ (meets host) with
      | error error =>
        refine ⟨untouched.lanes.put ⟨?_, capturesQueue, by rw [idle]; exact minded⟩, ?_, ?_,
          untouched.ledger, later, rfl, others_of_put⟩
        · intro job' hj
          rw [Lane.jobs, idle] at hj
          exact ownQueue job' (List.mem_cons_of_mem _ hj)
        · intro errand
          have whole := put_tally errand here { lane with queue }
          rw [Lane.tally_eq, Lane.tally_eq, waiting, tally_cons] at whole
          rw [List.map_append, List.map_singleton, tally_append, tally_cons, tally_nil]
          dsimp only at whole ⊢
          have same : (c.stamp (meets host).now).tally errand = c.tally errand := rfl
          omega
        · intro p hp
          obtain hp | hp := List.mem_append.mp hp
          · exact .inl hp
          · rw [List.mem_singleton.mp hp]
            exact .inr (job.request.failed_fits error)
      | ok worker =>
        dsimp only
        have rests : (if (meets host).dies then worker.moves .die else worker).Idle := by
          have idle := Lane.employ_idle minded employed
          split
          · exact idle.moves _
          · exact idle
        obtain ⟨busy, holds, sent⟩ | kept :=
          send_cases (c.stamp (meets host).now) host lane job rests queue
        · rw [sent]
          refine ⟨LanesSound.put (c := (c.stamp _).hands) ⟨sound.distinct, sound.sound⟩
            ⟨ownQueue, capturesQueue, .busy holds⟩, ?_, fun _ => .inl,
            ⟨[_], le_refl 1, by simp; rfl, rfl⟩, later, rfl, others_of_put⟩
          intro errand
          have whole := put_tally (c := (c.stamp (meets host).now).hands) errand here
            { worker := some busy, queue, running := some job }
          rw [Lane.tally_eq, Lane.tally_eq, waiting, idle] at whole
          simp only [Option.toList, tally_cons, tally_nil] at whole
          have same : (c.stamp (meets host).now).hands.tally errand = c.tally errand := rfl
          omega
        · rw [kept]
          refine ⟨untouched.lanes.put ⟨?_, captures, by rw [idle]; exact .unstaffed⟩, ?_,
            fun _ => .inl, untouched.ledger, later, rfl, others_of_put⟩
          · intro job' hj
            rw [Lane.jobs, idle] at hj
            exact ownQueue job' hj
          · intro errand
            have whole := put_tally (c := c.stamp (meets host).now) errand here
              { lane with worker := none, queue := job :: queue }
            rw [Lane.tally_eq, Lane.tally_eq, waiting] at whole
            have same : (c.stamp (meets host).now).tally errand = c.tally errand := rfl
            dsimp only at whole ⊢
            omega

lemma Kept.started {failures failures' : List (Job × Answer)} {restored : List Restored}
    (kept : Kept c failures restored) (h : Started host c failures c' failures') :
    Kept c' failures' restored := by
  obtain ⟨stamps, few, last, ledger⟩ := h.ledger
  refine ⟨h.lanes, ?_, ?_, ?_, ?_, ?_, ?_⟩
  · intro errand
    have before := kept.balance errand
    have due := h.due errand
    rw [ledger]
    dsimp only
    omega
  · rw [ledger]
    exact kept.answered
  · intro p hp
    obtain hp | hp := h.fits p hp
    · exact kept.pending p hp
    · exact hp
  · rw [ledger]
    exact kept.reported
  · rw [ledger]
    refine List.pairwise_append.mpr ⟨kept.increasing, ?_, ?_⟩
    · obtain _ | ⟨stamp, _ | ⟨stamp', stamps⟩⟩ := stamps
      · exact .nil
      · exact List.pairwise_singleton ..
      · simp at few
    · intro stamp hs stamp' hs'
      rw [last stamp' hs']
      exact lt_of_le_of_lt (kept.latest stamp hs) h.later
  · rw [ledger]
    intro stamp hs
    obtain hs | hs := List.mem_append.mp hs
    · exact (kept.latest stamp hs).trans h.later.le
    · exact (last stamp hs).le

def Due (c : Checkpoints) (pending : List (Job × Answer)) (errand : Checkout × Errand) : Prop :=
  0 < c.tally errand + Vcs.tally errand (pending.map Prod.fst)

def Awaits (shows : View → Prop) (asks : Errand → Prop) (c : Checkpoints)
    (pending : List (Job × Answer)) : Prop :=
  ∀ view ∈ c.view, shows view → ∃ errand, asks errand ∧ c.Due pending (view.checkout, errand)

variable {shows : View → Prop} {asks : Errand → Prop} {pending pending' : List (Job × Answer)}

lemma Awaits.mono (h : Awaits shows asks c pending)
    (views : ∀ view ∈ c'.view, shows view → ∃ view' ∈ c.view, shows view' ∧
      view'.checkout = view.checkout)
    (due : ∀ errand, c.Due pending errand → c'.Due pending' errand) :
    Awaits shows asks c' pending' := by
  intro view hview shown
  obtain ⟨view', held, shown', same⟩ := views view hview shown
  obtain ⟨errand, asked, waits⟩ := h view' held shown'
  rw [same] at waits
  exact ⟨errand, asked, due _ waits⟩

lemma Awaits.same (h : Awaits shows asks c pending) (view : c'.view = c.view)
    (due : ∀ errand, c.Due pending errand → c'.Due pending' errand) :
    Awaits shows asks c' pending' := by
  refine h.mono ?_ due
  intro view' held shown
  rw [view] at held
  exact ⟨view', held, shown, rfl⟩

lemma Due.grown {jobs : List Job} {errand : Checkout × Errand} (h : c.Due pending errand)
    (grown : Grown c c' jobs) : c'.Due pending errand := by
  unfold Due at h ⊢
  rw [grown.tally]
  omega

lemma Awaits.apply {p : Job × Answer} (h : Awaits shows asks c (p :: pending))
    (views : ∀ view ∈ (c.apply p.1 p.2).1.view, shows view → ∃ view' ∈ c.view, shows view' ∧
      view'.checkout = view.checkout ∧
      (view.checkout = p.1.checkout → ¬ asks p.1.request.errand)) :
    Awaits shows asks (c.apply p.1 p.2).1 pending := by
  intro view hview shown
  obtain ⟨view', held, shown', same, other⟩ := views view hview shown
  obtain ⟨errand, asked, waits⟩ := h view' held shown'
  refine ⟨errand, asked, ?_⟩
  obtain ⟨⟨jobs, grown⟩, -⟩ := apply_grown c p.1 p.2
  refine Due.grown (c := c.answers p.1 p.2) ?_ grown
  unfold Due at waits
  rw [same, List.map_cons, tally_cons, if_neg] at waits
  · exact waits
  · rintro answered
    obtain ⟨here, rfl⟩ : p.1.checkout = view.checkout ∧ p.1.request.errand = errand :=
      Prod.mk.inj answered
    exact other here.symm asked

@[simp] lemma list_view (c : Checkpoints) (checkout : Checkout) : (c.list checkout).view = c.view := by
  unfold list
  split
  · rfl
  · dsimp only
    split <;> rfl

lemma viewed_none {checkout : Checkout} (h : c.viewed checkout = none) :
    ∀ view ∈ c.view, view.checkout ≠ checkout := by
  intro view hview same
  rw [viewed, Option.mem_def.mp hview, Option.filter_some, if_pos (by simpa using same)] at h
  cases h

lemma viewed_some {checkout : Checkout} {view : View} (h : c.viewed checkout = some view) :
    c.view = some view ∧ view.checkout = checkout := by
  simpa [viewed] using h

lemma choose_flags (view : View) :
    view.choose.checkout = view.checkout ∧ view.choose.restoring = view.restoring ∧
      view.choose.listing = view.listing := by
  unfold View.choose
  split
  · split <;> exact ⟨rfl, rfl, rfl⟩
  · exact ⟨rfl, rfl, rfl⟩

lemma listed_flags (view : View) (result : Except Error (List Checkpoint)) :
    (view.listed result).checkout = view.checkout ∧
      (view.listed result).restoring = view.restoring ∧
      (view.listed result).listing ≠ .loading := by
  have loaded : Listing.of result ≠ .loading := by cases result <;> nofun
  unfold View.listed
  dsimp only
  obtain ⟨checkout, restoring, listing⟩ := choose_flags
    { view with
      listing := Listing.of result
      selected := view.selected.filter (· < (Listing.of result).count) }
  split
  · exact ⟨checkout, restoring, listing.symm ▸ loaded⟩
  · exact ⟨checkout, restoring, listing.symm ▸ loaded⟩

lemma restored_flags (view : View) (result : Except Error Unit) :
    (view.restored result).checkout = view.checkout ∧
      (view.restored result).restoring = false ∧
      (view.restored result).listing = view.listing := by
  cases result <;> exact ⟨rfl, rfl, rfl⟩

lemma apply_view {job : Job} {answer : Answer} (fits : Fits job.request answer) :
    (c.apply job answer).1.view = c.view ∧
        (job.request.errand = .capture ∨ ∀ view ∈ c.view, view.checkout ≠ job.checkout) ∨
      ∃ view, c.view = some view ∧
        ((∃ result, job.request.errand = .list ∧
            (c.apply job answer).1.view = some (view.listed result)) ∨
          ∃ id result, job.request.errand = .restore id ∧
            (c.apply job answer).1.view = some (view.restored result)) := by
  obtain ⟨checkout, request⟩ := job
  unfold apply
  cases fits with
  | captured label result =>
    refine .inl ⟨?_, .inl rfl⟩
    dsimp only
    split
    · exact list_view _ _
    · rfl
  | listed result =>
    dsimp only
    cases shown : (c.answers ⟨checkout, .list⟩ (.listed result)).viewed checkout with
    | none => exact .inl ⟨rfl, .inr (viewed_none shown)⟩
    | some view => exact .inr ⟨view, (viewed_some shown).1, .inl ⟨result, rfl, rfl⟩⟩
  | restored id result =>
    dsimp only
    unfold restoredView
    cases shown : (c.answers ⟨checkout, .restore id⟩ (.restored result)).viewed checkout with
    | none => exact .inl ⟨rfl, .inr (viewed_none shown)⟩
    | some view =>
      exact .inr ⟨view, (viewed_some shown).1, .inr ⟨id, result, rfl, list_view _ _⟩⟩

def Loading (c : Checkpoints) : List (Job × Answer) → Prop :=
  Awaits (fun view => view.listing = .loading) (fun errand => errand = .list) c

def Restoring (c : Checkpoints) : List (Job × Answer) → Prop :=
  Awaits (fun view => view.restoring = true) (fun errand => ∃ id, errand = .restore id) c

lemma Loading.apply {p : Job × Answer} (h : c.Loading (p :: pending))
    (fits : Fits p.1.request p.2) : (c.apply p.1 p.2).1.Loading pending := by
  refine Awaits.apply h ?_
  obtain ⟨same, other⟩ | ⟨view, held, ⟨result, -, same⟩ | ⟨id, result, asked, same⟩⟩ :=
    apply_view (c := c) fits
  · rw [same]
    intro view held shown
    refine ⟨view, held, shown, rfl, ?_⟩
    intro here
    obtain captures | elsewhere := other
    · rw [captures]
      exact nofun
    · exact absurd here (elsewhere view held)
  · rw [same]
    rintro view' ⟨⟩ shown
    exact absurd shown (listed_flags view result).2.2
  · rw [same]
    rintro view' ⟨⟩ shown
    obtain ⟨checkout, -, listing⟩ := restored_flags view result
    refine ⟨view, held, listing.symm.trans shown, checkout.symm, fun _ => ?_⟩
    rw [asked]
    exact nofun

lemma Restoring.apply {p : Job × Answer} (h : c.Restoring (p :: pending))
    (fits : Fits p.1.request p.2) : (c.apply p.1 p.2).1.Restoring pending := by
  refine Awaits.apply h ?_
  obtain ⟨same, other⟩ | ⟨view, held, ⟨result, asked, same⟩ | ⟨id, result, -, same⟩⟩ :=
    apply_view (c := c) fits
  · rw [same]
    intro view held shown
    refine ⟨view, held, shown, rfl, ?_⟩
    intro here
    obtain captures | elsewhere := other
    · rw [captures]
      rintro ⟨id, same⟩
      cases same
    · exact absurd here (elsewhere view held)
  · rw [same]
    rintro view' ⟨⟩ shown
    obtain ⟨checkout, restoring, -⟩ := listed_flags view result
    refine ⟨view, held, restoring.symm.trans shown, checkout.symm, fun _ => ?_⟩
    rw [asked]
    rintro ⟨id, same⟩
    cases same
  · rw [same]
    rintro view' ⟨⟩ shown
    rw [(restored_flags view result).2.1] at shown
    cases shown

structure Whole (c : Checkpoints) (pending : List (Job × Answer)) (restored : List Restored) :
    Prop where
  kept : Kept c pending restored
  restoring : c.Restoring pending

lemma applyAll_whole (answers : List (Job × Answer)) {s : Checkpoints × Bool × List Restored}
    (whole : Whole s.1 answers s.2.2) :
    Whole (applyAll s answers).1 [] (applyAll s answers).2.2 ∧
      (s.1.Loading answers → (applyAll s answers).1.Loading []) := by
  induction answers generalizing s with
  | nil => exact ⟨whole, id⟩
  | cons p answers ih =>
    have fits := whole.kept.pending p (List.mem_cons_self ..)
    obtain ⟨rest, loads⟩ := ih
      (s := ((s.1.apply p.1 p.2).1, s.2.1 || (s.1.apply p.1 p.2).2.1,
        s.2.2 ++ (s.1.apply p.1 p.2).2.2))
      ⟨whole.kept.apply, whole.restoring.apply fits⟩
    exact ⟨rest, fun loading => loads (loading.apply fits)⟩

lemma started_whole (meets : Host → Meets) (hosts : List Host)
    {s : Checkpoints × List (Job × Answer)} {restored : List Restored} (nodup : hosts.Nodup)
    (free : ∀ host ∈ hosts, ∀ lane, Register.lookup s.1.lanes host = some lane →
      lane.running = none)
    (whole : Whole s.1 s.2 restored) :
    Whole (hosts.foldl (start meets) s).1 (hosts.foldl (start meets) s).2 restored ∧
      (s.1.Loading s.2 →
        (hosts.foldl (start meets) s).1.Loading (hosts.foldl (start meets) s).2) := by
  induction hosts generalizing s with
  | nil => exact ⟨whole, id⟩
  | cons host hosts ih =>
    obtain ⟨new, nodup⟩ := List.nodup_cons.mp nodup
    have started := start_started meets whole.kept.lanes (free host (List.mem_cons_self ..)) s.2
    have due (errand) (h : s.1.Due s.2 errand) :
        (start meets s host).1.Due (start meets s host).2 errand := by
      unfold Due at h ⊢
      rw [started.due]
      exact h
    obtain ⟨rest, loads⟩ := ih (s := start meets s host) nodup
      (by
        intro host' hh lane held
        rw [started.others host' (fun same => new (same ▸ hh))] at held
        exact free host' (List.mem_cons_of_mem _ hh) lane held)
      ⟨whole.kept.started started, whole.restoring.same started.view due⟩
    exact ⟨rest, fun loading => loads (Awaits.same loading started.view due)⟩

lemma idle_nodup (sound : c.LanesSound) : c.idle.Nodup :=
  sound.distinct.sublist (List.filter_sublist.map _)

lemma idle_free (sound : c.LanesSound) {host : Host} (h : host ∈ c.idle) {lane : Lane}
    (held : Register.lookup c.lanes host = some lane) : lane.running = none := by
  obtain ⟨e, he, rfl⟩ := List.mem_map.mp h
  obtain ⟨he, idle⟩ := List.mem_filter.mp he
  rw [Register.lookup_of_mem sound.distinct he] at held
  cases held
  simpa using (Bool.and_eq_true_iff.mp idle).1

lemma retained_tally (c : Checkpoints) (errand : Checkout × Errand) :
    c.retained.tally errand = c.tally errand := by
  refine Register.total_filter _ _ ?_
  intro e _ empty
  simp only [Bool.or_eq_false_iff, Option.isSome_eq_false_iff, Option.isNone_iff_eq_none,
    Bool.not_eq_false', List.isEmpty_iff] at empty
  rw [Lane.tally_eq, empty.1, empty.2]
  rfl

lemma retained_whole {restored : List Restored} (whole : Whole c [] restored) :
    Whole c.retained [] restored ∧ (c.Loading [] → c.retained.Loading []) := by
  obtain ⟨⟨lanes, balance, answered, pending, reported, increasing, latest⟩, restoring⟩ := whole
  have due (errand) (h : c.Due [] errand) : c.retained.Due [] errand := by
    unfold Due at h ⊢
    rw [retained_tally]
    exact h
  refine ⟨⟨⟨⟨lanes.distinct.sublist (List.filter_sublist.map _), ?_⟩, ?_, answered, pending, reported,
    increasing, latest⟩, restoring.same rfl due⟩, fun loading => Awaits.same loading rfl due⟩
  · exact fun e he => lanes.sound e (List.mem_of_mem_filter he)
  · intro errand
    rw [retained_tally]
    exact balance errand

lemma poll_whole (meets : Host → Meets) (whole : Whole c [] []) :
    Whole (c.poll meets).1 [] (c.poll meets).2.2 ∧
      (c.Loading [] → (c.poll meets).1.Loading []) := by
  have received (errand) (h : c.Due [] errand) : c.received.Due c.arrived errand := by
    have all := received_tally errand whole.kept.lanes.sound
    unfold Due at h ⊢
    rw [List.map_nil, tally_nil, Nat.add_zero] at h
    exact lt_of_lt_of_eq h all.symm
  obtain ⟨applied, loads⟩ := applyAll_whole (s := (c.received, false, [])) c.arrived
    ⟨whole.kept.received, whole.restoring.same rfl received⟩
  obtain ⟨started, loads'⟩ := started_whole meets _
    (s := ((applyAll (c.received, false, []) c.arrived).1, [])) (idle_nodup applied.kept.lanes)
    (fun host hh lane => idle_free applied.kept.lanes hh) applied
  obtain ⟨ended, loads''⟩ := applyAll_whole
    (s := (_, (applyAll (c.received, false, []) c.arrived).2)) _ started
  obtain ⟨retained, loads'''⟩ := retained_whole ended
  refine ⟨retained, fun loading => ?_⟩
  exact loads''' (loads'' (loads' (loads (Awaits.same loading rfl received))))

end Checkpoints

end Sheprd.Vcs
