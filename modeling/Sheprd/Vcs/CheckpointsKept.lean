import Sheprd.Vcs.Checkpoints

namespace Sheprd.Vcs

open Lib

inductive Errand where
  | capture
  | list
  | restore (id : String)
  deriving DecidableEq

def Request.errand : Request → Errand
  | .capture _ => .capture
  | .list => .list
  | .restore id => .restore id

def Job.errand (job : Job) : Checkout × Errand := (job.checkout, job.request.errand)

def Lane.jobs (lane : Lane) : List Job := lane.running.toList ++ lane.queue

def tally (errand : Checkout × Errand) (jobs : List Job) : ℕ := (jobs.map Job.errand).count errand

def Lane.tally (errand : Checkout × Errand) (lane : Lane) : ℕ := Vcs.tally errand lane.jobs

def Checkpoints.tally (c : Checkpoints) (errand : Checkout × Errand) : ℕ :=
  Register.total (Lane.tally errand) c.lanes

variable {errand : Checkout × Errand}

@[simp] lemma tally_nil : tally errand [] = 0 := rfl

lemma tally_cons (job : Job) (jobs : List Job) :
    tally errand (job :: jobs) = tally errand jobs + if job.errand = errand then 1 else 0 := by
  unfold tally
  rw [List.map_cons, List.count_cons]
  simp

lemma tally_append (jobs jobs' : List Job) :
    tally errand (jobs ++ jobs') = tally errand jobs + tally errand jobs' := by
  unfold tally
  rw [List.map_append, List.count_append]

lemma tally_pos {jobs : List Job} : 0 < tally errand jobs ↔ ∃ job ∈ jobs, job.errand = errand := by
  unfold tally
  rw [List.count_pos_iff, List.mem_map]

lemma Lane.tally_eq (lane : Lane) :
    lane.tally errand = Vcs.tally errand lane.running.toList + Vcs.tally errand lane.queue :=
  tally_append _ _

inductive Fits : Request → Answer → Prop where
  | captured (label : String) (result) : Fits (.capture label) (.captured result)
  | listed (result) : Fits .list (.listed result)
  | restored (id : String) (result) : Fits (.restore id) (.restored result)

lemma Request.failed_fits (request : Request) (error : Error) :
    Fits request (request.failed error) := by
  cases request with
  | capture label => exact .captured label _
  | list => exact .listed _
  | restore id => exact .restored id _

lemma execute_fits (run : HostRun) (job : Job) : Fits job.request (execute run job) := by
  unfold execute
  cases job.request with
  | capture label => exact .captured label _
  | list => exact .listed _
  | restore id => exact .restored id _

def Worker.Idle (worker : Worker) : Prop :=
  worker.requests = none ∧ worker.executing = none ∧ worker.results = none

inductive Worker.Busy (job : Job) : Worker → Prop where
  | asked (stamp : String) : Busy job ⟨some (job, stamp), none, none, true⟩
  | working (stamp : String) : Busy job ⟨none, some (job, stamp), none, true⟩
  | answered {answer : Answer} (alive : Bool) (fits : Fits job.request answer) :
      Busy job ⟨none, none, some answer, alive⟩
  | lost : Busy job ⟨none, none, none, false⟩

inductive Minded : Option Worker → Option Job → Prop where
  | unstaffed : Minded none none
  | idle {worker : Worker} (idle : worker.Idle) : Minded (some worker) none
  | busy {worker : Worker} {job : Job} (busy : worker.Busy job) : Minded (some worker) (some job)

lemma Worker.Idle.moves {worker : Worker} (idle : worker.Idle) (act : WorkerAct) :
    (worker.moves act).Idle := by
  obtain ⟨asked, working, answered⟩ := idle
  unfold Worker.moves
  rw [asked, working]
  cases act with
  | recv => cases worker.alive <;> exact ⟨asked, working, answered⟩
  | send run => cases worker.alive <;> exact ⟨asked, working, answered⟩
  | die => exact ⟨rfl, rfl, answered⟩

lemma Worker.Busy.moves {worker : Worker} {job : Job} (busy : worker.Busy job) (act : WorkerAct) :
    (worker.moves act).Busy job := by
  cases busy with
  | asked stamp =>
    cases act with
    | recv => exact .working stamp
    | send run => exact .asked stamp
    | die => exact .lost
  | working stamp =>
    cases act with
    | recv => exact .working stamp
    | send run => exact .answered true (execute_fits run job)
    | die => exact .lost
  | answered alive fits =>
    cases act with
    | recv => cases alive <;> exact .answered _ fits
    | send run => cases alive <;> exact .answered _ fits
    | die => exact .answered false fits
  | lost => cases act <;> exact .lost

lemma Minded.moves {worker : Option Worker} {running : Option Job} (minded : Minded worker running)
    (act : WorkerAct) : Minded (worker.map fun worker => worker.moves act) running := by
  cases minded with
  | unstaffed => exact .unstaffed
  | idle idle => exact .idle (idle.moves act)
  | busy busy => exact .busy (busy.moves act)

lemma Lane.receive_cases {lane : Lane} (minded : Minded lane.worker lane.running) :
    lane.receive = (lane, none) ∨
      ∃ job answer worker, lane.running = some job ∧ Fits job.request answer ∧
        Minded worker none ∧
        lane.receive = ({ lane with worker, running := none }, some (job, answer)) := by
  obtain ⟨worker, queue, running⟩ := lane
  cases minded with
  | unstaffed => exact .inl rfl
  | idle idle => exact .inl rfl
  | @busy worker job busy =>
    cases busy with
    | asked stamp => exact .inl rfl
    | working stamp => exact .inl rfl
    | answered alive fits =>
      exact .inr ⟨job, _, _, rfl, fits, .idle ⟨rfl, rfl, rfl⟩, rfl⟩
    | lost => exact .inr ⟨job, _, none, rfl, job.request.failed_fits _, .unstaffed, rfl⟩

lemma Lane.employ_idle {lane : Lane} {meets : Meets} {worker : Worker}
    (minded : Minded lane.worker none) (h : lane.employ meets = .ok worker) : worker.Idle := by
  unfold Lane.employ at h
  cases held : lane.worker with
  | some worker' =>
    rw [held] at minded h
    cases minded with
    | idle idle =>
      cases h
      exact idle
  | none =>
    rw [held] at h
    cases failed : meets.spawn with
    | none =>
      rw [failed] at h
      cases h
      exact ⟨rfl, rfl, rfl⟩
    | some cause =>
      rw [failed] at h
      cases h

def waitingCaptures (queue : List Job) : List Checkout := (queue.filter Job.captures).map Job.checkout

structure Lane.Sound (host : Host) (lane : Lane) : Prop where
  own : ∀ job ∈ lane.jobs, job.checkout.host = host
  captures : (waitingCaptures lane.queue).Nodup
  minded : Minded lane.worker lane.running

lemma Lane.Sound.new (host : Host) : Lane.Sound host {} where
  own := List.forall_mem_nil _
  captures := List.nodup_nil
  minded := .unstaffed

lemma waitingCaptures_append (queue queue' : List Job) :
    waitingCaptures (queue ++ queue') = waitingCaptures queue ++ waitingCaptures queue' := by
  unfold waitingCaptures
  rw [List.filter_append, List.map_append]

lemma mem_waitingCaptures {queue : List Job} {checkout : Checkout} :
    checkout ∈ waitingCaptures queue ↔ ∃ job ∈ queue, job.captures ∧ job.checkout = checkout := by
  simp [waitingCaptures, and_assoc]

namespace Checkpoints

variable {c : Checkpoints} {host : Host} {lane : Lane}

lemma lane_eq (h : c.lane host = some lane) : (Register.lookup c.lanes host).getD {} = lane := by
  unfold Checkpoints.lane at h
  split at h
  · next held =>
    rw [held]
    exact Option.some.inj h
  · next missing =>
    rw [missing]
    split at h
    · cases h
    · exact Option.some.inj h

lemma put_tally (errand : Checkout × Errand) (h : c.lane host = some lane) (lane' : Lane) :
    (c.put host lane').tally errand + lane.tally errand = c.tally errand + lane'.tally errand := by
  have whole := Register.total_assign (Lane.tally errand) host lane' c.lanes
  have before : ((Register.lookup c.lanes host).map (Lane.tally errand)).getD 0 =
      lane.tally errand := by
    rw [← lane_eq h]
    cases Register.lookup c.lanes host with
    | none => rfl
    | some lane => rfl
  rw [before] at whole
  exact whole

lemma lane_of_lookup (h : Register.lookup c.lanes host = some lane) : c.lane host = some lane := by
  unfold Checkpoints.lane
  rw [h]

end Checkpoints

end Sheprd.Vcs

namespace Sheprd.Vcs

open Lib

variable {errand : Checkout × Errand}

namespace Checkpoints

variable {c c' : Checkpoints} {host : Host} {lane lane' : Lane} {jobs : List Job}

lemma relabelled_some {checkout : Checkout} {label : String} {queue queue' : List Job}
    (h : relabelled checkout label queue = some queue') :
    queue'.map Job.errand = queue.map Job.errand ∧
      waitingCaptures queue' = waitingCaptures queue ∧
      ∀ job ∈ queue', ∃ job' ∈ queue, job'.checkout = job.checkout := by
  induction queue generalizing queue' with
  | nil => cases h
  | cons job queue ih =>
    unfold relabelled at h
    split at h
    · next found =>
      obtain ⟨checkout', request⟩ := job
      cases h
      cases request with
      | capture label' =>
        refine ⟨rfl, rfl, ?_⟩
        intro job hj
        obtain rfl | hj := List.mem_cons.mp hj
        · exact ⟨_, List.mem_cons_self .., rfl⟩
        · exact ⟨job, List.mem_cons_of_mem _ hj, rfl⟩
      | list => cases found.2
      | restore id => cases found.2
    · obtain ⟨rest, hrest, rfl⟩ := Option.map_eq_some_iff.mp h
      obtain ⟨errands, waiting, own⟩ := ih hrest
      refine ⟨by rw [List.map_cons, List.map_cons, errands], ?_, ?_⟩
      · rw [← List.singleton_append, waitingCaptures_append, waiting, ← waitingCaptures_append]
        rfl
      · intro job' hj
        obtain rfl | hj := List.mem_cons.mp hj
        · exact ⟨_, List.mem_cons_self .., rfl⟩
        · obtain ⟨job'', held, same⟩ := own job' hj
          exact ⟨job'', List.mem_cons_of_mem _ held, same⟩

lemma relabelled_none {checkout : Checkout} {label : String} {queue : List Job}
    (h : relabelled checkout label queue = none) : checkout ∉ waitingCaptures queue := by
  induction queue with
  | nil => exact List.not_mem_nil
  | cons job queue ih =>
    unfold relabelled at h
    split at h
    · cases h
    · next other =>
      rw [mem_waitingCaptures]
      rintro ⟨job', hj, captures, same⟩
      obtain rfl | hj := List.mem_cons.mp hj
      · exact other ⟨same, captures⟩
      · exact ih (Option.map_eq_none_iff.mp h) (mem_waitingCaptures.mpr ⟨job', hj, captures, same⟩)

structure LanesSound (c : Checkpoints) : Prop where
  distinct : Register.Distinct c.lanes
  sound : ∀ e ∈ c.lanes, Lane.Sound e.1 e.2

lemma LanesSound.lookup (sound : c.LanesSound) (h : Register.lookup c.lanes host = some lane) :
    Lane.Sound host lane :=
  sound.sound _ (Register.mem_of_lookup h)

lemma LanesSound.of_lane (sound : c.LanesSound) (h : c.lane host = some lane) :
    Lane.Sound host lane := by
  unfold Checkpoints.lane at h
  split at h
  · next held =>
    rw [Option.some.inj h] at held
    exact sound.lookup held
  · split at h
    · cases h
    · rw [← Option.some.inj h]
      exact .new host

lemma LanesSound.put (sound : c.LanesSound) (h : Lane.Sound host lane) :
    (c.put host lane).LanesSound where
  distinct := sound.distinct.assign host lane
  sound := by
    intro e he
    obtain he | rfl := Register.of_mem_assign he
    · exact sound.sound e he
    · exact h

structure Grown (c c' : Checkpoints) (jobs : List Job) : Prop where
  lanes : c.LanesSound → c'.LanesSound
  tally : ∀ errand, c'.tally errand = c.tally errand + Vcs.tally errand jobs
  ledger : c'.ledger = { c.ledger with accepted := c.ledger.accepted ++ jobs }
  lastStamp : c'.lastStamp = c.lastStamp

lemma Grown.refl (c : Checkpoints) : Grown c c [] where
  lanes := id
  tally := fun _ => rfl
  ledger := by rw [List.append_nil]
  lastStamp := rfl

lemma Grown.trans {c'' : Checkpoints} {jobs' : List Job} (h : Grown c c' jobs)
    (h' : Grown c' c'' jobs') : Grown c c'' (jobs ++ jobs') where
  lanes := h'.lanes ∘ h.lanes
  tally := by
    intro errand
    rw [h'.tally, h.tally, tally_append, Nat.add_assoc]
  ledger := by rw [h'.ledger, h.ledger, List.append_assoc]
  lastStamp := h'.lastStamp.trans h.lastStamp

lemma Grown.same (h : c.lane host = some lane) (sound : Lane.Sound host lane → Lane.Sound host lane')
    (tally : ∀ errand, lane'.tally errand = lane.tally errand) : Grown c (c.put host lane') [] where
  lanes := fun lanes => lanes.put (sound (lanes.of_lane h))
  tally := by
    intro errand
    have whole := put_tally errand h lane'
    rw [tally] at whole
    exact Nat.add_right_cancel whole
  ledger := (Grown.refl c).ledger
  lastStamp := rfl

lemma Grown.one {job : Job} (h : c.lane host = some lane)
    (sound : Lane.Sound host lane → Lane.Sound host lane')
    (tally : ∀ errand, lane'.tally errand = lane.tally errand + Vcs.tally errand [job]) :
    Grown c ((c.accepts job).put host lane') [job] where
  lanes := fun lanes => LanesSound.put (c := c.accepts job) ⟨lanes.distinct, lanes.sound⟩
    (sound (lanes.of_lane h))
  tally := by
    intro errand
    have whole := put_tally (c := c.accepts job) errand h lane'
    rw [tally] at whole
    change _ = (c.accepts job).tally errand + _
    omega
  ledger := rfl
  lastStamp := rfl

lemma capture_grown (c : Checkpoints) (checkout : Checkout) (label : String) :
    ∃ jobs, Grown c (c.capture checkout label) jobs := by
  unfold capture
  cases hlane : c.lane checkout.host with
  | none => exact ⟨_, .refl c⟩
  | some lane =>
    dsimp only
    cases relabel : relabelled checkout label lane.queue with
    | some queue =>
      obtain ⟨errands, waiting, own⟩ := relabelled_some relabel
      refine ⟨_, .same hlane (fun sound => ⟨?_, ?_, sound.minded⟩) ?_⟩
      · intro job hj
        obtain hj | hj := List.mem_append.mp hj
        · exact sound.own job (List.mem_append_left _ hj)
        · obtain ⟨job', held, same⟩ := own job hj
          rw [← same]
          exact sound.own job' (List.mem_append_right _ held)
      · rw [waiting]
        exact sound.captures
      · intro errand
        rw [Lane.tally_eq, Lane.tally_eq]
        unfold Vcs.tally
        rw [errands]
    | none =>
      dsimp only
      split
      · exact ⟨_, .same hlane id fun _ => rfl⟩
      · refine ⟨_, .one hlane (fun sound => ⟨?_, ?_, sound.minded⟩) ?_⟩
        · intro job hj
          simp only [Lane.jobs, List.mem_append, List.mem_singleton] at hj
          obtain hj | hj | rfl := hj
          · exact sound.own job (List.mem_append_left _ hj)
          · exact sound.own job (List.mem_append_right _ hj)
          · rfl
        · rw [waitingCaptures_append]
          refine sound.captures.append (List.nodup_singleton _) ?_
          exact List.disjoint_singleton.mpr (relabelled_none relabel)
        · intro errand
          rw [Lane.tally_eq, Lane.tally_eq, tally_append, Nat.add_assoc]

lemma Grown.front (job : Job) (h : c.lane job.checkout.host = some lane)
    (other : job.captures = false) :
    Grown c ((c.accepts job).put job.checkout.host { lane with queue := job :: lane.queue }) [job] := by
  refine .one h (fun sound => ⟨?_, ?_, sound.minded⟩) ?_
  · intro job' hj
    simp only [Lane.jobs, List.mem_append, List.mem_cons] at hj
    obtain hj | rfl | hj := hj
    · exact sound.own job' (List.mem_append_left _ hj)
    · rfl
    · exact sound.own job' (List.mem_append_right _ hj)
  · rw [← List.singleton_append, waitingCaptures_append]
    simpa [waitingCaptures, other] using sound.captures
  · intro errand
    rw [Lane.tally_eq, Lane.tally_eq, tally_cons, tally_cons, tally_nil, Nat.zero_add, Nat.add_assoc]

lemma list_grown (c : Checkpoints) (checkout : Checkout) :
    ∃ jobs, Grown c (c.list checkout) jobs := by
  unfold list
  cases hlane : c.lane checkout.host with
  | none => exact ⟨_, .refl c⟩
  | some lane =>
    dsimp only
    split
    · exact ⟨_, .same hlane id fun _ => rfl⟩
    · exact ⟨_, .front ⟨checkout, .list⟩ hlane rfl⟩

lemma captures_grown (taken : List (Checkout × String)) (c : Checkpoints) :
    ∃ jobs, Grown c (taken.foldl (fun c taken => c.capture taken.1 taken.2) c) jobs := by
  induction taken generalizing c with
  | nil => exact ⟨_, .refl c⟩
  | cons p taken ih =>
    obtain ⟨jobs, first⟩ := capture_grown c p.1 p.2
    obtain ⟨jobs', rest⟩ := ih (c.capture p.1 p.2)
    exact ⟨_, first.trans rest⟩

def restoredOf (p : Job × Answer) : Option Restored :=
  match p.2 with
  | .restored result => some ⟨p.1.checkout, result⟩
  | _ => none

structure Kept (c : Checkpoints) (pending : List (Job × Answer)) (restored : List Restored) :
    Prop where
  lanes : c.LanesSound
  balance : ∀ errand, Vcs.tally errand c.ledger.accepted =
    Vcs.tally errand (c.ledger.answered.map Prod.fst) + c.tally errand +
      Vcs.tally errand (pending.map Prod.fst)
  answered : ∀ p ∈ c.ledger.answered, Fits p.1.request p.2
  pending : ∀ p ∈ pending, Fits p.1.request p.2
  reported : c.ledger.reported ++ restored = c.ledger.answered.filterMap restoredOf
  increasing : c.ledger.handed.Pairwise (· < ·)
  latest : ∀ stamp ∈ c.ledger.handed, stamp ≤ c.lastStamp

variable {pending : List (Job × Answer)} {restored : List Restored}

lemma Kept.grown (kept : Kept c pending restored) (h : Grown c c' jobs) :
    Kept c' pending restored where
  lanes := h.lanes kept.lanes
  balance := by
    intro errand
    rw [h.ledger, h.tally, tally_append, kept.balance]
    dsimp only
    omega
  answered := by
    rw [h.ledger]
    exact kept.answered
  pending := kept.pending
  reported := by
    rw [h.ledger]
    exact kept.reported
  increasing := by
    rw [h.ledger]
    exact kept.increasing
  latest := by
    rw [h.ledger, h.lastStamp]
    exact kept.latest

lemma receive_tally (errand : Checkout × Errand) {lane : Lane} (minded : Minded lane.worker lane.running) :
    lane.receive.1.tally errand + Vcs.tally errand (lane.receive.2.toList.map Prod.fst) =
      lane.tally errand := by
  obtain same | ⟨job, answer, worker, running, -, -, same⟩ := Lane.receive_cases minded
  · rw [same]
    rfl
  · rw [same, Lane.tally_eq, Lane.tally_eq, running]
    change Vcs.tally errand [] + _ + Vcs.tally errand [job] = Vcs.tally errand [job] + _
    rw [tally_nil, Nat.zero_add, Nat.add_comm]

lemma received_tally (errand : Checkout × Errand) {lanes : List (Host × Lane)}
    (sound : ∀ e ∈ lanes, Lane.Sound e.1 e.2) :
    Register.total (Lane.tally errand) (Register.relabel (fun lane => lane.receive.1) lanes) +
        Vcs.tally errand ((lanes.filterMap fun e => e.2.receive.2).map Prod.fst) =
      Register.total (Lane.tally errand) lanes := by
  induction lanes with
  | nil => rfl
  | cons e lanes ih =>
    have rest := ih fun e' he' => sound e' (List.mem_cons_of_mem _ he')
    have here := receive_tally errand (sound e (List.mem_cons_self ..)).minded
    have front : (e :: lanes).filterMap (fun e => e.2.receive.2) =
        e.2.receive.2.toList ++ lanes.filterMap fun e => e.2.receive.2 := by
      rw [List.filterMap_cons]
      cases e.2.receive.2 with
      | none => rfl
      | some p => rfl
    rw [front, List.map_append, tally_append]
    simp only [Register.total, Register.relabel, List.map_cons, List.sum_cons] at rest here ⊢
    omega

lemma receive_sound (sound : Lane.Sound host lane) : Lane.Sound host lane.receive.1 := by
  obtain same | ⟨job, answer, worker, running, -, minded, same⟩ := Lane.receive_cases sound.minded
  · rw [same]
    exact sound
  · rw [same]
    exact ⟨fun job' hj => sound.own job' (List.mem_append_right _ hj), sound.captures, minded⟩

lemma Kept.received (kept : Kept c [] restored) : Kept c.received c.arrived restored where
  lanes := by
    refine ⟨kept.lanes.distinct.relabel fun lane => lane.receive.1, ?_⟩
    intro e he
    obtain ⟨e', he', rfl⟩ := List.mem_map.mp he
    exact receive_sound (kept.lanes.sound e' he')
  balance := by
    intro errand
    have whole := received_tally errand kept.lanes.sound
    have before := kept.balance errand
    simp only [List.map_nil, tally_nil, Nat.add_zero] at before
    rw [Nat.add_assoc]
    exact before.trans (congrArg _ whole.symm)
  answered := kept.answered
  pending := by
    intro p hp
    obtain ⟨e, he, arrived⟩ := List.mem_filterMap.mp hp
    obtain same | ⟨job, answer, worker, -, fits, -, same⟩ :=
      Lane.receive_cases (kept.lanes.sound e he).minded
    · rw [same] at arrived
      cases arrived
    · rw [same] at arrived
      cases arrived
      exact fits
  reported := kept.reported
  increasing := kept.increasing
  latest := kept.latest

lemma Kept.answers {p : Job × Answer} (kept : Kept c (p :: pending) restored) :
    Kept (c.answers p.1 p.2) pending (restored ++ (restoredOf p).toList) where
  lanes := ⟨kept.lanes.distinct, kept.lanes.sound⟩
  balance := by
    intro errand
    have before := kept.balance errand
    change Vcs.tally errand c.ledger.accepted =
      Vcs.tally errand ((c.ledger.answered ++ [p]).map Prod.fst) + c.tally errand + _
    rw [List.map_cons, tally_cons] at before
    rw [List.map_append, List.map_singleton, tally_append, tally_cons, tally_nil]
    omega
  answered := by
    intro q hq
    obtain hq | hq := List.mem_append.mp hq
    · exact kept.answered q hq
    · rw [List.mem_singleton.mp hq]
      exact kept.pending p (List.mem_cons_self ..)
  pending := fun q hq => kept.pending q (List.mem_cons_of_mem _ hq)
  reported := by
    change c.ledger.reported ++ (restored ++ _) = (c.ledger.answered ++ [p]).filterMap restoredOf
    rw [← List.append_assoc, kept.reported, List.filterMap_append]
    cases h : restoredOf p with
    | none => rw [List.filterMap_cons_none h]; rfl
    | some r => rw [List.filterMap_cons_some h]; rfl
  increasing := kept.increasing
  latest := kept.latest

lemma apply_grown (c : Checkpoints) (job : Job) (answer : Answer) :
    (∃ jobs, Grown (c.answers job answer) (c.apply job answer).1 jobs) ∧
      (c.apply job answer).2.2 = (restoredOf (job, answer)).toList := by
  have viewless (c : Checkpoints) (view : Option View) : Grown c { c with view } [] :=
    ⟨fun lanes => ⟨lanes.distinct, lanes.sound⟩, fun _ => rfl, (Grown.refl c).ledger, rfl⟩
  cases answer with
  | captured result =>
    refine ⟨?_, ?_⟩
    · unfold apply
      dsimp only
      split
      · exact list_grown _ _
      · exact ⟨_, .refl _⟩
    · unfold apply
      dsimp only
      split <;> rfl
  | listed result =>
    refine ⟨?_, ?_⟩
    · unfold apply
      dsimp only
      split
      · exact ⟨_, .refl _⟩
      · exact ⟨_, viewless _ _⟩
    · unfold apply
      dsimp only
      split <;> rfl
  | restored result =>
    refine ⟨?_, rfl⟩
    change ∃ jobs, Grown _ (restoredView _ _ _) jobs
    unfold restoredView
    split
    · obtain ⟨jobs, grown⟩ := list_grown
        { c.answers job (.restored result) with view := some (View.restored _ result) } job.checkout
      exact ⟨_, (viewless _ _).trans grown⟩
    · exact ⟨_, .refl _⟩

lemma Kept.apply {p : Job × Answer} (kept : Kept c (p :: pending) restored) :
    Kept (c.apply p.1 p.2).1 pending (restored ++ (c.apply p.1 p.2).2.2) := by
  obtain ⟨⟨jobs, grown⟩, told⟩ := apply_grown c p.1 p.2
  rw [told]
  exact kept.answers.grown grown

end Checkpoints

end Sheprd.Vcs
