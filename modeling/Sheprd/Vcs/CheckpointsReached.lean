import Sheprd.Vcs.PollKept

namespace Sheprd.Vcs

open Lib

namespace Checkpoints

variable {c c' : Checkpoints}

def Holds (c : Checkpoints) (errand : Checkout × Errand) : Prop :=
  ∃ lane, Register.lookup c.lanes errand.1.host = some lane ∧ ∃ job ∈ lane.jobs, job.errand = errand

structure Sound (c : Checkpoints) : Prop where
  distinct : Register.Distinct c.lanes
  lanes : ∀ e ∈ c.lanes, Lane.Sound e.1 e.2
  accounts : (c.ledger.accepted.map Job.errand).Perm
    ((c.ledger.answered.map Prod.fst ++ c.lanes.flatMap fun e => e.2.jobs).map Job.errand)
  answered : ∀ p ∈ c.ledger.answered, Fits p.1.request p.2
  reported : c.ledger.reported = c.ledger.answered.filterMap restoredOf
  increasing : c.ledger.handed.Pairwise (· < ·)
  restoring : ∀ view ∈ c.view, view.restoring = true → ∃ id, c.Holds (view.checkout, .restore id)

def Listed (c : Checkpoints) : Prop :=
  ∀ view ∈ c.view, view.listing = .loading → c.Holds (view.checkout, .list)

def Admits (c : Checkpoints) : Act → Prop
  | .openView checkout _ _ =>
      Register.lookup c.lanes checkout.host ≠ none ∨ c.lanes.length < hostLimit
  | _ => True

def Admitted (acts : List Act) : Prop :=
  ∀ before act, before ++ [act] <+: acts → (after before).Admits act

lemma Due.holds {errand : Checkout × Errand} (sound : c.LanesSound) (due : c.Due [] errand) :
    c.Holds errand := by
  unfold Due at due
  rw [List.map_nil, tally_nil, Nat.add_zero] at due
  obtain ⟨e, he, positive⟩ := Register.exists_of_total_pos due
  obtain ⟨job, hj, rfl⟩ := tally_pos.mp positive
  refine ⟨e.2, ?_, job, hj, rfl⟩
  change Register.lookup c.lanes job.checkout.host = _
  rw [(sound.sound e he).own job hj]
  exact Register.lookup_of_mem sound.distinct he

lemma tally_eq_count (errand : Checkout × Errand) (lanes : List (Host × Lane)) :
    Register.total (Lane.tally errand) lanes =
      Vcs.tally errand (lanes.flatMap fun e => e.2.jobs) := by
  induction lanes with
  | nil => rfl
  | cons e lanes ih =>
    rw [List.flatMap_cons, tally_append, ← ih]
    rfl

lemma Whole.sound (whole : Whole c [] []) : c.Sound where
  distinct := whole.kept.lanes.distinct
  lanes := whole.kept.lanes.sound
  accounts := by
    rw [List.perm_iff_count]
    intro errand
    have balance := whole.kept.balance errand
    unfold Checkpoints.tally at balance
    rw [tally_eq_count, List.map_nil, tally_nil, Nat.add_zero, ← tally_append] at balance
    exact balance
  answered := whole.kept.answered
  reported := by
    rw [← whole.kept.reported, List.append_nil]
  increasing := whole.kept.increasing
  restoring := by
    intro view held shown
    obtain ⟨_, ⟨id, rfl⟩, due⟩ := whole.restoring view held shown
    exact ⟨id, due.holds whole.kept.lanes⟩

lemma Loading.listed (whole : Whole c [] []) (loading : c.Loading []) : c.Listed := by
  intro view held shown
  obtain ⟨_, rfl, due⟩ := loading view held shown
  exact due.holds whole.kept.lanes

lemma Whole.grown {jobs : List Job} (whole : Whole c [] []) (grown : Grown c c' jobs)
    (view : ∀ view ∈ c'.view, view.restoring = true → ∃ view' ∈ c.view, view'.restoring = true ∧
      view'.checkout = view.checkout) : Whole c' [] [] :=
  ⟨whole.kept.grown grown, Awaits.mono whole.restoring view fun _ due => due.grown grown⟩

lemma Grown.view (c : Checkpoints) (view : Option View) : Grown c { c with view } [] where
  lanes := fun lanes => ⟨lanes.distinct, lanes.sound⟩
  tally := fun _ => rfl
  ledger := (Grown.refl c).ledger
  lastStamp := rfl

lemma Grown.watches (c : Checkpoints) (watches : List (String × Watch)) :
    Grown c { c with watches } [] where
  lanes := fun lanes => ⟨lanes.distinct, lanes.sound⟩
  tally := fun _ => rfl
  ledger := (Grown.refl c).ledger
  lastStamp := rfl

def SameFlags (c c' : Checkpoints) : Prop :=
  ∀ view ∈ c'.view, ∃ view' ∈ c.view, view'.restoring = view.restoring ∧
    view'.listing = view.listing ∧ view'.checkout = view.checkout

lemma SameFlags.of_eq (h : c'.view = c.view) : SameFlags c c' := by
  intro view held
  rw [h] at held
  exact ⟨view, held, rfl, rfl, rfl⟩

lemma SameFlags.of_map {f : View → View} (h : c'.view = c.view.map f)
    (keeps : ∀ view, (f view).restoring = view.restoring ∧ (f view).listing = view.listing ∧
      (f view).checkout = view.checkout) : SameFlags c c' := by
  intro view held
  rw [h] at held
  obtain ⟨view', held', rfl⟩ := Option.map_eq_some_iff.mp held
  obtain ⟨restoring, listing, checkout⟩ := keeps view'
  exact ⟨view', held', restoring.symm, listing.symm, checkout.symm⟩

lemma Whole.flags {jobs : List Job} (whole : Whole c [] []) (grown : Grown c c' jobs)
    (flags : SameFlags c c') : Whole c' [] [] ∧ (c.Loading [] → c'.Loading []) := by
  refine ⟨whole.grown grown ?_, fun loading => Awaits.mono loading ?_ fun _ due => due.grown grown⟩
  · intro view held shown
    obtain ⟨view', held', restoring, -, checkout⟩ := flags view held
    exact ⟨view', held', restoring.trans shown, checkout⟩
  · intro view held shown
    obtain ⟨view', held', -, listing, checkout⟩ := flags view held
    exact ⟨view', held', listing.trans shown, checkout⟩

lemma capture_view (c : Checkpoints) (checkout : Checkout) (label : String) :
    (c.capture checkout label).view = c.view := by
  unfold capture
  split
  · rfl
  · dsimp only
    split
    · rfl
    · split <;> rfl

lemma captures_view (taken : List (Checkout × String)) (c : Checkpoints) :
    (taken.foldl (fun c taken => c.capture taken.1 taken.2) c).view = c.view := by
  induction taken generalizing c with
  | nil => rfl
  | cons p taken ih => exact (ih _).trans (capture_view c p.1 p.2)

lemma observe_grown (c : Checkpoints) (endpoint : String) (host : Host) (stored : ℕ)
    (snapshot : Protocol.ClientShellSnapshot) :
    (∃ jobs, Grown c (c.observe endpoint host stored snapshot) jobs) ∧
      (c.observe endpoint host stored snapshot).view = c.view := by
  unfold observe
  dsimp only
  split
  · exact ⟨⟨_, .watches c _⟩, rfl⟩
  · obtain ⟨jobs, grown⟩ := captures_grown _ _
    exact ⟨⟨_, (Grown.watches c _).trans grown⟩, captures_view _ _⟩

lemma works_grown (c : Checkpoints) (host : Host) (act : WorkerAct) :
    Grown c (c.works host act) [] ∧ (c.works host act).view = c.view := by
  unfold works
  split
  · next lane held =>
    refine ⟨.same (lane_of_lookup held) (fun sound => ?_) fun _ => rfl, rfl⟩
    exact ⟨sound.own, sound.captures, sound.minded.moves act⟩
  · exact ⟨.refl c, rfl⟩

lemma rehash_grown (c : Checkpoints) (key : Host → ℕ) :
    Grown c (c.next (.rehash key)) [] := by
  have perm := List.mergeSort_perm c.lanes fun e e' => key e.1 ≤ key e'.1
  refine ⟨fun lanes => ⟨?_, ?_⟩, fun errand => Register.total_perm _ perm, (Grown.refl c).ledger, rfl⟩
  · exact ((perm.map Prod.fst).nodup_iff).mpr lanes.distinct
  · exact fun e he => lanes.sound e (perm.mem_iff.mp he)

lemma confirming_ready {view : View} {checkpoint : Checkpoint}
    (h : view.confirmingCheckpoint = some checkpoint) : view.listing ≠ .loading := by
  unfold View.confirmingCheckpoint at h
  split at h
  · next ready =>
    rw [ready]
    exact fun loading => nomatch loading
  · cases h

lemma put_due {host : Host} {lane : Lane} (job : Job) (waits : job ∈ lane.queue) :
    (c.put host lane).Due [] job.errand := by
  have held : Register.lookup (c.put host lane).lanes host = some lane := by
    unfold put
    rw [Register.lookup_assign, if_pos rfl]
  have here : 0 < lane.tally job.errand := tally_pos.mpr ⟨job, List.mem_append_right _ waits, rfl⟩
  exact Nat.lt_of_lt_of_le here ((Register.le_total _ held).trans (Nat.le_add_right _ _))

lemma restore_whole (whole : Whole c [] []) :
    Whole c.restore [] [] ∧ (c.Loading [] → c.restore.Loading []) := by
  unfold restore
  split
  · exact ⟨whole, id⟩
  · next view held =>
    split
    · exact ⟨whole, id⟩
    · next calm =>
      split
      · exact ⟨whole, id⟩
      · next checkpoint chosen =>
        have ready := confirming_ready (Option.filter_eq_some_iff.mp chosen).1
        dsimp only
        split
        · next lane hlane =>
          have grown := (Grown.view c (some { view with restoring := true, error := none })).trans
            (Grown.front ⟨view.checkout, .restore checkpoint.id⟩ hlane rfl)
          refine ⟨⟨whole.kept.grown grown, ?_⟩, fun _ => ?_⟩
          · rintro view' ⟨⟩ -
            exact ⟨_, ⟨checkpoint.id, rfl⟩,
              put_due ⟨view.checkout, .restore checkpoint.id⟩ (List.mem_cons_self ..)⟩
          · rintro view' ⟨⟩ shown
            exact absurd shown ready
        · refine whole.flags (.view c _) ?_
          rintro view' ⟨⟩
          exact ⟨view, held, by simpa using calm, rfl, rfl⟩

lemma lane_eq_none {host : Host} :
    c.lane host = none ↔ Register.lookup c.lanes host = none ∧ hostLimit ≤ c.lanes.length := by
  unfold lane
  cases Register.lookup c.lanes host <;> simp

lemma admits_iff {checkout : Checkout} {title workspaceId : String} :
    c.Admits (.openView checkout title workspaceId) ↔ c.lane checkout.host ≠ none := by
  rw [Ne, lane_eq_none, not_and_or, Nat.not_le]
  rfl

lemma list_due {checkout : Checkout} (h : c.lane checkout.host ≠ none) :
    (c.list checkout).Due [] (checkout, .list) := by
  obtain ⟨lane, hlane⟩ := Option.ne_none_iff_exists'.mp h
  unfold list
  rw [hlane]
  dsimp only
  split
  · next waits => exact put_due _ waits
  · exact put_due ⟨checkout, .list⟩ (List.mem_cons_self ..)

lemma open_whole (checkout : Checkout) (title workspaceId : String) (whole : Whole c [] []) :
    Whole (c.openView checkout title workspaceId) [] [] ∧
      (c.Admits (.openView checkout title workspaceId) →
        (c.openView checkout title workspaceId).Loading []) := by
  obtain ⟨jobs, grown⟩ := list_grown
    { c with view := some (.opened checkout title workspaceId) } checkout
  have view : (c.openView checkout title workspaceId).view =
    some (.opened checkout title workspaceId) := list_view _ _
  refine ⟨whole.grown ((Grown.view c _).trans grown) ?_, ?_⟩
  · rw [view]
    rintro view' ⟨⟩ ⟨⟩
  · intro admitted
    unfold Loading Awaits
    rw [view]
    rintro view' ⟨⟩ -
    exact ⟨_, rfl, list_due fun refused => admits_iff.mp admitted refused⟩

lemma open_refused {checkout : Checkout} {title workspaceId : String}
    (refused : ¬ c.Admits (.openView checkout title workspaceId)) :
    ¬ (c.openView checkout title workspaceId).Listed := by
  intro listed
  have none : Checkpoints.lane { c with view := some (.opened checkout title workspaceId) }
      checkout.host = none := by
    by_contra admitted
    exact refused (admits_iff.mpr admitted)
  obtain ⟨lane, held, -⟩ := listed _ (list_view _ _) rfl
  unfold openView list at held
  rw [none] at held
  exact nomatch (lane_eq_none.mp none).1.symm.trans held

lemma polled_whole (meets : Host → Meets) (whole : Whole c [] []) :
    Whole (c.polled meets) [] [] ∧ (c.Loading [] → (c.polled meets).Loading []) := by
  obtain ⟨⟨kept, restoring⟩, loads⟩ := poll_whole meets whole
  refine ⟨⟨⟨⟨kept.lanes.distinct, kept.lanes.sound⟩, kept.balance, kept.answered, kept.pending, ?_,
    kept.increasing, kept.latest⟩, restoring⟩, loads⟩
  exact (List.append_nil _).trans kept.reported

lemma next_whole (act : Act) (whole : Whole c [] []) :
    Whole (c.next act) [] [] ∧ (c.Loading [] → c.Admits act → (c.next act).Loading []) := by
  have unasked {c' : Checkpoints} (h : Whole c' [] [] ∧ (c.Loading [] → c'.Loading [])) :
      Whole c' [] [] ∧ (c.Loading [] → c.Admits act → c'.Loading []) :=
    ⟨h.1, fun loading _ => h.2 loading⟩
  cases act with
  | observe endpoint host stored snapshot =>
    obtain ⟨⟨jobs, grown⟩, view⟩ := observe_grown c endpoint host stored snapshot
    exact unasked (whole.flags grown (.of_eq view))
  | retainEndpoints keep =>
    have grown : Grown c (c.retainEndpoints keep) [] := .watches c _
    exact unasked (whole.flags grown (.of_eq rfl))
  | openView checkout title workspaceId =>
    obtain ⟨whole', loads⟩ := open_whole checkout title workspaceId whole
    exact ⟨whole', fun _ => loads⟩
  | want id =>
    have grown : Grown c (c.want id) [] := .view c _
    exact unasked (whole.flags grown (.of_map rfl fun _ => ⟨rfl, rfl, rfl⟩))
  | close =>
    have grown : Grown c c.close [] := .view c none
    exact unasked (whole.flags grown fun _ held => absurd held (Option.not_mem_none _))
  | edit selected confirming error =>
    have grown : Grown c (c.edit selected confirming error) [] := .view c _
    exact unasked (whole.flags grown (.of_map rfl fun _ => ⟨rfl, rfl, rfl⟩))
  | restore => exact unasked (restore_whole whole)
  | poll meets => exact unasked (polled_whole meets whole)
  | worker host act =>
    obtain ⟨grown, view⟩ := works_grown c host act
    exact unasked (whole.flags grown (.of_eq view))
  | rehash key => exact unasked (whole.flags (rehash_grown c key) (.of_eq rfl))

lemma whole_new : Whole {} [] [] where
  kept :=
    { lanes := ⟨List.nodup_nil, fun _ held => absurd held List.not_mem_nil⟩
      balance := by
        intro errand
        simp [Checkpoints.tally, Register.total]
      answered := fun _ held => absurd held List.not_mem_nil
      pending := fun _ held => absurd held List.not_mem_nil
      reported := rfl
      increasing := .nil
      latest := fun _ held => absurd held List.not_mem_nil }
  restoring := fun _ held => absurd held (Option.not_mem_none _)

lemma after_snoc (acts : List Act) (act : Act) : after (acts ++ [act]) = (after acts).next act := by
  unfold after
  rw [List.foldl_append]
  rfl

lemma after_whole (acts : List Act) : Whole (after acts) [] [] := by
  induction acts using List.reverseRecOn with
  | nil => exact whole_new
  | append_singleton acts act ih =>
    rw [after_snoc]
    exact (next_whole act ih).1

lemma after_loading {acts : List Act} (admitted : Admitted acts) : (after acts).Loading [] := by
  induction acts using List.reverseRecOn with
  | nil => exact fun _ held => absurd held (Option.not_mem_none _)
  | append_singleton acts act ih =>
    rw [after_snoc]
    refine (next_whole act (after_whole acts)).2 (ih ?_) (admitted acts act (List.prefix_refl _))
    exact fun earlier act' h => admitted earlier act' (h.trans (List.prefix_append _ _))

theorem reached_sound (acts : List Act) :
    (after acts).Sound ∧
      (Admitted acts ↔ ∀ earlier, earlier <+: acts → (after earlier).Listed) := by
  refine ⟨(after_whole acts).sound, ?_⟩
  constructor
  · intro admitted earlier h
    refine Loading.listed (after_whole earlier) (after_loading ?_)
    exact fun before act h' => admitted before act (h'.trans h)
  · intro listed before act h
    have held := listed _ h
    rw [after_snoc] at held
    cases act with
    | openView checkout title workspaceId =>
      by_contra refused
      exact open_refused refused held
    | _ => trivial

def manyHosts : List Act :=
  ["a", "b", "c", "d", "e", "f", "g", "h", "i", "j", "k", "l", "m", "n", "o", "p", "q"].map
    fun target => .openView ⟨.ssh target, "/repo", "main"⟩ "" ""

theorem manyHosts_unlisted : ¬ ∀ acts : List Act, (after acts).Listed := by
  intro listed
  obtain ⟨lane, held, -⟩ := listed manyHosts _ rfl rfl
  have none : Register.lookup (after manyHosts).lanes (.ssh "q") = none := by decide
  exact nomatch none.symm.trans held

end Checkpoints

end Sheprd.Vcs
