import Sheprd.Orchestrator.Continued

namespace Sheprd.Orchestrator

open Lib Pages

variable {source : SourceKey} {rank : ℕ → ℕ} {world world' : World}

lemma changedIssues_suffix {since : Instant} {views rest : List View} {page : Page IssueNode Cursor}
    {changed : List Item} {result : Option (List Item)}
    (h : changedIssues rank source since page changed views = some (result, rest)) :
    rest <:+ views := by
  induction views generalizing page changed with
  | nil =>
    unfold changedIssues at h
    dsimp only at h
    split at h
    · cases h
      exact List.suffix_refl _
    · cases h
      exact List.suffix_refl _
    · cases h
  | cons view views ih =>
    unfold changedIssues at h
    dsimp only at h
    split at h
    · cases h
      exact List.suffix_refl _
    · cases h
      exact List.suffix_refl _
    · split at h
      · cases h
      · exact (ih h).trans (List.suffix_cons ..)

lemma changedPulls_suffix {since : Instant} {views rest : List View}
    {page : Page PullRequestNode Cursor} {changed : List Item} {result : Option (List Item)}
    (h : changedPulls rank source since page changed views = some (result, rest)) :
    rest <:+ views := by
  induction views generalizing page changed with
  | nil =>
    unfold changedPulls at h
    dsimp only at h
    split at h
    · cases h
      exact List.suffix_refl _
    · split at h
      · cases h
        exact List.suffix_refl _
      · cases h
        exact List.suffix_refl _
      · cases h
  | cons view views ih =>
    unfold changedPulls at h
    dsimp only at h
    split at h
    · cases h
      exact List.suffix_refl _
    · split at h
      · cases h
        exact List.suffix_refl _
      · cases h
        exact List.suffix_refl _
      · split at h
        · cases h
        · exact (ih h).trans (List.suffix_cons ..)

lemma changes_suffix {since : Resume} {cached : List Item} {previous : Checkpoint}
    {views rest : List View} {result : Option Listing}
    (h : changes rank source since cached previous views = some (result, rest)) :
    rest <:+ views := by
  unfold changes at h
  simp only [Option.bind_eq_bind, Option.bind_eq_some_iff] at h
  obtain ⟨⟨first, views'⟩, hfirst, ⟨issues, views1⟩, hissues, h⟩ := h
  obtain rfl := answered_eq hfirst
  have issuesSuffix := (changedIssues_suffix hissues).trans (List.suffix_cons first _)
  cases issues with
  | none =>
    cases h
    exact issuesSuffix
  | some issues =>
    simp only [Option.bind_eq_some_iff] at h
    obtain ⟨⟨pulls, views2⟩, hpulls, h⟩ := h
    have pullsSuffix := (changedPulls_suffix hpulls).trans issuesSuffix
    cases pulls with
    | none =>
      cases h
      exact pullsSuffix
    | some pulls =>
      cases h
      exact pullsSuffix

lemma sync_cases {previous : Option Checkpoint} {cached : Option (List Item)}
    {resume : Option Resume} {now finished : Instant} {views : List View} {listing : Listing}
    (h : sync rank source previous cached resume now finished views = some listing) :
    (∃ rest, rest <:+ views ∧
        full rank source (previous.getD {}) finished rest = some listing) ∨
      ∃ since items rest, incremental (previous.getD {}) cached resume now = some (since, items) ∧
        changes rank source since items (previous.getD {}) views = some (some listing, rest) := by
  unfold sync at h
  simp only [] at h
  split at h
  · exact .inl ⟨views, List.suffix_refl _, h⟩
  · next since items start =>
    split at h
    · cases h
    · next listing' rest same =>
      cases h
      exact .inr ⟨since, items, rest, start, same⟩
    · next rest same =>
      exact .inl ⟨rest, changes_suffix same, h⟩

lemma Continued.perm {since : Resume} {items items' : List Item}
    (h : Continued source world since items) (perm : items'.Perm items) :
    Continued source world since items' where
  known := fun y hy => h.known y (perm.mem_iff.mp hy)
  covers := fun x hx old => (h.covers x hx old).perm perm
  early := h.early

lemma Continued.stored {since : Resume} {items : List Item}
    (h : Continued source world since items) : Continued source world since (stored items) where
  known := fun y hy => h.known y (mem_of_stored hy)
  covers := fun x hx old => (h.covers x hx old).stored
  early := h.early

namespace Worker

def Holds (w : Worker) (checkpoint : Checkpoint) (items : List Item) : Prop :=
  (w.uncached = none ∧ w.remembered = none ∧ w.storedCheckpoint = some checkpoint ∧
      w.storedItems = items) ∨
    ∃ complete, w.uncached = some items ∧ w.remembered = some ⟨checkpoint, complete⟩

inductive Sound (source : SourceKey) (world : World) (w : Worker) : Prop where
  | unlisted : w = {} → Sound source world w
  | listed (resume : Resume) (checkpoint : Checkpoint) (items : List Item) :
      w.resume = some resume → checkpoint.updatedAt = some resume.oldest →
        Continued source world resume items → w.Holds checkpoint items → Sound source world w

lemma Sound.later {w : Worker} (h : w.Sound source world) (later : Later world world') :
    w.Sound source world' := by
  cases h with
  | unlisted new => exact .unlisted new
  | listed resume checkpoint items hresume updated continued holds =>
    exact .listed resume checkpoint items hresume updated (continued.later later) holds

lemma Sound.incremental {w : Worker} {writable : Bool} {order : Item → ℕ} {now : Instant}
    {since : Resume} {items : List Item} (h : w.Sound source world)
    (start : incremental ((w.continued writable order).1.getD {}) (w.continued writable order).2
      (w.resumeFor (w.continued writable order).1) now = some (since, items)) :
    w.resume = some since ∧ Continued source world since items := by
  have cached : (w.continued writable order).2 = some items := by
    unfold Orchestrator.incremental at start
    simp only [Option.bind_eq_bind, Option.bind_eq_some_iff] at start
    obtain ⟨_, -, _, -, start⟩ := start
    split at start
    · obtain ⟨_, same, start⟩ := Option.bind_eq_some_iff.mp start
      cases start
      exact same
    · cases start
  have times (checkpoint : Checkpoint) (resume : Resume)
      (previous : (w.continued writable order).1 = some checkpoint)
      (hresume : w.resume = some resume) (updated : checkpoint.updatedAt = some resume.oldest) :
      resume = since := by
    have kept : w.resumeFor (some checkpoint) = some resume := by
      unfold resumeFor
      rw [hresume, Option.bind_some, Option.filter_some, if_pos (by simp [updated])]
    rw [previous, kept] at start
    unfold Orchestrator.incremental at start
    simp only [Option.bind_eq_bind, Option.bind_eq_some_iff] at start
    obtain ⟨since', hsince, _, -, start⟩ := start
    obtain rfl : resume = since' := Option.some.inj hsince
    split at start
    · obtain ⟨_, -, start⟩ := Option.bind_eq_some_iff.mp start
      cases start
      rfl
    · cases start
  cases h with
  | unlisted new =>
    subst new
    cases cached
  | listed resume checkpoint held hresume updated continued holds =>
    obtain ⟨uncached, remembered, stored, rfl⟩ | ⟨complete, uncached, remembered⟩ := holds
    · have memory : w.memory = none := by
        unfold memory
        rw [uncached, remembered]
      have here : w.continued writable order = (some checkpoint,
          if writable then some (w.storedItems.insertionSort fun a b => order a ≤ order b)
          else none) := by
        unfold Worker.continued
        rw [memory, stored]
        simp
      rw [here] at cached
      obtain rfl := times checkpoint resume (by rw [here]) hresume updated
      refine ⟨hresume, ?_⟩
      cases writable with
      | false => cases cached
      | true =>
        obtain rfl := Option.some.inj cached
        exact continued.perm (List.perm_insertionSort ..)
    · have here : w.continued writable order = (some checkpoint, some held) := by
        unfold Worker.continued memory
        rw [uncached, remembered]
      rw [here] at cached
      obtain rfl := times checkpoint resume (by rw [here]) hresume updated
      obtain rfl := Option.some.inj cached
      exact ⟨hresume, continued⟩

lemma keep_sound (w : Worker) (writable : Bool) {listing : Listing}
    (updated : listing.checkpoint.updatedAt = some listing.resume.oldest)
    (continued : Continued source world listing.resume listing.items) :
    (w.keep writable listing).Sound source world := by
  unfold keep
  simp only []
  split
  · exact .listed listing.resume listing.checkpoint listing.items rfl updated continued
      (.inr ⟨_, rfl, rfl⟩)
  · exact .listed listing.resume listing.checkpoint (Orchestrator.stored listing.items) rfl updated
      continued.stored (.inl ⟨rfl, rfl, rfl, rfl⟩)

lemma githubListing_eq {w : Worker} {writable : Bool} {order : Item → ℕ} {now finished : Instant}
    {cancelled : Bool} {views : List View} {listing : Listing}
    (h : w.githubListing rank source writable order now finished cancelled views = some listing) :
    sync rank source (w.continued writable order).1 (w.continued writable order).2
      (w.resumeFor (w.continued writable order).1) now finished views = some listing := by
  unfold githubListing at h
  simp only [Option.bind_eq_bind, Option.bind_eq_some_iff] at h
  obtain ⟨listing', same, h⟩ := h
  split at h
  · cases h
  · cases h
    exact same

end Worker

lemma stored_of_nodup {items : List Item} (distinct : (items.map Item.key).Nodup) :
    stored items = items := by
  have rows (front : List Item) (distinct : ((front ++ items).map Item.key).Nodup) :
      items.foldl (fun rows item => rows.filter (fun row => row.key ≠ item.key) ++ [item]) front =
        front ++ items := by
    induction items generalizing front with
    | nil => simp
    | cons item items ih =>
      have fresh : front.filter (fun row => row.key ≠ item.key) = front := by
        rw [List.filter_eq_self]
        intro row hrow
        rw [List.map_append] at distinct
        have apart := List.disjoint_of_nodup_append distinct
        simp only [ne_eq, decide_not, Bool.not_eq_eq_eq_not, Bool.not_true, decide_eq_false_iff_not]
        intro same
        exact apart (List.mem_map_of_mem hrow) (by simp [same])
      rw [List.foldl_cons, fresh]
      refine (ih ?_ (front ++ [item]) (by simpa using distinct)).trans (by simp)
      rename_i whole
      simpa using (List.nodup_cons.mp whole).2
  exact (rows [] (by simpa using distinct)).trans (List.nil_append _)

lemma World.Sound.empty (start : Instant) : (⟨start, [], []⟩ : World).Sound where
  issues := .nil
  pulls := .nil
  issuesBy := fun _ mem => absurd mem List.not_mem_nil
  pullsBy := fun _ mem => absurd mem List.not_mem_nil
  issueStates := fun _ mem => absurd mem List.not_mem_nil
  pullStates := fun _ mem => absurd mem List.not_mem_nil

namespace System

structure Sound (source : SourceKey) (s : System) : Prop where
  world : s.world.Sound
  worker : s.worker.Sound source s.world

lemma Sound.listing {s : System} {sync : Sync} {listing : Listing} (h : s.Sound source)
    (listed : s.listing rank source sync = some listing)
    (complete : listing.full = true → listing.complete = true) :
    Continued source (s.world.through sync.reads) listing.resume listing.items ∧
      listing.checkpoint.updatedAt = some listing.resume.oldest ∧
      (listing.full = false → ∃ since, s.worker.resume = some since ∧
        since.issues ≤ listing.resume.issues ∧ since.pulls ≤ listing.resume.pulls ∧
        ((∀ read ∈ sync.reads, read.changes = []) →
          Exact source (s.world.through sync.reads) listing.items)) := by
  obtain ⟨later, sound⟩ := through_later sync.reads s.world
  have course := views_course sync.reads h.world
  obtain ⟨rest, ⟨front, views⟩, whole⟩ | ⟨since, items, rest, start, changed⟩ :=
    sync_cases (Worker.githubListing_eq listed)
  · rw [← views] at course
    have isFull : listing.full = true := by
      unfold full at whole
      simp only [Option.bind_eq_bind, Option.bind_eq_some_iff] at whole
      obtain ⟨_, -, _, -, _, -, _, -, whole⟩ := whole
      cases whole
      rfl
    obtain ⟨continued, updated, -⟩ := full_continues course.append (sound h.world) whole
      (complete isFull)
    refine ⟨continued, updated, ?_⟩
    intro notFull
    rw [isFull] at notFull
    cases notFull
  · obtain ⟨resume, before⟩ := h.worker.incremental start
    obtain ⟨continued, updated, -, issues, pulls, quiet⟩ :=
      changes_continues course later before changed
    refine ⟨continued, updated, fun _ => ⟨since, resume, issues, pulls, ?_⟩⟩
    intro still
    obtain ⟨same, last⟩ : (∀ view ∈ s.world.views sync.reads, view.world = s.world) ∧
        s.world.through sync.reads = s.world := views_quiet still
    exact quiet fun view hv => by rw [same view hv, last]

lemma Sound.next {s : System} {act : Act} (h : s.Sound source)
    (complete : ∀ sync listing, act = .sync sync → s.listing rank source sync = some listing →
      listing.full = true → listing.complete = true) : (s.next rank source act).Sound source := by
  cases act with
  | change change =>
    exact ⟨h.world.changed change, h.worker.later (changed_later s.world change)⟩
  | sync sync =>
    obtain ⟨later, sound⟩ := through_later sync.reads s.world
    refine ⟨sound h.world, ?_⟩
    cases listed : s.listing rank source sync with
    | none =>
      simp only [System.next, System.synced, listed]
      exact h.worker.later later
    | some listing =>
      simp only [System.next, System.synced, listed]
      obtain ⟨continued, updated, -⟩ := h.listing listed (complete sync listing rfl listed)
      exact s.worker.keep_sound sync.writable updated continued

def run (rank : ℕ → ℕ) (source : SourceKey) (start : Instant) (acts : List Act) : System :=
  acts.foldl (next rank source) { world := ⟨start, [], []⟩ }

lemma run_append (start : Instant) (acts : List Act) (act : Act) :
    run rank source start (acts ++ [act]) = (run rank source start acts).next rank source act :=
  List.foldl_append

def Uncapped (rank : ℕ → ℕ) (source : SourceKey) (start : Instant) (acts : List Act) : Prop :=
  ∀ done sync listing, done ++ [.sync sync] <+: acts →
    (run rank source start done).listing rank source sync = some listing →
    listing.full = true → listing.complete = true

lemma run_sound {start : Instant} {acts : List Act} (uncapped : Uncapped rank source start acts) :
    (run rank source start acts).Sound source := by
  induction acts using List.reverseRecOn with
  | nil => exact ⟨World.Sound.empty start, .unlisted rfl⟩
  | append_singleton acts act ih =>
    have before := ih fun done sync listing front =>
      uncapped done sync listing (front.trans (List.prefix_append ..))
    rw [run_append]
    refine before.next ?_
    rintro sync listing rfl
    exact uncapped acts sync listing (List.prefix_refl _)

end System

theorem incremental_exact (rank : ℕ → ℕ) (source : SourceKey) (start : Instant) (acts : List Act)
    (sync : Sync) (listing : Listing)
    (uncapped : System.Uncapped rank source start (acts ++ [.sync sync]))
    (listed : (System.run rank source start acts).listing rank source sync = some listing)
    (continued : listing.full = false) :
    let after := System.run rank source start (acts ++ [.sync sync])
    (∃ since, (System.run rank source start acts).worker.resume = some since ∧
        since.issues ≤ listing.resume.issues ∧ since.pulls ≤ listing.resume.pulls) ∧
      after.worker.resume = some listing.resume ∧
      ((∀ read ∈ sync.reads, read.changes = []) →
        after.worker.items = listing.items ∧ Exact source after.world listing.items) := by
  intro after
  have before : (System.run rank source start acts).Sound source :=
    System.run_sound fun done sync' listing' front =>
      uncapped done sync' listing' (front.trans (List.prefix_append ..))
  obtain ⟨-, -, times⟩ := before.listing listed (uncapped acts sync listing (List.prefix_refl _) listed)
  obtain ⟨since, resume, issues, pulls, quiet⟩ := times continued
  have worker : after.worker =
      (System.run rank source start acts).worker.keep sync.writable listing := by
    change (System.run rank source start (acts ++ [.sync sync])).worker = _
    rw [System.run_append]
    simp only [System.next, System.synced, listed]
  have world : after.world = (System.run rank source start acts).world.through sync.reads := by
    exact congrArg System.world (System.run_append start acts (.sync sync))
  refine ⟨⟨since, resume, issues, pulls⟩, ?_, ?_⟩
  · rw [worker]
    unfold Worker.keep
    simp only []
    split <;> rfl
  · intro still
    have exact' := quiet still
    rw [← world] at exact'
    refine ⟨?_, exact'⟩
    rw [worker]
    unfold Worker.keep
    simp only []
    split
    · rfl
    · exact stored_of_nodup exact'.keys

def openedSource : SourceKey := ⟨.github, "github.com", "penso/sheprd"⟩

def openedIssue : IssueNode where
  number := 7
  title := "Crash on start"
  body := none
  state := "OPEN"
  url := "https://github.com/penso/sheprd/issues/7"
  createdAt := 0
  updatedAt := 0
  author := none
  labels := none
  comments := none

def quietSync : Sync where
  writable := true
  order := fun _ => 0
  now := 0
  finished := 0
  cancelled := false
  reads := List.replicate 3 { changes := [], reply := .ok, behind := 0 }

def laterIssue : IssueNode := { openedIssue with number := 8, title := "Lost keys" }

def busySync : Sync :=
  { quietSync with reads := [⟨[], .ok, 0⟩, ⟨[.issue laterIssue false], .ok, 0⟩, ⟨[], .ok, 0⟩] }

def openedActs : List Act := [.change (.issue openedIssue false), .sync busySync]

def openedListing (full : Bool) (issues : List IssueNode) : Listing where
  items := issues.map (·.intoItem openedSource)
  checkpoint := { updatedAt := some 0, lastFullAt := some 0 }
  complete := true
  full
  resume := .both 0

lemma opened_uncapped : System.Uncapped id openedSource 0 (openedActs ++ [.sync quietSync]) := by
  intro done sync listing front listed isFull
  have first : (System.run id openedSource 0 [.change (.issue openedIssue false)]).listing id
      openedSource busySync = some (openedListing true [openedIssue]) := by decide +kernel
  have second : (System.run id openedSource 0 openedActs).listing id openedSource quietSync =
      some (openedListing false [laterIssue, openedIssue]) := by decide +kernel
  match done with
  | [] => simp [openedActs] at front
  | [act] =>
    obtain ⟨rfl, rfl⟩ : act = .change (.issue openedIssue false) ∧ sync = busySync := by
      simpa [openedActs] using front
    rw [first] at listed
    cases listed
    rfl
  | [act, act'] =>
    obtain ⟨rfl, rfl, rfl⟩ : act = .change (.issue openedIssue false) ∧ act' = .sync busySync ∧
        sync = quietSync := by
      simpa [openedActs] using front
    change (System.run id openedSource 0 openedActs).listing id openedSource quietSync = _ at listed
    rw [second] at listed
    cases listed
    cases isFull
  | _ :: _ :: _ :: _ =>
    have length := front.length_le
    simp [openedActs] at length
    omega

theorem incremental_exact_opened :
    Exact openedSource (System.run id openedSource 0 (openedActs ++ [.sync quietSync])).world
      ([laterIssue, openedIssue].map (·.intoItem openedSource)) :=
  ((incremental_exact id openedSource 0 openedActs quietSync (openedListing false [laterIssue, openedIssue])
    opened_uncapped (by decide +kernel) rfl).2.2 (by decide)).2

end Sheprd.Orchestrator
