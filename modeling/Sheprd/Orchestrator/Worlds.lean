import Sheprd.Orchestrator.Github

namespace Sheprd.Orchestrator

open Lib

structure World.Sound (world : World) : Prop where
  issues : (world.issues.map IssueNode.number).Nodup
  pulls : (world.pulls.map fun node => node.issue.number).Nodup
  issuesBy : ∀ node ∈ world.issues, node.updatedAt ≤ world.clock
  pullsBy : ∀ node ∈ world.pulls, node.issue.updatedAt ≤ world.clock
  issueStates : ∀ node ∈ world.issues, node.state = "OPEN" ∨ node.state = "CLOSED"
  pullStates : ∀ node ∈ world.pulls, ∃ state : PullState, node.issue.state = state.text

structure Later (world later : World) : Prop where
  clock : world.clock ≤ later.clock
  issues : ∀ node ∈ later.issues, node ∈ world.issues ∨ world.clock ≤ node.updatedAt
  pulls : ∀ node ∈ later.pulls, node ∈ world.pulls ∨ world.clock ≤ node.issue.updatedAt
  issueNumbers : world.issues.map IssueNode.number ⊆ later.issues.map IssueNode.number
  pullNumbers : (world.pulls.map fun node => node.issue.number) ⊆
    later.pulls.map fun node => node.issue.number

variable {world world' world'' : World}

lemma Later.refl (world : World) : Later world world :=
  ⟨le_refl _, fun _ => .inl, fun _ => .inl, List.Subset.refl _, List.Subset.refl _⟩

lemma Later.trans (h : Later world world') (h' : Later world' world'') : Later world world'' where
  clock := h.clock.trans h'.clock
  issues := by
    intro node hn
    obtain there | since := h'.issues node hn
    · exact h.issues node there
    · exact .inr (h.clock.trans since)
  pulls := by
    intro node hn
    obtain there | since := h'.pulls node hn
    · exact h.pulls node there
    · exact .inr (h.clock.trans since)
  issueNumbers := List.Subset.trans h.issueNumbers h'.issueNumbers
  pullNumbers := List.Subset.trans h.pullNumbers h'.pullNumbers

section Upserted

variable {α : Type} (key : α → ℕ) {entries : List α} {a : α}

lemma mem_upserted {b : α} (h : b ∈ entries.filter (fun b => key b ≠ key a) ++ [a]) :
    b ∈ entries ∨ b = a := by
  obtain h | h := List.mem_append.mp h
  · exact .inl (List.mem_of_mem_filter h)
  · exact .inr (List.mem_singleton.mp h)

lemma upserted_nodup (distinct : (entries.map key).Nodup) :
    ((entries.filter (fun b => key b ≠ key a) ++ [a]).map key).Nodup := by
  rw [List.map_append]
  refine (distinct.sublist (List.filter_sublist.map _)).append (List.nodup_singleton _) ?_
  intro k hk hk'
  obtain ⟨b, hb, rfl⟩ := List.mem_map.mp hk
  have other := (List.mem_filter.mp hb).2
  simp only [List.map_cons, List.map_nil, List.mem_singleton] at hk'
  simp [hk'] at other

lemma keys_upserted :
    entries.map key ⊆ (entries.filter (fun b => key b ≠ key a) ++ [a]).map key := by
  intro k hk
  obtain ⟨b, hb, rfl⟩ := List.mem_map.mp hk
  by_cases same : key b = key a
  · simp [same]
  · exact List.mem_map.mpr ⟨b, List.mem_append_left _ (List.mem_filter.mpr ⟨hb, by simpa using same⟩), rfl⟩

end Upserted

lemma World.Sound.changed (sound : world.Sound) (change : Change) : (world.changed change).Sound := by
  obtain ⟨issues, pulls, issuesBy, pullsBy, issueStates, pullStates⟩ := sound
  cases change with
  | tick elapsed =>
    have later : world.clock ≤ world.clock + elapsed := le_add_of_nonneg_right (Nat.cast_nonneg _)
    exact ⟨issues, pulls, fun node hn => (issuesBy node hn).trans later,
      fun node hn => (pullsBy node hn).trans later, issueStates, pullStates⟩
  | issue node closed =>
    refine ⟨upserted_nodup _ issues, pulls, ?_, pullsBy, ?_, pullStates⟩
    · intro node' hn
      obtain hn | rfl := mem_upserted IssueNode.number hn
      · exact issuesBy node' hn
      · exact le_refl _
    · intro node' hn
      obtain hn | rfl := mem_upserted IssueNode.number hn
      · exact issueStates node' hn
      · cases closed with
        | true => exact .inr rfl
        | false => exact .inl rfl
  | pull node state =>
    refine ⟨issues, upserted_nodup (fun node : PullRequestNode => node.issue.number) pulls, issuesBy, ?_,
      issueStates, ?_⟩
    · intro node' hn
      obtain hn | rfl := mem_upserted (fun node : PullRequestNode => node.issue.number) hn
      · exact pullsBy node' hn
      · exact le_refl _
    · intro node' hn
      obtain hn | rfl := mem_upserted (fun node : PullRequestNode => node.issue.number) hn
      · exact pullStates node' hn
      · exact ⟨state, rfl⟩

lemma changed_later (world : World) (change : Change) : Later world (world.changed change) := by
  cases change with
  | tick elapsed =>
    exact { Later.refl world with clock := le_add_of_nonneg_right (Nat.cast_nonneg _) }
  | issue node closed =>
    refine { Later.refl world with issues := ?_, issueNumbers := keys_upserted IssueNode.number }
    intro node' hn
    obtain hn | rfl := mem_upserted IssueNode.number hn
    · exact .inl hn
    · exact .inr (le_refl _)
  | pull node state =>
    refine { Later.refl world with
      pulls := ?_, pullNumbers := keys_upserted fun node : PullRequestNode => node.issue.number }
    intro node' hn
    obtain hn | rfl := mem_upserted (fun node : PullRequestNode => node.issue.number) hn
    · exact .inl hn
    · exact .inr (le_refl _)

lemma after_later (changes : List Change) (world : World) :
    Later world (world.after changes) ∧ (world.Sound → (world.after changes).Sound) := by
  induction changes generalizing world with
  | nil => exact ⟨.refl world, id⟩
  | cons change changes ih =>
    obtain ⟨later, sound⟩ := ih (world.changed change)
    exact ⟨(changed_later world change).trans later, fun h => sound (h.changed change)⟩

structure Course (world : World) (views : List View) (later : World) : Prop where
  sound : ∀ view ∈ views, view.world.Sound
  first : ∀ view ∈ views, Later world view.world
  chain : views.Pairwise fun a b => Later a.world b.world
  last : ∀ view ∈ views, Later view.world later
  now : ∀ view ∈ views, view.now - clockMargin ≤ view.world.clock

lemma Course.append {front back : List View} {later : World}
    (h : Course world (front ++ back) later) : Course world back later where
  sound := fun view hv => h.sound view (List.mem_append_right _ hv)
  first := fun view hv => h.first view (List.mem_append_right _ hv)
  chain := (List.pairwise_append.mp h.chain).2.1
  last := fun view hv => h.last view (List.mem_append_right _ hv)
  now := fun view hv => h.now view (List.mem_append_right _ hv)

lemma through_later (reads : List Read) (world : World) :
    Later world (world.through reads) ∧ (world.Sound → (world.through reads).Sound) := by
  induction reads generalizing world with
  | nil => exact ⟨.refl world, id⟩
  | cons read reads ih =>
    obtain ⟨later, sound⟩ := ih (world.after read.changes)
    obtain ⟨later', sound'⟩ := after_later read.changes world
    exact ⟨later'.trans later, sound ∘ sound'⟩

lemma views_course (reads : List Read) (sound : world.Sound) :
    Course world (world.views reads) (world.through reads) := by
  induction reads generalizing world with
  | nil => exact ⟨nofun, nofun, .nil, nofun, nofun⟩
  | cons read reads ih =>
    obtain ⟨later, kept⟩ := after_later read.changes world
    have rest := ih (kept sound)
    unfold World.views
    refine ⟨?_, ?_, ?_, ?_, ?_⟩
    · intro view hv
      obtain rfl | hv := List.mem_cons.mp hv
      · exact kept sound
      · exact rest.sound view hv
    · intro view hv
      obtain rfl | hv := List.mem_cons.mp hv
      · exact later
      · exact later.trans (rest.first view hv)
    · exact List.pairwise_cons.mpr ⟨rest.first, rest.chain⟩
    · intro view hv
      obtain rfl | hv := List.mem_cons.mp hv
      · exact (through_later reads _).1
      · exact rest.last view hv
    · intro view hv
      obtain rfl | hv := List.mem_cons.mp hv
      · change (world.after read.changes).clock + clockMargin - read.behind - clockMargin ≤
          (world.after read.changes).clock
        linarith [Int.natCast_nonneg read.behind]
      · exact rest.now view hv

lemma views_quiet {reads : List Read} (quiet : ∀ read ∈ reads, read.changes = []) :
    (∀ view ∈ world.views reads, view.world = world) ∧ world.through reads = world := by
  induction reads with
  | nil => exact ⟨List.forall_mem_nil _, rfl⟩
  | cons read reads ih =>
    obtain ⟨same, last⟩ := ih fun read' h => quiet read' (List.mem_cons_of_mem _ h)
    have here : world.after read.changes = world := by
      rw [quiet read (List.mem_cons_self ..)]
      rfl
    unfold World.views World.through
    rw [List.foldl_cons, here]
    refine ⟨?_, last⟩
    intro view hv
    obtain rfl | hv := List.mem_cons.mp hv
    · rfl
    · exact same view hv

end Sheprd.Orchestrator
