import Sheprd.Orchestrator.Synced

namespace Sheprd.Orchestrator

open Lib Pages

variable {source : SourceKey} {rank : ℕ → ℕ} {world world' : World}

lemma issue_open {node : IssueNode} (h : node.state = "OPEN") :
    ¬ closedIssue (node.intoItem source) := by
  rintro ⟨-, closed⟩
  have text : String.ofList (Text.lowerAscii node.state) = "closed" := closed
  rw [h] at text
  exact absurd text (by decide)

lemma issue_closed {node : IssueNode} (h : node.state = "CLOSED") :
    closedIssue (node.intoItem source) := by
  refine ⟨rfl, ?_⟩
  change String.ofList (Text.lowerAscii node.state) = "closed"
  rw [h]
  decide

lemma pull_listed (node : PullRequestNode) : ¬ closedIssue (node.intoItem source) := nofun

lemma pull_unsettled {node : PullRequestNode} (h : node.issue.state = "OPEN") :
    settled (node.intoItem source) = false := by
  have state : (node.intoItem source).state = if node.isDraft then "draft" else "open" := by
    change node.state = _
    unfold PullRequestNode.state
    rw [h, if_neg (by decide), if_neg (by decide)]
  unfold settled
  rw [state]
  cases node.isDraft <;> simp

lemma pull_settled {node : PullRequestNode} (h : node.issue.state ∈ ["CLOSED", "MERGED"]) :
    settled (node.intoItem source) = true := by
  have state : (node.intoItem source).state = "closed" ∨ (node.intoItem source).state = "merged" := by
    change node.state = _ ∨ node.state = _
    unfold PullRequestNode.state
    simp only [List.mem_cons, List.not_mem_nil, or_false] at h
    obtain h | h := h
    · rw [h, if_neg (by decide), if_pos rfl]
      exact .inl rfl
    · rw [h, if_pos rfl]
      exact .inr rfl
  unfold settled
  obtain state | state := state
  · rw [state]
    rfl
  · rw [state]
    rfl

lemma pull_states {node : PullRequestNode} (h : ∃ state : PullState, node.issue.state = state.text) :
    node.issue.state = "OPEN" ∨ node.issue.state ∈ ["CLOSED", "MERGED"] := by
  obtain ⟨state, h⟩ := h
  rw [h]
  cases state with
  | opened => exact .inl rfl
  | closed => exact .inr (List.mem_cons_self ..)
  | merged => exact .inr (List.mem_cons_of_mem _ (List.mem_cons_self ..))

structure Continued (source : SourceKey) (world : World) (since : Resume) (cached : List Item) :
    Prop where
  known : Known source world cached
  covers : Covers source since world cached
  early : Early since world

lemma Continued.later {since : Resume} {cached : List Item}
    (h : Continued source world since cached) (later : Later world world') :
    Continued source world' since cached where
  known := h.known.later later
  covers := h.covers.later h.early later
  early := ⟨h.early.issues.trans later.clock, h.early.pulls.trans later.clock⟩

section Course

variable {views : List View}

lemma Course.issue_stays (course : Course world views world') {node : IssueNode}
    (hn : node ∈ world'.issues) (old : ∀ view ∈ views, node.updatedAt < view.world.clock) :
    ∀ view ∈ views, node ∈ view.world.issues := by
  intro view hv
  obtain there | since := (course.last view hv).issues node hn
  · exact there
  · exact absurd (old view hv) (not_lt.mpr since)

lemma Course.pull_stays (course : Course world views world') {node : PullRequestNode}
    (hn : node ∈ world'.pulls) (old : ∀ view ∈ views, node.issue.updatedAt < view.world.clock) :
    ∀ view ∈ views, node ∈ view.world.pulls := by
  intro view hv
  obtain there | since := (course.last view hv).pulls node hn
  · exact there
  · exact absurd (old view hv) (not_lt.mpr since)

lemma Course.head {first : View} {rest : List View} (course : Course world (first :: rest) world') :
    ∀ view ∈ first :: rest, first.world.clock ≤ view.world.clock := by
  intro view hv
  obtain rfl | hv := List.mem_cons.mp hv
  · exact le_refl _
  · exact ((List.pairwise_cons.mp course.chain).1 view hv).clock

lemma Course.issue_known (course : Course world views world') {view : View} (hv : view ∈ views)
    {node : IssueNode} (hn : node ∈ view.world.issues) :
    (node.intoItem source).key ∈ (world'.items source).map Item.key := by
  have here : Known source view.world [node.intoItem source] := by
    intro y hy
    rw [List.mem_singleton.mp hy]
    exact List.mem_map_of_mem (World.issue_mem hn)
  exact here.later (course.last view hv) _ (List.mem_singleton_self _)

lemma Course.pull_known (course : Course world views world') {view : View} (hv : view ∈ views)
    {node : PullRequestNode} (hn : node ∈ view.world.pulls) :
    (node.intoItem source).key ∈ (world'.items source).map Item.key := by
  have here : Known source view.world [node.intoItem source] := by
    intro y hy
    rw [List.mem_singleton.mp hy]
    exact List.mem_map_of_mem (World.pull_mem hn)
  exact here.later (course.last view hv) _ (List.mem_singleton_self _)

end Course

def From {α : Type} (entriesOf : World → List α) (views : List View) (worlds : List (List α)) : Prop :=
  ∀ entries ∈ worlds, ∃ view ∈ views, entries = entriesOf view.world

lemma From.mono {α : Type} {entriesOf : World → List α} {views views' : List View}
    {worlds : List (List α)} (h : From entriesOf views worlds) (more : views ⊆ views') :
    From entriesOf views' worlds := by
  intro entries he
  obtain ⟨view, hv, same⟩ := h entries he
  exact ⟨view, more hv, same⟩

section Walks

variable {views : List View} (course : Course world views world')
include course

lemma walked_issue {keep : IssueNode → Bool} {worlds : List (List IssueNode)} {read : List IssueNode}
    (walk : Walk (IssueNode.place rank) keep none worlds read) (from' : From World.issues views worlds)
    {node : IssueNode} (stays : ∀ view ∈ views, node ∈ view.world.issues) :
    held (read.map (IssueNode.intoItem source)) (node.intoItem source).key =
      if keep node then [node.intoItem source] else [] := by
  refine Walk.held_issue walk ?_ ?_
  · intro entries he
    obtain ⟨view, hv, rfl⟩ := from' entries he
    exact (course.sound view hv).issues
  · intro entries he
    obtain ⟨view, hv, rfl⟩ := from' entries he
    exact stays view hv

lemma walked_pull {keep : PullRequestNode → Bool} {worlds : List (List PullRequestNode)}
    {read : List PullRequestNode} (walk : Walk (PullRequestNode.place rank) keep none worlds read)
    (from' : From World.pulls views worlds) {node : PullRequestNode}
    (stays : ∀ view ∈ views, node ∈ view.world.pulls) :
    held (read.map (PullRequestNode.intoItem source)) (node.intoItem source).key =
      if keep node then [node.intoItem source] else [] := by
  refine Walk.held_pull walk ?_ ?_
  · intro entries he
    obtain ⟨view, hv, rfl⟩ := from' entries he
    exact (course.sound view hv).pulls
  · intro entries he
    obtain ⟨view, hv, rfl⟩ := from' entries he
    exact stays view hv

lemma walked_issues_known {keep : IssueNode → Bool} {after : Option Cursor}
    {worlds : List (List IssueNode)} {read : List IssueNode}
    (walk : Walk (IssueNode.place rank) keep after worlds read)
    (from' : From World.issues views worlds) :
    Known source world' (read.map (IssueNode.intoItem source)) := by
  intro y hy
  obtain ⟨node, hn, rfl⟩ := List.mem_map.mp hy
  obtain ⟨-, entries, he, there⟩ := walk.sound node hn
  obtain ⟨view, hv, rfl⟩ := from' entries he
  exact course.issue_known hv there

lemma walked_pulls_known {keep : PullRequestNode → Bool} {after : Option Cursor}
    {worlds : List (List PullRequestNode)} {read : List PullRequestNode}
    (walk : Walk (PullRequestNode.place rank) keep after worlds read)
    (from' : From World.pulls views worlds) :
    Known source world' (read.map (PullRequestNode.intoItem source)) := by
  intro y hy
  obtain ⟨node, hn, rfl⟩ := List.mem_map.mp hy
  obtain ⟨-, entries, he, there⟩ := walk.sound node hn
  obtain ⟨view, hv, rfl⟩ := from' entries he
  exact course.pull_known hv there

end Walks

lemma Known.append {items items' : List Item} (h : Known source world items)
    (h' : Known source world items') : Known source world (items ++ items') := by
  intro y hy
  obtain hy | hy := List.mem_append.mp hy
  · exact h y hy
  · exact h' y hy

lemma answered_eq {views rest : List View} {view : View} (h : answered views = some (view, rest)) :
    views = view :: rest := by
  unfold answered at h
  split at h
  · cases h
  · split at h
    · cases h
      rfl
    · cases h

lemma started_le {first : View} {views : List View} (course : Course world views world')
    (h : views.head? = some first) :
    ∀ view ∈ views, first.now - clockMargin ≤ view.world.clock := by
  obtain ⟨rest, rfl⟩ := List.head?_eq_some_iff.mp h
  exact fun view hv => (course.now first (List.mem_cons_self ..)).trans (course.head view hv)

variable (source rank) in
lemma closed_page {view : View} (sound : view.world.Sound) {node : PullRequestNode}
    (hn : node ∈ view.world.pulls) :
    let nodes := (view.world.pullRequests rank ["CLOSED", "MERGED"] none recentlyClosed).nodes
    (node.issue.state = "OPEN" →
        held (nodes.map (PullRequestNode.intoItem source)) (node.intoItem source).key = []) ∧
      (node.issue.state ∈ ["CLOSED", "MERGED"] →
        held (nodes.map (PullRequestNode.intoItem source)) (node.intoItem source).key =
            [node.intoItem source] ∨
          held (nodes.map (PullRequestNode.intoItem source)) (node.intoItem source).key = [] ∧
            ∀ y ∈ nodes, node.issue.updatedAt ≤ y.issue.updatedAt) := by
  intro nodes
  let number (node : PullRequestNode) := node.issue.number
  obtain ⟨back, split, -⟩ := page_split (PullRequestNode.place rank)
    (fun node => node.issue.state ∈ ["CLOSED", "MERGED"]) none recentlyClosed view.world.pulls
  have kept (y : PullRequestNode) (hy : y ∈ nodes) :=
    (split.mem y).mp (List.mem_append_left back hy)
  have only : ∀ y ∈ nodes, y.issue.number = node.issue.number → y = node := fun y hy same =>
    List.inj_on_of_nodup_map sound.pulls (kept y hy).1 hn same
  have nodup : nodes.Nodup := (split.nodup sound.pulls.of_map).of_append_left
  refine ⟨fun opened => ?_, fun closed => ?_⟩
  · rw [held_pulls, filter_key_of_not_mem number only, List.map_nil]
    intro mem
    have state := (kept node mem).2.1
    rw [opened] at state
    exact absurd state (by decide)
  · by_cases mem : node ∈ nodes
    · left
      rw [held_pulls, filter_key_of_mem number nodup only mem]
      rfl
    · right
      refine ⟨?_, fun y hy => ?_⟩
      · rw [held_pulls, filter_key_of_not_mem number only mem,
          List.map_nil]
      · have listed := (split.mem node).mpr ⟨hn, by simpa using closed, nofun⟩
        have late := (List.mem_append.mp listed).resolve_left mem
        exact place_time ((List.pairwise_append.mp split.sorted).2.2 y hy node late)

lemma open_unsettled {after : Option Cursor} {issues : List IssueNode}
    {worlds : List (List PullRequestNode)} {read : List PullRequestNode}
    (walk : Walk (PullRequestNode.place rank) (fun node => node.issue.state ∈ ["OPEN"]) after worlds
      read) :
    ∀ y ∈ issues.map (IssueNode.intoItem source) ++ read.map (PullRequestNode.intoItem source),
      settled y = false := by
  intro y hy
  obtain hy | hy := List.mem_append.mp hy
  · obtain ⟨node, -, rfl⟩ := List.mem_map.mp hy
    rfl
  · obtain ⟨node, hn, rfl⟩ := List.mem_map.mp hy
    have state := (walk.sound node hn).1
    exact pull_unsettled (List.mem_singleton.mp (of_decide_eq_true state))

lemma full_continues {previous : Checkpoint} {finished : Instant} {views : List View}
    {listing : Listing} (course : Course world views world') (sound : world'.Sound)
    (h : full rank source previous finished views = some listing)
    (complete : listing.complete = true) :
    Continued source world' listing.resume listing.items ∧
      listing.checkpoint.updatedAt = some listing.resume.oldest ∧ listing.full = true := by
  unfold full at h
  simp only [Option.bind_eq_bind, Option.bind_eq_some_iff] at h
  obtain ⟨first, hfirst, ⟨issues, allIssues, views1⟩, hissues, ⟨pulls, allPulls, views2⟩, hpulls,
    ⟨view, views3⟩, hview, ⟨⟩⟩ := h
  obtain ⟨rfl, rfl⟩ : allIssues = true ∧ allPulls = true := by simpa using complete
  have started := started_le course hfirst
  obtain ⟨used1, worlds1, read1, rfl, from1, rfl, walk1⟩ := listIssues_walk hissues
  obtain ⟨used2, worlds2, read2, rfl, from2, rfl, walk2⟩ := listOpenPulls_walk (by decide) hpulls
  obtain rfl := answered_eq hview
  have answer : view ∈ used1 ++ (used2 ++ view :: views3) :=
    List.mem_append_right _ (List.mem_append_right _ (List.mem_cons_self ..))
  have from1' : From World.issues (used1 ++ (used2 ++ view :: views3)) worlds1 :=
    From.mono from1 (List.subset_append_left _ _)
  have from2' : From World.pulls (used1 ++ (used2 ++ view :: views3)) worlds2 :=
    From.mono from2 (List.subset_append_of_subset_right _ (List.subset_append_left _ _))
  have late : first.now - clockMargin ≤ world'.clock :=
    (started view answer).trans (course.last view answer).clock
  refine ⟨⟨?_, ?_, ⟨late, late⟩⟩, by simp [Resume.both, Resume.oldest], rfl⟩
  · refine ((walked_issues_known course walk1 from1').append
      (walked_pulls_known course walk2 from2')).append ?_
    intro y hy
    obtain ⟨node, hn, rfl⟩ := List.mem_map.mp hy
    obtain ⟨back, split, -⟩ := page_split (PullRequestNode.place rank)
      (fun node => node.issue.state ∈ ["CLOSED", "MERGED"]) none recentlyClosed view.world.pulls
    exact course.pull_known answer ((split.mem node).mp (List.mem_append_left _ hn)).1
  · intro x hx old
    unfold Placed
    dsimp only
    rw [held_append, held_append]
    obtain hx | hx := List.mem_append.mp hx
    · obtain ⟨node, hn, rfl⟩ := List.mem_map.mp hx
      have stays := course.issue_stays hn fun view hv =>
        lt_of_lt_of_le (WithBot.coe_lt_coe.mp old) (started view hv)
      rw [List.nil_append, List.nil_append, held_pulls_issue, held_pulls_issue, List.append_nil, List.append_nil,
        walked_issue course walk1 from1' stays]
      obtain state | state := sound.issueStates node hn
      · exact .inl ⟨if_pos (by simpa using state), issue_open state⟩
      · refine .inr (.inl ⟨if_neg ?_, issue_closed state⟩)
        rw [state]
        decide
    · obtain ⟨node, hn, rfl⟩ := List.mem_map.mp hx
      have stays := course.pull_stays hn fun view hv =>
        lt_of_lt_of_le (WithBot.coe_lt_coe.mp old) (started view hv)
      obtain ⟨opened, closed⟩ := closed_page source rank
        (course.sound view answer) (stays view answer)
      rw [List.nil_append, List.nil_append, held_issues_pull, List.nil_append,
        walked_pull course walk2 from2' stays]
      obtain state | state := pull_states (sound.pullStates node hn)
      · refine .inl ⟨?_, pull_listed node⟩
        rw [opened state, if_pos (by simpa using state), List.append_nil]
      · have other : ¬ (node.issue.state ∈ ["OPEN"] : Bool) = true := by
          intro same
          rw [List.mem_singleton.mp (of_decide_eq_true same)] at state
          exact absurd state (by decide)
        rw [if_neg other, List.nil_append]
        obtain once | ⟨gone, newest⟩ := closed state
        · exact .inl ⟨once, pull_listed node⟩
        · refine .inr (.inr ⟨gone, pull_settled state, ?_⟩)
          intro y hy settled'
          obtain hy | hy := List.mem_append.mp hy
          · rw [open_unsettled walk2 y hy] at settled'
            cases settled'
          · obtain ⟨n, hn, rfl⟩ := List.mem_map.mp hy
            exact WithBot.coe_le_coe.mpr (newest n hn)

lemma advance_spec (since : Instant) (listed : List Item) :
    since ≤ advance since listed ∧
      ∀ bound, since ≤ bound → (∀ y ∈ listed, y.updated ≤ (bound : WithBot Instant)) →
        advance since listed ≤ bound := by
  unfold advance
  induction listed generalizing since with
  | nil => exact ⟨le_refl _, fun bound h _ => h⟩
  | cons y listed ih =>
    cases time : y.updatedAt with
    | none =>
      rw [List.filterMap_cons_none time]
      obtain ⟨le, least⟩ := ih since
      exact ⟨le, fun bound h all => least bound h fun y hy => all y (List.mem_cons_of_mem _ hy)⟩
    | some instant =>
      rw [List.filterMap_cons_some time, List.foldl_cons]
      obtain ⟨le, least⟩ := ih (max since instant)
      refine ⟨(le_max_left _ _).trans le, fun bound h all => least bound (max_le h ?_) ?_⟩
      · have here := all y (List.mem_cons_self ..)
        unfold Item.updated at here
        rw [time] at here
        exact WithBot.coe_le_coe.mp here
      · exact fun y hy => all y (List.mem_cons_of_mem _ hy)

structure Walked (rank : ℕ → ℕ) (since : Resume) (first : View) (views : List View)
    (issues : List IssueNode) (pulls : List PullRequestNode) : Prop where
  issues : ∃ worlds, From World.issues views worlds ∧
    Walk (IssueNode.place rank) (fun node => since.issues ≤ node.updatedAt) none
      (first.world.issues :: worlds) issues
  pulls : ∃ worlds, From World.pulls views worlds ∧
    Walk (PullRequestNode.place rank) (PullRequestNode.newer since.pulls) none
      (first.world.pulls :: worlds) pulls

lemma changes_eq {since : Resume} {cached : List Item} {previous : Checkpoint}
    {views rest : List View} {listing : Listing} (sounds : ∀ view ∈ views, view.world.Sound)
    (h : changes rank source since cached previous views = some (some listing, rest)) :
    ∃ first views' issues pulls, views = first :: views' ∧
      Walked rank since first views' issues pulls ∧
      listing.items = merge cached (issues.map (IssueNode.intoItem source) ++
        pulls.map (PullRequestNode.intoItem source)) ∧
      listing.full = false ∧ listing.checkpoint.updatedAt = some listing.resume.oldest ∧
      listing.checkpoint.lastFullAt = previous.lastFullAt ∧
      listing.resume.issues = advance since.issues (issues.map (IssueNode.intoItem source)) ∧
      listing.resume.pulls = advance since.pulls (pulls.map (PullRequestNode.intoItem source)) := by
  unfold changes at h
  simp only [Option.bind_eq_bind, Option.bind_eq_some_iff] at h
  obtain ⟨⟨first, views'⟩, hfirst, ⟨issues, views1⟩, hissues, h⟩ := h
  obtain rfl := answered_eq hfirst
  cases issues with
  | none => cases h
  | some issues =>
    simp only [Option.bind_eq_some_iff] at h
    obtain ⟨⟨pulls, views2⟩, hpulls, h⟩ := h
    cases pulls with
    | none => cases h
    | some pulls =>
      cases h
      obtain ⟨used1, worlds1, read1, rfl, from1, rfl, walk1⟩ :=
        changedIssues_walk (by decide) hissues
      obtain ⟨used2, worlds2, read2, rfl, from2, rfl, walk2⟩ :=
        changedPulls_walk (by decide) (sounds first (List.mem_cons_self ..)).pullStates
          (fun view hv => sounds view (List.mem_cons_of_mem _ (List.mem_append_right _ hv))) hpulls
      refine ⟨first, _, read1, read2, rfl, ⟨⟨worlds1, ?_, walk1⟩, ⟨worlds2, ?_, walk2⟩⟩, rfl, rfl, rfl,
        rfl, rfl, rfl⟩
      · exact From.mono from1 (List.subset_append_left _ _)
      · exact From.mono from2 (List.subset_append_of_subset_right _ (List.subset_append_left _ _))

section Changed

variable {since : Resume} {first : View} {views : List View} {issues : List IssueNode}
  {pulls : List PullRequestNode} {cached : List Item}

lemma From.cons {α : Type} {entriesOf : World → List α} {worlds : List (List α)}
    (h : From entriesOf views worlds) : From entriesOf (first :: views) (entriesOf first.world :: worlds) := by
  intro entries he
  obtain rfl | he := List.mem_cons.mp he
  · exact ⟨first, List.mem_cons_self .., rfl⟩
  · obtain ⟨view, hv, same⟩ := h entries he
    exact ⟨view, List.mem_cons_of_mem _ hv, same⟩

lemma Walked.settled_since (walked : Walked rank since first views issues pulls) :
    ∀ y ∈ issues.map (IssueNode.intoItem source) ++ pulls.map (PullRequestNode.intoItem source),
      settled y = true → (since.pulls : WithBot Instant) ≤ y.updated := by
  obtain ⟨worlds, -, walk⟩ := walked.pulls
  intro y hy closed
  obtain hy | hy := List.mem_append.mp hy
  · obtain ⟨node, -, rfl⟩ := List.mem_map.mp hy
    cases closed
  · obtain ⟨node, hn, rfl⟩ := List.mem_map.mp hy
    exact WithBot.coe_le_coe.mpr (of_decide_eq_true (walk.sound node hn).1)

lemma Walked.placed_issue (walked : Walked rank since first views issues pulls)
    (course : Course world (first :: views) world') {node : IssueNode}
    (stays : ∀ view ∈ first :: views, node ∈ view.world.issues)
    (old : node.updatedAt < since.issues → Placed cached (node.intoItem source)) :
    Placed (merge cached (issues.map (IssueNode.intoItem source) ++
      pulls.map (PullRequestNode.intoItem source))) (node.intoItem source) := by
  obtain ⟨worlds, from', walk⟩ := walked.issues
  have changed : held (issues.map (IssueNode.intoItem source) ++
      pulls.map (PullRequestNode.intoItem source)) (node.intoItem source).key =
        if since.issues ≤ node.updatedAt then [node.intoItem source] else [] := by
    rw [held_append, held_pulls_issue, List.append_nil, walked_issue course walk from'.cons stays]
    simp only [decide_eq_true_eq]
  by_cases seen : since.issues ≤ node.updatedAt
  · rw [if_pos seen] at changed
    refine merge_placed ?_ (.inr changed) nofun
    intro none
    rw [changed] at none
    cases none
  · rw [if_neg seen] at changed
    exact merge_placed (fun _ => old (not_le.mp seen)) (.inl changed) nofun

lemma Walked.placed_pull (walked : Walked rank since first views issues pulls)
    (course : Course world (first :: views) world') {node : PullRequestNode}
    (stays : ∀ view ∈ first :: views, node ∈ view.world.pulls)
    (old : node.issue.updatedAt < since.pulls → Placed cached (node.intoItem source)) :
    Placed (merge cached (issues.map (IssueNode.intoItem source) ++
      pulls.map (PullRequestNode.intoItem source))) (node.intoItem source) := by
  obtain ⟨worlds, from', walk⟩ := walked.pulls
  have changed : held (issues.map (IssueNode.intoItem source) ++
      pulls.map (PullRequestNode.intoItem source)) (node.intoItem source).key =
        if since.pulls ≤ node.issue.updatedAt then [node.intoItem source] else [] := by
    rw [held_append, held_issues_pull, List.nil_append, walked_pull course walk from'.cons stays]
    simp only [PullRequestNode.newer, decide_eq_true_eq]
  by_cases seen : since.pulls ≤ node.issue.updatedAt
  · rw [if_pos seen] at changed
    refine merge_placed ?_ (.inr changed) ?_
    · intro none
      rw [changed] at none
      cases none
    · intro none
      rw [changed] at none
      cases none
  · rw [if_neg seen] at changed
    refine merge_placed (fun _ => old (not_le.mp seen)) (.inl changed) ?_
    intro _ _ y hy closed
    have earlier : node.issue.updatedAt ≤ since.pulls := le_of_lt (not_le.mp seen)
    exact (WithBot.coe_le_coe.mpr earlier).trans (walked.settled_since y hy closed)

variable (source) in
lemma Walked.by_first (walked : Walked rank since first views issues pulls)
    (sound : first.world.Sound) (early : Early since first.world) :
    advance since.issues (issues.map (IssueNode.intoItem source)) ≤ first.world.clock ∧
      advance since.pulls (pulls.map (PullRequestNode.intoItem source)) ≤ first.world.clock := by
  constructor
  · obtain ⟨worlds, -, walk⟩ := walked.issues
    refine (advance_spec _ _).2 _ early.issues ?_
    intro y hy
    obtain ⟨node, hn, rfl⟩ := List.mem_map.mp hy
    obtain ⟨b, there, le⟩ := walk.le_first node hn
    exact WithBot.coe_le_coe.mpr ((place_time le).trans (sound.issuesBy b (there _ rfl)))
  · obtain ⟨worlds, -, walk⟩ := walked.pulls
    refine (advance_spec _ _).2 _ early.pulls ?_
    intro y hy
    obtain ⟨node, hn, rfl⟩ := List.mem_map.mp hy
    obtain ⟨b, there, le⟩ := walk.le_first node hn
    exact WithBot.coe_le_coe.mpr ((place_time le).trans (sound.pullsBy b (there _ rfl)))

lemma Walked.known (walked : Walked rank since first views issues pulls)
    (course : Course world (first :: views) world') (known : Known source world' cached) :
    Known source world' (merge cached (issues.map (IssueNode.intoItem source) ++
      pulls.map (PullRequestNode.intoItem source))) := by
  obtain ⟨worlds1, from1, walk1⟩ := walked.issues
  obtain ⟨worlds2, from2, walk2⟩ := walked.pulls
  intro y hy
  obtain hy | hy := mem_merge hy
  · exact known y hy
  · exact (walked_issues_known course walk1 from1.cons).append
      (walked_pulls_known course walk2 from2.cons) y hy

end Changed

structure Exact (source : SourceKey) (world : World) (items : List Item) : Prop where
  keys : (items.map Item.key).Nodup
  present : ∀ y ∈ items, y ∈ world.items source
  openIssues : ∀ node ∈ world.issues, node.state = "OPEN" → node.intoItem source ∈ items
  openPulls : ∀ node ∈ world.pulls, node.issue.state = "OPEN" → node.intoItem source ∈ items
  noClosedIssue : ∀ y ∈ items, ¬ closedIssue y
  recent : (items.filter settled).length ≤ recentlyClosed
  newest : ∀ node ∈ world.pulls, node.intoItem source ∉ items →
    ∀ y ∈ items, settled y = true → (node.intoItem source).updated ≤ y.updated

lemma exact_of_placed {world : World} {items : List Item}
    (known : Known source world items) (placed : ∀ x ∈ world.items source, Placed items x)
    (recent : (items.filter settled).length ≤ recentlyClosed) : Exact source world items := by
  have once (y : Item) (hy : y ∈ items) :
      held items y.key = [y] ∧ ¬ closedIssue y ∧ y ∈ world.items source := by
    obtain ⟨x, hx, same⟩ := List.mem_map.mp (known y hy)
    have mem : y ∈ held items x.key := mem_held.mpr ⟨hy, same.symm⟩
    obtain ⟨once, listed⟩ | ⟨gone, -⟩ | ⟨gone, -⟩ := placed x hx
    · rw [once] at mem
      obtain rfl := List.mem_singleton.mp mem
      exact ⟨once, listed, hx⟩
    · rw [gone] at mem
      cases mem
    · rw [gone] at mem
      cases mem
  refine ⟨?_, fun y hy => (once y hy).2.2, ?_, ?_, fun y hy => (once y hy).2.1, recent, ?_⟩
  · rw [List.nodup_iff_count_eq_one]
    intro k hk
    obtain ⟨y, hy, rfl⟩ := List.mem_map.mp hk
    have length := congrArg List.length (once y hy).1
    rw [List.count_eq_countP, List.countP_map, List.countP_eq_length_filter]
    exact length
  · intro node hn state
    obtain ⟨once, -⟩ | ⟨-, closed⟩ | ⟨-, closed, -⟩ := placed _ (World.issue_mem hn)
    · exact (mem_held.mp (once ▸ List.mem_singleton_self _)).1
    · exact absurd closed (issue_open state)
    · cases closed
  · intro node hn state
    obtain ⟨once, -⟩ | ⟨-, closed⟩ | ⟨-, closed, -⟩ := placed _ (World.pull_mem hn)
    · exact (mem_held.mp (once ▸ List.mem_singleton_self _)).1
    · exact absurd closed (pull_listed node)
    · rw [pull_unsettled state] at closed
      cases closed
  · intro node hn gone
    obtain ⟨once, -⟩ | ⟨-, closed⟩ | ⟨-, -, newest⟩ := placed _ (World.pull_mem hn)
    · exact absurd (mem_held.mp (once ▸ List.mem_singleton_self _)).1 gone
    · exact absurd closed (pull_listed node)
    · exact newest

lemma resume_issue {resume : Resume} (node : IssueNode) :
    resume.of (node.intoItem source) = resume.issues := rfl

lemma resume_pull {resume : Resume} (node : PullRequestNode) :
    resume.of (node.intoItem source) = resume.pulls := rfl

lemma changes_continues {since : Resume} {cached : List Item} {previous : Checkpoint}
    {views rest : List View} {listing : Listing} (course : Course world views world')
    (later : Later world world') (continued : Continued source world since cached)
    (h : changes rank source since cached previous views = some (some listing, rest)) :
    Continued source world' listing.resume listing.items ∧
      listing.checkpoint.updatedAt = some listing.resume.oldest ∧ listing.full = false ∧
      since.issues ≤ listing.resume.issues ∧ since.pulls ≤ listing.resume.pulls ∧
      ((∀ view ∈ views, view.world = world') → Exact source world' listing.items) := by
  obtain ⟨first, views', issues, pulls, rfl, walked, items, full, checkpoint, -, resumeIssues,
    resumePulls⟩ := changes_eq course.sound h
  have mem : first ∈ first :: views' := List.mem_cons_self ..
  have now := continued.later later
  have then' := continued.later (course.first first mem)
  obtain ⟨issuesBy, pullsBy⟩ := walked.by_first source (course.sound first mem) then'.early
  have known := walked.known course now.known
  have oldIssue (node : IssueNode) (hn : node ∈ world'.issues)
      (old : node.updatedAt < since.issues) : Placed cached (node.intoItem source) :=
    now.covers _ (World.issue_mem hn) (WithBot.coe_lt_coe.mpr old)
  have oldPull (node : PullRequestNode) (hn : node ∈ world'.pulls)
      (old : node.issue.updatedAt < since.pulls) : Placed cached (node.intoItem source) :=
    now.covers _ (World.pull_mem hn) (WithBot.coe_lt_coe.mpr old)
  rw [← items] at known
  refine ⟨⟨known, ?_, ?_⟩, checkpoint, full, ?_, ?_, ?_⟩
  · intro x hx old
    rw [items]
    obtain hx | hx := List.mem_append.mp hx
    · obtain ⟨node, hn, rfl⟩ := List.mem_map.mp hx
      rw [resume_issue, resumeIssues] at old
      refine walked.placed_issue course (course.issue_stays hn fun view hv => ?_) (oldIssue node hn)
      exact (lt_of_lt_of_le (WithBot.coe_lt_coe.mp old) issuesBy).trans_le (course.head view hv)
    · obtain ⟨node, hn, rfl⟩ := List.mem_map.mp hx
      rw [resume_pull, resumePulls] at old
      refine walked.placed_pull course (course.pull_stays hn fun view hv => ?_) (oldPull node hn)
      exact (lt_of_lt_of_le (WithBot.coe_lt_coe.mp old) pullsBy).trans_le (course.head view hv)
  · have clock := (course.last first mem).clock
    exact ⟨by rw [resumeIssues]; exact issuesBy.trans clock,
      by rw [resumePulls]; exact pullsBy.trans clock⟩
  · rw [resumeIssues]
    exact (advance_spec _ _).1
  · rw [resumePulls]
    exact (advance_spec _ _).1
  · intro quiet
    refine exact_of_placed known ?_ ?_
    · intro x hx
      rw [items]
      obtain hx | hx := List.mem_append.mp hx
      · obtain ⟨node, hn, rfl⟩ := List.mem_map.mp hx
        exact walked.placed_issue course (fun view hv => quiet view hv ▸ hn) (oldIssue node hn)
      · obtain ⟨node, hn, rfl⟩ := List.mem_map.mp hx
        exact walked.placed_pull course (fun view hv => quiet view hv ▸ hn) (oldPull node hn)
    · rw [items]
      exact settled_length _

end Sheprd.Orchestrator
