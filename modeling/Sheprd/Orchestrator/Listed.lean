import Sheprd.Orchestrator.Worlds

namespace Sheprd.Orchestrator

open Lib Pages

section Next

variable {α : Type} {pos : α → Cursor} {keep : α → Bool} {after : Option Cursor} {count read : ℕ}
  {entries : List α}

lemma next_done (positive : 0 < count) (h : next (page pos keep after count entries) read = .done) :
    Descends pos keep after entries (page pos keep after count entries).nodes := by
  obtain ⟨back, split, last⟩ := page_split pos keep after count entries
  have ended : (page pos keep after count entries).hasNextPage = false := by
    cases cursor : (page pos keep after count entries).endCursor with
    | none => exact page_empty positive cursor
    | some cursor' =>
      cases more : (page pos keep after count entries).hasNextPage with
      | false => rfl
      | true =>
        rw [next, cursor, more] at h
        dsimp only at h
        split at h <;> cases h
  rwa [last ended, List.append_nil] at split

lemma next_page {cursor : Cursor} (h : next (page pos keep after count entries) read = .page cursor) :
    ∃ e back, Descends pos keep after entries ((page pos keep after count entries).nodes ++ back) ∧
      (page pos keep after count entries).nodes.getLast? = some e ∧ pos e = cursor := by
  obtain ⟨back, split, -⟩ := page_split pos keep after count entries
  have ended : (page pos keep after count entries).endCursor = some cursor := by
    unfold next at h
    split at h
    · next cursor' ended _ =>
      split at h
      · cases h
      · cases h
        exact ended
    · cases h
  obtain ⟨e, last, place⟩ := page_cursor ended
  exact ⟨e, back, split, last, place⟩

end Next

variable {rank : ℕ → ℕ} {source : SourceKey}

lemma listIssues_walk {views rest : List View} {after : Option Cursor} {items items' : List Item}
    (h : listIssues rank source after items views = some (items', true, rest)) :
    ∃ used worlds read, views = used ++ rest ∧
      (∀ entries ∈ worlds, ∃ view ∈ used, entries = view.world.issues) ∧
      items' = items ++ read.map (IssueNode.intoItem source) ∧
      Walk (IssueNode.place rank) (fun node => node.state = "OPEN") after worlds read := by
  induction views generalizing after items with
  | nil => cases h
  | cons view views ih =>
    unfold listIssues at h
    split at h
    · cases h
    · dsimp only at h
      split at h
      · next cursor following =>
        obtain ⟨e, back, split, last, rfl⟩ := next_page following
        obtain ⟨used, worlds, read, rfl, from', rfl, walk⟩ := ih h
        refine ⟨view :: used, _, _, rfl, ?_, ?_, .more split last walk⟩
        · intro entries he
          obtain rfl | he := List.mem_cons.mp he
          · exact ⟨view, List.mem_cons_self .., rfl⟩
          · obtain ⟨view', hv, same⟩ := from' entries he
            exact ⟨view', List.mem_cons_of_mem _ hv, same⟩
        · rw [List.map_append, List.append_assoc]
          rfl
      · next ended =>
        cases h
        refine ⟨[view], _, _, rfl, ?_, rfl, .done (next_done (by decide) ended)⟩
        intro entries he
        exact ⟨view, List.mem_cons_self .., List.mem_singleton.mp he⟩
      · cases h

lemma listOpenPulls_walk {views rest : List View} {count : ℕ} {after : Option Cursor}
    {items items' : List Item} (positive : 0 < count)
    (h : listOpenPulls rank source count after items views = some (items', true, rest)) :
    ∃ used worlds read, views = used ++ rest ∧
      (∀ entries ∈ worlds, ∃ view ∈ used, entries = view.world.pulls) ∧
      items' = items ++ read.map (PullRequestNode.intoItem source) ∧
      Walk (PullRequestNode.place rank) (fun node => node.issue.state ∈ ["OPEN"]) after worlds
        read := by
  induction views generalizing count after items with
  | nil => cases h
  | cons view views ih =>
    have further {used : List View} {worlds : List (List PullRequestNode)}
        (h : ∀ entries ∈ worlds, ∃ view ∈ used, entries = view.world.pulls) :
        ∀ entries ∈ worlds, ∃ view' ∈ view :: used, entries = view'.world.pulls := by
      intro entries he
      obtain ⟨view', hv, same⟩ := h entries he
      exact ⟨view', List.mem_cons_of_mem _ hv, same⟩
    unfold listOpenPulls at h
    split at h
    · cases h
    · split at h
      · obtain ⟨used, worlds, read, rfl, from', same, walk⟩ := ih
          (lt_max_of_lt_right (by decide)) h
        exact ⟨view :: used, worlds, read, rfl, further from', same, walk⟩
      · cases h
    · dsimp only at h
      split at h
      · next cursor following =>
        obtain ⟨e, back, split, last, rfl⟩ := next_page following
        obtain ⟨used, worlds, read, rfl, from', rfl, walk⟩ := ih positive h
        refine ⟨view :: used, _, _, rfl, ?_, ?_, .more split last walk⟩
        · intro entries he
          obtain rfl | he := List.mem_cons.mp he
          · exact ⟨view, List.mem_cons_self .., rfl⟩
          · exact further from' entries he
        · rw [List.map_append, List.append_assoc]
          rfl
      · next ended =>
        cases h
        refine ⟨[view], _, _, rfl, ?_, rfl, .done (next_done positive ended)⟩
        intro entries he
        exact ⟨view, List.mem_cons_self .., List.mem_singleton.mp he⟩
      · cases h

lemma changedIssues_walk {since : Instant} {views rest : List View} {after : Option Cursor}
    {count : ℕ} {entries : List IssueNode} {changed changed' : List Item} (positive : 0 < count)
    (h : changedIssues rank source since
      (page (IssueNode.place rank) (fun node => since ≤ node.updatedAt) after count entries) changed
      views = some (some changed', rest)) :
    ∃ used worlds read, views = used ++ rest ∧
      (∀ entries ∈ worlds, ∃ view ∈ used, entries = view.world.issues) ∧
      changed' = changed ++ read.map (IssueNode.intoItem source) ∧
      Walk (IssueNode.place rank) (fun node => since ≤ node.updatedAt) after (entries :: worlds)
        read := by
  induction views generalizing after count entries changed with
  | nil =>
    unfold changedIssues at h
    dsimp only at h
    split at h
    · next ended =>
      cases h
      exact ⟨[], [], _, rfl, nofun, rfl, .done (next_done positive ended)⟩
    · cases h
    · cases h
  | cons view views ih =>
    unfold changedIssues at h
    dsimp only at h
    split at h
    · next ended =>
      cases h
      exact ⟨[], [], _, rfl, nofun, rfl, .done (next_done positive ended)⟩
    · cases h
    · next cursor following =>
      split at h
      · cases h
      · obtain ⟨e, back, split, last, rfl⟩ := next_page following
        obtain ⟨used, worlds, read, rfl, from', rfl, walk⟩ := ih (by decide) h
        refine ⟨view :: used, _, _, rfl, ?_, ?_, .more split last walk⟩
        · intro entries he
          obtain rfl | he := List.mem_cons.mp he
          · exact ⟨view, List.mem_cons_self .., rfl⟩
          · obtain ⟨view', hv, same⟩ := from' entries he
            exact ⟨view', List.mem_cons_of_mem _ hv, same⟩
        · rw [List.map_append, List.append_assoc]

section Newer

variable {since : Instant} {after : Option Cursor} {count : ℕ} {entries : List PullRequestNode}

def PullRequestNode.newer (since : Instant) (node : PullRequestNode) : Bool :=
  since ≤ node.issue.updatedAt

lemma newer_eq (nodes : List PullRequestNode) :
    (nodes.map (PullRequestNode.intoItem source)).takeWhile
        (fun item => !item.updatedAt.any (· < since)) =
      (nodes.takeWhile (PullRequestNode.newer since)).map (PullRequestNode.intoItem source) := by
  rw [List.takeWhile_map]
  congr 2
  funext node
  change (!decide (node.issue.updatedAt < since)) = decide (since ≤ node.issue.updatedAt)
  rw [← decide_not, decide_eq_decide]
  exact not_lt

lemma since_higher (a b : PullRequestNode) (h : b.place rank ≤ a.place rank)
    (newer : PullRequestNode.newer since b = true) : PullRequestNode.newer since a = true := by
  have time : b.issue.updatedAt ≤ a.issue.updatedAt := by
    obtain h | ⟨h, -⟩ := Prod.Lex.le_iff.mp h
    · exact le_of_lt h
    · exact le_of_eq h
  simp only [PullRequestNode.newer, decide_eq_true_eq] at newer ⊢
  exact newer.trans time

lemma narrowed (sound : ∀ node ∈ entries, ∃ state : PullState, node.issue.state = state.text) :
    ∀ node ∈ entries, PullRequestNode.newer since node =
      ((node.issue.state ∈ allStates : Bool) && PullRequestNode.newer since node) := by
  intro node hn
  obtain ⟨state, same⟩ := sound node hn
  rw [same]
  cases state <;> rfl

lemma newer_all {nodes : List PullRequestNode}
    (h : ¬ (nodes.takeWhile (PullRequestNode.newer since)).length < nodes.length) :
    nodes.takeWhile (PullRequestNode.newer since) = nodes :=
  (List.takeWhile_prefix _).eq_of_length_le (Nat.not_lt.mp h)

variable (since) in
lemma Newer.narrow {listed : List PullRequestNode}
    (sound : ∀ node ∈ entries, ∃ state : PullState, node.issue.state = state.text)
    (h : Descends (PullRequestNode.place rank) (fun node => node.issue.state ∈ allStates) after
      entries listed) :
    Descends (PullRequestNode.place rank) (PullRequestNode.newer since) after entries
      (listed.takeWhile (PullRequestNode.newer since)) := by
  rw [takeWhile_eq_filter h.sorted since_higher]
  exact h.narrow (narrowed sound)

lemma changedPulls_cases {page : Page PullRequestNode Cursor} {changed changed' : List Item}
    {views rest : List View}
    (h : changedPulls rank source since page changed views = some (some changed', rest)) :
    (changed' = changed ++
          (page.nodes.takeWhile (PullRequestNode.newer since)).map (PullRequestNode.intoItem source) ∧
        rest = views ∧
        ((page.nodes.takeWhile (PullRequestNode.newer since)).length < page.nodes.length ∨
          page.nodes.takeWhile (PullRequestNode.newer since) = page.nodes ∧
            ∃ read, next page read = .done)) ∨
      ∃ cursor view views', views = view :: views' ∧
        page.nodes.takeWhile (PullRequestNode.newer since) = page.nodes ∧
        (∃ read, next page read = .page cursor) ∧
        changedPulls rank source since
          (view.world.pullRequests rank allStates (some cursor) changedPage)
          (changed ++ page.nodes.map (PullRequestNode.intoItem source)) views' =
            some (some changed', rest) := by
  unfold changedPulls at h
  dsimp only at h
  rw [newer_eq, List.length_map, List.length_map] at h
  split at h
  · next short =>
    cases h
    exact .inl ⟨rfl, rfl, .inl short⟩
  · next all =>
    rw [newer_all all] at h ⊢
    split at h
    · next ended =>
      cases h
      exact .inl ⟨rfl, rfl, .inr ⟨rfl, _, ended⟩⟩
    · cases h
    · next cursor following =>
      split at h
      · cases h
      · next view views =>
        split at h
        · cases h
        · exact .inr ⟨cursor, view, views, rfl, rfl, ⟨_, following⟩, h⟩

lemma newer_ends (positive : 0 < count)
    (sound : ∀ node ∈ entries, ∃ state : PullState, node.issue.state = state.text)
    (ended : ((page (PullRequestNode.place rank) (fun node => node.issue.state ∈ allStates) after
          count entries).nodes.takeWhile (PullRequestNode.newer since)).length <
        (page (PullRequestNode.place rank) (fun node => node.issue.state ∈ allStates) after count
          entries).nodes.length ∨
      (page (PullRequestNode.place rank) (fun node => node.issue.state ∈ allStates) after count
          entries).nodes.takeWhile (PullRequestNode.newer since) =
        (page (PullRequestNode.place rank) (fun node => node.issue.state ∈ allStates) after count
          entries).nodes ∧
      ∃ read, next (page (PullRequestNode.place rank) (fun node => node.issue.state ∈ allStates)
        after count entries) read = .done) :
    Descends (PullRequestNode.place rank) (PullRequestNode.newer since) after entries
      ((page (PullRequestNode.place rank) (fun node => node.issue.state ∈ allStates) after count
        entries).nodes.takeWhile (PullRequestNode.newer since)) := by
  obtain short | ⟨-, read, ended⟩ := ended
  · obtain ⟨back, split, -⟩ := page_split (PullRequestNode.place rank)
      (fun node => node.issue.state ∈ allStates) after count entries
    have whole := Newer.narrow since sound split
    rwa [List.takeWhile_append, if_neg short.ne] at whole
  · exact Newer.narrow since sound (next_done positive ended)

end Newer

lemma changedPulls_walk {since : Instant} {views rest : List View} {after : Option Cursor}
    {count : ℕ} {entries : List PullRequestNode} {changed changed' : List Item} (positive : 0 < count)
    (sound : ∀ node ∈ entries, ∃ state : PullState, node.issue.state = state.text)
    (sounds : ∀ view ∈ views, view.world.Sound)
    (h : changedPulls rank source since
      (page (PullRequestNode.place rank) (fun node => node.issue.state ∈ allStates) after count
        entries) changed views = some (some changed', rest)) :
    ∃ used worlds read, views = used ++ rest ∧
      (∀ entries ∈ worlds, ∃ view ∈ used, entries = view.world.pulls) ∧
      changed' = changed ++ read.map (PullRequestNode.intoItem source) ∧
      Walk (PullRequestNode.place rank) (PullRequestNode.newer since) after (entries :: worlds)
        read := by
  induction views generalizing after count entries changed with
  | nil =>
    obtain ⟨rfl, rfl, ended⟩ | ⟨_, _, _, none, -⟩ := changedPulls_cases h
    · exact ⟨[], [], _, rfl, nofun, rfl, .done (newer_ends positive sound ended)⟩
    · cases none
  | cons view views ih =>
    obtain ⟨rfl, rfl, ended⟩ | ⟨cursor, _, _, ⟨⟩, all, ⟨read', following⟩, h⟩ := changedPulls_cases h
    · exact ⟨[], [], _, rfl, nofun, rfl, .done (newer_ends positive sound ended)⟩
    · obtain ⟨e, back, split, last, rfl⟩ := next_page following
      have whole := Newer.narrow since sound split
      rw [List.takeWhile_append, all, if_pos rfl] at whole
      have here := sounds view (List.mem_cons_self ..)
      obtain ⟨used, worlds, read, rfl, from', rfl, walk⟩ := ih (by decide) here.pullStates
        (fun view' hv => sounds view' (List.mem_cons_of_mem _ hv)) h
      refine ⟨view :: used, _, _, rfl, ?_, ?_, .more whole last walk⟩
      · intro entries he
        obtain rfl | he := List.mem_cons.mp he
        · exact ⟨view, List.mem_cons_self .., rfl⟩
        · obtain ⟨view', hv, same⟩ := from' entries he
          exact ⟨view', List.mem_cons_of_mem _ hv, same⟩
      · rw [List.map_append, List.append_assoc]

end Sheprd.Orchestrator
