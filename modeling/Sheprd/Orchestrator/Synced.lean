import Sheprd.Orchestrator.Github
import Sheprd.Orchestrator.Listed

namespace Sheprd.Orchestrator

open Lib

def held (items : List Item) (key : ItemKey) : List Item := items.filter fun item => item.key = key

def closedIssue (item : Item) : Prop := item.pullRequest = none ∧ item.state = "closed"

def Placed (items : List Item) (x : Item) : Prop :=
  (held items x.key = [x] ∧ ¬ closedIssue x) ∨ (held items x.key = [] ∧ closedIssue x) ∨
    held items x.key = [] ∧ settled x = true ∧
      ∀ y ∈ items, settled y = true → x.updated ≤ y.updated

variable {items changed : List Item} {x : Item} {k : ItemKey}

lemma mem_held {y : Item} : y ∈ held items k ↔ y ∈ items ∧ y.key = k := by
  simp [held]

lemma held_append (items items' : List Item) (k : ItemKey) :
    held (items ++ items') k = held items k ++ held items' k := List.filter_append ..

lemma held_eq_nil : held items k = [] ↔ k ∉ items.map Item.key := by
  unfold held
  simp [List.filter_eq_nil_iff]

lemma held_filter (p : Item → Bool) (items : List Item) (k : ItemKey) :
    held (items.filter p) k = (held items k).filter p := List.filter_comm ..

lemma held_filter_key (keep : ItemKey → Prop) [DecidablePred keep] (items : List Item) (k : ItemKey) :
    held (items.filter fun item => keep item.key) k = if keep k then held items k else [] := by
  rw [held_filter]
  split
  · next kept =>
    rw [List.filter_eq_self]
    intro y hy
    simpa [(mem_held.mp hy).2] using kept
  · next gone =>
    rw [List.filter_eq_nil_iff]
    intro y hy
    simpa [(mem_held.mp hy).2] using gone

lemma held_firstSeen (seen : List ItemKey) (items : List Item) :
    held (firstSeen seen items) k = if k ∈ seen then [] else (held items k).take 1 := by
  induction items generalizing seen with
  | nil => simp [firstSeen, held]
  | cons item items ih =>
    unfold firstSeen
    by_cases known : item.key ∈ seen
    · rw [if_pos known, ih]
      by_cases here : k ∈ seen
      · rw [if_pos here, if_pos here]
      · have other : item.key ≠ k := fun same => here (same ▸ known)
        rw [if_neg here, if_neg here]
        unfold held
        rw [List.filter_cons_of_neg (by simpa using other)]
    · rw [if_neg known]
      unfold held at ih ⊢
      by_cases same : item.key = k
      · have new : k ∉ seen := same ▸ known
        rw [List.filter_cons_of_pos (by simpa using same), ih, if_pos (by simp [same]), if_neg new,
          List.filter_cons_of_pos (by simpa using same)]
        rfl
      · rw [List.filter_cons_of_neg (by simpa using same), ih,
          List.filter_cons_of_neg (by simpa using same)]
        simp only [List.mem_cons, Ne.symm same, false_or]

lemma mem_of_firstSeen {seen : List ItemKey} {y : Item} (h : y ∈ firstSeen seen items) :
    y ∈ items := by
  induction items generalizing seen with
  | nil => exact h
  | cons item items ih =>
    unfold firstSeen at h
    split at h
    · exact List.mem_cons_of_mem _ (ih h)
    · obtain rfl | h := List.mem_cons.mp h
      · exact List.mem_cons_self ..
      · exact List.mem_cons_of_mem _ (ih h)

lemma mem_merge {y : Item} (h : y ∈ merge items changed) : y ∈ items ∨ y ∈ changed := by
  obtain h | h := List.mem_append.mp (List.mem_of_mem_filter h)
  · exact .inl (List.mem_of_mem_filter h)
  · exact .inr (mem_of_firstSeen (List.mem_of_mem_filter h))

lemma closed_sorted (items : List Item) :
    (((items.filter settled).map fun item => (item.updated, item.key)).insertionSort
      fun a b => b.1 ≤ a.1).Pairwise fun a b => b.1 ≤ a.1 := by
  have total : Std.Total fun a b : WithBot Instant × ItemKey => b.1 ≤ a.1 :=
    ⟨fun a b => le_total b.1 a.1⟩
  have trans : IsTrans (WithBot Instant × ItemKey) fun a b => b.1 ≤ a.1 :=
    ⟨fun _ _ _ h h' => h'.trans h⟩
  exact List.pairwise_insertionSort _ _

lemma mem_closed {items : List Item} {p : WithBot Instant × ItemKey} :
    p ∈ ((items.filter settled).map fun item => (item.updated, item.key)).insertionSort
      (fun a b => b.1 ≤ a.1) ↔ ∃ y ∈ items, settled y = true ∧ (y.updated, y.key) = p := by
  simp [and_assoc]

lemma of_mem_dropped (h : k ∈ dropped items) :
    ∃ z ∈ items, settled z = true ∧ z.key = k ∧
      ∀ y ∈ items, settled y = true → y.key ∉ dropped items → z.updated ≤ y.updated := by
  obtain ⟨p, hp, rfl⟩ := List.mem_map.mp h
  obtain ⟨z, hz, closed, rfl⟩ := mem_closed.mp (List.mem_of_mem_drop hp)
  refine ⟨z, hz, closed, rfl, ?_⟩
  intro y hy closed' kept
  have sorted := closed_sorted items
  have listed := mem_closed.mpr ⟨y, hy, closed', rfl⟩
  rw [← List.take_append_drop recentlyClosed (List.insertionSort _ _)] at sorted listed
  obtain first | late := List.mem_append.mp listed
  · exact (List.pairwise_append.mp sorted).2.2 _ first _ hp
  · exact absurd (List.mem_map.mpr ⟨_, late, rfl⟩) kept

lemma settled_length (items : List Item) :
    ((items.filter fun item => item.key ∉ dropped items).filter settled).length ≤
      recentlyClosed := by
  let sorted := ((items.filter settled).map fun item => (item.updated, item.key)).insertionSort
    fun a b => b.1 ≤ a.1
  have perm : sorted.Perm ((items.filter settled).map fun item => (item.updated, item.key)) :=
    List.perm_insertionSort _ _
  have same : ((items.filter fun item => item.key ∉ dropped items).filter settled).length =
      (sorted.filter fun p => p.2 ∉ dropped items).length := by
    rw [(perm.filter _).length_eq, List.filter_map, List.length_map, List.filter_comm]
    rfl
  have late : (sorted.drop recentlyClosed).filter (fun p => p.2 ∉ dropped items) = [] := by
    rw [List.filter_eq_nil_iff]
    intro p hp
    have late : p.2 ∈ dropped items := List.mem_map.mpr ⟨p, hp, rfl⟩
    simpa using late
  rw [same, ← List.take_append_drop recentlyClosed sorted, List.filter_append, late, List.append_nil]
  exact (List.length_filter_le _ _).trans (List.length_take_le _ _)

lemma Placed.newest (h : Placed items x) :
    Placed (items.filter fun item => item.key ∉ dropped items) x := by
  have part := held_filter_key (fun key => key ∉ dropped items) items x.key
  have kept (y : Item) (hy : y ∈ items.filter fun item => item.key ∉ dropped items) :
      y ∈ items ∧ y.key ∉ dropped items := by simpa using hy
  obtain ⟨once, listed⟩ | ⟨gone, closed⟩ | ⟨gone, closed, newest⟩ := h
  · by_cases late : x.key ∈ dropped items
    · obtain ⟨z, hz, closed, same, newest⟩ := of_mem_dropped late
      have only : z ∈ held items x.key := mem_held.mpr ⟨hz, same⟩
      rw [once] at only
      obtain rfl := List.mem_singleton.mp only
      refine .inr (.inr ⟨part.trans (if_neg (not_not.mpr late)), closed, ?_⟩)
      exact fun y hy closed' => newest y (kept y hy).1 closed' (kept y hy).2
    · exact .inl ⟨(part.trans (if_pos late)).trans once, listed⟩
  · refine .inr (.inl ⟨part.trans ?_, closed⟩)
    rw [gone, ite_self]
  · refine .inr (.inr ⟨part.trans ?_, closed, fun y hy => newest y (kept y hy).1⟩)
    rw [gone, ite_self]

lemma held_merged (items changed : List Item) (k : ItemKey) :
    held (items.filter (fun item => item.key ∉ (firstSeen [] changed).map Item.key) ++
        (firstSeen [] changed).filter
          fun item => item.pullRequest.isSome || item.state ≠ "closed") k =
      if held changed k = [] then held items k
      else ((held changed k).take 1).filter
        fun item => item.pullRequest.isSome || item.state ≠ "closed" := by
  have first := held_firstSeen (k := k) [] changed
  rw [if_neg List.not_mem_nil] at first
  have keys : k ∈ (firstSeen [] changed).map Item.key ↔ held changed k ≠ [] := by
    rw [← not_iff_not, not_not, ← held_eq_nil, first, List.take_eq_nil_iff]
    simp
  rw [held_append, held_filter_key (fun key => key ∉ (firstSeen [] changed).map Item.key),
    held_filter, first]
  by_cases none : held changed k = []
  · rw [if_pos fun mem => keys.mp mem none, if_pos none, none]
    exact List.append_nil _
  · rw [if_neg (not_not.mpr (keys.mpr none)), if_neg none, List.nil_append]

lemma merge_placed (old : held changed x.key = [] → Placed items x)
    (new : held changed x.key = [] ∨ held changed x.key = [x])
    (newer : held changed x.key = [] → settled x = true →
      ∀ y ∈ changed, settled y = true → x.updated ≤ y.updated) :
    Placed (merge items changed) x := by
  refine Placed.newest ?_
  have whole := held_merged items changed x.key
  obtain none | once := new
  · rw [if_pos none] at whole
    obtain ⟨once, listed⟩ | ⟨gone, closed⟩ | ⟨gone, closed, newest⟩ := old none
    · exact .inl ⟨whole.trans once, listed⟩
    · exact .inr (.inl ⟨whole.trans gone, closed⟩)
    · refine .inr (.inr ⟨whole.trans gone, closed, ?_⟩)
      intro y hy closed'
      obtain hy | hy := List.mem_append.mp hy
      · exact newest y (List.mem_of_mem_filter hy) closed'
      · exact newer none closed y (mem_of_firstSeen (List.mem_of_mem_filter hy)) closed'
  · rw [if_neg (by simp [once]), once] at whole
    by_cases closed : closedIssue x
    · refine .inr (.inl ⟨whole.trans ?_, closed⟩)
      simp [closed.1, closed.2]
    · refine .inl ⟨whole.trans ?_, closed⟩
      change [x].filter _ = [x]
      rw [List.filter_eq_self]
      intro y hy
      obtain rfl : y = x := by simpa using hy
      by_contra left
      simp only [Bool.or_eq_true, decide_eq_true_eq, not_or, Bool.not_eq_true,
        Option.isSome_eq_false_iff, Option.isNone_iff_eq_none, not_not] at left
      exact closed left

lemma held_stored (items : List Item) (k : ItemKey) :
    held (stored items) k = (held items k).getLast?.toList := by
  induction items using List.reverseRecOn with
  | nil => rfl
  | append_singleton items item ih =>
    unfold stored at ih ⊢
    rw [List.foldl_append, List.foldl_cons, List.foldl_nil, held_append, held_append]
    by_cases same : item.key = k
    · have here : held [item] k = [item] := by simp [held, same]
      rw [here, List.getLast?_append, List.getLast?_singleton, held_filter_key (fun key => key ≠ item.key),
        if_neg (by simp [same])]
      rfl
    · have here : held [item] k = [] := by simp [held, same]
      rw [here, List.append_nil, List.append_nil, held_filter_key (fun key => key ≠ item.key),
        if_pos (Ne.symm same), ih]

lemma mem_of_stored {y : Item} (h : y ∈ stored items) : y ∈ items := by
  have here : y ∈ held (stored items) y.key := mem_held.mpr ⟨h, rfl⟩
  rw [held_stored, Option.mem_toList] at here
  exact (mem_held.mp (List.mem_of_getLast? here)).1

lemma Placed.stored (h : Placed items x) : Placed (stored items) x := by
  have rows := held_stored items x.key
  obtain ⟨once, listed⟩ | ⟨gone, closed⟩ | ⟨gone, closed, newest⟩ := h
  · exact .inl ⟨by rw [rows, once]; rfl, listed⟩
  · exact .inr (.inl ⟨by rw [rows, gone]; rfl, closed⟩)
  · refine .inr (.inr ⟨by rw [rows, gone]; rfl, closed, ?_⟩)
    exact fun y hy => newest y (mem_of_stored hy)

lemma Placed.perm {items' : List Item} (h : Placed items x) (perm : items'.Perm items) :
    Placed items' x := by
  have same : (held items' x.key).Perm (held items x.key) := perm.filter _
  obtain ⟨once, listed⟩ | ⟨gone, closed⟩ | ⟨gone, closed, newest⟩ := h
  · exact .inl ⟨List.perm_singleton.mp (once ▸ same), listed⟩
  · exact .inr (.inl ⟨List.perm_nil.mp (gone ▸ same), closed⟩)
  · refine .inr (.inr ⟨List.perm_nil.mp (gone ▸ same), closed, ?_⟩)
    exact fun y hy => newest y (perm.mem_iff.mp hy)

end Sheprd.Orchestrator

namespace Sheprd.Orchestrator

open Lib Pages

variable {source : SourceKey} {rank : ℕ → ℕ}

lemma toString_inj {m n : ℕ} : (toString m : String) = toString n ↔ m = n := by
  refine ⟨fun same => ?_, fun same => same ▸ rfl⟩
  have digits : Nat.toDigits 10 m = Nat.toDigits 10 n := by
    rw [← Nat.toList_repr, ← Nat.toList_repr]
    exact congrArg String.toList same
  rw [← Nat.ofDigitChars_ten_toDigits (n := m), digits, Nat.ofDigitChars_ten_toDigits]

lemma issue_key {a b : IssueNode} :
    (a.intoItem source).key = (b.intoItem source).key ↔ a.number = b.number := by
  simp only [IssueNode.intoItem, ItemKey.mk.injEq, true_and, toString_inj]

lemma pull_key {a b : PullRequestNode} :
    (a.intoItem source).key = (b.intoItem source).key ↔ a.issue.number = b.issue.number := by
  simp only [PullRequestNode.intoItem, IssueNode.intoItem, ItemKey.mk.injEq, true_and,
    String.append_right_inj, toString_inj]

lemma issue_key_ne (a : IssueNode) (b : PullRequestNode) :
    (a.intoItem source).key ≠ (b.intoItem source).key := by
  intro same
  have id : (toString a.number : String) = "pr/" ++ toString b.issue.number :=
    congrArg ItemKey.nativeId same
  have mem : 'p' ∈ Nat.toDigits 10 a.number := by
    rw [← Nat.toList_repr]
    change 'p' ∈ (toString a.number : String).toList
    rw [id]
    simp
  have digit := Nat.isDigit_of_mem_toDigits (by decide) (by decide) mem
  exact absurd digit (by decide)

def World.items (source : SourceKey) (world : World) : List Item :=
  world.issues.map (IssueNode.intoItem source) ++ world.pulls.map (PullRequestNode.intoItem source)

lemma World.issue_mem {world : World} {node : IssueNode} (hn : node ∈ world.issues) :
    node.intoItem source ∈ world.items source :=
  List.mem_append_left _ (List.mem_map_of_mem hn)

lemma World.pull_mem {world : World} {node : PullRequestNode} (hn : node ∈ world.pulls) :
    node.intoItem source ∈ world.items source :=
  List.mem_append_right _ (List.mem_map_of_mem hn)

def Resume.of (resume : Resume) (x : Item) : Instant :=
  if x.pullRequest.isSome then resume.pulls else resume.issues

def Known (source : SourceKey) (world : World) (items : List Item) : Prop :=
  ∀ y ∈ items, y.key ∈ (world.items source).map Item.key

def Covers (source : SourceKey) (resume : Resume) (world : World) (items : List Item) : Prop :=
  ∀ x ∈ world.items source, x.updated < (resume.of x : WithBot Instant) → Placed items x

variable {world world' : World} {items : List Item}

lemma Known.later (known : Known source world items) (later : Later world world') :
    Known source world' items := by
  intro y hy
  obtain ⟨x, hx, same⟩ := List.mem_map.mp (known y hy)
  rw [← same]
  obtain hx | hx := List.mem_append.mp hx
  · obtain ⟨node, hn, rfl⟩ := List.mem_map.mp hx
    obtain ⟨node', hn', same⟩ := List.mem_map.mp (later.issueNumbers (List.mem_map_of_mem hn))
    rw [issue_key.mpr same.symm]
    exact List.mem_map_of_mem (World.issue_mem hn')
  · obtain ⟨node, hn, rfl⟩ := List.mem_map.mp hx
    obtain ⟨node', hn', same⟩ := List.mem_map.mp
      (later.pullNumbers (List.mem_map_of_mem (f := fun node => node.issue.number) hn))
    rw [pull_key.mpr same.symm]
    exact List.mem_map_of_mem (World.pull_mem hn')

lemma Later.item_before (later : Later world world') {x : Item} (hx : x ∈ world'.items source)
    (old : x.updated < (world.clock : WithBot Instant)) : x ∈ world.items source := by
  obtain hx | hx := List.mem_append.mp hx
  · obtain ⟨node, hn, rfl⟩ := List.mem_map.mp hx
    obtain hn | since := later.issues node hn
    · exact World.issue_mem hn
    · exact absurd (WithBot.coe_lt_coe.mp old) (not_lt.mpr since)
  · obtain ⟨node, hn, rfl⟩ := List.mem_map.mp hx
    obtain hn | since := later.pulls node hn
    · exact World.pull_mem hn
    · exact absurd (WithBot.coe_lt_coe.mp old) (not_lt.mpr since)

structure Early (resume : Resume) (world : World) : Prop where
  issues : resume.issues ≤ world.clock
  pulls : resume.pulls ≤ world.clock

lemma Early.of {resume : Resume} (early : Early resume world) (x : Item) :
    resume.of x ≤ world.clock := by
  unfold Resume.of
  split
  · exact early.pulls
  · exact early.issues

lemma Covers.later {resume : Resume} (covers : Covers source resume world items)
    (early : Early resume world) (later : Later world world') :
    Covers source resume world' items := by
  intro x hx old
  exact covers x (later.item_before hx (lt_of_lt_of_le old (WithBot.coe_le_coe.mpr (early.of x)))) old

lemma held_issues (nodes : List IssueNode) (node : IssueNode) :
    held (nodes.map (IssueNode.intoItem source)) (node.intoItem source).key =
      (nodes.filter fun n => n.number = node.number).map (IssueNode.intoItem source) := by
  unfold held
  rw [List.filter_map]
  congr 2
  funext n
  simp [issue_key]

lemma held_pulls (nodes : List PullRequestNode) (node : PullRequestNode) :
    held (nodes.map (PullRequestNode.intoItem source)) (node.intoItem source).key =
      (nodes.filter fun n => n.issue.number = node.issue.number).map
        (PullRequestNode.intoItem source) := by
  unfold held
  rw [List.filter_map]
  congr 2
  funext n
  simp [pull_key]

lemma held_issues_pull (nodes : List IssueNode) (node : PullRequestNode) :
    held (nodes.map (IssueNode.intoItem source)) (node.intoItem source).key = [] := by
  rw [held_eq_nil, List.map_map]
  intro mem
  obtain ⟨n, -, same⟩ := List.mem_map.mp mem
  exact issue_key_ne n node same

lemma held_pulls_issue (nodes : List PullRequestNode) (node : IssueNode) :
    held (nodes.map (PullRequestNode.intoItem source)) (node.intoItem source).key = [] := by
  rw [held_eq_nil, List.map_map]
  intro mem
  obtain ⟨n, -, same⟩ := List.mem_map.mp mem
  exact issue_key_ne node n same.symm

lemma issue_place {a b : IssueNode} (h : a.place rank = b.place rank) : a.number = b.number :=
  (Prod.mk.inj (Prod.mk.inj h).2).2

lemma place_time {a b : IssueNode} (h : a.place rank ≤ b.place rank) : a.updatedAt ≤ b.updatedAt := by
  obtain h | ⟨h, -⟩ := Prod.Lex.le_iff.mp h
  · exact le_of_lt h
  · exact le_of_eq h

lemma Walk.held_issue {keep : IssueNode → Bool} {worlds : List (List IssueNode)}
    {read : List IssueNode} (walk : Walk (IssueNode.place rank) keep none worlds read)
    (sound : ∀ entries ∈ worlds, (entries.map IssueNode.number).Nodup) {node : IssueNode}
    (stays : ∀ entries ∈ worlds, node ∈ entries) :
    held (read.map (IssueNode.intoItem source)) (node.intoItem source).key =
      if keep node then [node.intoItem source] else [] := by
  rw [held_issues, walk.filter_key IssueNode.number (fun _ _ => issue_place) sound stays nofun]
  split <;> rfl

lemma Walk.held_pull {keep : PullRequestNode → Bool} {worlds : List (List PullRequestNode)}
    {read : List PullRequestNode} (walk : Walk (PullRequestNode.place rank) keep none worlds read)
    (sound : ∀ entries ∈ worlds, (entries.map fun node => node.issue.number).Nodup)
    {node : PullRequestNode} (stays : ∀ entries ∈ worlds, node ∈ entries) :
    held (read.map (PullRequestNode.intoItem source)) (node.intoItem source).key =
      if keep node then [node.intoItem source] else [] := by
  have keyed := walk.filter_key (fun node : PullRequestNode => node.issue.number)
    (fun _ _ => issue_place) sound stays nofun
  rw [held_pulls, keyed]
  split <;> rfl

end Sheprd.Orchestrator
