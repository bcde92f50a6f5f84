import Sheprd.Review.FileTree

namespace Sheprd.Review.FileTree

def depthAt (nodes : List Node) (index : ℕ) : ℕ := (nodes[index]?.map Node.depth).getD 0

def FolderAt (nodes : List Node) (index : ℕ) (path : Chars) : Prop :=
  ∃ label depth, nodes[index]? = some (.folder path label depth)

def FileAt (nodes : List Node) (index file : ℕ) : Prop := ∃ depth, nodes[index]? = some (.file file depth)

structure Holds (nodes : List Node) (outer index : ℕ) : Prop where
  before : outer < index
  folder : ∃ path, FolderAt nodes outer path
  within : ∀ k, outer < k → k ≤ index → depthAt nodes outer < depthAt nodes k

def Closed (closed : Chars → Bool) (filtered : Bool) (nodes : List Node) (index : ℕ) : Prop :=
  filtered = false ∧ ∃ path, FolderAt nodes index path ∧ closed path = true

def Uncovered (closed : Chars → Bool) (filtered : Bool) (nodes : List Node) (index : ℕ) : Prop :=
  ∀ outer, Holds nodes outer index → ¬ Closed closed filtered nodes outer

def Kept (keep : ℕ → Bool) (nodes : List Node) (index : ℕ) : Prop := ∃ file, FileAt nodes index file ∧ keep file = true

def Visible (closed : Chars → Bool) (filtered : Bool) (keep : ℕ → Bool) (nodes : List Node) (upTo index : ℕ) : Prop :=
  Uncovered closed filtered nodes index ∧
    ∃ kept < upTo, Kept keep nodes kept ∧ (kept = index ∨ Holds nodes index kept)

def Nested : ℕ → List Node → Prop
  | _, [] => True
  | height, .folder _ _ depth :: rest => depth ≤ height ∧ Nested (depth + 1) rest
  | height, .file _ depth :: rest => depth ≤ height ∧ Nested depth rest

section Holds

variable {nodes : List Node} {a b c : ℕ}

lemma Holds.trans (h : Holds nodes a b) (h' : Holds nodes b c) : Holds nodes a c where
  before := h.before.trans h'.before
  folder := h.folder
  within := by
    intro k hk hle
    rcases le_or_gt k b with hkb | hkb
    · exact h.within k hk hkb
    · exact (h.within b h.before le_rfl).trans (h'.within k hkb hle)

lemma Holds.nest (h : Holds nodes a c) (h' : Holds nodes b c) (hab : a < b) : Holds nodes a b where
  before := hab
  folder := h.folder
  within := fun k hk hle => h.within k hk (hle.trans h'.before.le)

lemma Holds.shorten (h : Holds nodes a c) (hab : a < b) (hbc : b ≤ c) : Holds nodes a b where
  before := hab
  folder := h.folder
  within := fun k hk hle => h.within k hk (hle.trans hbc)

lemma depthAt_eq {node : Node} (h : nodes[a]? = some node) : depthAt nodes a = node.depth := by
  rw [depthAt, h]
  rfl

lemma FileAt.not_folder {file : ℕ} {path : Chars} (h : FileAt nodes a file) : ¬ FolderAt nodes a path := by
  rintro ⟨label, depth, hfolder⟩
  obtain ⟨depth', hfile⟩ := h
  rw [hfile] at hfolder
  exact absurd hfolder (by simp)

end Holds

section Reveal

variable {stack : List Above}

def folders (stack : List Above) : List ℕ := stack.map Above.folder

lemma reveal_open (stack : List Above) : (reveal stack).2.2 = stack.all fun above => !above.closed := by
  induction stack with
  | nil => rfl
  | cons above rest ih =>
    rw [reveal, List.all_cons]
    cases hclosed : above.closed with
    | true => rfl
    | false => simpa using ih

lemma reveal_stack (stack : List Above) :
    (reveal stack).2.1.map (fun above => (above.folder, above.closed)) =
      stack.map fun above => (above.folder, above.closed) := by
  induction stack with
  | nil => rfl
  | cons above rest ih =>
    rw [reveal]
    cases hclosed : above.closed with
    | true => simp [hclosed]
    | false => simpa [hclosed] using ih

lemma folders_reveal (stack : List Above) : folders (reveal stack).2.1 = folders stack := by
  have hmap := congrArg (List.map Prod.fst) (reveal_stack stack)
  rw [List.map_map, List.map_map] at hmap
  exact hmap

lemma reveal_sublist (stack : List Above) : (reveal stack).1.Sublist (folders stack) := by
  induction stack with
  | nil => exact List.Sublist.refl _
  | cons above rest ih =>
    have hfirst : (if above.seen then [] else [above.folder]).Sublist [above.folder] := by
      split
      · exact List.nil_sublist _
      · exact List.Sublist.refl _
    rw [reveal]
    cases hclosed : above.closed with
    | true => exact hfirst.trans (List.singleton_sublist.mpr List.mem_cons_self)
    | false => exact hfirst.append ih

lemma mem_reveal {folder : ℕ} : folder ∈ (reveal stack).1 ↔
    ∃ front above back, stack = front ++ above :: back ∧ above.folder = folder ∧ above.seen = false ∧
      ∀ outer ∈ front, outer.closed = false := by
  induction stack with
  | nil => simp [reveal]
  | cons first rest ih =>
    have hhere : folder ∈ (if first.seen then [] else [first.folder]) ↔ first.folder = folder ∧ first.seen = false := by
      cases first.seen <;> simp [eq_comm]
    constructor
    · intro hmem
      rw [reveal] at hmem
      cases hclosed : first.closed with
      | true =>
        rw [hclosed] at hmem
        obtain ⟨hfolder, hseen⟩ := hhere.mp hmem
        exact ⟨[], first, rest, rfl, hfolder, hseen, by simp⟩
      | false =>
        rw [hclosed] at hmem
        obtain hfirst | hmore := List.mem_append.mp hmem
        · obtain ⟨hfolder, hseen⟩ := hhere.mp hfirst
          exact ⟨[], first, rest, rfl, hfolder, hseen, by simp⟩
        · obtain ⟨front, above, back, rfl, hfolder, hseen, hopen⟩ := ih.mp hmore
          exact ⟨first :: front, above, back, rfl, hfolder, hseen, List.forall_mem_cons.mpr ⟨hclosed, hopen⟩⟩
    · rintro ⟨front, above, back, hstack, hfolder, hseen, hopen⟩
      rw [reveal]
      cases front with
      | nil =>
        obtain ⟨rfl, rfl⟩ := List.cons.inj hstack
        have hfirst := hhere.mpr ⟨hfolder, hseen⟩
        cases hclosed : first.closed with
        | true => exact hfirst
        | false => exact List.mem_append_left _ hfirst
      | cons outer front =>
        obtain ⟨rfl, rfl⟩ := List.cons.inj hstack
        obtain ⟨houter, hfront⟩ := List.forall_mem_cons.mp hopen
        rw [houter]
        exact List.mem_append_right _ (ih.mpr ⟨front, above, back, rfl, hfolder, hseen, hfront⟩)

lemma reveal_seen (hnodup : (folders stack).Nodup) : ∀ after ∈ (reveal stack).2.1, ∃ above ∈ stack,
    after.folder = above.folder ∧ after.closed = above.closed ∧
      (after.seen = true ↔ above.seen = true ∨ after.folder ∈ (reveal stack).1) := by
  induction stack with
  | nil => simp [reveal]
  | cons first rest ih =>
    obtain ⟨hfirst, hrest⟩ := List.nodup_cons.mp hnodup
    have hnew : ∀ folder, folder ≠ first.folder → folder ∉ (if first.seen then [] else [first.folder]) := by
      intro folder hne
      cases first.seen <;> simp [hne]
    have hhead : first.seen = true ∨ first.folder ∈ (if first.seen then [] else [first.folder]) := by
      cases first.seen <;> simp
    have hother : ∀ above ∈ rest, above.folder ≠ first.folder := by
      intro above habove heq
      exact hfirst (heq ▸ List.mem_map_of_mem habove)
    intro after hafter
    rw [reveal] at hafter ⊢
    cases hclosed : first.closed with
    | true =>
      rw [hclosed] at hafter
      obtain rfl | hafter := List.mem_cons.mp hafter
      · exact ⟨first, List.mem_cons_self, rfl, hclosed.symm, iff_of_true rfl hhead⟩
      · refine ⟨after, List.mem_cons_of_mem _ hafter, rfl, rfl, ⟨Or.inl, ?_⟩⟩
        exact fun h => h.resolve_right (hnew _ (hother after hafter))
    | false =>
      rw [hclosed] at hafter
      obtain rfl | hafter := List.mem_cons.mp hafter
      · exact ⟨first, List.mem_cons_self, rfl, hclosed.symm, iff_of_true rfl (hhead.imp_right (List.mem_append_left _))⟩
      · obtain ⟨above, habove, hfolder, hsame, hseen⟩ := ih hrest after hafter
        refine ⟨above, List.mem_cons_of_mem _ habove, hfolder, hsame, hseen.trans (or_congr_right ?_)⟩
        have hne := hnew after.folder (hfolder ▸ hother above habove)
        exact ⟨List.mem_append_right _, fun h => (List.mem_append.mp h).resolve_left hne⟩

end Reveal

section Run

variable {nodes : List Node} {closed : Chars → Bool} {filtered : Bool} {keep : ℕ → Bool} {upTo : ℕ}

structure Standing (nodes : List Node) (upTo outer : ℕ) : Prop where
  before : outer < upTo
  folder : ∃ path, FolderAt nodes outer path
  within : ∀ k, outer < k → k < upTo → depthAt nodes outer < depthAt nodes k

lemma holds_iff {outer : ℕ} :
    Holds nodes outer upTo ↔ Standing nodes upTo outer ∧ depthAt nodes outer < depthAt nodes upTo := by
  constructor
  · intro h
    exact ⟨⟨h.before, h.folder, fun k hk hlt => h.within k hk hlt.le⟩, h.within upTo h.before le_rfl⟩
  · rintro ⟨h, hdepth⟩
    refine ⟨h.before, h.folder, fun k hk hle => ?_⟩
    obtain hlt | rfl := Nat.lt_or_eq_of_le hle
    · exact h.within k hk hlt
    · exact hdepth

lemma standing_succ {outer : ℕ} : Standing nodes (upTo + 1) outer ↔
    Holds nodes outer upTo ∨ outer = upTo ∧ ∃ path, FolderAt nodes upTo path := by
  constructor
  · intro h
    obtain hlt | rfl := Nat.lt_or_eq_of_le (Nat.le_of_lt_succ h.before)
    · exact Or.inl ⟨hlt, h.folder, fun k hk hle => h.within k hk (Nat.lt_succ_of_le hle)⟩
    · exact Or.inr ⟨rfl, h.folder⟩
  · rintro (h | ⟨rfl, hfolder⟩)
    · exact ⟨Nat.lt_succ_of_lt h.before, h.folder, fun k hk hlt => h.within k hk (Nat.le_of_lt_succ hlt)⟩
    · exact ⟨Nat.lt_succ_self outer, hfolder, fun k hk hlt => absurd hk (by omega)⟩

variable (closed filtered nodes) in
structure Stacked (above : ℕ → Prop) (shown : List ℕ) (stack : List Above) : Prop where
  order : (folders stack).Pairwise (· < ·)
  depth : ∀ m entry, stack[m]? = some entry → depthAt nodes entry.folder = m
  mem : ∀ outer, outer ∈ folders stack ↔ above outer
  closed : ∀ entry ∈ stack, (entry.closed = true ↔ Closed closed filtered nodes entry.folder)
  seen : ∀ entry ∈ stack, (entry.seen = true ↔ entry.folder ∈ shown)

variable (closed filtered keep nodes) in
structure Reached (upTo : ℕ) (state : Shown) : Prop where
  sorted : state.shown.Pairwise (· < ·)
  mem : ∀ k, k ∈ state.shown ↔ Visible closed filtered keep nodes upTo k
  stacked : Stacked nodes closed filtered (Standing nodes upTo) state.shown state.stack

lemma Stacked.congr {above above' : ℕ → Prop} {shown : List ℕ} {stack : List Above}
    (h : Stacked nodes closed filtered above shown stack) (hsame : ∀ outer, above outer ↔ above' outer) :
    Stacked nodes closed filtered above' shown stack :=
  { h with mem := fun outer => (h.mem outer).trans (hsame outer) }

lemma mem_folders {outer : ℕ} {stack : List Above} : outer ∈ folders stack ↔
    ∃ (m : ℕ) (entry : Above), stack[m]? = some entry ∧ entry.folder = outer := by
  constructor
  · intro h
    obtain ⟨entry, hentry, rfl⟩ := List.mem_map.mp h
    obtain ⟨m, hm⟩ := List.mem_iff_getElem?.mp hentry
    exact ⟨m, entry, hm, rfl⟩
  · rintro ⟨m, entry, hm, rfl⟩
    exact List.mem_map_of_mem (List.mem_of_getElem? hm)

lemma Stacked.take {shown : List ℕ} {stack : List Above} {node : Node} (hnode : nodes[upTo]? = some node)
    (h : Stacked nodes closed filtered (Standing nodes upTo) shown stack) :
    Stacked nodes closed filtered (fun outer => Holds nodes outer upTo) shown (stack.take node.depth) where
  order := h.order.sublist ((List.take_sublist _ _).map Above.folder)
  depth := by
    intro m entry hentry
    rw [List.getElem?_take] at hentry
    split at hentry
    · exact h.depth m entry hentry
    · exact absurd hentry (by simp)
  mem := by
    intro outer
    rw [holds_iff, depthAt_eq hnode, mem_folders]
    constructor
    · rintro ⟨m, entry, hentry, rfl⟩
      rw [List.getElem?_take] at hentry
      split at hentry
      · rename_i hm
        refine ⟨(h.mem _).mp (mem_folders.mpr ⟨m, entry, hentry, rfl⟩), ?_⟩
        rwa [h.depth m entry hentry]
      · exact absurd hentry (by simp)
    · rintro ⟨hstanding, hdepth⟩
      obtain ⟨m, entry, hentry, rfl⟩ := mem_folders.mp ((h.mem outer).mpr hstanding)
      refine ⟨m, entry, ?_, rfl⟩
      rw [h.depth m entry hentry] at hdepth
      rw [List.getElem?_take, if_pos hdepth, hentry]
  closed := fun entry hentry => h.closed entry (List.mem_of_mem_take hentry)
  seen := fun entry hentry => h.seen entry (List.mem_of_mem_take hentry)

lemma visible_succ {k : ℕ} : Visible closed filtered keep nodes (upTo + 1) k ↔
    Visible closed filtered keep nodes upTo k ∨
      Uncovered closed filtered nodes k ∧ Kept keep nodes upTo ∧ (upTo = k ∨ Holds nodes k upTo) := by
  constructor
  · rintro ⟨hopen, kept, hlt, hkept, hbelow⟩
    obtain hlt | rfl := Nat.lt_or_eq_of_le (Nat.le_of_lt_succ hlt)
    · exact Or.inl ⟨hopen, kept, hlt, hkept, hbelow⟩
    · exact Or.inr ⟨hopen, hkept, hbelow⟩
  · rintro (⟨hopen, kept, hlt, hkept, hbelow⟩ | ⟨hopen, hkept, hbelow⟩)
    · exact ⟨hopen, kept, Nat.lt_succ_of_lt hlt, hkept, hbelow⟩
    · exact ⟨hopen, upTo, Nat.lt_succ_self upTo, hkept, hbelow⟩

lemma Visible.lt {k : ℕ} (h : Visible closed filtered keep nodes upTo k) : k < upTo := by
  obtain ⟨-, kept, hlt, -, rfl | hbelow⟩ := h
  · exact hlt
  · exact hbelow.before.trans hlt

section Reveal

variable {shown : List ℕ} {stack : List Above}
  (h : Stacked nodes closed filtered (fun outer => Holds nodes outer upTo) shown stack)

include h

lemma Stacked.mem_reveal (j : ℕ) : j ∈ (reveal stack).1 ↔
    Holds nodes j upTo ∧ Uncovered closed filtered nodes j ∧ j ∉ shown := by
  rw [FileTree.mem_reveal]
  constructor
  · rintro ⟨front, entry, back, hstack, rfl, hseen, hopen⟩
    have hentry : entry ∈ stack := hstack ▸ List.mem_append_right _ List.mem_cons_self
    have hholds := (h.mem entry.folder).mp (List.mem_map_of_mem hentry)
    refine ⟨hholds, ?_, ?_⟩
    · intro outer houter hclosed
      obtain ⟨found, hfound, hfolder⟩ := List.mem_map.mp ((h.mem outer).mpr (houter.trans hholds))
      have horder := h.order
      rw [hstack, folders, List.map_append, List.map_cons, List.pairwise_append, List.pairwise_cons] at horder
      have hfront : found ∈ front := by
        rw [hstack] at hfound
        obtain hfront | hback := List.mem_append.mp hfound
        · exact hfront
        · have hle : entry.folder ≤ found.folder := by
            obtain rfl | hback := List.mem_cons.mp hback
            · exact le_rfl
            · exact (horder.2.1.1 _ (List.mem_map_of_mem hback)).le
          exact absurd houter.before (by omega)
      have hfalse := hopen found hfront
      rw [← hfolder, ← h.closed found hfound, hfalse] at hclosed
      exact absurd hclosed (by simp)
    · intro hshown
      rw [(h.seen entry hentry).mpr hshown] at hseen
      exact absurd hseen (by simp)
  · rintro ⟨hholds, hopen, hshown⟩
    obtain ⟨entry, hentry, rfl⟩ := List.mem_map.mp ((h.mem j).mpr hholds)
    obtain ⟨front, back, hstack⟩ := List.append_of_mem hentry
    refine ⟨front, entry, back, hstack, rfl, ?_, ?_⟩
    · exact Bool.eq_false_iff.mpr fun hseen => hshown ((h.seen entry hentry).mp hseen)
    · intro outer houter
      have hmem : outer ∈ stack := hstack ▸ List.mem_append_left _ houter
      have horder := h.order
      rw [hstack, folders, List.map_append, List.map_cons, List.pairwise_append] at horder
      have hlt := horder.2.2 _ (List.mem_map_of_mem houter) _ List.mem_cons_self
      have hnest := ((h.mem outer.folder).mp (List.mem_map_of_mem hmem)).nest hholds hlt
      exact Bool.eq_false_iff.mpr fun hclosed => hopen _ hnest ((h.closed outer hmem).mp hclosed)

lemma Stacked.reveal_open : (reveal stack).2.2 = true ↔ Uncovered closed filtered nodes upTo := by
  rw [FileTree.reveal_open, List.all_eq_true]
  constructor
  · intro hall outer houter hclosed
    obtain ⟨entry, hentry, rfl⟩ := List.mem_map.mp ((h.mem outer).mpr houter)
    have hentry' := hall entry hentry
    rw [(h.closed entry hentry).mpr hclosed] at hentry'
    exact absurd hentry' (by simp)
  · intro hopen entry hentry
    have hfalse : entry.closed = false := Bool.eq_false_iff.mpr fun hclosed =>
      hopen _ ((h.mem entry.folder).mp (List.mem_map_of_mem hentry)) ((h.closed entry hentry).mp hclosed)
    rw [hfalse]
    rfl

lemma Stacked.reveal {shown' : List ℕ} (hshown : ∀ outer, Holds nodes outer upTo →
      (outer ∈ shown' ↔ outer ∈ shown ∨ outer ∈ (reveal stack).1)) :
    Stacked nodes closed filtered (fun outer => Holds nodes outer upTo) shown' (FileTree.reveal stack).2.1 where
  order := by
    rw [folders_reveal]
    exact h.order
  depth := by
    intro m entry hentry
    have hfolder : (folders (FileTree.reveal stack).2.1)[m]? = some entry.folder := by
      rw [folders, List.getElem?_map, hentry]
      rfl
    rw [folders_reveal, folders, List.getElem?_map, Option.map_eq_some_iff] at hfolder
    obtain ⟨found, hfound, heq⟩ := hfolder
    rw [← heq]
    exact h.depth m found hfound
  mem := by
    intro outer
    rw [folders_reveal]
    exact h.mem outer
  closed := by
    intro entry hentry
    obtain ⟨found, hfound, hfolder, hclosed, -⟩ := reveal_seen h.order.nodup entry hentry
    rw [hfolder, hclosed]
    exact h.closed found hfound
  seen := by
    intro entry hentry
    obtain ⟨found, hfound, hfolder, -, hseen⟩ := reveal_seen h.order.nodup entry hentry
    have hholds := (h.mem found.folder).mp (List.mem_map_of_mem hfound)
    rw [hseen, hfolder, hshown _ hholds, h.seen found hfound]

end Reveal

variable {state : Shown}

lemma Reached.skip (h : Reached nodes closed filtered keep upTo state) (hkept : ¬ Kept keep nodes upTo) {k : ℕ} :
    k ∈ state.shown ↔ Visible closed filtered keep nodes (upTo + 1) k := by
  rw [h.mem, visible_succ]
  exact ⟨Or.inl, fun hvisible => hvisible.resolve_right fun hlast => hkept hlast.2.1⟩

lemma Reached.visit_folder {path label : Chars} {depth : ℕ} (h : Reached nodes closed filtered keep upTo state)
    (hnode : nodes[upTo]? = some (.folder path label depth)) (hroom : depth ≤ state.stack.length) :
    Reached nodes closed filtered keep (upTo + 1) (visit closed filtered keep state (.folder path label depth, upTo)) := by
  have hfolder : FolderAt nodes upTo path := ⟨label, depth, hnode⟩
  have hkept : ¬ Kept keep nodes upTo := fun ⟨file, hfile, _⟩ => hfile.not_folder hfolder
  have htake := h.stacked.take hnode
  have hlength : (state.stack.take depth).length = depth := by rw [List.length_take, Nat.min_eq_left hroom]
  have hclosed : (!filtered && closed path) = true ↔ Closed closed filtered nodes upTo := by
    rw [Bool.and_eq_true, Bool.not_eq_true']
    constructor
    · exact fun hboth => ⟨hboth.1, path, hfolder, hboth.2⟩
    · rintro ⟨hfiltered, path', ⟨label', depth', hnode'⟩, hpath⟩
      rw [hnode] at hnode'
      obtain ⟨rfl, -, -⟩ := Node.folder.inj (Option.some.inj hnode')
      exact ⟨hfiltered, hpath⟩
  have hnew : upTo ∉ state.shown := fun hmem => absurd ((h.mem upTo).mp hmem).lt (lt_irrefl upTo)
  refine ⟨h.sorted, fun k => h.skip hkept, ?_⟩
  refine ⟨?_, ?_, ?_, ?_, ?_⟩
  · rw [visit, folders, List.map_append, List.pairwise_append]
    refine ⟨htake.order, List.pairwise_singleton _ _, ?_⟩
    intro outer houter last hlast
    obtain rfl := List.mem_singleton.mp hlast
    exact ((htake.mem outer).mp houter).before
  · intro m entry hentry
    rw [visit, List.getElem?_append] at hentry
    split at hentry
    · exact htake.depth m entry hentry
    · rename_i hm
      have hentry' := List.mem_of_getElem? hentry
      obtain rfl := List.mem_singleton.mp hentry'
      have hlt := (List.getElem?_eq_some_iff.mp hentry).1
      change ¬ m < (state.stack.take depth).length at hm
      change m - (state.stack.take depth).length < 1 at hlt
      rw [depthAt_eq hnode, Node.depth]
      omega
  · intro outer
    rw [visit, folders, List.map_append, List.mem_append, standing_succ]
    refine or_congr (htake.mem outer) ?_
    rw [List.map_singleton, List.mem_singleton]
    exact ⟨fun heq => ⟨heq, path, hfolder⟩, fun hboth => hboth.1⟩
  · intro entry hentry
    obtain hold | hlast := List.mem_append.mp hentry
    · exact htake.closed entry hold
    · obtain rfl := List.mem_singleton.mp hlast
      exact hclosed
  · intro entry hentry
    obtain hold | hlast := List.mem_append.mp hentry
    · exact htake.seen entry hold
    · obtain rfl := List.mem_singleton.mp hlast
      exact iff_of_false (by simp) hnew

lemma standing_file {file depth : ℕ} (hnode : nodes[upTo]? = some (.file file depth)) (outer : ℕ) :
    Holds nodes outer upTo ↔ Standing nodes (upTo + 1) outer := by
  rw [standing_succ]
  refine ⟨Or.inl, fun h => h.resolve_right ?_⟩
  rintro ⟨-, path, hfolder⟩
  exact FileAt.not_folder ⟨depth, hnode⟩ hfolder

lemma Reached.visit_file {file depth : ℕ} (h : Reached nodes closed filtered keep upTo state)
    (hnode : nodes[upTo]? = some (.file file depth)) :
    Reached nodes closed filtered keep (upTo + 1) (visit closed filtered keep state (.file file depth, upTo)) := by
  have htake : Stacked nodes closed filtered (fun outer => Holds nodes outer upTo) state.shown
      (state.stack.take depth) := h.stacked.take hnode
  rw [visit]
  by_cases hkeep : keep file = true
  · have hkept : Kept keep nodes upTo := ⟨file, ⟨depth, hnode⟩, hkeep⟩
    have hreveal := htake.mem_reveal
    have hnew : ∀ k, k ∈ (if (reveal (state.stack.take depth)).2.2 = true then [upTo] else []) ↔
        k = upTo ∧ Uncovered closed filtered nodes upTo := by
      intro k
      rw [← htake.reveal_open]
      split
      · rename_i htrue
        simp [htrue]
      · rename_i hfalse
        simp [hfalse]
    have hmem : ∀ k, k ∈ state.shown ++ (reveal (state.stack.take depth)).1 ++
        (if (reveal (state.stack.take depth)).2.2 = true then [upTo] else []) ↔
        k ∈ state.shown ∨ k ∈ (reveal (state.stack.take depth)).1 ∨
          k = upTo ∧ Uncovered closed filtered nodes upTo := by
      intro k
      rw [List.mem_append, List.mem_append, hnew, or_assoc]
    simp only [if_pos hkeep]
    refine ⟨?_, ?_, ?_⟩
    · refine List.pairwise_append.mpr ⟨List.pairwise_append.mpr ⟨h.sorted, ?_, ?_⟩, ?_, ?_⟩
      · exact htake.order.sublist (reveal_sublist _)
      · -- a later row that is shown would have shown the folder
        intro k hk j hj
        obtain ⟨hholds, hopen, hunseen⟩ := (hreveal j).mp hj
        obtain ⟨-, kept, hlt, hkeptRow, hbelow⟩ := (h.mem k).mp hk
        by_contra hle
        have hjk : j < kept := by
          obtain rfl | hbelow := hbelow
          · have hne : kept ≠ j := fun heq => hunseen (heq ▸ hk)
            omega
          · have hbefore := hbelow.before
            omega
        exact hunseen ((h.mem j).mpr ⟨hopen, kept, hlt, hkeptRow, Or.inr (hholds.shorten hjk hlt.le)⟩)
      · split
        · exact List.pairwise_singleton _ _
        · exact List.Pairwise.nil
      · intro k hk last hlast
        obtain ⟨rfl, -⟩ := (hnew last).mp hlast
        obtain hold | hfolder := List.mem_append.mp hk
        · exact ((h.mem k).mp hold).lt
        · exact ((hreveal k).mp hfolder).1.before
    · intro k
      rw [hmem, hreveal, visible_succ, h.mem]
      constructor
      · rintro (hold | ⟨hholds, hopen, -⟩ | ⟨rfl, hopen⟩)
        · exact Or.inl hold
        · exact Or.inr ⟨hopen, hkept, Or.inr hholds⟩
        · exact Or.inr ⟨hopen, hkept, Or.inl rfl⟩
      · rintro (hold | ⟨hopen, -, rfl | hholds⟩)
        · exact Or.inl hold
        · exact Or.inr (Or.inr ⟨rfl, hopen⟩)
        · by_cases hvisible : Visible closed filtered keep nodes upTo k
          · exact Or.inl hvisible
          · exact Or.inr (Or.inl ⟨hholds, hopen, hvisible⟩)
    · refine (htake.reveal ?_).congr (standing_file hnode)
      intro outer houter
      rw [hmem]
      exact or_congr_right ⟨fun hor => hor.resolve_right fun hlast => absurd houter.before (by omega), Or.inl⟩
  · have hkept : ¬ Kept keep nodes upTo := by
      rintro ⟨file', ⟨depth', hnode'⟩, hkeep'⟩
      rw [hnode] at hnode'
      obtain ⟨rfl, -⟩ := Node.file.inj (Option.some.inj hnode')
      exact hkeep hkeep'
    simp only [if_neg hkeep]
    exact ⟨h.sorted, fun k => h.skip hkept, htake.congr (standing_file hnode)⟩

lemma length_reveal (stack : List Above) : (reveal stack).2.1.length = stack.length := by
  have hlength := congrArg List.length (folders_reveal stack)
  rwa [folders, folders, List.length_map, List.length_map] at hlength

lemma Reached.run {done rest : List Node} (hnodes : nodes = done ++ rest)
    (h : Reached nodes closed filtered keep done.length state) (hnested : Nested state.stack.length rest) :
    Reached nodes closed filtered keep nodes.length
      ((rest.zipIdx done.length).foldl (visit closed filtered keep) state) := by
  induction rest generalizing done state with
  | nil =>
    rw [List.append_nil] at hnodes
    subst hnodes
    exact h
  | cons node rest ih =>
    have hnode : nodes[done.length]? = some node := by
      rw [hnodes, List.getElem?_append_right le_rfl, Nat.sub_self]
      rfl
    have hnext : nodes = (done ++ [node]) ++ rest := by rw [hnodes, List.append_assoc, List.singleton_append]
    have hlength : (done ++ [node]).length = done.length + 1 := List.length_append
    rw [List.zipIdx_cons, List.foldl_cons, ← hlength]
    cases node with
    | folder path label depth =>
      refine ih hnext (hlength ▸ h.visit_folder hnode hnested.1) ?_
      have hstack : (visit closed filtered keep state (.folder path label depth, done.length)).stack.length =
          depth + 1 := by
        rw [visit, List.length_append, List.length_take, Nat.min_eq_left hnested.1]
        rfl
      rw [hstack]
      exact hnested.2
    | file file depth =>
      refine ih hnext (hlength ▸ h.visit_file hnode) ?_
      have hstack : (visit closed filtered keep state (.file file depth, done.length)).stack.length = depth := by
        rw [visit]
        split
        · exact (length_reveal _).trans (List.length_take_of_le hnested.1)
        · exact List.length_take_of_le hnested.1
      rw [hstack]
      exact hnested.2

variable (closed filtered keep) in
lemma shown_rows (hnested : Nested 0 nodes) : (shown nodes closed filtered keep).Pairwise (· < ·) ∧
    ∀ k, k ∈ shown nodes closed filtered keep ↔ Visible closed filtered keep nodes nodes.length k := by
  have hnone : ∀ k, ¬ Visible closed filtered keep nodes 0 k := fun k hvisible => absurd hvisible.lt (by omega)
  have hstanding : ∀ outer, ¬ Standing nodes 0 outer := fun outer hstanding => absurd hstanding.before (by omega)
  have hstart : Reached nodes closed filtered keep ([] : List Node).length {} := by
    refine ⟨List.Pairwise.nil, fun k => iff_of_false (by simp) (hnone k), ?_⟩
    exact ⟨List.Pairwise.nil, by simp, fun outer => iff_of_false (by simp [folders]) (hstanding outer), by simp, by simp⟩
  have hrun := hstart.run (List.nil_append nodes).symm hnested
  exact ⟨hrun.sorted, hrun.mem⟩

end Run

end Sheprd.Review.FileTree
