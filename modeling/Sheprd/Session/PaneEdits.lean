import Sheprd.Session.Panes

namespace Sheprd.Session

namespace Node

variable {TerminalId : Type} [DecidableEq TerminalId]

omit [DecidableEq TerminalId] in
lemma leaves_split_at (c : Context TerminalId) (axis : Axis) (share : Share) (at' new : TerminalId) :
    (c.fill (split axis share (leaf at') (leaf new))).leaves.Perm
      (new :: (c.fill (leaf at')).leaves) := by
  have middle : (c.before ++ [at'] ++ new :: c.after).Perm (new :: (c.before ++ [at'] ++ c.after)) :=
    List.perm_middle
  simpa using middle

lemma splitLeaf_leaves (at' : TerminalId) (axis : Axis) {new : TerminalId} {n : Node TerminalId}
    (room : n.leaves.length < MAX_PANES) (distinct : n.leaves.Nodup) (fresh : new ∉ n.leaves) :
    (n.splitLeaf at' axis new).2.leaves.length ≤ MAX_PANES ∧
      (n.splitLeaf at' axis new).2.leaves.Nodup := by
  obtain ⟨-, same⟩ | ⟨c, rfl, same⟩ := n.splitLeaf_cases at' axis new
  · rw [same]
    exact ⟨room.le, distinct⟩
  · have shape := leaves_split_at c axis Share.default at' new
    rw [same]
    exact ⟨by rw [shape.length_eq]; exact room, shape.nodup_iff.mpr (distinct.cons fresh)⟩

lemma remove_sublist (id : TerminalId) (n : Node TerminalId) :
    (n.remove id).2.leaves.Sublist n.leaves := by
  obtain ⟨-, same⟩ | ⟨c, axis, share, kept, rfl | rfl, same⟩ := n.remove_cases id
  · rw [same]
  · rw [same]
    simp
  · rw [same]
    simp

omit [DecidableEq TerminalId] in
lemma Refers.leaves {n : Node TerminalId} {c : Context TerminalId} {axis : Axis}
    {first second : Node TerminalId} {r : Share × (Share → Node TerminalId)}
    (h : Refers n c axis first second r) (s : Share) : (r.2 s).leaves = n.leaves := by
  rw [h.writes, h.held]
  simp

omit [DecidableEq TerminalId] in
lemma splitAt_leaves {n : Node TerminalId} {path : List Bool} {r : Share × (Share → Node TerminalId)}
    (h : n.splitAt path = some r) (s : Share) : (r.2 s).leaves = n.leaves := by
  obtain ⟨c, axis, first, second, -, refers⟩ := splitAt_refers h
  exact refers.leaves s

lemma nearest_leaves {n : Node TerminalId} {id : TerminalId} {axis : Axis}
    {r : Share × (Share → Node TerminalId)} (distinct : n.leaves.Nodup)
    (h : n.nearest id axis = some r) (s : Share) : (r.2 s).leaves = n.leaves := by
  obtain ⟨-, none⟩ | ⟨c, first, second, r', found, refers, -⟩ := nearest_cases axis id distinct
  · simp [none] at h
  · cases found.symm.trans h
    exact refers.leaves s

end Node

structure Panes (TerminalId : Type) where
  root : Node TerminalId
  few : root.leaves.length ≤ MAX_PANES
  distinct : root.leaves.Nodup

namespace Panes

variable {TerminalId : Type}

@[ext] lemma ext {p q : Panes TerminalId} (h : p.root = q.root) : p = q := by
  cases p
  cases q
  cases h
  rfl

def single (id : TerminalId) : Panes TerminalId where
  root := .leaf id
  few := by simp [MAX_PANES]
  distinct := by simp

def terminals (p : Panes TerminalId) : List TerminalId := p.root.leaves

def count (p : Panes TerminalId) : ℕ := p.terminals.length

variable [DecidableEq TerminalId]

def contains (p : Panes TerminalId) (id : TerminalId) : Bool := p.root.contains id

def repeated (seen : List TerminalId) : List TerminalId → Option TerminalId
  | [] => none
  | id :: rest => if id ∈ seen then some id else repeated (seen ++ [id]) rest

lemma repeated_eq_none {seen ids : List TerminalId} (distinct : seen.Nodup) :
    repeated seen ids = none ↔ (seen ++ ids).Nodup := by
  induction ids generalizing seen with
  | nil => simp [repeated, distinct]
  | cons id rest ih =>
    by_cases h : id ∈ seen
    · have twice : ¬ (seen ++ id :: rest).Nodup := fun apart =>
        (List.nodup_append.mp apart).2.2 id h id (List.mem_cons_self ..) rfl
      simp [repeated, h, twice]
    · have one : (seen ++ [id]).Nodup :=
        distinct.append (List.nodup_singleton id) (by simpa using h)
      rw [repeated, if_neg h, ih one, List.append_assoc, List.singleton_append]

def tryFrom (root : Node TerminalId) : Except (Error TerminalId) (Panes TerminalId) :=
  if few : root.leaves.length > MAX_PANES then .error .full
  else
    match distinct : repeated [] root.leaves with
    | some id => .error (.duplicate id)
    | none => .ok
      { root := root
        few := not_lt.mp few
        distinct := (repeated_eq_none List.nodup_nil).mp distinct }

def split (p : Panes TerminalId) (at' : TerminalId) (axis : Axis) (new : TerminalId) :
    Except (Error TerminalId) Unit × Panes TerminalId :=
  if room : p.count ≥ MAX_PANES then (.error .full, p)
  else if fresh : p.contains new then (.error (.duplicate new), p)
  else
    have kept := Node.splitLeaf_leaves at' axis (not_le.mp room) p.distinct
      (fun h => fresh (Node.contains_iff.mpr h))
    (if (p.root.splitLeaf at' axis new).1 then .ok () else .error (.missing at'),
      { root := (p.root.splitLeaf at' axis new).2, few := kept.1, distinct := kept.2 })

def remove (p : Panes TerminalId) (id : TerminalId) : Bool × Panes TerminalId :=
  have kept := p.root.remove_sublist id
  ((p.root.remove id).1,
    { root := (p.root.remove id).2
      few := kept.length_le.trans p.few
      distinct := p.distinct.sublist kept })

omit [DecidableEq TerminalId] in
def setShare (p : Panes TerminalId) (path : List Bool) (share : Share) : Bool × Panes TerminalId :=
  match found : p.root.splitAt path with
  | some current =>
      if current.1 ≠ share then
        (true,
          { root := current.2 share
            few := by rw [Node.splitAt_leaves found]; exact p.few
            distinct := by rw [Node.splitAt_leaves found]; exact p.distinct })
      else (false, p)
  | none => (false, p)

def step (direction : Direction) : ℤ :=
  if direction.forward then RESIZE_STEP else -RESIZE_STEP

def resize (p : Panes TerminalId) (id : TerminalId) (direction : Direction) :
    Bool × Panes TerminalId :=
  match found : p.root.nearest id direction.axis with
  | none => (false, p)
  | some share =>
      let moved := share.1.moved (step direction)
      (moved ≠ share.1,
        { root := share.2 moved
          few := by rw [Node.nearest_leaves p.distinct found]; exact p.few
          distinct := by rw [Node.nearest_leaves p.distinct found]; exact p.distinct })

@[simp] lemma tryFrom_root (p : Panes TerminalId) : tryFrom p.root = .ok p := by
  unfold tryFrom
  rw [dif_neg (not_lt.mpr p.few)]
  split
  · next id twice =>
    rw [(repeated_eq_none List.nodup_nil).mpr p.distinct] at twice
    cases twice
  · rfl

lemma split_cases (p : Panes TerminalId) (at' : TerminalId) (axis : Axis) (new : TerminalId) :
    (∃ e, p.split at' axis new = (.error e, p)) ∨
      ∃ c : Context TerminalId, p.root = c.fill (.leaf at') ∧ (p.split at' axis new).1 = .ok () ∧
        (p.split at' axis new).2.root = c.fill (.split axis Share.default (.leaf at') (.leaf new)) := by
  unfold split
  by_cases room : p.count ≥ MAX_PANES
  · exact .inl ⟨.full, by rw [dif_pos room]⟩
  by_cases fresh : p.contains new
  · exact .inl ⟨.duplicate new, by rw [dif_neg room, dif_pos fresh]⟩
  rw [dif_neg room, dif_neg fresh]
  obtain ⟨-, same⟩ | ⟨c, shape, same⟩ := p.root.splitLeaf_cases at' axis new
  · refine .inl ⟨.missing at', Prod.ext (by simp [same]) (Panes.ext ?_)⟩
    exact congrArg Prod.snd same
  · exact .inr ⟨c, shape, by simp [same], congrArg Prod.snd same⟩

omit [DecidableEq TerminalId] in
def Beside (p : Panes TerminalId) (c : Context TerminalId) (axis : Axis) (share : Share)
    (id : TerminalId) (kept : Node TerminalId) : Prop :=
  p.root = c.fill (.split axis share (.leaf id) kept) ∨
    p.root = c.fill (.split axis share kept (.leaf id))

omit [DecidableEq TerminalId] in
lemma Beside.terminals {p : Panes TerminalId} {c : Context TerminalId} {axis : Axis} {share : Share}
    {id : TerminalId} {kept : Node TerminalId} (h : p.Beside c axis share id kept) :
    ∃ before after, p.terminals = before ++ id :: after ∧ (c.fill kept).leaves = before ++ after := by
  unfold Panes.terminals
  obtain h | h := h
  · exact ⟨c.before, kept.leaves ++ c.after, by rw [h]; simp, by simp⟩
  · exact ⟨c.before ++ kept.leaves, c.after, by rw [h]; simp, by simp⟩

omit [DecidableEq TerminalId] in
lemma Beside.splits {p : Panes TerminalId} {c : Context TerminalId} {axis : Axis} {share : Share}
    {id : TerminalId} {kept : Node TerminalId} (h : p.Beside c axis share id kept) :
    ∃ before after, p.root.splits = before ++ (axis, share) :: after ∧
      (c.fill kept).splits = before ++ after := by
  refine ⟨c.splitsBefore, kept.splits ++ c.splitsAfter, ?_, by simp⟩
  obtain h | h := h <;> rw [h] <;> simp

omit [DecidableEq TerminalId] in
lemma Beside.not_only {p : Panes TerminalId} {c : Context TerminalId} {axis : Axis} {share : Share}
    {id : TerminalId} {kept : Node TerminalId} (h : p.Beside c axis share id kept) :
    p.terminals ≠ [id] := by
  obtain ⟨before, after, was, kept'⟩ := h.terminals
  intro only
  have long := congrArg List.length kept'
  have one := congrArg List.length (was.symm.trans only)
  have some := (c.fill kept).leaves_pos
  simp only [List.length_append, List.length_cons, List.length_nil] at long one
  omega

lemma remove_cases (p : Panes TerminalId) (id : TerminalId) :
    ((id ∉ p.terminals ∨ p.terminals = [id]) ∧ p.remove id = (false, p)) ∨
      ∃ c axis share kept, p.Beside c axis share id kept ∧ (p.remove id).1 = true ∧
        (p.remove id).2.root = c.fill kept := by
  obtain ⟨why, same⟩ | ⟨c, axis, share, kept, beside, same⟩ := p.root.remove_cases id
  · refine .inl ⟨why.imp_right fun h => by simp [terminals, h], ?_⟩
    have stays : (p.remove id).1 = false := congrArg Prod.fst same
    have root : (p.remove id).2.root = p.root := congrArg Prod.snd same
    exact Prod.ext stays (Panes.ext root)
  · exact .inr ⟨c, axis, share, kept, beside, congrArg Prod.fst same, congrArg Prod.snd same⟩

omit [DecidableEq TerminalId] in
lemma setShare_cases (p : Panes TerminalId) (path : List Bool) (share : Share) :
    p.setShare path share = (false, p) ∨
      ∃ c axis old first second, Context.path c = path ∧ p.root = c.fill (.split axis old first second) ∧
        old ≠ share ∧ (p.setShare path share).1 = true ∧
        (p.setShare path share).2.root = c.fill (.split axis share first second) := by
  unfold setShare
  split
  · next current found =>
    by_cases differs : current.1 ≠ share
    · obtain ⟨c, axis, first, second, along, refers⟩ := Node.splitAt_refers found
      rw [if_pos differs]
      exact .inr ⟨c, axis, current.1, first, second, along, refers.held, differs, rfl,
        refers.writes share⟩
    · exact .inl (by rw [if_neg differs])
  · exact .inl rfl

structure Innermost (p : Panes TerminalId) (axis : Axis) (id : TerminalId) (c : Context TerminalId)
    (share : Share) (first second : Node TerminalId) : Prop where
  here : p.root = c.fill (.split axis share first second)
  holds : id ∈ first.leaves ++ second.leaves
  not_first : ¬ first.Holds axis id
  not_second : ¬ second.Holds axis id

lemma resize_cases (p : Panes TerminalId) (id : TerminalId) (direction : Direction) :
    (¬ p.root.Holds direction.axis id ∧ p.resize id direction = (false, p)) ∨
      ∃ c share first second, p.Innermost direction.axis id c share first second ∧
        ((p.resize id direction).1 = true ↔ share.moved (step direction) ≠ share) ∧
        (p.resize id direction).2.root =
          c.fill (.split direction.axis (share.moved (step direction)) first second) := by
  unfold resize
  split
  · next missing =>
    obtain ⟨out, -⟩ | ⟨c, first, second, r, found, -⟩ := Node.nearest_cases direction.axis id p.distinct
    · exact .inl ⟨out, rfl⟩
    · simp [missing] at found
  · next r found =>
    obtain ⟨-, missing⟩ | ⟨c, first, second, r', found', refers, holds, notFirst, notSecond⟩ :=
      Node.nearest_cases direction.axis id p.distinct
    · simp [missing] at found
    · cases found.symm.trans found'
      exact .inr ⟨c, r.1, first, second, ⟨refers.held, holds, notFirst, notSecond⟩, by simp,
        refers.writes _⟩

end Panes

inductive Edit (TerminalId : Type) where
  | split (at' : TerminalId) (axis : Axis) (new : TerminalId)
  | remove (id : TerminalId)
  | setShare (path : List Bool) (share : Share)
  | resize (id : TerminalId) (direction : Direction)

namespace Panes

variable {TerminalId : Type} [DecidableEq TerminalId]

def edit (p : Panes TerminalId) : Edit TerminalId → Panes TerminalId
  | .split at' axis new => (p.split at' axis new).2
  | .remove id => (p.remove id).2
  | .setShare path share => (p.setShare path share).2
  | .resize id direction => (p.resize id direction).2

def run (p : Panes TerminalId) (edits : List (Edit TerminalId)) : Panes TerminalId :=
  edits.foldl edit p

structure Usable (p : Panes TerminalId) : Prop where
  present : 1 ≤ p.count
  few : p.count ≤ MAX_PANES
  distinct : p.terminals.Nodup
  shares : ∀ s ∈ p.root.splits, MIN_SHARE ≤ s.2.thousandths ∧ s.2.thousandths ≤ MAX_SHARE
  saved : tryFrom p.root = .ok p

lemma usable (p : Panes TerminalId) : p.Usable where
  present := p.root.leaves_pos
  few := p.few
  distinct := p.distinct
  shares s _ := ⟨s.2.min_le, s.2.le_max⟩
  saved := p.tryFrom_root

def Splits (p : Panes TerminalId) : Prop :=
  ∀ at' axis new,
    (∀ e, (p.split at' axis new).1 = .error e → (p.split at' axis new).2 = p) ∧
    ((p.split at' axis new).1 = .ok () →
      ∃ before after, p.terminals = before ++ at' :: after ∧
        (p.split at' axis new).2.terminals = before ++ at' :: new :: after)

lemma splits (p : Panes TerminalId) : p.Splits := by
  intro at' axis new
  obtain ⟨e, same⟩ | ⟨c, shape, ok, root⟩ := p.split_cases at' axis new
  · rw [same]
    exact ⟨fun _ _ => rfl, by rintro ⟨⟩⟩
  · refine ⟨fun e h => ?_, fun _ => ⟨c.before, c.after, ?_, ?_⟩⟩
    · cases ok.symm.trans h
    · unfold terminals
      rw [shape]
      simp
    · unfold terminals
      rw [root]
      simp

def Removes (p : Panes TerminalId) : Prop :=
  ∀ id,
    ((p.remove id).1 = true ↔ id ∈ p.terminals ∧ p.terminals ≠ [id]) ∧
    ((p.remove id).1 = false → (p.remove id).2 = p) ∧
    ((p.remove id).1 = true →
      (∃ before after, p.terminals = before ++ id :: after ∧
        (p.remove id).2.terminals = before ++ after) ∧
      ∃ c axis share kept, p.Beside c axis share id kept ∧ (p.remove id).2.root = c.fill kept ∧
        ∃ before after, p.root.splits = before ++ (axis, share) :: after ∧
          (p.remove id).2.root.splits = before ++ after)

lemma removes (p : Panes TerminalId) : p.Removes := by
  intro id
  obtain ⟨why, same⟩ | ⟨c, axis, share, kept, beside, gone, root⟩ := p.remove_cases id
  · rw [same]
    refine ⟨⟨by rintro ⟨⟩, fun h => ?_⟩, fun _ => rfl, by rintro ⟨⟩⟩
    exact absurd h (by rintro ⟨held, more⟩; exact why.elim (· held) more)
  · obtain ⟨before, after, was, now⟩ := beside.terminals
    obtain ⟨before', after', was', now'⟩ := beside.splits
    refine ⟨⟨fun _ => ⟨by rw [was]; simp, beside.not_only⟩, fun _ => gone⟩, fun h => ?_, fun _ => ?_⟩
    · cases gone.symm.trans h
    · refine ⟨⟨before, after, was, by unfold terminals; rw [root, now]⟩, c, axis, share, kept, beside,
        root, before', after', was', by rw [root, now']⟩

def Resizes (p : Panes TerminalId) : Prop :=
  ∀ id direction,
    (¬ p.root.Holds direction.axis id ∧ p.resize id direction = (false, p)) ∨
      ∃ c share first second, p.Innermost direction.axis id c share first second ∧
        ((p.resize id direction).1 = true ↔ share.moved (step direction) ≠ share) ∧
        (p.resize id direction).2.root =
          c.fill (.split direction.axis (share.moved (step direction)) first second)

def Sets (p : Panes TerminalId) : Prop :=
  ∀ path share, p.setShare path share = (false, p) ∨
    ∃ c axis old first second, Context.path c = path ∧ p.root = c.fill (.split axis old first second) ∧
      old ≠ share ∧ (p.setShare path share).1 = true ∧
      (p.setShare path share).2.root = c.fill (.split axis share first second)

theorem edited_usable (p : Panes TerminalId) (edits : List (Edit TerminalId)) :
    (p.run edits).Usable ∧ (p.run edits).Splits ∧ (p.run edits).Removes ∧ (p.run edits).Sets ∧
      (p.run edits).Resizes :=
  ⟨usable _, splits _, removes _, setShare_cases _, resize_cases _⟩

end Panes

end Sheprd.Session
