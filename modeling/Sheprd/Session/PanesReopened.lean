import Sheprd.Session.PaneEdits

namespace Sheprd.Session

namespace Node

variable {TerminalId : Type} [DecidableEq TerminalId]

def join (axis : Axis) (share : Share) :
    Option (Node TerminalId) → Option (Node TerminalId) → Option (Node TerminalId)
  | some first, some second => some (split axis share first second)
  | some first, none => some first
  | none, second => second

def among (old : List TerminalId) : Node TerminalId → Option (Node TerminalId)
  | leaf id => if id ∈ old then some (leaf id) else none
  | split axis share first second => join axis share (first.among old) (second.among old)

lemma among_of_subset {old : List TerminalId} {n : Node TerminalId} (h : n.leaves ⊆ old) :
    n.among old = some n := by
  induction n with
  | leaf id => exact if_pos (h (List.mem_singleton_self id))
  | split axis share first second ihFirst ihSecond =>
    obtain ⟨inFirst, inSecond⟩ := List.append_subset.mp h
    rw [among, ihFirst inFirst, ihSecond inSecond]
    rfl

lemma among_leaf_new {old : List TerminalId} {id : TerminalId} (h : id ∉ old) :
    (leaf id).among old = none := if_neg h

omit [DecidableEq TerminalId] in
lemma join_none (axis : Axis) (share : Share) (n : Option (Node TerminalId)) :
    join axis share n none = n := by
  cases n <;> rfl

omit [DecidableEq TerminalId] in
lemma none_join (axis : Axis) (share : Share) (n : Option (Node TerminalId)) :
    join axis share none n = n := rfl

lemma among_beside {old : List TerminalId} {id : TerminalId} (h : id ∉ old) (axis : Axis)
    (share : Share) (kept : Node TerminalId) :
    (split axis share kept (leaf id)).among old = kept.among old ∧
      (split axis share (leaf id) kept).among old = kept.among old := by
  constructor
  · rw [among, among_leaf_new h, join_none]
  · rw [among, among_leaf_new h, none_join]

lemma among_fill {old : List TerminalId} (c : Context TerminalId) {n m : Node TerminalId}
    (h : n.among old = m.among old) : (c.fill n).among old = (c.fill m).among old := by
  induction c with
  | hole => exact h
  | first axis share inner second ih =>
    rw [Context.fill, Context.fill, among, among, ih]
  | second axis share first inner ih =>
    rw [Context.fill, Context.fill, among, among, ih]

omit [DecidableEq TerminalId] in
lemma leaves_join (axis : Axis) (share : Share) (first second : Option (Node TerminalId)) :
    ((join axis share first second).map leaves).getD [] =
      (first.map leaves).getD [] ++ (second.map leaves).getD [] := by
  cases first <;> cases second <;> simp [join]

lemma leaves_among (old : List TerminalId) (n : Node TerminalId) :
    ((n.among old).map leaves).getD [] = n.leaves.filter (· ∈ old) := by
  induction n with
  | leaf id =>
    by_cases h : id ∈ old
    · simp [among, h]
    · simp [among, h]
  | split axis share first second ihFirst ihSecond =>
    rw [among, leaves_join, ihFirst, ihSecond, leaves_split, List.filter_append]

end Node

namespace Panes

variable {TerminalId : Type} [DecidableEq TerminalId]

def Grown (p q : Panes TerminalId) : Prop := q.root.among p.terminals = some p.root

namespace Grown

variable {p q : Panes TerminalId}

lemma refl (p : Panes TerminalId) : p.Grown p :=
  Node.among_of_subset (List.Subset.refl _)

lemma terminals (h : p.Grown q) : q.terminals.filter (· ∈ p.terminals) = p.terminals := by
  have left := Node.leaves_among p.terminals q.root
  rw [h] at left
  exact left.symm

lemma subset (h : p.Grown q) : p.terminals ⊆ q.terminals := by
  intro id held
  rw [← h.terminals] at held
  exact List.mem_of_mem_filter held

lemma split (h : p.Grown q) (at' : TerminalId) (axis : Axis) (new : TerminalId) :
    p.Grown (q.split at' axis new).2 := by
  obtain ⟨e, same⟩ | ⟨c, shape, ok, root⟩ := q.split_cases at' axis new
  · rw [same]
    exact h
  · have fresh : new ∉ p.terminals := by
      intro old
      have distinct := (q.split at' axis new).2.distinct
      have held : new ∈ (c.fill (.leaf at')).leaves := by
        rw [← shape]
        exact h.subset old
      rw [root, (Node.leaves_split_at c axis Share.default at' new).nodup_iff] at distinct
      exact (List.nodup_cons.mp distinct).1 held
    unfold Grown
    rw [root, ← h, shape]
    exact Node.among_fill c (Node.among_beside fresh axis Share.default (.leaf at')).1

lemma remove (h : p.Grown q) {id : TerminalId} (new : id ∉ p.terminals) :
    p.Grown (q.remove id).2 := by
  obtain ⟨-, same⟩ | ⟨c, axis, share, kept, beside, -, root⟩ := q.remove_cases id
  · rw [same]
    exact h
  · unfold Grown
    rw [root, ← h]
    obtain ⟨left, right⟩ := Node.among_beside new axis share kept
    obtain shape | shape := beside
    · rw [shape]
      exact Node.among_fill c right.symm
    · rw [shape]
      exact Node.among_fill c left.symm

end Grown

end Panes

namespace Edit

variable {TerminalId : Type}

def Opens (p : Panes TerminalId) : Edit TerminalId → Prop
  | split .. => True
  | remove id => id ∉ p.terminals
  | setShare .. | resize .. => False

end Edit

namespace Panes

variable {TerminalId : Type} [DecidableEq TerminalId]

lemma Grown.edit {p q : Panes TerminalId} (h : p.Grown q) {e : Edit TerminalId} (opens : e.Opens p) :
    p.Grown (q.edit e) := by
  cases e with
  | split at' axis new => exact h.split at' axis new
  | remove id => exact h.remove opens
  | setShare path share => exact opens.elim
  | resize id direction => exact opens.elim

lemma Grown.run {p q : Panes TerminalId} (h : p.Grown q) {edits : List (Edit TerminalId)}
    (opens : ∀ e ∈ edits, e.Opens p) : p.Grown (q.run edits) := by
  induction edits generalizing q with
  | nil => exact h
  | cons e rest ih =>
    obtain ⟨first, others⟩ := List.forall_mem_cons.mp opens
    exact ih (h.edit first) others

theorem reopened_same (p : Panes TerminalId) (edits : List (Edit TerminalId))
    (opens : ∀ e ∈ edits, e.Opens p) :
    (p.run edits).root.among p.terminals = some p.root ∧
      (p.run edits).terminals.filter (· ∈ p.terminals) = p.terminals ∧
        ((p.run edits).terminals ⊆ p.terminals → p.run edits = p) := by
  have grown := (Grown.refl p).run opens
  refine ⟨grown, grown.terminals, fun none => Panes.ext ?_⟩
  have whole := Node.among_of_subset (n := (p.run edits).root) none
  exact Option.some.inj (whole.symm.trans grown)

theorem reopened_nested :
    (single 1).run [.split 1 .row 2, .split 2 .column 3, .remove 2, .remove 3] = single 1 :=
  (reopened_same (single 1) [.split 1 .row 2, .split 2 .column 3, .remove 2, .remove 3]
    (by simp [Edit.Opens, single, terminals])).2.2 (by decide)

end Panes

end Sheprd.Session
