import Mathlib.Data.List.Nodup
import Mathlib.Tactic

namespace Sheprd.Session

def MAX_PANES : ℕ := 16

def MIN_SHARE : ℕ := 100

def MAX_SHARE : ℕ := 900

def HALF : ℕ := 500

def RESIZE_STEP : ℤ := 50

inductive Axis where
  | row
  | column
  deriving DecidableEq

inductive Direction where
  | left
  | right
  | up
  | down

def Direction.axis : Direction → Axis
  | .left | .right => .row
  | .up | .down => .column

def Direction.forward : Direction → Bool
  | .right | .down => true
  | .left | .up => false

structure Share where
  thousandths : ℕ
  min_le : MIN_SHARE ≤ thousandths
  le_max : thousandths ≤ MAX_SHARE
  deriving DecidableEq

namespace Share

@[ext] lemma ext {a b : Share} (h : a.thousandths = b.thousandths) : a = b := by
  cases a
  cases b
  cases h
  rfl

def toU16 (n : ℤ) : Option ℕ :=
  if 0 ≤ n ∧ n < 2 ^ 16 then some n.toNat else none

def clamped (s : Share) (step : ℤ) : ℤ :=
  max (MIN_SHARE : ℤ) (min ((s.thousandths : ℤ) + step) MAX_SHARE)

lemma toU16_clamped (s : Share) (step : ℤ) : toU16 (s.clamped step) = some (s.clamped step).toNat := by
  have low : (MIN_SHARE : ℤ) ≤ s.clamped step := le_max_left _ _
  have high : s.clamped step ≤ (MAX_SHARE : ℤ) := max_le (by decide) (min_le_right _ _)
  unfold MIN_SHARE at low
  unfold MAX_SHARE at high
  unfold toU16
  rw [if_pos (by omega)]

def moved (s : Share) (step : ℤ) : Share where
  thousandths := (toU16 (s.clamped step)).getD HALF
  min_le := by
    have low : (MIN_SHARE : ℤ) ≤ s.clamped step := le_max_left _ _
    rw [toU16_clamped]
    simp only [Option.getD_some]
    omega
  le_max := by
    have high : s.clamped step ≤ (MAX_SHARE : ℤ) := max_le (by decide) (min_le_right _ _)
    rw [toU16_clamped]
    simp only [Option.getD_some]
    omega

def default : Share := ⟨HALF, by decide, by decide⟩

end Share

inductive Node (TerminalId : Type) where
  | leaf (id : TerminalId)
  | split (axis : Axis) (share : Share) (first second : Node TerminalId)

inductive Error (TerminalId : Type) where
  | full
  | duplicate (id : TerminalId)
  | missing (id : TerminalId)

namespace Node

variable {TerminalId : Type}

def leaves : Node TerminalId → List TerminalId
  | leaf id => [id]
  | split _ _ first second => first.leaves ++ second.leaves

def splits : Node TerminalId → List (Axis × Share)
  | leaf _ => []
  | split axis share first second => (axis, share) :: (first.splits ++ second.splits)

@[simp] lemma leaves_leaf (id : TerminalId) : (leaf id).leaves = [id] := rfl

@[simp] lemma leaves_split (axis : Axis) (share : Share) (first second : Node TerminalId) :
    (split axis share first second).leaves = first.leaves ++ second.leaves := rfl

@[simp] lemma splits_leaf (id : TerminalId) : (leaf id).splits = [] := rfl

@[simp] lemma splits_split (axis : Axis) (share : Share) (first second : Node TerminalId) :
    (split axis share first second).splits = (axis, share) :: (first.splits ++ second.splits) := rfl

lemma leaves_ne_nil (n : Node TerminalId) : n.leaves ≠ [] := by
  induction n with
  | leaf id => simp
  | split axis share first second ih _ => simp [ih]

lemma leaves_pos (n : Node TerminalId) : 1 ≤ n.leaves.length :=
  List.length_pos_iff.mpr n.leaves_ne_nil

variable [DecidableEq TerminalId]

def contains (id : TerminalId) : Node TerminalId → Bool
  | leaf l => l = id
  | split _ _ first second => first.contains id || second.contains id

def splitLeaf (at' : TerminalId) (axis : Axis) (new : TerminalId) :
    Node TerminalId → Bool × Node TerminalId
  | leaf l => if l = at' then (true, split axis Share.default (leaf l) (leaf new)) else (false, leaf l)
  | split own share first second =>
      match first.splitLeaf at' axis new with
      | (true, first') => (true, split own share first' second)
      | (false, first') =>
          match second.splitLeaf at' axis new with
          | (found, second') => (found, split own share first' second')

def isLeaf (id : TerminalId) : Node TerminalId → Bool
  | leaf l => l = id
  | split .. => false

def remove (id : TerminalId) : Node TerminalId → Bool × Node TerminalId
  | leaf l => (false, leaf l)
  | split axis share first second =>
      if first.isLeaf id then (true, second)
      else if second.isLeaf id then (true, first)
      else
        match first.remove id with
        | (true, first') => (true, split axis share first' second)
        | (false, first') =>
            match second.remove id with
            | (found, second') => (found, split axis share first' second')

def splitAt : List Bool → Node TerminalId → Option (Share × (Share → Node TerminalId))
  | _, leaf _ => none
  | [], split axis share first second => some (share, fun s => split axis s first second)
  | false :: rest, split axis share first second =>
      (first.splitAt rest).map fun r => (r.1, fun s => split axis share (r.2 s) second)
  | true :: rest, split axis share first second =>
      (second.splitAt rest).map fun r => (r.1, fun s => split axis share first (r.2 s))

def containsSplit (id : TerminalId) (axis : Axis) : Node TerminalId → Bool
  | leaf _ => false
  | split own share first second =>
      (own = axis && (split own share first second).contains id)
        || first.containsSplit id axis || second.containsSplit id axis

def nearest (id : TerminalId) (axis : Axis) :
    Node TerminalId → Option (Share × (Share → Node TerminalId))
  | leaf _ => none
  | split own share first second =>
      if first.contains id then
        if first.containsSplit id axis then
          (first.nearest id axis).map fun r => (r.1, fun s => split own share (r.2 s) second)
        else if own = axis then some (share, fun s => split own s first second)
        else none
      else if second.contains id then
        if second.containsSplit id axis then
          (second.nearest id axis).map fun r => (r.1, fun s => split own share first (r.2 s))
        else if own = axis then some (share, fun s => split own s first second)
        else none
      else none

@[simp] lemma contains_iff {id : TerminalId} {n : Node TerminalId} :
    n.contains id = true ↔ id ∈ n.leaves := by
  induction n with
  | leaf l => simp [contains, eq_comm]
  | split axis share first second ihFirst ihSecond => simp [contains, ihFirst, ihSecond]

end Node

inductive Context (TerminalId : Type) where
  | hole
  | first (axis : Axis) (share : Share) (inner : Context TerminalId) (second : Node TerminalId)
  | second (axis : Axis) (share : Share) (first : Node TerminalId) (inner : Context TerminalId)

namespace Context

variable {TerminalId : Type}

def fill : Context TerminalId → Node TerminalId → Node TerminalId
  | hole, n => n
  | first axis share inner g, n => .split axis share (inner.fill n) g
  | second axis share f inner, n => .split axis share f (inner.fill n)

def path : Context TerminalId → List Bool
  | hole => []
  | first _ _ inner _ => false :: inner.path
  | second _ _ _ inner => true :: inner.path

def before : Context TerminalId → List TerminalId
  | hole => []
  | first _ _ inner _ => inner.before
  | second _ _ f inner => f.leaves ++ inner.before

def after : Context TerminalId → List TerminalId
  | hole => []
  | first _ _ inner g => inner.after ++ g.leaves
  | second _ _ _ inner => inner.after

def splitsBefore : Context TerminalId → List (Axis × Share)
  | hole => []
  | first axis share inner _ => (axis, share) :: inner.splitsBefore
  | second axis share f inner => (axis, share) :: (f.splits ++ inner.splitsBefore)

def splitsAfter : Context TerminalId → List (Axis × Share)
  | hole => []
  | first _ _ inner g => inner.splitsAfter ++ g.splits
  | second _ _ _ inner => inner.splitsAfter

@[simp] lemma leaves_fill (c : Context TerminalId) (n : Node TerminalId) :
    (c.fill n).leaves = c.before ++ (n.leaves ++ c.after) := by
  induction c with
  | hole => simp [fill, before, after]
  | first axis share inner g ih => simp [fill, before, after, ih]
  | second axis share f inner ih => simp [fill, before, after, ih]

@[simp] lemma splits_fill (c : Context TerminalId) (n : Node TerminalId) :
    (c.fill n).splits = c.splitsBefore ++ (n.splits ++ c.splitsAfter) := by
  induction c with
  | hole => simp [fill, splitsBefore, splitsAfter]
  | first axis share inner g ih => simp [fill, splitsBefore, splitsAfter, ih]
  | second axis share f inner ih => simp [fill, splitsBefore, splitsAfter, ih]

end Context

namespace Node

variable {TerminalId : Type} [DecidableEq TerminalId]

lemma isLeaf_iff {id : TerminalId} {n : Node TerminalId} : n.isLeaf id = true ↔ n = leaf id := by
  cases n with
  | leaf l => simp [isLeaf]
  | split axis share first second => simp [isLeaf]

lemma splitLeaf_cases (at' : TerminalId) (axis : Axis) (new : TerminalId) (n : Node TerminalId) :
    (at' ∉ n.leaves ∧ n.splitLeaf at' axis new = (false, n)) ∨
      ∃ c : Context TerminalId, n = c.fill (leaf at') ∧
        n.splitLeaf at' axis new = (true, c.fill (split axis Share.default (leaf at') (leaf new))) := by
  induction n with
  | leaf l =>
    by_cases h : l = at'
    · subst h
      exact .inr ⟨.hole, rfl, by simp [splitLeaf, Context.fill]⟩
    · exact .inl ⟨by simpa using Ne.symm h, by simp [splitLeaf, h]⟩
  | split own share first second ihFirst ihSecond =>
    obtain ⟨out, miss⟩ | ⟨c, rfl, found⟩ := ihFirst
    · obtain ⟨out', miss'⟩ | ⟨c, rfl, found⟩ := ihSecond
      · exact .inl ⟨by simp [out, out'], by simp [splitLeaf, miss, miss']⟩
      · exact .inr ⟨.second own share first c, rfl, by simp [splitLeaf, miss, found, Context.fill]⟩
    · exact .inr ⟨.first own share c second, rfl, by simp [splitLeaf, found, Context.fill]⟩

lemma remove_cases (id : TerminalId) (n : Node TerminalId) :
    ((id ∉ n.leaves ∨ n = leaf id) ∧ n.remove id = (false, n)) ∨
      ∃ (c : Context TerminalId) (axis : Axis) (share : Share) (kept : Node TerminalId),
        (n = c.fill (split axis share (leaf id) kept) ∨ n = c.fill (split axis share kept (leaf id))) ∧
          n.remove id = (true, c.fill kept) := by
  induction n with
  | leaf l =>
    refine .inl ⟨?_, rfl⟩
    by_cases h : l = id
    · exact .inr (by rw [h])
    · exact .inl (by simpa using Ne.symm h)
  | split axis share first second ihFirst ihSecond =>
    by_cases isFirst : first.isLeaf id = true
    · have same := isLeaf_iff.mp isFirst
      exact .inr ⟨.hole, axis, share, second, .inl (by rw [same]; rfl),
        by simp [remove, isFirst, Context.fill]⟩
    by_cases isSecond : second.isLeaf id = true
    · have same := isLeaf_iff.mp isSecond
      exact .inr ⟨.hole, axis, share, first, .inr (by rw [same]; rfl),
        by simp [remove, isFirst, isSecond, Context.fill]⟩
    obtain ⟨out, miss⟩ | ⟨c, axis', share', kept, shape, found⟩ := ihFirst
    · have outFirst := out.resolve_right fun h => isFirst (isLeaf_iff.mpr h)
      obtain ⟨out', miss'⟩ | ⟨c, axis', share', kept, shape, found⟩ := ihSecond
      · have outSecond := out'.resolve_right fun h => isSecond (isLeaf_iff.mpr h)
        exact .inl ⟨.inl (by simp [outFirst, outSecond]),
          by simp [remove, isFirst, isSecond, miss, miss']⟩
      · refine .inr ⟨.second axis share first c, axis', share', kept, ?_,
          by simp [remove, isFirst, isSecond, miss, found, Context.fill]⟩
        exact shape.imp (fun h => by rw [h]; rfl) (fun h => by rw [h]; rfl)
    · refine .inr ⟨.first axis share c second, axis', share', kept, ?_,
        by simp [remove, isFirst, isSecond, found, Context.fill]⟩
      exact shape.imp (fun h => by rw [h]; rfl) (fun h => by rw [h]; rfl)

structure Refers (n : Node TerminalId) (c : Context TerminalId) (axis : Axis)
    (first second : Node TerminalId) (r : Share × (Share → Node TerminalId)) : Prop where
  held : n = c.fill (split axis r.1 first second)
  writes : ∀ s, r.2 s = c.fill (split axis s first second)

omit [DecidableEq TerminalId] in
lemma Refers.inFirst {n second' : Node TerminalId} {c : Context TerminalId} {axis : Axis}
    {first second : Node TerminalId} {r : Share × (Share → Node TerminalId)}
    (h : Refers n c axis first second r) (own : Axis) (share : Share) :
    Refers (split own share n second') (.first own share c second') axis first second
      (r.1, fun s => split own share (r.2 s) second') where
  held := by rw [h.held]; rfl
  writes s := by simp [h.writes, Context.fill]

omit [DecidableEq TerminalId] in
lemma Refers.inSecond {n first' : Node TerminalId} {c : Context TerminalId} {axis : Axis}
    {first second : Node TerminalId} {r : Share × (Share → Node TerminalId)}
    (h : Refers n c axis first second r) (own : Axis) (share : Share) :
    Refers (split own share first' n) (.second own share first' c) axis first second
      (r.1, fun s => split own share first' (r.2 s)) where
  held := by rw [h.held]; rfl
  writes s := by simp [h.writes, Context.fill]

omit [DecidableEq TerminalId] in
lemma Refers.whole (axis : Axis) (share : Share) (first second : Node TerminalId) :
    Refers (split axis share first second) .hole axis first second
      (share, fun s => split axis s first second) where
  held := rfl
  writes _ := rfl

omit [DecidableEq TerminalId] in
lemma splitAt_refers {n : Node TerminalId} {path : List Bool} {r : Share × (Share → Node TerminalId)}
    (h : n.splitAt path = some r) :
    ∃ c axis first second, c.path = path ∧ Refers n c axis first second r := by
  induction n generalizing path r with
  | leaf id => simp [splitAt] at h
  | split axis share first second ihFirst ihSecond =>
    cases path with
    | nil =>
      cases h
      exact ⟨.hole, axis, first, second, rfl, .whole axis share first second⟩
    | cons side rest =>
      cases side with
      | false =>
        simp only [splitAt, Option.map_eq_some_iff] at h
        obtain ⟨inner, found, rfl⟩ := h
        obtain ⟨c, axis', f, g, along, refers⟩ := ihFirst found
        exact ⟨.first axis share c second, axis', f, g, by simp [Context.path, along],
          refers.inFirst axis share⟩
      | true =>
        simp only [splitAt, Option.map_eq_some_iff] at h
        obtain ⟨inner, found, rfl⟩ := h
        obtain ⟨c, axis', f, g, along, refers⟩ := ihSecond found
        exact ⟨.second axis share first c, axis', f, g, by simp [Context.path, along],
          refers.inSecond axis share⟩

def Holds (n : Node TerminalId) (axis : Axis) (id : TerminalId) : Prop :=
  ∃ (c : Context TerminalId) (share : Share) (first second : Node TerminalId),
    n = c.fill (split axis share first second) ∧ id ∈ (split axis share first second).leaves

omit [DecidableEq TerminalId] in
lemma Holds.mem {n : Node TerminalId} {axis : Axis} {id : TerminalId} (h : n.Holds axis id) :
    id ∈ n.leaves := by
  obtain ⟨c, share, first, second, rfl, held⟩ := h
  rw [Context.leaves_fill]
  exact List.mem_append_right _ (List.mem_append_left _ held)

omit [DecidableEq TerminalId] in
lemma not_holds_leaf (l : TerminalId) (axis : Axis) (id : TerminalId) : ¬ (leaf l).Holds axis id := by
  rintro ⟨c, share, first, second, same, -⟩
  cases c <;> simp [Context.fill] at same

omit [DecidableEq TerminalId] in
lemma holds_split {own axis : Axis} {share : Share} {first second : Node TerminalId}
    {id : TerminalId} :
    (split own share first second).Holds axis id ↔
      (own = axis ∧ id ∈ (split own share first second).leaves) ∨ first.Holds axis id ∨
        second.Holds axis id := by
  constructor
  · rintro ⟨c, s, f, g, same, held⟩
    cases c with
    | hole =>
      simp only [Context.fill, split.injEq] at same
      obtain ⟨rfl, rfl, rfl, rfl⟩ := same
      exact .inl ⟨rfl, held⟩
    | first axis' share' inner g' =>
      simp only [Context.fill, split.injEq] at same
      exact .inr (.inl ⟨inner, s, f, g, same.2.2.1, held⟩)
    | second axis' share' f' inner =>
      simp only [Context.fill, split.injEq] at same
      exact .inr (.inr ⟨inner, s, f, g, same.2.2.2, held⟩)
  · rintro (⟨rfl, held⟩ | ⟨c, s, f, g, rfl, held⟩ | ⟨c, s, f, g, rfl, held⟩)
    · exact ⟨.hole, share, first, second, rfl, held⟩
    · exact ⟨.first own share c second, s, f, g, rfl, held⟩
    · exact ⟨.second own share first c, s, f, g, rfl, held⟩

lemma containsSplit_iff {n : Node TerminalId} {axis : Axis} {id : TerminalId} :
    n.containsSplit id axis = true ↔ n.Holds axis id := by
  induction n with
  | leaf l => simp [containsSplit, not_holds_leaf]
  | split own share first second ihFirst ihSecond =>
    rw [holds_split, ← ihFirst, ← ihSecond]
    simp only [containsSplit, Bool.or_eq_true, Bool.and_eq_true, decide_eq_true_eq, contains_iff,
      or_assoc]

lemma nearest_cases (axis : Axis) (id : TerminalId) {n : Node TerminalId} (distinct : n.leaves.Nodup) :
    (¬ n.Holds axis id ∧ n.nearest id axis = none) ∨
      ∃ c first second r, n.nearest id axis = some r ∧ Refers n c axis first second r ∧
        id ∈ first.leaves ++ second.leaves ∧ ¬ first.Holds axis id ∧ ¬ second.Holds axis id := by
  induction n with
  | leaf l => exact .inl ⟨not_holds_leaf l axis id, rfl⟩
  | split own share first second ihFirst ihSecond =>
    obtain ⟨distinctFirst, distinctSecond, apart⟩ := List.nodup_append.mp distinct
    rw [holds_split]
    unfold nearest
    by_cases inFirst : id ∈ first.leaves
    · have outSecond : id ∉ second.leaves := fun h => apart id inFirst id h rfl
      have notSecond : ¬ second.Holds axis id := fun h => outSecond h.mem
      rw [if_pos (contains_iff.mpr inFirst)]
      obtain ⟨notFirst, -⟩ | ⟨c, f, g, r, found, refers, held, notF, notG⟩ := ihFirst distinctFirst
      · rw [if_neg (fun h => notFirst (containsSplit_iff.mp h))]
        by_cases along : own = axis
        · subst along
          exact .inr ⟨.hole, first, second, _, if_pos rfl, .whole own share first second,
            List.mem_append_left _ inFirst, notFirst, notSecond⟩
        · exact .inl ⟨by simp [along, notFirst, notSecond], if_neg along⟩
      · have holds : first.Holds axis id := ⟨c, r.1, f, g, refers.held, held⟩
        rw [if_pos (containsSplit_iff.mpr holds), found]
        exact .inr ⟨_, f, g, _, rfl, refers.inFirst own share, held, notF, notG⟩
    · have notFirst : ¬ first.Holds axis id := fun h => inFirst h.mem
      rw [if_neg (fun h => inFirst (contains_iff.mp h))]
      by_cases inSecond : id ∈ second.leaves
      · rw [if_pos (contains_iff.mpr inSecond)]
        obtain ⟨notSecond, -⟩ | ⟨c, f, g, r, found, refers, held, notF, notG⟩ := ihSecond distinctSecond
        · rw [if_neg (fun h => notSecond (containsSplit_iff.mp h))]
          by_cases along : own = axis
          · subst along
            exact .inr ⟨.hole, first, second, _, if_pos rfl, .whole own share first second,
              List.mem_append_right _ inSecond, notFirst, notSecond⟩
          · exact .inl ⟨by simp [along, notFirst, notSecond], if_neg along⟩
        · have holds : second.Holds axis id := ⟨c, r.1, f, g, refers.held, held⟩
          rw [if_pos (containsSplit_iff.mpr holds), found]
          exact .inr ⟨_, f, g, _, rfl, refers.inSecond own share, held, notF, notG⟩
      · have notSecond : ¬ second.Holds axis id := fun h => inSecond h.mem
        rw [if_neg (fun h => inSecond (contains_iff.mp h))]
        exact .inl ⟨by simp [inFirst, inSecond, notFirst, notSecond], rfl⟩

end Node

end Sheprd.Session
