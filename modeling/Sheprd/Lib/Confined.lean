import Sheprd.Lib.Tree

namespace Sheprd.Lib

open Exec

namespace Tree

lemma through_plain {tree : Tree} {follow : Place → List Component → Except IoError Spot}
    {names : List OsStr} {dir : Place} {spot : Spot}
    (plain : ∀ p, p <+: names → p ≠ [] → ∀ target, tree (dir ++ p) ≠ some (.link target))
    (h : through tree follow dir (names.map .normal) = .ok spot) : spot = ⟨dir ++ names, false⟩ := by
  induction names generalizing dir with
  | nil =>
    cases h
    rw [List.append_nil]
  | cons name names ih =>
    rw [List.map_cons, through] at h
    cases here : tree (dir ++ [name]) with
    | none =>
      rw [here] at h
      cases h
    | some node =>
      rw [here] at h
      cases node with
      | directory perm =>
        have rest := @ih (dir ++ [name]) (fun p hp hne target => ?_) h
        · rw [rest, List.append_assoc, List.singleton_append]
        · rw [List.append_assoc]
          exact plain (name :: p) (List.cons_prefix_cons.mpr ⟨rfl, hp⟩) (List.cons_ne_nil _ _) target
      | file perm data =>
        cases names with
        | nil =>
          cases h
          rfl
        | cons name' names => cases h
      | link target =>
        exact absurd here (plain [name] (List.cons_prefix_cons.mpr ⟨rfl, List.nil_prefix⟩)
          (List.cons_ne_nil _ _) target)

lemma walk_plain {tree : Tree} {links : ℕ} {names : List OsStr} {dir : Place} {spot : Spot}
    (plain : ∀ p, p <+: names → p ≠ [] → ∀ target, tree (dir ++ p) ≠ some (.link target))
    (h : tree.walk links dir (names.map .normal) = .ok spot) : spot = ⟨dir ++ names, false⟩ := by
  cases links with
  | zero => exact through_plain plain h
  | succ links => exact through_plain plain h

end Tree

lemma Sys.change_tree (s : Sys) (spot : Spot) (node : Node) :
    (s.change spot node).tree = Function.update s.tree spot.place (some node) := rfl

def Inside (root place : Place) : Prop := ∃ names, names ≠ [] ∧ place = root ++ names

def Clear (made : List (List OsStr × OsStr)) (names : List OsStr) : Prop :=
  ∀ p, p <+: names → p ≠ [] → ∀ target, (p, target) ∉ made

lemma Clear.prefixed {made : List (List OsStr × OsStr)} {names above : List OsStr} (h : Clear made names)
    (lead : above <+: names) : Clear made above := fun p hp => h p (hp.trans lead)

lemma clear_nil (names : List OsStr) : Clear [] names := fun _ _ _ _ => List.not_mem_nil

structure Confined (root : Place) (before : Tree) (paths : List (List OsStr))
    (made : List (List OsStr × OsStr)) (bound : ℕ) (s : Sys) : Prop where
  changes : ∀ c ∈ s.changes, c.linked = false ∧ Inside root c.place
  outside : ∀ p, ¬ Inside root p → s.tree p = before p
  links : ∀ p, p ≠ [] → ∀ target, s.tree (root ++ p) = some (.link target) → (p, target) ∈ made
  held : ∀ p, p ≠ [] → s.tree (root ++ p) ≠ none → ∃ q ∈ paths, p <+: q
  written : s.written ≤ bound

section

variable {root : Place} {before : Tree} {paths : List (List OsStr)}
  {made : List (List OsStr × OsStr)} {bound : ℕ} {s : Sys} {faults : ℕ → Option Failure} {links : ℕ}

namespace Confined

lemma mono {made' : List (List OsStr × OsStr)} {bound' : ℕ} (h : Confined root before paths made bound s)
    (more : made ⊆ made') (le : bound ≤ bound') : Confined root before paths made' bound' s :=
  ⟨h.changes, h.outside, fun p hp target found => more (h.links p hp target found), h.held,
    h.written.trans le⟩

lemma called (h : Confined root before paths made bound s) :
    Confined root before paths made bound { s with calls := s.calls + 1 } :=
  ⟨h.changes, h.outside, h.links, h.held, h.written⟩

lemma change (h : Confined root before paths made bound s) {names : List OsStr} (proper : names ≠ [])
    (known : ∃ q ∈ paths, names <+: q) (node : Node)
    (linked : ∀ target, node = .link target → (names, target) ∈ made) :
    Confined root before paths made bound (s.change ⟨root ++ names, false⟩ node) := by
  have inside : Inside root (root ++ names) := ⟨names, proper, rfl⟩
  have here : ∀ p, p ≠ names → root ++ p ≠ root ++ names := fun p apart same =>
    apart (List.append_cancel_left same)
  refine ⟨fun c hc => ?_, fun p hp => ?_, fun p hp target found => ?_, fun p hp found => ?_, h.written⟩
  · obtain rfl | hc := List.mem_cons.mp hc
    · exact ⟨rfl, inside⟩
    · exact h.changes c hc
  · have apart : p ≠ root ++ names := by
      rintro rfl
      exact hp inside
    exact (Function.update_of_ne apart _ _).trans (h.outside p hp)
  · by_cases same : p = names
    · subst same
      rw [Sys.change_tree, Function.update_self] at found
      exact linked target (Option.some.inj found)
    · rw [Sys.change_tree, Function.update_of_ne (here p same)] at found
      exact h.links p hp target found
  · by_cases same : p = names
    · rw [same]
      exact known
    · rw [Sys.change_tree, Function.update_of_ne (here p same)] at found
      exact h.held p hp found

lemma walk_clear (h : Confined root before paths made bound s) {names : List OsStr}
    (clear : Clear made names) {spot : Spot} (led : s.tree.walk links root (names.map .normal) = .ok spot) :
    spot = ⟨root ++ names, false⟩ := by
  refine Tree.walk_plain (fun p hp hne target found => ?_) led
  exact clear p hp hne target (h.links p hne target found)

end Confined

namespace Sys

variable {P : Sys → Prop}

def Blind (P : Sys → Prop) : Prop := ∀ s, P s → P { s with calls := s.calls + 1 }

lemma call_upholds (blind : Blind P) (h : P s) :
    Upholds P (fun _ => True) (fun _ _ => True) (call faults) s := by
  refine Upholds.get_bind (Upholds.set_bind ?_)
  split
  · exact .throw (blind s h) trivial
  · exact .pure (blind s h) trivial

lemma canonicalize_upholds (blind : Blind P) (h : P s) (dir : Place) (path : List Component) :
    Upholds P (fun _ => True) (fun spot s' => s'.tree.walk links dir path = .ok spot)
      (canonicalize faults links dir path) s := by
  refine (call_upholds blind h).bind fun _ s' h' _ => Upholds.get_bind ?_
  exact .lift h' (fun _ _ => trivial) fun _ found => found

lemma isDir_upholds (blind : Blind P) (h : P s) (dir : Place) (path : List Component) :
    Upholds P (fun _ => True) (fun _ _ => True) (isDir faults links dir path) s := by
  refine ((canonicalize_upholds blind h dir path).attempt).bind fun r s' h' _ => ?_
  cases r with
  | ok spot => exact Upholds.get_bind (.pure h' trivial)
  | error e => exact .pure h' trivial

lemma exists_upholds (blind : Blind P) (h : P s) (dir : Place) (path : List Component) :
    Upholds P (fun _ => True) (fun _ _ => True) (exists_ faults links dir path) s :=
  ((canonicalize_upholds blind h dir path).attempt).bind fun _ _ h' _ => .pure h' trivial

lemma blind_confined : Blind (Confined root before paths made bound) := fun _ => Confined.called

lemma create_upholds (h : Confined root before paths made bound s) {names : List OsStr}
    (known : ∃ q ∈ paths, names <+: q) (clear : Clear made names.dropLast) (node : Node)
    (linked : ∀ target, node = .link target → (names, target) ∈ made) :
    Upholds (Confined root before paths made bound) (fun _ => True)
      (fun spot _ => spot = ⟨root ++ names, false⟩ ∧ names ≠ []) (create faults links root names node) s := by
  refine (call_upholds blind_confined h).bind fun _ s h _ => ?_
  refine Upholds.bind (Q := fun name _ => names.getLast? = some name)
    (.require h trivial fun _ last => last) fun name s h last => ?_
  obtain ⟨above, rfl⟩ := List.getLast?_eq_some_iff.mp last
  have proper : above ++ [name] ≠ [] := List.append_ne_nil_of_right_ne_nil _ (List.cons_ne_nil _ _)
  rw [List.dropLast_concat] at clear ⊢
  refine Upholds.get_bind ?_
  refine Upholds.bind (Q := fun parent s' => s' = s ∧ parent = ⟨root ++ above, false⟩)
    (.lift h (fun _ _ => trivial) fun parent led => ⟨rfl, h.walk_clear clear led⟩) ?_
  rintro parent s h ⟨rfl, rfl⟩
  refine (Upholds.refuse (Q := fun _ s' => s' = s) h (fun _ => trivial) fun _ => rfl).bind ?_
  rintro _ s h rfl
  refine (Upholds.refuse (Q := fun _ s' => s' = s) h (fun _ => trivial) fun _ => rfl).bind ?_
  rintro _ s h rfl
  refine Upholds.set_bind (.pure ?_ ⟨?_, proper⟩)
  · rw [List.append_assoc]
    exact h.change proper known node linked
  · rw [List.append_assoc]

lemma mkdir_upholds (h : Confined root before paths made bound s) {names : List OsStr}
    (known : ∃ q ∈ paths, names <+: q) (clear : Clear made names) (perm : ℕ) :
    Upholds (Confined root before paths made bound) (fun _ => True) (fun _ _ => True)
      (mkdir faults links root perm names) s :=
  (create_upholds h known (clear.prefixed (List.dropLast_prefix _)) (.directory perm) fun _ => nofun).bind
    fun _ _ h' _ => .pure h' trivial

lemma mkdirOrIs_upholds (h : Confined root before paths made bound s) {names : List OsStr}
    (known : ∃ q ∈ paths, names <+: q) (clear : Clear made names) (perm : ℕ) :
    Upholds (Confined root before paths made bound) (fun _ => True) (fun _ _ => True)
      (mkdirOrIs faults links root perm names) s := by
  refine ((mkdir_upholds h known clear perm).attempt).bind fun r s h _ => ?_
  cases r with
  | ok => exact .pure h trivial
  | error e =>
    refine (isDir_upholds blind_confined h root _).bind fun there s h _ => ?_
    split
    · exact .pure h trivial
    · exact .throw h trivial

lemma createDirAllRev_upholds (h : Confined root before paths made bound s) {up : List OsStr}
    (known : ∃ q ∈ paths, up.reverse <+: q) (clear : Clear made up.reverse) (perm : ℕ) :
    Upholds (Confined root before paths made bound) (fun _ => True) (fun _ _ => True)
      (createDirAllRev faults links root perm up) s := by
  induction up generalizing s with
  | nil => exact mkdirOrIs_upholds h known clear perm
  | cons name above ih =>
    have lead : above.reverse <+: (name :: above).reverse := by
      rw [List.reverse_cons]
      exact List.prefix_append _ _
    obtain ⟨q, hq, leads⟩ := known
    unfold createDirAllRev
    refine ((mkdir_upholds h ⟨q, hq, leads⟩ clear perm).attempt).bind fun r s h _ => ?_
    split
    · exact .pure h trivial
    · refine (ih h ⟨q, hq, lead.trans leads⟩ (clear.prefixed lead)).bind fun _ s h _ => ?_
      exact mkdirOrIs_upholds h ⟨q, hq, leads⟩ clear perm
    · refine (isDir_upholds blind_confined h root _).bind fun there s h _ => ?_
      split
      · exact .pure h trivial
      · exact .throw h trivial

lemma createDirAll_upholds (h : Confined root before paths made bound s) {names : List OsStr}
    (known : ∃ q ∈ paths, names <+: q) (clear : Clear made names) (perm : ℕ) :
    Upholds (Confined root before paths made bound) (fun _ => True) (fun _ _ => True)
      (createDirAll faults links root perm names) s := by
  refine createDirAllRev_upholds h ?_ ?_ perm
  · rw [List.reverse_reverse]
    exact known
  · rw [List.reverse_reverse]
    exact clear

lemma symlink_upholds (h : Confined root before paths made bound s) {names : List OsStr} {target : OsStr}
    (known : ∃ q ∈ paths, names <+: q) (clear : Clear made names.dropLast)
    (linked : (names, target) ∈ made) :
    Upholds (Confined root before paths made bound) (fun _ => True) (fun _ _ => True)
      (symlink faults links root target names) s := by
  refine (create_upholds h known clear (.link target) fun target' same => ?_).bind fun _ _ h' _ => .pure h' trivial
  cases same
  exact linked

lemma write_upholds (h : Confined root before paths made bound s) {names : List OsStr}
    (proper : names ≠ []) (known : ∃ q ∈ paths, names <+: q) (bytes : List UInt8) :
    Upholds (Confined root before paths made (bound + bytes.length)) (fun _ => True) (fun _ _ => True)
      (write faults ⟨root ++ names, false⟩ bytes) s := by
  have wider : Confined root before paths made (bound + bytes.length) s :=
    h.mono (List.Subset.refl _) (Nat.le_add_right ..)
  have few : (((faults s.calls).map fun f => bytes.take f.done).getD bytes).length ≤ bytes.length := by
    cases faults s.calls with
    | none => exact le_rfl
    | some f => exact List.length_take_le' _ _
  refine Upholds.get_bind ?_
  dsimp only
  split
  · next perm data found =>
    refine Upholds.set_bind ?_
    have changed := wider.change proper known (.file perm
      (data ++ ((faults s.calls).map fun f => bytes.take f.done).getD bytes)) fun _ => nofun
    have written := h.written
    have done : Confined root before paths made (bound + bytes.length)
        { s.change ⟨root ++ names, false⟩ (.file perm
            (data ++ ((faults s.calls).map fun f => bytes.take f.done).getD bytes)) with
          calls := s.calls + 1
          written := s.written + (((faults s.calls).map fun f => bytes.take f.done).getD bytes).length } :=
      ⟨changed.changes, changed.outside, changed.links, changed.held, by
        change s.written + _ ≤ _
        omega⟩
    split
    · exact .throw done trivial
    · exact .pure done trivial
  · exact .throw wider trivial

lemma chmod_upholds (h : Confined root before paths made bound s) {names : List OsStr}
    (proper : names ≠ []) (known : ∃ q ∈ paths, names <+: q) (perm : ℕ) :
    Upholds (Confined root before paths made bound) (fun _ => True) (fun _ _ => True)
      (chmod faults ⟨root ++ names, false⟩ perm) s := by
  refine (call_upholds blind_confined h).bind fun _ s h _ => Upholds.get_bind ?_
  dsimp only
  split
  · exact Upholds.set (h.change proper known _ fun _ => nofun) trivial
  · exact Upholds.set (h.change proper known _ fun _ => nofun) trivial
  · exact .throw h trivial

lemma setPermissions_upholds (h : Confined root before paths made bound s) {names : List OsStr}
    (proper : names ≠ []) (known : ∃ q ∈ paths, names <+: q) (clear : Clear made names) (perm : ℕ) :
    Upholds (Confined root before paths made bound) (fun _ => True) (fun _ _ => True)
      (setPermissions faults links root perm (names.map .normal)) s := by
  refine Upholds.get_bind ?_
  refine Upholds.bind (Q := fun spot _ => spot = ⟨root ++ names, false⟩)
    (.lift h (fun _ _ => trivial) fun spot led => h.walk_clear clear led) ?_
  rintro _ s h rfl
  exact chmod_upholds h proper known perm

end Sys

end

end Sheprd.Lib
