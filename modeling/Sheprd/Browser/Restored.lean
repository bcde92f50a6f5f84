import Sheprd.Browser.Splits

namespace Sheprd.Browser

open Sheprd.Lib

namespace SavedLayout

variable {Share : Type} {s : SavedLayout Share}

lemma named_from (groups : List (SavedGroup Share)) (n : ℕ) {r : List (Pick × ℕ)}
    (distinct : Register.Distinct r) :
    let named := (groups.zipIdx n).foldl (fun owners entry =>
      entry.1.tabs.foldl (fun owners pick => Register.enter owners pick entry.2) owners) r
    Register.Distinct named ∧ ∀ p, Register.lookup named p =
      (Register.lookup r p).or ((groups.findIdx? fun g => p ∈ g.tabs).map (· + n)) := by
  induction groups generalizing n r with
  | nil => exact ⟨distinct, fun p => by simp⟩
  | cons g groups ih =>
    obtain ⟨distinct', lookups⟩ := ih (n + 1) (distinct.entered (fun _ => n) g.tabs)
    refine ⟨distinct', fun p => (lookups p).trans ?_⟩
    rw [Register.lookup_entered, Option.or_assoc, List.findIdx?_cons]
    by_cases here : p ∈ g.tabs
    · simp [here]
    · rw [if_neg here, if_neg (by simpa using here), Option.none_or, Option.map_map]
      congr 2
      funext i
      change i + (n + 1) = i + 1 + n
      omega

lemma owners_spec (s : SavedLayout Share) :
    Register.Distinct s.owners ∧ ∀ p, Register.lookup s.owners p =
      (s.groups.findIdx? fun g => p ∈ g.tabs).or
        (if p ∈ s.shown ++ s.closed then some (s.heir p) else none) := by
  obtain ⟨distinct, lookups⟩ := named_from s.groups 0 (r := []) List.nodup_nil
  refine ⟨Register.Distinct.entered s.heir _ distinct, fun p => ?_⟩
  unfold owners
  rw [Register.lookup_entered s.heir]
  congr 1
  refine (lookups p).trans ?_
  simp

lemma heir_inside (inside : s.active < s.groups.length) (p : Pick) : s.heir p < s.groups.length := by
  have used : ∀ wanted i, s.inUse wanted = some i → i < s.groups.length := fun wanted i h => by
    unfold inUse at h
    split at h
    · cases h
      exact inside
    · cases h
  have placed : ∀ wanted i, s.groups.findIdx? wanted = some i → i < s.groups.length := fun wanted i h =>
    (List.findIdx?_eq_some_iff_getElem.mp h).1
  unfold heir
  cases found : (s.inUse (shows p) <|> s.groups.findIdx? (shows p) <|> s.inUse (kept p) <|>
    s.groups.findIdx? (kept p)) with
  | none => exact inside
  | some i =>
    change i < s.groups.length
    simp only [Option.orElse_eq_orElse, Option.orElse_eq_or, Option.or_eq_some_iff] at found
    obtain h | ⟨-, h | ⟨-, h | ⟨-, h⟩⟩⟩ := found
    · exact used _ i h
    · exact placed _ i h
    · exact used _ i h
    · exact placed _ i h

lemma owners_inside (inside : s.active < s.groups.length) {e : Pick × ℕ} (he : e ∈ s.owners) :
    e.2 < s.groups.length := by
  obtain ⟨distinct, lookups⟩ := s.owners_spec
  have held := Register.lookup_of_mem distinct he
  rw [lookups, Option.or_eq_some_iff] at held
  obtain held | ⟨-, held⟩ := held
  · exact (List.findIdx?_eq_some_iff_getElem.mp held).1
  · split at held
    · rw [← Option.some.inj held]
      exact heir_inside inside e.1
    · cases held

lemma shown_named {g : SavedGroup Share} (hg : g ∈ s.groups) {p : Pick} (shows : g.pick = some p) :
    ∃ i, Register.lookup s.owners p = some i := by
  have shown : p ∈ s.shown ++ s.closed :=
    List.mem_append_left _ (List.mem_filterMap.mpr ⟨g, hg, shows⟩)
  rw [(s.owners_spec).2 p, if_pos shown]
  cases s.groups.findIdx? fun g => p ∈ g.tabs with
  | none => exact ⟨_, rfl⟩
  | some i => exact ⟨i, rfl⟩

end SavedLayout

namespace Layout

variable {Share : Type} {l : Layout Share}

lemma rebuild_get (w : Widths Share) (total : Share) (ids : GroupIds) (saved : List (SavedGroup Share))
    (i : ℕ) :
    (rebuild w total ids saved).1[i]? = saved[i]?.map fun g =>
      { id := ids.last + 1 + i, pick := g.pick, share := w.ratio g.share total } := by
  induction saved generalizing ids i with
  | nil => rfl
  | cons g saved ih =>
    cases i with
    | zero => rfl
    | succ i =>
      refine (ih ⟨ids.last + 1⟩ i).trans ?_
      simp only [List.getElem?_cons_succ]
      congr 1
      funext g
      rw [Nat.add_right_comm (ids.last + 1) 1 i]
      rfl

lemma length_rebuild (w : Widths Share) (total : Share) (ids : GroupIds) (saved : List (SavedGroup Share)) :
    (rebuild w total ids saved).1.length = saved.length := by
  induction saved generalizing ids with
  | nil => rfl
  | cons g saved ih => exact congrArg (· + 1) (ih ⟨ids.last + 1⟩)

lemma ids_rebuild (w : Widths Share) (total : Share) (ids : GroupIds) (saved : List (SavedGroup Share)) :
    (rebuild w total ids saved).1.map Group.id = (List.range saved.length).map (ids.last + 1 + ·) := by
  refine List.ext_getElem? fun i => ?_
  rw [List.getElem?_map, rebuild_get, List.getElem?_map, Option.map_map]
  by_cases inside : i < saved.length
  · rw [List.getElem?_eq_getElem inside, List.getElem?_range inside]
    rfl
  · rw [List.getElem?_eq_none (by omega), List.getElem?_eq_none (by rw [List.length_range]; omega)]
    rfl

def renamed (s : SavedLayout Share) (ids : GroupIds) : List (Pick × GroupId) :=
  if s.groups.length > 1 then Register.relabel (ids.last + 1 + ·) s.owners else []

def total (w : Widths Share) (s : SavedLayout Share) : Share :=
  (s.groups.map SavedGroup.share).foldl w.plus w.zero

def restored (w : Widths Share) (s : SavedLayout Share) (ids : GroupIds) : Layout Share where
  groups := clearUnowned (renamed s ids) (rebuild w (total w s) ids s.groups).1
  active := ids.last + 1 + s.active
  owners := renamed s ids

lemma valid_active {w : Widths Share} {s : SavedLayout Share} (valid : s.valid w = true) :
    s.active < s.groups.length := by
  unfold SavedLayout.valid at valid
  simp only [Bool.and_eq_true, decide_eq_true_eq] at valid
  exact valid.1.2

lemma mapM_some {α β : Type} {f : α → Option β} {g : α → β} {as : List α}
    (h : ∀ a ∈ as, f a = some (g a)) : as.mapM f = some (as.map g) := by
  induction as with
  | nil => rfl
  | cons a as ih =>
    rw [List.mapM_cons, h a (List.mem_cons_self ..), ih fun a' ha => h a' (List.mem_cons_of_mem _ ha)]
    rfl

lemma restore_eq {w : Widths Share} {s : SavedLayout Share} (valid : s.valid w = true) (ids : GroupIds) :
    restore w s ids =
      some (restored w s ids, (rebuild w (total w s) ids s.groups).2) := by
  have inside := valid_active valid
  have length := length_rebuild w (total w s) ids s.groups
  have get := rebuild_get w (total w s) ids s.groups
  have active : (rebuild w (total w s) ids s.groups).1[min s.active
      ((rebuild w (total w s) ids s.groups).1.length - 1)]?.map Group.id = some (ids.last + 1 + s.active) := by
    rw [length, Nat.min_eq_left (by omega), get, List.getElem?_eq_getElem inside]
    rfl
  obtain ⟨g, held, named⟩ := Option.map_eq_some_iff.mp active
  have made : some (({ groups := clearUnowned (renamed s ids) (rebuild w (total w s) ids s.groups).1
                       active := g.id
                       owners := renamed s ids } : Layout Share), (rebuild w (total w s) ids s.groups).2) =
      some (restored w s ids, (rebuild w (total w s) ids s.groups).2) := by
    rw [named]
    rfl
  unfold restore
  refine Option.bind_eq_some_iff.mpr ⟨g, held, ?_⟩
  by_cases many : (rebuild w (total w s) ids s.groups).1.length > 1
  · refine (if_pos many).trans (Option.bind_eq_some_iff.mpr ⟨renamed s ids, ?_, made⟩)
    unfold renamed
    rw [if_pos (length ▸ many)]
    refine mapM_some fun e he => ?_
    change (rebuild w (total w s) ids s.groups).1[e.2]?.map _ = _
    rw [get, List.getElem?_eq_getElem (SavedLayout.owners_inside inside he)]
    rfl
  · refine (if_neg many).trans (Option.bind_eq_some_iff.mpr ⟨renamed s ids, ?_, made⟩)
    unfold renamed
    rw [if_neg (length ▸ many)]

lemma ids_clearUnowned (owners : List (Pick × GroupId)) (groups : List (Group Share)) :
    (clearUnowned owners groups).map Group.id = groups.map Group.id := by
  rw [clearUnowned, List.map_map]
  refine List.map_congr_left fun group _ => ?_
  simp only [Function.comp_apply]
  split <;> rfl

lemma mem_clearUnowned {owners : List (Pick × GroupId)} {groups : List (Group Share)} {g : Group Share}
    (h : g ∈ clearUnowned owners groups) {p : Pick} (shows : g.pick = some p) :
    g ∈ groups ∧ (owners = [] ∨ (p, g.id) ∈ owners) := by
  obtain ⟨group, hg, same⟩ := List.mem_map.mp h
  split at same
  · next keeps =>
    subst same
    refine ⟨hg, ?_⟩
    obtain empty | owned := Bool.or_eq_true_iff.mp keeps
    · exact .inl (List.isEmpty_iff.mp empty)
    · rw [ownedIn, shows] at owned
      obtain ⟨e, he, same⟩ := List.any_eq_true.mp owned
      obtain ⟨tab, owner⟩ := by simpa using same
      rw [← tab, ← owner]
      exact .inr he
  · rw [← same] at shows
    cases shows

lemma ids_restored (w : Widths Share) (s : SavedLayout Share) (ids : GroupIds) :
    (restored w s ids).ids = (List.range s.groups.length).map (ids.last + 1 + ·) :=
  (ids_clearUnowned _ _).trans (ids_rebuild w _ ids s.groups)

lemma length_restored (w : Widths Share) (s : SavedLayout Share) (ids : GroupIds) :
    (restored w s ids).groups.length = s.groups.length := by
  have same := congrArg List.length (ids_restored w s ids)
  simpa [Layout.ids] using same

lemma renamed_lookup {s : SavedLayout Share} (many : 2 ≤ s.groups.length) (ids : GroupIds) (p : Pick) :
    Register.lookup (renamed s ids) p = (Register.lookup s.owners p).map (ids.last + 1 + ·) := by
  unfold renamed
  rw [if_pos (by omega), Register.lookup_relabel]

lemma sound_restored {w : Widths Share} {s : SavedLayout Share} (valid : s.valid w = true) (ids : GroupIds) :
    (restored w s ids).Sound := by
  have inside := valid_active valid
  have length := length_restored w s ids
  have named : ∀ i < s.groups.length, ids.last + 1 + i ∈ (restored w s ids).ids := fun i hi => by
    rw [ids_restored]
    exact List.mem_map_of_mem (List.mem_range.mpr hi)
  have distinct : Register.Distinct (renamed s ids) := by
    unfold renamed
    split
    · exact (s.owners_spec).1.relabel _
    · exact List.nodup_nil
  refine ⟨?_, ?_, named _ inside, distinct, fun e he => ?_, fun one => ?_, fun two g hg p shows => ?_⟩
  · rw [← List.length_pos_iff, length]
    omega
  · rw [ids_restored]
    exact List.nodup_range.map fun i j same => Nat.add_left_cancel same
  · change e ∈ renamed s ids at he
    unfold renamed at he
    split at he
    · obtain ⟨e', he', rfl⟩ := List.mem_map.mp he
      exact named _ (SavedLayout.owners_inside inside he')
    · cases he
  · change renamed s ids = []
    unfold renamed
    rw [if_neg (by omega)]
  · rw [owner_beside two]
    obtain ⟨hg, empty | owned⟩ := mem_clearUnowned hg shows
    · obtain ⟨i, held⟩ := List.mem_iff_getElem?.mp hg
      rw [rebuild_get] at held
      obtain ⟨g', held', rfl⟩ := Option.map_eq_some_iff.mp held
      obtain ⟨j, claimed⟩ := SavedLayout.shown_named (List.mem_of_getElem? held') shows
      have missing := renamed_lookup (length ▸ two) ids p
      rw [empty, claimed] at missing
      cases missing
    · have claimed : (restored w s ids).claimed p = some g.id := Register.lookup_of_mem distinct owned
      rw [claimed]
      rfl

def position (l : Layout Share) (id : GroupId) : Option ℕ := l.groups.findIdx? fun group => group.id = id

lemma position_eq (nodup : l.ids.Nodup) {i : ℕ} {g : Group Share} (held : l.groups[i]? = some g) :
    l.position g.id = some i := by
  obtain ⟨inside, rfl⟩ := List.getElem?_eq_some_iff.mp held
  refine List.findIdx?_eq_some_iff_getElem.mpr ⟨inside, decide_eq_true rfl, fun j earlier same => ?_⟩
  have apart := List.pairwise_iff_getElem.mp nodup j i (by simp [ids]; omega) (by simpa [ids] using inside) earlier
  exact apart (by simpa [ids] using same)

lemma position_known {id : GroupId} (known : id ∈ l.ids) :
    ∃ (i : ℕ) (g : Group Share), l.groups[i]? = some g ∧ g.id = id := by
  obtain ⟨g, hg, rfl⟩ := List.mem_map.mp known
  obtain ⟨i, held⟩ := List.mem_iff_getElem?.mp hg
  exact ⟨i, g, held, rfl⟩

def savedGroup (l : Layout Share) (group : Group Share) : SavedGroup Share where
  pick := group.pick
  share := group.share
  tabs := (l.owners.filter fun e => e.2 = group.id).map Prod.fst
  hidden := []

lemma saved_eq {s : SavedLayout Share} (h : l.saved = some s) :
    s = { groups := l.groups.map l.savedGroup, active := (l.position l.active).getD 0 } := by
  unfold Layout.saved at h
  split at h
  · cases h
  · exact (Option.some.inj h).symm

lemma Sound.tabs_iff (h : l.Sound) (g : Group Share) (p : Pick) :
    p ∈ (l.savedGroup g).tabs ↔ l.claimed p = some g.id := by
  constructor
  · intro here
    obtain ⟨e, he, rfl⟩ := List.mem_map.mp here
    obtain ⟨he, owner⟩ := List.mem_filter.mp he
    refine Register.lookup_of_mem h.distinct ?_
    rw [← of_decide_eq_true owner]
    exact he
  · intro claimed
    exact List.mem_map.mpr ⟨_, List.mem_filter.mpr ⟨Register.mem_of_lookup claimed, decide_eq_true rfl⟩, rfl⟩

lemma Sound.saved_owner (h : l.Sound) (two : 2 ≤ l.groups.length) {s : SavedLayout Share}
    (saved : l.saved = some s) (p : Pick) :
    l.position (l.owner p) = some ((Register.lookup s.owners p).getD s.active) := by
  obtain ⟨i, g, active, used⟩ := position_known h.active
  have place : l.position l.active = some i := used ▸ position_eq h.ids active
  obtain rfl := saved_eq saved
  rw [(SavedLayout.owners_spec _).2 p, place, owner_beside two]
  have tabs : ((l.groups.map l.savedGroup).findIdx? fun g => p ∈ g.tabs) =
      l.groups.findIdx? fun g : Group Share => l.claimed p = some g.id := by
    rw [List.findIdx?_map]
    congr 1
    funext g
    simp only [Function.comp_apply]
    rw [decide_eq_decide]
    exact h.tabs_iff g p
  rw [tabs]
  cases claimed : l.claimed p with
  | some id =>
    obtain ⟨j, g', held, rfl⟩ := position_known (h.claimed_known claimed)
    have named : (l.groups.findIdx? fun g : Group Share => some g'.id = some g.id) = some j := by
      rw [← position_eq h.ids held, position]
      congr 1
      funext g
      rw [decide_eq_decide, Option.some.injEq]
      exact eq_comm
    rw [named]
    exact position_eq h.ids held
  | none =>
    have unnamed : (l.groups.findIdx? fun g : Group Share => none = some g.id) = none :=
      List.findIdx?_eq_none_iff.mpr fun g _ => by simp
    rw [unnamed, Option.none_or, Option.getD_none, place]
    split
    · next shown =>
      obtain shown | closed := List.mem_append.mp shown
      · obtain ⟨g', hg', shows⟩ := List.mem_filterMap.mp shown
        obtain ⟨k, held⟩ := List.mem_iff_getElem?.mp hg'
        rw [List.getElem?_map] at held
        obtain ⟨g'', source, rfl⟩ := Option.map_eq_some_iff.mp held
        have own := h.own two g'' (List.mem_of_getElem? source) p shows
        rw [owner_beside two, claimed] at own
        have here := position_eq h.ids source
        rw [← own] at here
        obtain rfl : i = k := Option.some.inj (place.symm.trans here)
        have inUse : SavedLayout.inUse { groups := l.groups.map l.savedGroup, active := i }
            (SavedLayout.shows p) = some i := by
          unfold SavedLayout.inUse
          rw [if_pos]
          change ((l.groups.map l.savedGroup)[i]?.any _) = true
          rw [List.getElem?_map, source]
          change (decide (g''.pick = some p) && SavedLayout.kept p (l.savedGroup g'')) = true
          have shows : g''.pick = some p := shows
          simp [shows, SavedLayout.kept, savedGroup]
        change some i = some (SavedLayout.heir _ p)
        unfold SavedLayout.heir
        rw [Option.getD_some, inUse]
        rfl
      · obtain ⟨g', hg', hidden⟩ := List.mem_flatMap.mp closed
        obtain ⟨g'', -, rfl⟩ := List.mem_map.mp hg'
        cases hidden
    · rfl

lemma picks_restored (h : l.Sound) (w : Widths Share) {s : SavedLayout Share} (saved : l.saved = some s)
    (ids : GroupIds) :
    (restored w s ids).groups.map (fun g => (g.pick, g.share)) =
      l.groups.map fun g => (g.pick, w.ratio g.share (total w s)) := by
  have groups : s.groups = l.groups.map l.savedGroup := congrArg SavedLayout.groups (saved_eq saved)
  have kept : (restored w s ids).groups = (rebuild w (total w s) ids s.groups).1 := by
    refine (List.map_congr_left fun g hg => ?_).trans (List.map_id _)
    obtain ⟨i, held⟩ := List.mem_iff_getElem?.mp hg
    rw [rebuild_get, groups, List.getElem?_map, Option.map_map] at held
    obtain ⟨g', source, rfl⟩ := Option.map_eq_some_iff.mp held
    cases shows : g'.pick with
    | none => simp [savedGroup, shows]
    | some p =>
      refine if_pos ?_
      obtain one | two := h.length
      · have none : renamed s ids = [] := if_neg (by rw [groups, List.length_map]; omega)
        rw [none]
        rfl
      · have many : 2 ≤ s.groups.length := by
          rw [groups, List.length_map]
          exact two
        have own := h.own two g' (List.mem_of_getElem? source) p shows
        have place := h.saved_owner two saved p
        rw [own, position_eq h.ids source] at place
        obtain ⟨j, named⟩ := SavedLayout.shown_named (s := s) (g := l.savedGroup g')
          (groups ▸ List.mem_map_of_mem (List.mem_of_getElem? source)) shows
        rw [named] at place
        obtain rfl : i = j := Option.some.inj place
        have claimed := renamed_lookup many ids p
        rw [named] at claimed
        have here := Register.mem_of_lookup claimed
        refine Bool.or_eq_true_iff.mpr (.inr ?_)
        rw [ownedIn]
        change (g'.pick.any _) = true
        rw [shows]
        exact List.any_eq_true.mpr ⟨_, here, by simp⟩
  rw [kept]
  refine List.ext_getElem? fun i => ?_
  rw [List.getElem?_map, rebuild_get, groups, List.getElem?_map, List.getElem?_map]
  cases l.groups[i]? <;> rfl

lemma position_restored (w : Widths Share) {s : SavedLayout Share} (ids : GroupIds) {i : ℕ}
    (inside : i < s.groups.length) : (restored w s ids).position (ids.last + 1 + i) = some i := by
  have nodup : (restored w s ids).ids.Nodup := by
    rw [ids_restored]
    exact List.nodup_range.map fun i j same => Nat.add_left_cancel same
  have held : (restored w s ids).ids[i]? = some (ids.last + 1 + i) := by
    rw [ids_restored, List.getElem?_map, List.getElem?_range inside]
    rfl
  rw [Layout.ids, List.getElem?_map] at held
  obtain ⟨g, held, same⟩ := Option.map_eq_some_iff.mp held
  rw [← same]
  exact position_eq nodup held

lemma Sound.round_trip (h : l.Sound) (w : Widths Share) {s : SavedLayout Share}
    (saved : l.saved = some s) (valid : s.valid w = true) (ids : GroupIds) :
    (restored w s ids).groups.map (fun g => (g.pick, g.share)) =
        l.groups.map (fun g => (g.pick, w.ratio g.share (total w s))) ∧
      (restored w s ids).position (restored w s ids).active = l.position l.active ∧
      ∀ p, (restored w s ids).position ((restored w s ids).owner p) = l.position (l.owner p) := by
  obtain ⟨i, g, held, used⟩ := position_known h.active
  have place : l.position l.active = some i := used ▸ position_eq h.ids held
  have active : s.active = i := by
    rw [saved_eq saved, place]
    rfl
  have length : s.groups.length = l.groups.length := by
    rw [saved_eq saved]
    exact List.length_map ..
  have inside : i < s.groups.length := active ▸ valid_active valid
  have inUse : (restored w s ids).position (restored w s ids).active = some i :=
    active ▸ position_restored w ids (active ▸ inside)
  refine ⟨picks_restored h w saved ids, inUse.trans place.symm, fun p => ?_⟩
  obtain one | two := h.length
  · rw [owner_lone (length_restored w s ids ▸ length ▸ one.le), owner_lone one.le, inUse, place]
  · have many : 2 ≤ s.groups.length := length ▸ two
    rw [owner_beside (length_restored w s ids ▸ many), h.saved_owner two saved p]
    change (restored w s ids).position ((Register.lookup (renamed s ids) p).getD (ids.last + 1 + s.active)) = _
    rw [renamed_lookup many]
    cases named : Register.lookup s.owners p with
    | none => exact position_restored w ids (active ▸ inside)
    | some j =>
      exact position_restored w ids (SavedLayout.owners_inside (valid_active valid) (Register.mem_of_lookup named))

end Layout

end Sheprd.Browser
