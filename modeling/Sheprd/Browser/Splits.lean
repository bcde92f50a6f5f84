import Sheprd.Browser.GroupsKept

namespace Sheprd.Browser

open Sheprd.Lib

section Modify

variable {α β : Type} {f : α → α}

lemma map_modify (g : α → β) (keeps : ∀ a, g (f a) = g a) (as : List α) (i : ℕ) :
    (as.modify i f).map g = as.map g := by
  refine List.ext_getElem? fun j => ?_
  rw [List.getElem?_map, List.getElem?_map, List.getElem?_modify]
  cases as[j]? with
  | none => rfl
  | some a =>
    by_cases here : i = j
    · simp [here, keeps]
    · simp [here]

lemma mem_modify {as : List α} {i : ℕ} {b : α} (h : b ∈ as.modify i f) :
    ∃ a ∈ as, b = a ∨ b = f a := by
  obtain ⟨j, found⟩ := List.mem_iff_getElem?.mp h
  rw [List.getElem?_modify] at found
  obtain ⟨a, held, same⟩ := Option.map_eq_some_iff.mp found
  refine ⟨a, List.mem_of_getElem? held, ?_⟩
  by_cases here : i = j
  · exact .inr (by simpa [here] using same.symm)
  · exact .inl (by simpa [here] using same.symm)

end Modify

namespace Layout

variable {Share : Type} {l : Layout Share}

lemma ids_pinLone (groups : List (Group Share)) (focused : Option String) :
    (pinLone groups focused).map Group.id = groups.map Group.id := by
  unfold pinLone
  split
  · split <;> rfl
  · rfl

lemma pinLone_beside {groups : List (Group Share)} (two : 2 ≤ groups.length) (focused : Option String) :
    pinLone groups focused = groups := by
  unfold pinLone
  split
  · simp at two
  · rfl

def parted (w : Widths Share) (l : Layout Share) (index : ℕ) (new : GroupId) (focused : Option String) :
    List (Group Share) :=
  let groups := (pinLone l.groups focused).modify index fun source =>
    { source with share := w.half source.share }
  groups.insertIdx (index + 1)
    { id := new, pick := none, share := (groups[index]?.map Group.share).getD w.zero }

lemma split_eq {w : Widths Share} {id new : GroupId} {index : ℕ}
    (found : l.groups.findIdx? (fun group => group.id = id) = some index) (focused : Option String)
    (tabs : List Pick) :
    l.split w id new focused tabs =
      (true, { (({ l with groups := l.parted w index new focused } : Layout Share).adopt tabs).settleOwners with
        active := new }) := by
  unfold Layout.split
  rw [found]
  rfl

lemma parted_spec (w : Widths Share) {index : ℕ} (inside : index < l.groups.length) (new : GroupId)
    (focused : Option String) :
    ((l.parted w index new focused).map Group.id).Perm (new :: l.ids) ∧
      ∀ g ∈ l.parted w index new focused, ∀ p, g.pick = some p →
        g.id ∈ l.ids ∧ (2 ≤ l.groups.length → ∃ g' ∈ l.groups, g'.id = g.id ∧ g'.pick = some p) := by
  have length : (pinLone l.groups focused).length = l.groups.length := by
    have same := congrArg List.length (ids_pinLone l.groups focused)
    simpa using same
  have halved : ∀ groups : List (Group Share), (groups.modify index fun source =>
      { source with share := w.half source.share }).map Group.id = groups.map Group.id :=
    fun groups => by
      refine map_modify Group.id (fun g => ?_) groups index
      rfl
  unfold parted
  dsimp only
  constructor
  · refine ((List.perm_insertIdx _ _ ?_).map Group.id).trans ?_
    · rw [List.length_modify, length]
      exact inside
    · rw [List.map_cons, halved, ids_pinLone]
      exact .refl _
  · intro g hg p shows
    have hg := (List.mem_insertIdx ?_).mp hg
    · obtain rfl | hg := hg
      · cases shows
      · refine ⟨?_, fun two => ?_⟩
        · have known := List.mem_map_of_mem (f := Group.id) hg
          rw [halved, ids_pinLone] at known
          exact known
        · rw [pinLone_beside two] at hg
          obtain ⟨g', hg', rfl | rfl⟩ := mem_modify hg
          · exact ⟨g, hg', rfl, shows⟩
          · exact ⟨g', hg', rfl, shows⟩
    · rw [List.length_modify, length]
      exact inside

lemma mem_ids_lone (h : l.Sound) (one : l.groups.length = 1) {id : GroupId} (known : id ∈ l.ids) :
    id = l.active := by
  by_contra apart
  have two := two_of_ne known h.active apart
  omega

lemma Sound.parted (h : l.Sound) (w : Widths Share) {index : ℕ} (inside : index < l.groups.length)
    {new : GroupId} (fresh : new ∉ l.ids) (focused : Option String) :
    ({ l with groups := l.parted w index new focused } : Layout Share).Sound ∧
      2 ≤ (l.parted w index new focused).length ∧
      new ∈ (l.parted w index new focused).map Group.id := by
  obtain ⟨ids, shown⟩ := parted_spec (l := l) w inside new focused
  have length : (l.parted w index new focused).length = l.groups.length + 1 := by
    have same := ids.length_eq
    rwa [List.length_map, List.length_cons, Layout.ids, List.length_map] at same
  have pos := List.length_pos_iff.mpr h.nonempty
  have two : 2 ≤ (l.parted w index new focused).length := by omega
  have more : ∀ {id}, id ∈ l.ids → id ∈ (l.parted w index new focused).map Group.id := fun known =>
    ids.mem_iff.mpr (List.mem_cons_of_mem _ known)
  refine ⟨⟨?_, ?_, more h.active, h.distinct, fun e he => more (h.known e he), fun one => ?_,
    fun _ g hg p shows => ?_⟩, two, ids.mem_iff.mpr (List.mem_cons_self ..)⟩
  · exact List.length_pos_iff.mp (by change 0 < (l.parted w index new focused).length; omega)
  · exact ids.nodup_iff.mpr (List.nodup_cons.mpr ⟨fresh, h.ids⟩)
  · change (l.parted w index new focused).length = 1 at one
    omega
  · obtain ⟨known, had⟩ := shown g hg p shows
    rw [owner_beside (l := { l with groups := l.parted w index new focused }) two]
    change (l.claimed p).getD l.active = g.id
    obtain one | two := h.length
    · have none : l.claimed p = none := by
        rw [claimed, h.lone one]
        rfl
      rw [none]
      exact (mem_ids_lone h one known).symm
    · obtain ⟨g', hg', same, shows'⟩ := had two
      rw [← owner_beside two, h.own two g' hg' p shows', same]

lemma Sound.split (h : l.Sound) (w : Widths Share) (id : GroupId) {new : GroupId} (fresh : new ∉ l.ids)
    (focused : Option String) (tabs : List Pick) : (l.split w id new focused tabs).2.Sound := by
  cases found : l.groups.findIdx? fun group => group.id = id with
  | none =>
    unfold Layout.split
    rw [found]
    exact h
  | some index =>
    obtain ⟨inside, -⟩ := List.findIdx?_eq_some_iff_getElem.mp found
    obtain ⟨sound, two, added⟩ := h.parted w inside fresh focused
    rw [split_eq found]
    obtain ⟨adopted, -⟩ := sound.adopt tabs
    have groups := adopt_groups (l := { l with groups := l.parted w index new focused }) tabs
    have two' : 2 ≤ (({ l with groups := l.parted w index new focused } : Layout Share).adopt tabs).groups.length := by
      rw [groups]
      exact two
    obtain ⟨settledSound, settled, -⟩ := adopted.settle two'
    refine settledSound.use two' settled ?_
    change new ∈ (({ l with groups := l.parted w index new focused } : Layout Share).adopt tabs).groups.map Group.id
    rw [groups]
    exact added

lemma foldTarget_eq (l : Layout Share) (id : GroupId) :
    l.foldTarget id = none ∧ (∀ w : Widths Share, l.close w id = (false, l)) ∨
    ∃ index gone next, l.groups.findIdx? (fun group => group.id = id) = some index ∧
      l.groups[index]? = some gone ∧ gone.id = id ∧ 2 ≤ l.groups.length ∧
      (l.groups.eraseIdx index)[index - 1]? = some next ∧
      l.foldTarget id = some (index, gone.share, next.id) := by
  unfold foldTarget Layout.close
  by_cases few : l.groups.length < 2
  · exact .inl ⟨if_pos few, fun _ => if_pos few⟩
  · simp only [if_neg few]
    cases found : l.groups.findIdx? fun group => group.id = id with
    | none => exact .inl ⟨rfl, fun _ => rfl⟩
    | some index =>
      obtain ⟨inside, here, -⟩ := List.findIdx?_eq_some_iff_getElem.mp found
      have target : (if index = 0 then 1 else index - 1) < l.groups.length := by
        split <;> omega
      have left : (l.groups.eraseIdx index)[index - 1]? =
          l.groups[if index = 0 then 1 else index - 1]? := by
        rw [List.getElem?_eraseIdx]
        by_cases first : index = 0
        · rw [if_pos first, first]
          rfl
        · rw [if_neg first, if_pos (by omega)]
      refine .inr ⟨index, l.groups[index], l.groups[if index = 0 then 1 else index - 1], rfl,
        List.getElem?_eq_getElem inside, of_decide_eq_true here, by omega, ?_, ?_⟩
      · rw [left, List.getElem?_eq_getElem target]
      · simp only [Option.bind_eq_bind, Option.bind_some]
        rw [List.getElem?_eq_getElem target, List.getElem?_eq_getElem inside]
        rfl

def folded (w : Widths Share) (l : Layout Share) (index : ℕ) (share : Share) : List (Group Share) :=
  (l.groups.eraseIdx index).modify (index - 1) fun group => { group with share := w.plus group.share share }

def heirOf (id next owner : GroupId) : GroupId := if owner = id then next else owner

lemma close_eq {w : Widths Share} {id next : GroupId} {index : ℕ} {share : Share}
    (found : l.foldTarget id = some (index, share, next)) :
    l.close w id =
      (true,
        { groups := l.folded w index share
          active := heirOf id next l.active
          owners := if (l.folded w index share).length = 1 then []
            else Register.relabel (heirOf id next) l.settleOwners.owners }) := by
  obtain ⟨missing, -⟩ | ⟨i, gone, neighbour, position, held, -, two, beside, target⟩ := foldTarget_eq l id
  · rw [missing] at found
    cases found
  · rw [target] at found
    obtain ⟨rfl, rfl, rfl⟩ : i = index ∧ gone.share = share ∧ neighbour.id = next := by simpa using found
    have held' : l.settleOwners.groups[i]? = some gone := held
    have beside' : (l.settleOwners.groups.eraseIdx i)[i - 1]? = some neighbour := beside
    unfold Layout.close
    rw [if_neg (by omega), position]
    dsimp only
    rw [held', beside']
    rfl

lemma Sound.folded (h : l.Sound) (w : Widths Share) {id next : GroupId} {index : ℕ} {share : Share}
    (found : l.foldTarget id = some (index, share, next)) :
    ((l.folded w index share).map Group.id).Nodup ∧
      (∀ x, x ∈ (l.folded w index share).map Group.id ↔ x ∈ l.ids ∧ x ≠ id) ∧
      next ∈ l.ids ∧ next ≠ id ∧ 2 ≤ l.groups.length ∧
      ∀ g ∈ l.folded w index share, ∃ g' ∈ l.groups, g'.id = g.id ∧ g'.pick = g.pick := by
  obtain ⟨missing, -⟩ | ⟨i, gone, neighbour, -, held, closed, two, beside, target⟩ := foldTarget_eq l id
  · rw [missing] at found
    cases found
  · rw [target] at found
    obtain ⟨rfl, rfl, rfl⟩ : i = index ∧ gone.share = share ∧ neighbour.id = next := by simpa using found
    obtain ⟨inside, rfl⟩ := List.getElem?_eq_some_iff.mp held
    have left : (l.folded w i l.groups[i].share).map Group.id = (l.groups.eraseIdx i).map Group.id := by
      refine map_modify Group.id (fun g => ?_) _ _
      rfl
    have perm := (List.getElem_cons_eraseIdx_perm inside).map Group.id
    rw [List.map_cons, closed] at perm
    obtain ⟨fresh, nodup⟩ := List.nodup_cons.mp (perm.nodup_iff.mpr h.ids)
    have mem : ∀ x, x ∈ (l.groups.eraseIdx i).map Group.id ↔ x ∈ l.ids ∧ x ≠ id := fun x => by
      have either : x ∈ l.ids ↔ x = id ∨ x ∈ (l.groups.eraseIdx i).map Group.id := by
        rw [← List.mem_cons, perm.mem_iff]
        rfl
      rw [either]
      constructor
      · intro here
        refine ⟨.inr here, ?_⟩
        rintro rfl
        exact fresh here
      · rintro ⟨here | here, apart⟩
        · exact absurd here apart
        · exact here
    obtain ⟨known, apart⟩ := (mem neighbour.id).mp (List.mem_map_of_mem (List.mem_of_getElem? beside))
    rw [left]
    refine ⟨nodup, mem, known, apart, two, fun g hg => ?_⟩
    obtain ⟨g', hg', rfl | rfl⟩ := mem_modify hg
    · exact ⟨g, List.mem_of_mem_eraseIdx hg', rfl, rfl⟩
    · exact ⟨g', List.mem_of_mem_eraseIdx hg', rfl, rfl⟩

lemma Sound.closed (h : l.Sound) (w : Widths Share) {id next : GroupId} {index : ℕ} {share : Share}
    (found : l.foldTarget id = some (index, share, next)) :
    (l.close w id).2.Sound ∧ (∀ x, x ∈ (l.close w id).2.ids ↔ x ∈ l.ids ∧ x ≠ id) ∧
      ∀ p, (l.close w id).2.owner p = heirOf id next (l.owner p) := by
  obtain ⟨nodup, mem, known, apart, two, kept⟩ := h.folded w found
  obtain ⟨settledSound, settled, owners⟩ := h.settle two
  have stays : ∀ x ∈ l.ids, heirOf id next x ∈ (l.folded w index share).map Group.id := fun x hx => by
    rw [mem]
    unfold heirOf
    split
    · exact ⟨known, apart⟩
    · next other => exact ⟨hx, other⟩
  have active := stays l.active h.active
  have nonempty : l.folded w index share ≠ [] := by
    intro none
    rw [none] at active
    cases active
  have pos := List.length_pos_iff.mpr nonempty
  rw [close_eq found]
  obtain one | beside : (l.folded w index share).length = 1 ∨ 2 ≤ (l.folded w index share).length := by omega
  · rw [if_pos one]
    have sound : ({ groups := l.folded w index share, active := heirOf id next l.active, owners := [] } :
        Layout Share).Sound := by
      refine ⟨nonempty, nodup, active, List.nodup_nil, nofun, fun _ => rfl, fun two => ?_⟩
      change 2 ≤ (l.folded w index share).length at two
      omega
    refine ⟨sound, mem, fun p => ?_⟩
    rw [owner_lone (l := { groups := l.folded w index share, active := _, owners := [] }) one.le]
    exact (mem_ids_lone sound one (stays _ (h.owner_mem p))).symm
  · rw [if_neg (by omega)]
    have claimed : ∀ p, Register.lookup (Register.relabel (heirOf id next) l.settleOwners.owners) p =
        (l.settleOwners.claimed p).map (heirOf id next) := fun p => Register.lookup_relabel ..
    have same : ∀ p, ({ groups := l.folded w index share
                        active := heirOf id next l.active
                        owners := Register.relabel (heirOf id next) l.settleOwners.owners } :
        Layout Share).owner p = heirOf id next (l.owner p) := fun p => by
      rw [owner_beside (by exact beside), ← owners p, owner_beside (l := l.settleOwners) two]
      change (Register.lookup (Register.relabel (heirOf id next) l.settleOwners.owners) p).getD _ = _
      rw [claimed]
      cases l.settleOwners.claimed p <;> rfl
    refine ⟨⟨nonempty, nodup, active, settledSound.distinct.relabel _, fun e he => ?_, fun one => ?_,
      fun _ g hg p shows => ?_⟩, mem, same⟩
    · obtain ⟨e', he', rfl⟩ := List.mem_map.mp he
      exact stays _ (settledSound.known e' he')
    · change (l.folded w index share).length = 1 at one
      omega
    · obtain ⟨g', hg', sameId, samePick⟩ := kept g hg
      have remains := (mem g.id).mp (List.mem_map_of_mem hg)
      rw [same, ← sameId, h.own two g' hg' p (samePick.trans shows)]
      exact if_neg (sameId ▸ remains.2)

lemma Sound.close (h : l.Sound) (w : Widths Share) (id : GroupId) : (l.close w id).2.Sound := by
  obtain ⟨-, unchanged⟩ | ⟨index, gone, next, -, -, -, -, -, found⟩ := foldTarget_eq l id
  · rw [unchanged]
    exact h
  · exact (h.closed w found).1

end Layout

end Sheprd.Browser
