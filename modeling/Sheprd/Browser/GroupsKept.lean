import Sheprd.Browser.Groups

namespace Sheprd.Browser

open Sheprd.Lib

section ModifyFirst

variable {α β : Type} {p : α → Bool} {f : α → α}

lemma mem_modifyFirst {as : List α} {b : α} (h : b ∈ modifyFirst p f as) :
    b ∈ as ∨ ∃ a ∈ as, p a = true ∧ b = f a := by
  induction as with
  | nil => cases h
  | cons a as ih =>
    unfold modifyFirst at h
    split at h
    · next found =>
      obtain rfl | h := List.mem_cons.mp h
      · exact .inr ⟨a, List.mem_cons_self .., found, rfl⟩
      · exact .inl (List.mem_cons_of_mem _ h)
    · obtain rfl | h := List.mem_cons.mp h
      · exact .inl (List.mem_cons_self ..)
      · obtain h | ⟨a', h, found, same⟩ := ih h
        · exact .inl (List.mem_cons_of_mem _ h)
        · exact .inr ⟨a', List.mem_cons_of_mem _ h, found, same⟩

lemma map_modifyFirst (g : α → β) (keeps : ∀ a, g (f a) = g a) (as : List α) :
    (modifyFirst p f as).map g = as.map g := by
  induction as with
  | nil => rfl
  | cons a as ih =>
    unfold modifyFirst
    split
    · rw [List.map_cons, keeps, List.map_cons]
    · rw [List.map_cons, ih, List.map_cons]

lemma length_modifyFirst (as : List α) : (modifyFirst p f as).length = as.length := by
  induction as with
  | nil => rfl
  | cons a as ih =>
    unfold modifyFirst
    split
    · rfl
    · rw [List.length_cons, ih, List.length_cons]

lemma modifyFirst_eq_map {as : List α} (once : as.Pairwise fun a b => ¬ (p a = true ∧ p b = true)) :
    modifyFirst p f as = as.map fun a => if p a then f a else a := by
  induction as with
  | nil => rfl
  | cons a as ih =>
    obtain ⟨apart, once⟩ := List.pairwise_cons.mp once
    unfold modifyFirst
    by_cases found : p a = true
    · have others : ∀ b ∈ as, (if p b then f b else b) = b := fun b hb =>
        if_neg fun also => apart b hb ⟨found, also⟩
      rw [if_pos found, List.map_cons, if_pos found, List.map_congr_left others, List.map_id']
    · rw [if_neg found, List.map_cons, if_neg found, ih once]

end ModifyFirst

namespace Layout

variable {Share : Type} {l : Layout Share}

def ids (l : Layout Share) : List GroupId := l.groups.map Group.id

structure Sound (l : Layout Share) : Prop where
  nonempty : l.groups ≠ []
  ids : l.ids.Nodup
  active : l.active ∈ l.ids
  distinct : Register.Distinct l.owners
  known : ∀ e ∈ l.owners, e.2 ∈ l.ids
  lone : l.groups.length = 1 → l.owners = []
  own : 2 ≤ l.groups.length → ∀ g ∈ l.groups, ∀ p, g.pick = some p → l.owner p = g.id

lemma owner_beside (two : 2 ≤ l.groups.length) (p : Pick) :
    l.owner p = (l.claimed p).getD l.active := by
  have more : decide (l.groups.length > 1) = true := decide_eq_true (by omega)
  cases h : l.claimed p with
  | none => simp [owner, h]
  | some id => simp [owner, h, Option.filter, more]

lemma owner_lone (one : l.groups.length ≤ 1) (p : Pick) : l.owner p = l.active := by
  have more : decide (l.groups.length > 1) = false := decide_eq_false (by omega)
  cases h : l.claimed p with
  | none => simp [owner, h]
  | some id => simp [owner, h, Option.filter, more]

lemma Sound.length (h : l.Sound) : l.groups.length = 1 ∨ 2 ≤ l.groups.length := by
  have pos := List.length_pos_iff.mpr h.nonempty
  omega

lemma Sound.claimed_known (h : l.Sound) {p : Pick} {id : GroupId} (claimed : l.claimed p = some id) :
    id ∈ l.ids := h.known _ (Register.mem_of_lookup claimed)

lemma Sound.owner_mem (h : l.Sound) (p : Pick) : l.owner p ∈ l.ids := by
  obtain one | two := h.length
  · rw [owner_lone one.le]
    exact h.active
  · rw [owner_beside two]
    cases claimed : l.claimed p with
    | none => exact h.active
    | some id => exact h.claimed_known claimed

lemma group_isSome {id : GroupId} : (l.group id).isSome ↔ id ∈ l.ids := by
  simp [group, ids]

lemma known_of_not_isNone {id : GroupId} (h : ¬ (l.group id).isNone) : id ∈ l.ids := by
  refine group_isSome.mp ?_
  cases found : l.group id with
  | none =>
    rw [found] at h
    exact absurd rfl h
  | some g => rfl

lemma Sound.lists_once (h : l.Sound) (p : Pick) : ∃! id, l.lists id p = true := by
  have listed : ∀ id, l.lists id p = true ↔ id ∈ l.ids ∧ l.owner p = id := fun id => by
    rw [lists, Bool.and_eq_true, group_isSome, decide_eq_true_eq]
  refine ⟨l.owner p, (listed _).mpr ⟨h.owner_mem p, rfl⟩, fun id here => ?_⟩
  exact ((listed id).mp here).2.symm

lemma Sound.shown_once (h : l.Sound) {g g' : Group Share} {p : Pick} (hg : g ∈ l.groups)
    (hg' : g' ∈ l.groups) (shows : g.pick = some p) (shows' : g'.pick = some p) : g.id = g'.id := by
  obtain one | two := h.length
  · obtain ⟨lone, only⟩ := List.length_eq_one_iff.mp one
    rw [only] at hg hg'
    rw [List.mem_singleton.mp hg, List.mem_singleton.mp hg']
  · rw [← h.own two g hg p shows, h.own two g' hg' p shows']

structure Fits (l : Layout Share) (owners : List (Pick × GroupId)) : Prop where
  distinct : Register.Distinct owners
  known : ∀ e ∈ owners, e.2 ∈ l.ids
  same : ∀ p, (Register.lookup owners p).getD l.active = l.owner p

lemma Sound.fits (h : l.Sound) (two : 2 ≤ l.groups.length) : l.Fits l.owners where
  distinct := h.distinct
  known := h.known
  same p := (owner_beside two p).symm

lemma Fits.enter {owners : List (Pick × GroupId)} (h : l.Sound) (f : l.Fits owners) (p : Pick) :
    l.Fits (Register.enter owners p (l.owner p)) where
  distinct := f.distinct.enter p _
  known e he := by
    obtain he | rfl := Register.mem_enter he
    · exact f.known e he
    · exact h.owner_mem p
  same q := by
    rw [Register.lookup_enter, ← f.same q]
    cases claimed : Register.lookup owners q with
    | some id => rfl
    | none =>
      by_cases here : p = q
      · have same := f.same q
        rw [claimed] at same
        simp [here, ← same]
      · simp [here]

lemma Fits.enter_active {owners : List (Pick × GroupId)} (f : l.Fits owners) (p : Pick) :
    Register.enter owners p l.active = Register.enter owners p (l.owner p) := by
  unfold Register.enter
  split
  · next missing =>
    have same := f.same p
    rw [missing] at same
    rw [← same]
    rfl
  · rfl

lemma Sound.settleOne (h : l.Sound) (two : 2 ≤ l.groups.length) (owners : List (Pick × GroupId))
    (p : Pick) :
    Layout.settleOne l.groups owners p = owners ∧ (∀ g ∈ l.groups, g.pick ≠ some p) ∨
      Layout.settleOne l.groups owners p = Register.enter owners p (l.owner p) := by
  unfold Layout.settleOne
  cases found : l.groups.find? fun group => group.pick = some p with
  | none =>
    refine .inl ⟨rfl, fun g hg shows => ?_⟩
    have missing := List.find?_eq_none.mp found g hg
    exact missing (by simpa using shows)
  | some g =>
    have shows : g.pick = some p := by simpa using List.find?_some found
    rw [h.own two g (List.mem_of_find?_eq_some found) p shows]
    exact .inr rfl

lemma Sound.refile {owners : List (Pick × GroupId)} (h : l.Sound) (two : 2 ≤ l.groups.length)
    (f : l.Fits owners) :
    ({ l with owners } : Layout Share).Sound ∧
      ∀ p, ({ l with owners } : Layout Share).owner p = l.owner p := by
  have same : ∀ p, ({ l with owners } : Layout Share).owner p = l.owner p := fun p => by
    rw [owner_beside (l := { l with owners }) two]
    exact f.same p
  refine ⟨⟨h.nonempty, h.ids, h.active, f.distinct, f.known, fun one => ?_, fun two g hg p shows => ?_⟩, same⟩
  · change l.groups.length = 1 at one
    omega
  · rw [same]
    exact h.own two g hg p shows

def Settled (l : Layout Share) : Prop :=
  ∀ g ∈ l.groups, ∀ p, g.pick = some p → l.claimed p = some g.id

lemma fits_settle (h : l.Sound) (two : 2 ≤ l.groups.length) (ps : List Pick)
    {owners : List (Pick × GroupId)} (f : l.Fits owners) :
    l.Fits (ps.foldl (Layout.settleOne l.groups) owners) ∧
      (∀ p id, Register.lookup owners p = some id →
        Register.lookup (ps.foldl (Layout.settleOne l.groups) owners) p = some id) ∧
      ∀ p ∈ ps, ∀ g ∈ l.groups, g.pick = some p →
        Register.lookup (ps.foldl (Layout.settleOne l.groups) owners) p = some g.id := by
  induction ps generalizing owners with
  | nil => exact ⟨f, fun _ _ h => h, by simp⟩
  | cons q ps ih =>
    rw [List.foldl_cons]
    obtain ⟨same, unshown⟩ | entered := h.settleOne two owners q
    · rw [same]
      obtain ⟨fits, stays, named⟩ := ih f
      refine ⟨fits, stays, fun p hp g hg shows => ?_⟩
      obtain rfl | hp := List.mem_cons.mp hp
      · exact absurd shows (unshown g hg)
      · exact named p hp g hg shows
    · rw [entered]
      obtain ⟨fits, stays, named⟩ := ih (f.enter h q)
      refine ⟨fits, fun p id held => stays p id ?_, fun p hp g hg shows => ?_⟩
      · rw [Register.lookup_enter, held]
        rfl
      · obtain rfl | hp := List.mem_cons.mp hp
        · refine stays p g.id ?_
          have own := h.own two g hg p shows
          have had := f.same p
          rw [Register.lookup_enter, own, if_pos rfl]
          cases held : Register.lookup owners p with
          | none => rfl
          | some id =>
            rw [held, own] at had
            exact congrArg some had
        · exact named p hp g hg shows

lemma Sound.settle (h : l.Sound) (two : 2 ≤ l.groups.length) :
    l.settleOwners.Sound ∧ l.settleOwners.Settled ∧ ∀ p, l.settleOwners.owner p = l.owner p := by
  obtain ⟨fits, -, named⟩ := fits_settle h two (l.groups.filterMap Group.pick) (h.fits two)
  obtain ⟨sound, same⟩ := h.refile two fits
  refine ⟨sound, fun g hg p shows => ?_, same⟩
  exact named p (List.mem_filterMap.mpr ⟨g, hg, shows⟩) g hg shows

lemma Sound.use (h : l.Sound) (two : 2 ≤ l.groups.length) (settled : l.Settled) {id : GroupId}
    (known : id ∈ l.ids) : ({ l with active := id } : Layout Share).Sound where
  nonempty := h.nonempty
  ids := h.ids
  active := known
  distinct := h.distinct
  known := h.known
  lone := h.lone
  own _ g hg p shows := by
    rw [owner_beside (l := { l with active := id }) two]
    have named : Layout.claimed { l with active := id } p = some g.id := settled g hg p shows
    rw [named]
    rfl

lemma sound_new (w : Widths Share) (id : GroupId) : (new w id).Sound where
  nonempty := by simp [new]
  ids := by simp [new, ids]
  active := by simp [new, ids]
  distinct := List.nodup_nil
  known := by simp [new]
  lone _ := rfl
  own two := by
    simp [new] at two

lemma two_of_ne {id id' : GroupId} (h : id ∈ l.ids) (h' : id' ∈ l.ids) (apart : id ≠ id') :
    2 ≤ l.groups.length := by
  by_contra few
  have length : l.ids.length ≤ 1 := by
    rw [ids, List.length_map]
    omega
  match l.ids, length, h, h' with
  | [one], _, h, h' => exact apart ((List.mem_singleton.mp h).trans (List.mem_singleton.mp h').symm)

lemma Sound.activate (h : l.Sound) (id : GroupId) :
    (l.activate id).2.Sound ∧ (l.activate id).2.ids = l.ids := by
  unfold Layout.activate
  by_cases stays : l.active = id ∨ (l.group id).isNone
  · rw [if_pos stays]
    exact ⟨h, rfl⟩
  · rw [if_neg stays]
    obtain ⟨apart, known⟩ := not_or.mp stays
    have known : id ∈ l.ids := known_of_not_isNone known
    have two := two_of_ne h.active known apart
    obtain ⟨sound, settled, -⟩ := h.settle two
    exact ⟨sound.use two settled known, rfl⟩

lemma fits_adopt (h : l.Sound) (tabs : List Pick) {owners : List (Pick × GroupId)} (f : l.Fits owners) :
    l.Fits (tabs.foldl (fun owners pick => Register.enter owners pick l.active) owners) := by
  induction tabs generalizing owners with
  | nil => exact f
  | cons p tabs ih =>
    rw [List.foldl_cons, f.enter_active]
    exact ih (f.enter h p)

lemma Sound.adopt (h : l.Sound) (tabs : List Pick) :
    (l.adopt tabs).Sound ∧ ∀ p, (l.adopt tabs).owner p = l.owner p := by
  unfold Layout.adopt
  by_cases few : l.groups.length < 2
  · rw [if_pos few]
    exact ⟨h, fun _ => rfl⟩
  · rw [if_neg few]
    have two : 2 ≤ l.groups.length := by omega
    exact h.refile two (fits_adopt h tabs (h.fits two))

lemma adopt_groups (tabs : List Pick) : (l.adopt tabs).groups = l.groups := by
  unfold Layout.adopt
  split <;> rfl

def taken (l : Layout Share) (id : GroupId) (pick : Pick) : List (Group Share) :=
  l.groups.map fun group =>
    if group.id ≠ id ∧ group.pick = some pick then { group with pick := none } else group

lemma ids_taken (id : GroupId) (pick : Pick) : (l.taken id pick).map Group.id = l.ids := by
  rw [taken, List.map_map]
  refine List.map_congr_left fun group _ => ?_
  simp only [Function.comp_apply]
  split <;> rfl

lemma mem_taken {id : GroupId} {pick : Pick} {g : Group Share} (h : g ∈ l.taken id pick) {p : Pick}
    (shows : g.pick = some p) : g ∈ l.groups ∧ (p = pick → g.id = id) := by
  obtain ⟨group, hg, same⟩ := List.mem_map.mp h
  split at same
  · rw [← same] at shows
    cases shows
  · next other =>
    subst same
    refine ⟨hg, ?_⟩
    rintro rfl
    by_contra apart
    exact other ⟨apart, shows⟩

lemma claim_eq (id : GroupId) (pick : Pick) :
    l.claim id pick = if l.groups.length < 2 then { l with groups := l.taken id pick }
      else { l with groups := l.taken id pick, owners := Register.assign pick id l.owners } := by
  unfold Layout.claim taken
  dsimp only
  rw [List.length_map]

lemma ids_claim (id : GroupId) (pick : Pick) : (l.claim id pick).ids = l.ids := by
  rw [claim_eq]
  split <;> exact ids_taken id pick

lemma Sound.claim (h : l.Sound) {id : GroupId} (known : id ∈ l.ids) (pick : Pick) :
    (l.claim id pick).Sound ∧
      ∀ p, (l.claim id pick).owner p = if p = pick then id else l.owner p := by
  have length : (l.taken id pick).length = l.groups.length := List.length_map ..
  have nonempty : l.taken id pick ≠ [] := by simpa [taken] using h.nonempty
  have same := ids_claim (l := l) id pick
  obtain one | two := h.length
  · have eq : l.claim id pick = { l with groups := l.taken id pick } := by
      rw [claim_eq, if_pos (by omega)]
    have active : l.active = id := by
      by_contra apart
      have two := two_of_ne h.active known apart
      omega
    rw [eq] at same ⊢
    refine ⟨⟨nonempty, ?_, ?_, h.distinct, ?_, fun _ => h.lone one, fun two => ?_⟩, fun p => ?_⟩
    · rw [same]
      exact h.ids
    · rw [same]
      exact h.active
    · rw [same]
      exact h.known
    · change 2 ≤ (l.taken id pick).length at two
      omega
    · rw [owner_lone (l := { l with groups := l.taken id pick }) (by change (l.taken id pick).length ≤ 1; omega),
        owner_lone one.le, active]
      simp
  · have eq : l.claim id pick =
        { l with groups := l.taken id pick, owners := Register.assign pick id l.owners } := by
      rw [claim_eq, if_neg (by omega)]
    have owners : ∀ p, (l.claim id pick).owner p = if p = pick then id else l.owner p := by
      intro p
      rw [eq, owner_beside (by change 2 ≤ (l.taken id pick).length; omega), owner_beside two]
      unfold claimed
      rw [Register.lookup_assign]
      by_cases here : p = pick
      · simp [here]
      · rw [if_neg here, if_neg (Ne.symm here)]
    refine ⟨?_, owners⟩
    rw [eq] at owners same ⊢
    refine ⟨nonempty, ?_, ?_, h.distinct.assign pick id, ?_, fun one => ?_, fun _ g hg p shows => ?_⟩
    · rw [same]
      exact h.ids
    · rw [same]
      exact h.active
    · intro e he
      rw [same]
      obtain he | he := Register.mem_assign he
      · exact h.known e he
      · rw [he]
        exact known
    · change (l.taken id pick).length = 1 at one
      omega
    · obtain ⟨hg, own⟩ := mem_taken hg shows
      rw [owners]
      by_cases here : p = pick
      · rw [if_pos here, own here]
      · rw [if_neg here]
        exact h.own two g hg p shows

lemma Sound.give (h : l.Sound) (id : GroupId) (pick : Pick) : (l.give id pick).Sound := by
  unfold Layout.give
  split
  · next known => exact (h.claim (group_isSome.mp known) pick).1
  · exact h

lemma ids_setPick (id : GroupId) (pick : Option Pick) : (l.setPick id pick).ids = l.ids := by
  refine map_modifyFirst Group.id (fun g => ?_) l.groups
  rfl

lemma Sound.setPick (h : l.Sound) {id : GroupId} {pick : Pick} (own : l.owner pick = id) :
    (l.setPick id (some pick)).Sound := by
  have length : (l.setPick id (some pick)).groups.length = l.groups.length :=
    length_modifyFirst l.groups
  have owners : ∀ p, (l.setPick id (some pick)).owner p = l.owner p := fun p => by
    unfold owner claimed
    rw [length]
    rfl
  refine ⟨?_, ?_, ?_, h.distinct, ?_, fun one => h.lone (length ▸ one), fun two g hg p shows => ?_⟩
  · rw [← List.length_pos_iff, length]
    exact List.length_pos_iff.mpr h.nonempty
  · rw [ids_setPick]
    exact h.ids
  · rw [ids_setPick]
    exact h.active
  · rw [ids_setPick]
    exact h.known
  · rw [owners]
    obtain hg | ⟨g', hg', found, rfl⟩ := mem_modifyFirst hg
    · exact h.own (length ▸ two) g hg p shows
    · cases shows
      rw [own]
      exact (of_decide_eq_true found).symm

lemma Sound.show_ (h : l.Sound) (id : GroupId) (pick : Pick) : (l.show_ id pick).Sound := by
  unfold Layout.show_
  by_cases unknown : (l.group id).isNone
  · rw [if_pos unknown]
    exact h
  · rw [if_neg unknown]
    have known : id ∈ l.ids := known_of_not_isNone unknown
    obtain ⟨sound, owners⟩ := h.claim known pick
    exact sound.setPick (by rw [owners, if_pos rfl])

lemma Sound.choose (h : l.Sound) (id : GroupId) (pick : Pick) : (l.choose id pick).Sound := by
  unfold Layout.choose
  split
  · exact (h.activate id).1.show_ id pick
  · exact h

lemma Sound.focusMoved (h : l.Sound) (id : GroupId) (tab : String) : (l.focusMoved id tab).Sound := by
  unfold Layout.focusMoved
  split
  · exact h.show_ id _
  · exact h

def cleared (l : Layout Share) (pick : Pick) : List (Group Share) :=
  l.groups.map fun group => if group.pick = some pick then { group with pick := none } else group

lemma ids_cleared (pick : Pick) : (l.cleared pick).map Group.id = l.ids := by
  rw [cleared, List.map_map]
  refine List.map_congr_left fun group _ => ?_
  simp only [Function.comp_apply]
  split <;> rfl

lemma mem_cleared {pick : Pick} {g : Group Share} (h : g ∈ l.cleared pick) :
    g.pick ≠ some pick ∧ (∀ p, g.pick = some p → g ∈ l.groups) := by
  obtain ⟨group, hg, same⟩ := List.mem_map.mp h
  split at same
  · rw [← same]
    exact ⟨nofun, nofun⟩
  · next other =>
    subst same
    exact ⟨other, fun _ _ => hg⟩

lemma Sound.cleared_eq (h : l.Sound) (pick : Pick) :
    modifyFirst (fun group => group.pick = some pick) (fun group => { group with pick := none }) l.groups =
      l.cleared pick := by
  have once : l.groups.Pairwise fun g g' =>
      ¬ (decide (g.pick = some pick) = true ∧ decide (g'.pick = some pick) = true) := by
    have apart : l.groups.Pairwise fun g g' => g.id ≠ g'.id := List.pairwise_map.mp h.ids
    refine apart.imp_of_mem fun hg hg' apart => ?_
    rintro ⟨shows, shows'⟩
    exact apart (h.shown_once hg hg' (of_decide_eq_true shows) (of_decide_eq_true shows'))
  rw [modifyFirst_eq_map once]
  refine List.map_congr_left fun g _ => ?_
  simp

lemma Sound.forget_eq (h : l.Sound) (pick : Pick) :
    (l.forget pick).2 = { l with groups := l.cleared pick, owners := Register.drop l.owners pick } := by
  unfold Layout.forget
  dsimp only
  cases found : l.groups.find? fun group => group.pick = some pick with
  | none =>
    have same : l.cleared pick = l.groups := by
      unfold cleared
      refine (List.map_congr_left fun g hg => ?_).trans (List.map_id _)
      have missing := List.find?_eq_none.mp found g hg
      exact if_neg (by simpa using missing)
    rw [same]
  | some group =>
    rw [← h.cleared_eq pick]

lemma Sound.forget (h : l.Sound) (pick : Pick) : (l.forget pick).2.Sound := by
  have length : (l.cleared pick).length = l.groups.length := List.length_map ..
  have same : ({ l with groups := l.cleared pick, owners := Register.drop l.owners pick } : Layout Share).ids =
      l.ids := ids_cleared pick
  rw [h.forget_eq]
  refine ⟨?_, ?_, ?_, h.distinct.drop pick, ?_, fun one => ?_, fun two g hg p shows => ?_⟩
  · simpa [cleared] using h.nonempty
  · rw [same]
    exact h.ids
  · rw [same]
    exact h.active
  · intro e he
    rw [same]
    exact h.known e (List.mem_of_mem_filter he)
  · have none : l.owners = [] := h.lone (length ▸ one)
    simp [none, Register.drop]
  · have two' : 2 ≤ l.groups.length := length ▸ two
    obtain ⟨apart, had⟩ := mem_cleared hg
    have other : p ≠ pick := by
      rintro rfl
      exact apart shows
    rw [owner_beside two]
    unfold claimed
    rw [Register.lookup_drop, if_neg other, ← h.own two' g (had p shows) p shows, owner_beside two']
    rfl

end Layout

end Sheprd.Browser
