import Sheprd.Desktop.Processes

namespace Sheprd.Desktop.Processes

open Sheprd.Lib

variable {F : Type} {entries : List (Entry F)} {root : ℕ}

lemma newestFirst_total (a b : Entry F) : newestFirst a b ∨ newestFirst b a := by
  simp only [newestFirst]
  omega

lemma newestFirst_trans {a b c : Entry F} (h : newestFirst a b) (h' : newestFirst b c) :
    newestFirst a c := by
  simp only [newestFirst] at *
  omega

instance : Std.Total (newestFirst (F := F)) := ⟨newestFirst_total⟩
instance : IsTrans (Entry F) newestFirst := ⟨fun _ _ _ => newestFirst_trans⟩

lemma newestFirst_antisymm {a b : Entry F} (h : newestFirst a b) (h' : newestFirst b a) :
    a.pid = b.pid := by
  simp only [newestFirst, Entry.pid] at *
  omega

section Distinct

variable (hdistinct : (entries.map Entry.pid).Nodup)
include hdistinct

lemma entry_unique {a b : Entry F} (ha : a ∈ entries) (hb : b ∈ entries) (h : a.pid = b.pid) :
    a = b :=
  List.inj_on_of_nodup_map hdistinct ha hb h

lemma lookup_entry {pid : ℕ} {entry : Entry F} :
    (Dict.collect Entry.pid id entries).lookup pid = some entry ↔
      entry ∈ entries ∧ entry.pid = pid := by
  rw [Dict.lookup_collect hdistinct]
  constructor
  · rintro ⟨entry, hentry, hpid, rfl⟩
    exact ⟨hentry, hpid⟩
  · rintro ⟨hentry, hpid⟩
    exact ⟨entry, hentry, hpid, rfl⟩

lemma lookup_table {pid started : ℕ} {parent : Option ℕ} :
    (table entries).lookup pid = some (parent, started) ↔
      ∃ entry ∈ entries, entry.pid = pid ∧ entry.parent = parent ∧
        entry.identity.started = started := by
  rw [table, Dict.lookup_collect hdistinct]
  simp only [Prod.mk.injEq, Entry.pid]

lemma length_table : (table entries).entries.length = entries.length :=
  Dict.length_collect hdistinct

lemma values_perm (root : ℕ) : (((Dict.collect Entry.pid id entries).erase root).entries.map
    Sigma.snd).Perm (entries.filter fun entry => entry.pid ≠ root) := by
  have hkey : ∀ e ∈ ((Dict.collect Entry.pid id entries).erase root).entries,
      e.1 ≠ root ∧ e.2 ∈ entries ∧ e.2.pid = e.1 := by
    intro e he
    obtain ⟨hroot, hlookup⟩ := Dict.of_lookup_erase (AList.mem_lookup_iff.mpr he)
    exact ⟨hroot, (lookup_entry hdistinct).mp hlookup⟩
  have hnodup : (((Dict.collect Entry.pid id entries).erase root).entries.map Sigma.snd).Nodup := by
    refine List.Nodup.map_on ?_ (AList.nodupKeys _).of_map
    intro e he e' he' hsame
    have hpid : e.1 = e'.1 := by rw [← (hkey e he).2.2, ← (hkey e' he').2.2, hsame]
    exact Sigma.ext hpid (heq_of_eq hsame)
  refine (List.perm_ext_iff_of_nodup hnodup (hdistinct.of_map.filter _)).mpr fun entry => ?_
  rw [List.mem_map, List.mem_filter, decide_eq_true_eq]
  constructor
  · rintro ⟨e, he, rfl⟩
    obtain ⟨hroot, hentry, hpid⟩ := hkey e he
    exact ⟨hentry, by rwa [hpid]⟩
  · rintro ⟨hentry, hroot⟩
    refine ⟨⟨entry.pid, entry⟩, AList.mem_lookup_iff.mp ?_, rfl⟩
    rw [AList.lookup_erase_ne hroot]
    exact (lookup_entry hdistinct).mpr ⟨hentry, rfl⟩

variable {order : List (Entry F) → List (Entry F)} (horder : ∀ values, (order values).Perm values)
include horder

lemma lookup_children (root pid : ℕ) :
    (((Dict.group Entry.parent (order (((Dict.collect Entry.pid id entries).erase
      root).entries.map Sigma.snd))).mapValues (List.insertionSort newestFirst)).lookup
        pid).getD [] =
      (entries.filter fun child => child.pid ≠ root ∧ child.parent = some pid).insertionSort
        newestFirst := by
  have hvalues := (horder _).trans (values_perm hdistinct root)
  generalize order _ = values at hvalues ⊢
  have hgroup := Dict.lookup_group Entry.parent values pid
  have hsorted : (((Dict.group Entry.parent values).mapValues
      (List.insertionSort newestFirst)).lookup pid).getD [] =
        (values.filter fun child => child.parent = some pid).insertionSort newestFirst := by
    rw [Dict.lookup_mapValues, ← hgroup]
    cases (Dict.group Entry.parent values).lookup pid <;> simp
  rw [hsorted]
  have hfilter : (values.filter fun child => child.parent = some pid).Perm
      (entries.filter fun child => child.pid ≠ root ∧ child.parent = some pid) := by
    have h := hvalues.filter fun child => decide (child.parent = some pid)
    rw [List.filter_filter] at h
    refine h.trans (List.Perm.of_eq (List.filter_congr fun child _ => ?_))
    rw [Bool.decide_and, Bool.and_comm]
  refine List.Perm.eq_of_pairwise ?_ (List.pairwise_insertionSort _ _)
    (List.pairwise_insertionSort _ _)
    (((List.perm_insertionSort _ _).trans hfilter).trans (List.perm_insertionSort _ _).symm)
  intro a b ha hb hab hba
  have hb' := List.mem_of_mem_filter ((List.perm_insertionSort _ _).mem_iff.mp hb)
  have ha' := List.mem_of_mem_filter
    (hfilter.mem_iff.mp ((List.perm_insertionSort _ _).mem_iff.mp ha))
  exact entry_unique hdistinct ha' hb' (newestFirst_antisymm hab hba)

end Distinct

lemma mem_below {entry child : Entry F} :
    child ∈ below entries root entry ↔
      child ∈ entries ∧ child.pid ≠ root ∧ child.parent = some entry.pid := by
  rw [below, List.mem_reverse, (List.perm_insertionSort _ _).mem_iff, List.mem_filter,
    decide_eq_true_eq]

lemma below_nodup (hdistinct : (entries.map Entry.pid).Nodup) (entry : Entry F) :
    ((below entries root entry).map Entry.pid).Nodup := by
  refine List.Nodup.map_on ?_ ?_
  · intro a ha b hb hab
    exact entry_unique hdistinct (mem_below.mp ha).1 (mem_below.mp hb).1 hab
  · rw [below, List.nodup_reverse, (List.perm_insertionSort _ _).nodup_iff]
    exact hdistinct.of_map.filter _

structure Walking (entries : List (Entry F)) (root : ℕ) (stack : List (Entry F × ℕ))
    (taken : List ℕ) : Prop where
  nodup : (stack.map (fun visit => visit.1.pid) ++ taken).Nodup
  listed : stack.map (fun visit => visit.1.pid) ++ taken ⊆ entries.map Entry.pid
  known : ∀ entry ∈ entries, entry.pid ∈ stack.map (fun visit => visit.1.pid) ++ taken →
    entry.pid = root ∨ ∃ pid ∈ taken, entry.parent = some pid

lemma Walking.length {stack : List (Entry F × ℕ)} {taken : List ℕ}
    (h : Walking entries root stack taken) : stack.length + taken.length ≤ entries.length := by
  have hlength := (List.subperm_of_subset h.nodup h.listed).length_le
  simpa using hlength

lemma map_pushed (entry : Entry F) (depth : ℕ) (stack : List (Entry F × ℕ)) :
    ((below entries root entry).map (·, depth + 1) ++ stack).map (fun visit => visit.1.pid) =
      (below entries root entry).map Entry.pid ++ stack.map fun visit => visit.1.pid := by
  rw [List.map_append, List.map_map]
  rfl

lemma Walking.fresh {entry : Entry F} {depth : ℕ} {stack : List (Entry F × ℕ)} {taken : List ℕ}
    (h : Walking entries root ((entry, depth) :: stack) taken) : entry.pid ∉ taken := by
  intro htaken
  have hnodup := h.nodup
  rw [List.map_cons, List.cons_append, List.nodup_cons] at hnodup
  exact hnodup.1 (List.mem_append_right _ htaken)

lemma Walking.push (hdistinct : (entries.map Entry.pid).Nodup) {entry : Entry F} {depth : ℕ}
    {stack : List (Entry F × ℕ)} {taken : List ℕ}
    (h : Walking entries root ((entry, depth) :: stack) taken) :
    Walking entries root ((below entries root entry).map (·, depth + 1) ++ stack)
      (entry.pid :: taken) := by
  have hmiddle : (stack.map (fun visit => visit.1.pid) ++ entry.pid :: taken).Perm
      (((entry, depth) :: stack).map (fun visit => visit.1.pid) ++ taken) := List.perm_middle
  refine ⟨?_, ?_, ?_⟩
  · rw [map_pushed, List.append_assoc]
    refine List.nodup_append.mpr ⟨below_nodup hdistinct entry, hmiddle.nodup_iff.mpr h.nodup, ?_⟩
    rintro pid hpid _ hother rfl
    obtain ⟨child, hchild, rfl⟩ := List.mem_map.mp hpid
    obtain ⟨hentries, hroot, hparent⟩ := mem_below.mp hchild
    rcases h.known child hentries (hmiddle.mem_iff.mp hother) with hpid | ⟨pid, htaken, hpid⟩
    · exact hroot hpid
    · obtain rfl := Option.some.inj (hparent.symm.trans hpid)
      exact h.fresh htaken
  · rw [map_pushed, List.append_assoc]
    refine List.append_subset.mpr ⟨?_, fun pid hpid => h.listed (hmiddle.mem_iff.mp hpid)⟩
    exact List.map_subset _ fun child hchild => (mem_below.mp hchild).1
  · intro other hother hpid
    rw [map_pushed, List.append_assoc, List.mem_append] at hpid
    rcases hpid with hpid | hpid
    · obtain ⟨child, hchild, hsame⟩ := List.mem_map.mp hpid
      obtain ⟨hentries, -, hparent⟩ := mem_below.mp hchild
      obtain rfl := entry_unique hdistinct hentries hother hsame
      exact .inr ⟨entry.pid, List.mem_cons_self, hparent⟩
    · rcases h.known other hother (hmiddle.mem_iff.mp hpid) with hroot | ⟨pid, htaken, hparent⟩
      · exact .inl hroot
      · exact .inr ⟨pid, List.mem_cons_of_mem _ htaken, hparent⟩

section Walk

variable [Zero F] [Add F] {foreground : List ℕ} {limit : ℕ}

lemma walk_visits (foreground : List ℕ) (limit : ℕ) (hdistinct : (entries.map Entry.pid).Nodup)
    {turns : ℕ}
    {children : Dict ℕ (List (Entry F))} {stack : List (Entry F × ℕ)} {taken : List ℕ}
    (listing : Listing F) (h : Walking entries root stack taken)
    (hchildren : ∀ entry : Entry F, entry.pid ∉ taken →
      ((children.lookup entry.pid).getD []).reverse = below entries root entry)
    (hturns : entries.length < turns + taken.length) :
    ∃ visited, Visits (below entries root) stack visited ∧
      (visited.map (fun visit => visit.1.pid) ++ taken).Nodup ∧
      walk foreground limit turns children stack listing =
        some (visited.foldl (Listing.add foreground limit) listing) := by
  induction turns generalizing children stack taken listing with
  | zero =>
    have := h.length
    omega
  | succ turns ih =>
    cases stack with
    | nil => exact ⟨[], .nil, h.nodup, rfl⟩
    | cons visit stack =>
      obtain ⟨entry, depth⟩ := visit
      have hfresh := h.fresh
      have herased : ∀ other : Entry F, other.pid ∉ entry.pid :: taken →
          (((children.erase entry.pid).lookup other.pid).getD []).reverse =
            below entries root other := by
        intro other hother
        rw [List.mem_cons, not_or] at hother
        rw [AList.lookup_erase_ne hother.1]
        exact hchildren other hother.2
      obtain ⟨visited, hvisits, hnodup, hwalk⟩ := ih
        (listing.add foreground limit (entry, depth)) (h.push hdistinct) herased
        (by rw [List.length_cons]; omega)
      refine ⟨(entry, depth) :: visited, hvisits.push, ?_, ?_⟩
      · exact List.perm_middle.nodup_iff.mp hnodup
      · simp only [walk, ← List.map_reverse, hchildren entry hfresh, List.foldl_cons]
        exact hwalk

def row (foreground : List ℕ) (visit : Entry F × ℕ) : Row F :=
  ⟨visit.1, visit.2, foreground.contains visit.1.pid⟩

lemma add_shown (foreground : List ℕ) {listing : Listing F} (visit : Entry F × ℕ)
    (h : listing.rows.length < limit) :
    (listing.add foreground limit visit).rows = listing.rows ++ [row foreground visit] ∧
      (listing.add foreground limit visit).hidden = listing.hidden := by
  simp [Listing.add, row, h.ne]

lemma add_hidden (foreground : List ℕ) {listing : Listing F} (visit : Entry F × ℕ)
    (h : listing.rows.length = limit) :
    (listing.add foreground limit visit).rows = listing.rows ∧
      (listing.add foreground limit visit).hidden = listing.hidden + 1 := by
  simp [Listing.add, h]

lemma foldl_add (foreground : List ℕ) (visited : List (Entry F × ℕ)) (listing : Listing F)
    (h : listing.rows.length ≤ limit) :
    (visited.foldl (Listing.add foreground limit) listing).rows =
        listing.rows ++ (visited.take (limit - listing.rows.length)).map (row foreground) ∧
      (visited.foldl (Listing.add foreground limit) listing).hidden =
        listing.hidden + (visited.drop (limit - listing.rows.length)).length := by
  induction visited generalizing listing with
  | nil => simp
  | cons visit visited ih =>
    rw [List.foldl_cons]
    rcases Nat.lt_or_eq_of_le h with hlt | heq
    · obtain ⟨hrows, hhidden⟩ := add_shown foreground visit hlt
      have hlength : (listing.add foreground limit visit).rows.length = listing.rows.length + 1 := by
        rw [hrows, List.length_append, List.length_singleton]
      have hroom : (listing.add foreground limit visit).rows.length ≤ limit := by omega
      obtain ⟨ihrows, ihhidden⟩ := ih _ hroom
      obtain ⟨room, hroom⟩ : ∃ room, limit - listing.rows.length = room + 1 :=
        Nat.exists_eq_add_one_of_ne_zero (by omega)
      have hleft : limit - (listing.rows.length + 1) = room := by omega
      rw [ihrows, ihhidden, hlength, hleft, hroom, hrows, hhidden]
      simp
    · obtain ⟨hrows, hhidden⟩ := add_hidden foreground visit heq
      have hfull : (listing.add foreground limit visit).rows.length ≤ limit := by rw [hrows, heq]
      obtain ⟨ihrows, ihhidden⟩ := ih _ hfull
      rw [ihrows, ihhidden, hrows, hhidden, heq]
      simp
      omega

end Walk

lemma chain_mem {entry : Entry F} {depth : ℕ} (h : Chain entries root entry depth) :
    entry ∈ entries := by
  cases h <;> assumption

section Visited

variable {rootEntry : Entry F} {visited : List (Entry F × ℕ)}

lemma visited_chain (hroot : rootEntry ∈ entries ∧ rootEntry.pid = root)
    (h : Visits (below entries root) [(rootEntry, 0)] visited) :
    ∀ visit ∈ visited, Chain entries root visit.1 visit.2 := by
  refine h.closed (P := Chain entries root) ?_ ?_
  · intro parent depth child hparent hchild
    obtain ⟨hentries, hne, hlink⟩ := mem_below.mp hchild
    exact .child hparent hentries hne hlink
  · rw [List.forall_mem_singleton]
    exact .root hroot.1 hroot.2

lemma chain_visited (hdistinct : (entries.map Entry.pid).Nodup)
    (hroot : rootEntry ∈ entries ∧ rootEntry.pid = root)
    (h : Visits (below entries root) [(rootEntry, 0)] visited) {entry : Entry F} {depth : ℕ}
    (hchain : Chain entries root entry depth) : (entry, depth) ∈ visited := by
  induction hchain with
  | root hentry hpid =>
    obtain rfl := entry_unique hdistinct hroot.1 hentry (hroot.2.trans hpid.symm)
    exact h.subset List.mem_cons_self
  | child _ hentry hne hlink ih => exact h.below_mem ih (mem_below.mpr ⟨hentry, hne, hlink⟩)

lemma chain_depths (hdistinct : (entries.map Entry.pid).Nodup)
    (hroot : rootEntry ∈ entries ∧ rootEntry.pid = root)
    (h : Visits (below entries root) [(rootEntry, 0)] visited) {entry : Entry F} {depth : ℕ}
    (hchain : Chain entries root entry depth) :
    List.range (depth + 1) ⊆ visited.map Prod.snd := by
  induction hchain with
  | root hentry hpid =>
    intro k hk
    obtain rfl : k = 0 := by simpa using hk
    exact List.mem_map_of_mem (chain_visited hdistinct hroot h (.root hentry hpid))
  | @child entry parent depth hparent hentry hne hlink ih =>
    intro k hk
    rcases Nat.lt_succ_iff_lt_or_eq.mp (List.mem_range.mp hk) with hk | rfl
    · exact ih (List.mem_range.mpr hk)
    · exact List.mem_map_of_mem (chain_visited hdistinct hroot h (.child hparent hentry hne hlink))

lemma visits_head (h : Visits (below entries root) [(rootEntry, 0)] visited) :
    ∃ rest, visited = (rootEntry, 0) :: rest := by
  cases h with
  | cons _ _ => exact ⟨_, rfl⟩

lemma visited_length (hroot : rootEntry ∈ entries ∧ rootEntry.pid = root)
    (h : Visits (below entries root) [(rootEntry, 0)] visited)
    (hnodup : (visited.map fun visit => visit.1.pid).Nodup) : visited.length ≤ entries.length := by
  have hsubset : (visited.map fun visit => visit.1.pid) ⊆ entries.map Entry.pid := by
    intro pid hpid
    obtain ⟨visit, hvisit, rfl⟩ := List.mem_map.mp hpid
    exact List.mem_map_of_mem (chain_mem (visited_chain hroot h visit hvisit))
  simpa using (List.subperm_of_subset hnodup hsubset).length_le

lemma chain_lt (hdistinct : (entries.map Entry.pid).Nodup)
    (hroot : rootEntry ∈ entries ∧ rootEntry.pid = root)
    (h : Visits (below entries root) [(rootEntry, 0)] visited)
    (hnodup : (visited.map fun visit => visit.1.pid).Nodup) {entry : Entry F} {depth : ℕ}
    (hchain : Chain entries root entry depth) : depth < entries.length := by
  have hdepths := (List.subperm_of_subset List.nodup_range
    (chain_depths hdistinct hroot h hchain)).length_le
  rw [List.length_range, List.length_map] at hdepths
  exact hdepths.trans (visited_length hroot h hnodup)

end Visited

section Check

variable (hdistinct : (entries.map Entry.pid).Nodup)
include hdistinct

lemma climb_chain {rootEntry : Entry F} (hroot : rootEntry ∈ entries ∧ rootEntry.pid = root)
    {turns : ℕ} {parent : Option ℕ} (h : climb (table entries) root turns parent = .ok ()) :
    ∃ above depth, Chain entries root above depth ∧ parent = some above.pid := by
  induction turns generalizing parent with
  | zero => cases h
  | succ turns ih =>
    cases parent with
    | none => cases h
    | some pid =>
      simp only [climb] at h
      split at h
      · rename_i hpid
        exact ⟨rootEntry, 0, .root hroot.1 hroot.2, by rw [hroot.2, hpid]⟩
      · rename_i hpid
        obtain ⟨above, depth, hchain, habove⟩ := ih h
        obtain ⟨⟨parent, started⟩, hlookup, rfl⟩ := Option.bind_eq_some_iff.mp habove
        obtain ⟨entry, hentry, rfl, hparent, -⟩ := (lookup_table hdistinct).mp hlookup
        exact ⟨entry, depth + 1, .child hchain hentry hpid hparent, rfl⟩

lemma chain_climb {above : Entry F} {depth : ℕ} (h : Chain entries root above depth) {turns : ℕ}
    (hturns : depth < turns) : climb (table entries) root turns (some above.pid) = .ok () := by
  induction h generalizing turns with
  | root _ hpid =>
    obtain ⟨turns, rfl⟩ := Nat.exists_eq_add_one_of_ne_zero (Nat.ne_zero_of_lt hturns)
    rw [climb, if_pos hpid]
  | child _ hentry hne hlink ih =>
    obtain ⟨turns, rfl⟩ := Nat.exists_eq_add_one_of_ne_zero (Nat.ne_zero_of_lt hturns)
    have hlookup := (lookup_table hdistinct).mpr ⟨_, hentry, rfl, hlink, rfl⟩
    rw [climb, if_neg hne, hlookup]
    exact ih (by omega)

lemma check_ok {rootId victim : Identity} : check (table entries) rootId victim = .ok () ↔
    ∃ rootEntry ∈ entries, rootEntry.identity = rootId ∧ ∃ entry ∈ entries,
      entry.identity = victim ∧ victim.pid ≠ rootId.pid ∧
      climb (table entries) rootId.pid entries.length entry.parent = .ok () := by
  simp only [check, length_table hdistinct]
  constructor
  · intro h
    split at h
    · cases h
    · rename_i hpid
      split at h
      · cases h
      · rename_i hstarted
        obtain ⟨⟨parent, started⟩, hlookup, hsame⟩ := Option.map_eq_some_iff.mp (not_not.mp hstarted)
        obtain ⟨rootEntry, hroot, hrootPid, -, rfl⟩ := (lookup_table hdistinct).mp hlookup
        split at h
        · cases h
        · rename_i parent started hvictim
          obtain ⟨entry, hentry, hentryPid, rfl, rfl⟩ := (lookup_table hdistinct).mp hvictim
          split at h
          · cases h
          · rename_i hvictimStarted
            refine ⟨rootEntry, hroot, ?_, entry, hentry, ?_, hpid, h⟩
            · cases rootId
              cases hsame
              cases hrootPid
              rfl
            · cases victim
              cases not_not.mp hvictimStarted
              cases hentryPid
              rfl
  · rintro ⟨rootEntry, hroot, rfl, entry, hentry, rfl, hpid, hclimb⟩
    have hrootLookup := (lookup_table hdistinct).mpr ⟨rootEntry, hroot, rfl, rfl, rfl⟩
    have hlookup := (lookup_table hdistinct).mpr ⟨entry, hentry, rfl, rfl, rfl⟩
    simp only [Entry.pid] at hrootLookup hlookup
    simp only [if_neg hpid, hrootLookup, hlookup, Option.map_some, ne_eq, not_true_eq_false,
      if_false]
    exact hclimb

end Check

section Listing

variable [Zero F] [Add F] {order : List (Entry F) → List (Entry F)}

lemma listing_none (order : List (Entry F) → List (Entry F)) {root : ℕ}
    (hdistinct : (entries.map Entry.pid).Nodup)
    (hroot : ∀ entry ∈ entries, entry.pid ≠ root) (foreground : List ℕ) (limit : ℕ) :
    listing order entries root foreground limit = none := by
  have hlookup : (Dict.collect Entry.pid id entries).lookup root = none := by
    by_contra hsome
    obtain ⟨entry, hentry⟩ := Option.ne_none_iff_exists'.mp hsome
    obtain ⟨hentry, hpid⟩ := (lookup_entry hdistinct).mp hentry
    exact hroot entry hentry hpid
  simp [listing, hlookup]

lemma listing_visits (hdistinct : (entries.map Entry.pid).Nodup)
    (horder : ∀ values, (order values).Perm values) {rootEntry : Entry F}
    (hroot : rootEntry ∈ entries ∧ rootEntry.pid = root) (foreground : List ℕ) (limit : ℕ) :
    ∃ shown visited, listing order entries root foreground limit = some shown ∧
      Visits (below entries root) [(rootEntry, 0)] visited ∧
      (visited.map fun visit => visit.1.pid).Nodup ∧
      shown.rows = (visited.take limit).map (row foreground) ∧
      shown.hidden = (visited.drop limit).length := by
  have hlookup := (lookup_entry hdistinct).mpr hroot
  have hwalking : Walking entries root [(rootEntry, 0)] [] := by
    refine ⟨by simp, ?_, ?_⟩
    · simpa using ⟨rootEntry, hroot.1, rfl⟩
    · intro entry _ hpid
      left
      simpa [hroot.2] using hpid
  obtain ⟨visited, hvisits, hnodup, hwalk⟩ := walk_visits foreground limit hdistinct
    ⟨[], 0, 0, 0⟩ hwalking (fun entry _ => congrArg List.reverse
      (lookup_children hdistinct horder root entry.pid)) (Nat.lt_succ_self _)
  obtain ⟨hrows, hhidden⟩ := foldl_add foreground visited (⟨[], 0, 0, 0⟩ : Listing F)
    (Nat.zero_le limit)
  refine ⟨_, visited, ?_, hvisits, ?_, hrows, hhidden.trans (Nat.zero_add _)⟩
  · simp only [listing, hlookup, Option.bind_eq_bind, Option.bind_some]
    exact hwalk
  · simpa using hnodup

theorem listing_check (order : List (Entry F) → List (Entry F))
    (horder : ∀ values, (order values).Perm values) (entries : List (Entry F))
    (hdistinct : (entries.map Entry.pid).Nodup) :
    (∀ root foreground limit, (∀ entry ∈ entries, entry.pid ≠ root) →
      listing order entries root foreground limit = none) ∧
    (∀ rootEntry ∈ entries, ∀ foreground limit, ∃ shown visited,
      listing order entries rootEntry.pid foreground limit = some shown ∧
      shown.rows = (visited.take limit).map (row foreground) ∧
      shown.hidden = (visited.drop limit).length ∧
      (visited.map fun visit => visit.1.pid).Nodup ∧
      (∀ entry depth, (entry, depth) ∈ visited ↔ Chain entries rootEntry.pid entry depth) ∧
      Visits (below entries rootEntry.pid) [(rootEntry, 0)] visited) ∧
    (∀ root entry, (below entries root entry).Pairwise fun older newer => newestFirst newer older) ∧
    ∀ root victim foreground limit, entries.length ≤ limit →
      (check (table entries) root victim = .ok () ↔
        ∃ shown, listing order entries root.pid foreground limit = some shown ∧
          shown.root = some root ∧ shown.contains victim = true ∧ victim ≠ root) := by
  refine ⟨fun root foreground limit hroot =>
    listing_none order hdistinct hroot foreground limit,
    ?_, ?_, ?_⟩
  · intro rootEntry hroot foreground limit
    obtain ⟨shown, visited, hlisting, hvisits, hnodup, hrows, hhidden⟩ :=
      listing_visits hdistinct horder ⟨hroot, rfl⟩ foreground limit
    refine ⟨shown, visited, hlisting, hrows, hhidden, hnodup, fun entry depth => ⟨?_, ?_⟩, hvisits⟩
    · exact visited_chain ⟨hroot, rfl⟩ hvisits (entry, depth)
    · exact chain_visited hdistinct ⟨hroot, rfl⟩ hvisits
  · intro root entry
    rw [below, List.pairwise_reverse]
    exact List.pairwise_insertionSort _ _
  · intro root victim foreground limit hlimit
    rw [check_ok hdistinct]
    constructor
    · rintro ⟨rootEntry, hroot, rfl, entry, hentry, rfl, hpid, hclimb⟩
      obtain ⟨shown, visited, hlisting, hvisits, hnodup, hrows, -⟩ :=
        listing_visits hdistinct horder ⟨hroot, rfl⟩ foreground limit
      have hall := (visited_length ⟨hroot, rfl⟩ hvisits hnodup).trans hlimit
      rw [List.take_of_length_le hall] at hrows
      obtain ⟨above, depth, hchain, hparent⟩ := climb_chain hdistinct ⟨hroot, rfl⟩ hclimb
      have hvisit := chain_visited hdistinct ⟨hroot, rfl⟩ hvisits (.child hchain hentry hpid hparent)
      refine ⟨shown, hlisting, ?_, ?_, fun hsame => hpid (by rw [hsame])⟩
      · obtain ⟨rest, rfl⟩ := visits_head hvisits
        simp [Listing.root, hrows, row]
      · rw [Listing.contains, hrows, List.any_map, List.any_eq_true]
        exact ⟨_, hvisit, by simp [row]⟩
    · rintro ⟨shown, hlisting, hshown, hcontains, hne⟩
      by_cases hlisted : ∃ entry ∈ entries, entry.pid = root.pid
      · obtain ⟨rootEntry, hroot⟩ := hlisted
        obtain ⟨shown', visited, hlisting', hvisits, hnodup, hrows, -⟩ :=
          listing_visits hdistinct horder hroot foreground limit
        obtain rfl := Option.some.inj (hlisting.symm.trans hlisting')
        have hall := (visited_length hroot hvisits hnodup).trans hlimit
        rw [List.take_of_length_le hall] at hrows
        have hidentity : rootEntry.identity = root := by
          obtain ⟨rest, rfl⟩ := visits_head hvisits
          simpa [Listing.root, hrows, row] using hshown
        rw [Listing.contains, hrows, List.any_map, List.any_eq_true] at hcontains
        obtain ⟨visit, hvisit, hvictim⟩ := hcontains
        have hvictim : visit.1.identity = victim := by simpa [row] using hvictim
        have hchain := visited_chain hroot hvisits visit hvisit
        have hlt := chain_lt hdistinct hroot hvisits hnodup hchain
        have hentry := chain_mem hchain
        have hpid : visit.1.pid ≠ root.pid := by
          intro hpid
          have hsame := entry_unique hdistinct hentry hroot.1 (hpid.trans hroot.2.symm)
          exact hne (hvictim.symm.trans ((congrArg Entry.identity hsame).trans hidentity))
        refine ⟨rootEntry, hroot.1, hidentity, visit.1, hentry, hvictim, by rwa [← hvictim], ?_⟩
        generalize visit.1 = entry at *
        generalize visit.2 = depth at *
        cases hchain with
        | root _ hsame => exact absurd hsame hpid
        | child habove _ _ hparent =>
          rw [hparent]
          exact chain_climb hdistinct habove (by omega)
      · have hnone := listing_none order hdistinct
          (fun entry hentry hpid => hlisted ⟨entry, hentry, hpid⟩) foreground limit
        rw [hnone] at hlisting
        cases hlisting

end Listing

def processes : List (Entry ℕ) :=
  [(10, none), (40, some 41), (30, some 20), (41, some 40), (50, some 50), (20, some 10)].map
    fun process => ⟨⟨process.1, 10 * process.1⟩, process.2, "", "", none, 1⟩

theorem listing_check_processes : ∃ shown,
    listing List.reverse processes 10 [30] 6 = some shown ∧ shown.contains ⟨30, 300⟩ = true := by
  obtain ⟨-, -, -, hcheck⟩ := listing_check List.reverse (fun values => values.reverse_perm)
    processes (by decide)
  have hallowed : check (table processes) ⟨10, 100⟩ ⟨30, 300⟩ = .ok () := by rfl
  obtain ⟨shown, hlisting, -, hcontains, -⟩ :=
    (hcheck ⟨10, 100⟩ ⟨30, 300⟩ [30] 6 (by decide)).mp hallowed
  exact ⟨shown, hlisting, hcontains⟩

end Sheprd.Desktop.Processes
