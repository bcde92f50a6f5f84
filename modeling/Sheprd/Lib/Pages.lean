import Mathlib.Data.List.Sort
import Mathlib.Tactic

namespace Sheprd.Lib.Pages

variable {α ρ : Type} [LinearOrder ρ]

def below (pos : α → ρ) (keep : α → Bool) (after : Option ρ) (entries : List α) : List α :=
  ((entries.filter keep).insertionSort fun a b => pos b ≤ pos a).filter
    fun a => after.all fun cursor => pos a < cursor

structure Page (α ρ : Type) where
  nodes : List α
  hasNextPage : Bool
  endCursor : Option ρ

def page (pos : α → ρ) (keep : α → Bool) (after : Option ρ) (count : ℕ) (entries : List α) :
    Page α ρ :=
  let rest := below pos keep after entries
  let nodes := rest.take count
  { nodes, hasNextPage := count < rest.length, endCursor := nodes.getLast?.map pos }

structure Descends (pos : α → ρ) (keep : α → Bool) (after : Option ρ) (entries listed : List α) :
    Prop where
  mem : ∀ a, a ∈ listed ↔ a ∈ entries ∧ keep a = true ∧ ∀ cursor ∈ after, pos a < cursor
  sorted : listed.Pairwise fun a b => pos b ≤ pos a
  nodup : entries.Nodup → listed.Nodup

inductive Walk (pos : α → ρ) (keep : α → Bool) : Option ρ → List (List α) → List α → Prop where
  | done {after : Option ρ} {entries listed : List α}
      (whole : Descends pos keep after entries listed) : Walk pos keep after [entries] listed
  | more {after : Option ρ} {entries front back : List α} {e : α} {worlds : List (List α)}
      {rest : List α} (split : Descends pos keep after entries (front ++ back))
      (last : front.getLast? = some e) (next : Walk pos keep (some (pos e)) worlds rest) :
      Walk pos keep after (entries :: worlds) (front ++ rest)

variable {pos : α → ρ} {keep : α → Bool} {after : Option ρ} {entries listed : List α}

lemma below_descends (pos : α → ρ) (keep : α → Bool) (after : Option ρ) (entries : List α) :
    Descends pos keep after entries (below pos keep after entries) where
  mem := by
    intro a
    unfold below
    rw [List.mem_filter, List.mem_insertionSort, List.mem_filter, and_assoc]
    cases after <;> simp
  sorted := by
    have total : Std.Total fun a b : α => pos b ≤ pos a := ⟨fun a b => le_total (pos b) (pos a)⟩
    have trans : IsTrans α fun a b => pos b ≤ pos a := ⟨fun _ _ _ h h' => h'.trans h⟩
    exact (List.pairwise_insertionSort _ _).filter _
  nodup := fun distinct =>
    ((List.perm_insertionSort _ _).nodup_iff.mpr (distinct.filter _)).filter _

lemma Descends.narrow {keep' : α → Bool} {p : α → Bool} (h : Descends pos keep after entries listed)
    (narrow : ∀ a ∈ entries, keep' a = (keep a && p a)) :
    Descends pos keep' after entries (listed.filter p) where
  mem := by
    intro a
    rw [List.mem_filter, h.mem]
    constructor
    · rintro ⟨⟨there, kept, lower⟩, more⟩
      exact ⟨there, by rw [narrow a there, kept, more]; rfl, lower⟩
    · rintro ⟨there, kept, lower⟩
      rw [narrow a there, Bool.and_eq_true] at kept
      exact ⟨⟨there, kept.1, lower⟩, kept.2⟩
  sorted := h.sorted.filter _
  nodup := fun distinct => (h.nodup distinct).filter _

lemma takeWhile_eq_filter {p : α → Bool} (sorted : listed.Pairwise fun a b => pos b ≤ pos a)
    (higher : ∀ a b, pos b ≤ pos a → p b = true → p a = true) :
    listed.takeWhile p = listed.filter p := by
  induction listed with
  | nil => rfl
  | cons a listed ih =>
    obtain ⟨first, sorted⟩ := List.pairwise_cons.mp sorted
    cases holds : p a with
    | true =>
      rw [List.takeWhile_cons_of_pos holds, List.filter_cons_of_pos holds, ih sorted]
    | false =>
      rw [List.takeWhile_cons_of_neg (by simp [holds]), List.filter_cons_of_neg (by simp [holds]),
        eq_comm, List.filter_eq_nil_iff]
      intro b hb more
      rw [higher a b (first b hb) more] at holds
      cases holds

lemma page_split (pos : α → ρ) (keep : α → Bool) (after : Option ρ) (count : ℕ) (entries : List α) :
    ∃ back, Descends pos keep after entries ((page pos keep after count entries).nodes ++ back) ∧
      ((page pos keep after count entries).hasNextPage = false → back = []) := by
  refine ⟨(below pos keep after entries).drop count, ?_, ?_⟩
  · change Descends _ _ _ _ (List.take _ _ ++ _)
    rw [List.take_append_drop]
    exact below_descends pos keep after entries
  · intro last
    simpa [page] using last

lemma page_cursor {cursor : ρ} {count : ℕ}
    (h : (page pos keep after count entries).endCursor = some cursor) :
    ∃ e, (page pos keep after count entries).nodes.getLast? = some e ∧ pos e = cursor :=
  Option.map_eq_some_iff.mp h

lemma page_empty {count : ℕ} (positive : 0 < count)
    (h : (page pos keep after count entries).endCursor = none) :
    (page pos keep after count entries).hasNextPage = false := by
  simp only [page, Option.map_eq_none_iff, List.getLast?_eq_none_iff, List.take_eq_nil_iff] at h ⊢
  obtain h | h := h
  · omega
  · simp [h]

lemma Walk.lt {worlds : List (List α)} {read : List α} (h : Walk pos keep after worlds read) :
    ∀ a ∈ read, ∀ cursor ∈ after, pos a < cursor := by
  induction h with
  | done whole => exact fun a ha => ((whole.mem a).mp ha).2.2
  | @more after entries front back e worlds rest split last _ ih =>
    intro a ha cursor hc
    have here (b : α) (hb : b ∈ front) : pos b < cursor := by
      exact ((split.mem b).mp (List.mem_append_left _ hb)).2.2 cursor hc
    obtain ha | ha := List.mem_append.mp ha
    · exact here a ha
    · exact (ih a ha _ rfl).trans (here e (List.mem_of_getLast? last))

lemma Walk.sound {worlds : List (List α)} {read : List α} (h : Walk pos keep after worlds read) :
    ∀ a ∈ read, keep a = true ∧ ∃ entries ∈ worlds, a ∈ entries := by
  induction h with
  | @done after entries listed whole =>
    intro a ha
    obtain ⟨there, kept, -⟩ := (whole.mem a).mp ha
    exact ⟨kept, entries, List.mem_singleton_self _, there⟩
  | @more after entries front back e worlds rest split _ _ ih =>
    intro a ha
    obtain ha | ha := List.mem_append.mp ha
    · obtain ⟨there, kept, -⟩ := (split.mem a).mp (List.mem_append_left _ ha)
      exact ⟨kept, entries, List.mem_cons_self .., there⟩
    · obtain ⟨kept, entries', held, there⟩ := ih a ha
      exact ⟨kept, entries', List.mem_cons_of_mem _ held, there⟩

lemma le_of_getLast? {front : List α} {e : α} (last : front.getLast? = some e)
    (sorted : front.Pairwise fun a b => pos b ≤ pos a) : ∀ a ∈ front, pos e ≤ pos a := by
  obtain ⟨init, rfl⟩ := List.getLast?_eq_some_iff.mp last
  intro a ha
  obtain ha | ha := List.mem_append.mp ha
  · exact (List.pairwise_append.mp sorted).2.2 a ha e (List.mem_singleton_self _)
  · rw [List.mem_singleton.mp ha]

lemma Walk.covers {worlds : List (List α)} {read : List α} (h : Walk pos keep after worlds read)
    (unique : ∀ entries ∈ worlds, ∀ a ∈ entries, ∀ b ∈ entries, pos a = pos b → a = b) {a : α}
    (stays : ∀ entries ∈ worlds, a ∈ entries) (kept : keep a = true)
    (lower : ∀ cursor ∈ after, pos a < cursor) : a ∈ read := by
  induction h with
  | done whole => exact (whole.mem a).mpr ⟨stays _ (List.mem_singleton_self _), kept, lower⟩
  | @more after entries front back e worlds rest split last _ ih =>
    have there := stays _ (List.mem_cons_self ..)
    have listed := (split.mem a).mpr ⟨there, kept, lower⟩
    have mem := List.mem_of_getLast? last
    obtain here | later := List.mem_append.mp listed
    · exact List.mem_append_left _ here
    · have lower' := (List.pairwise_append.mp split.sorted).2.2 e mem a later
      obtain lower' | same := lt_or_eq_of_le lower'
      · refine List.mem_append_right _ (ih ?_ ?_ ?_)
        · exact fun entries' h => unique entries' (List.mem_cons_of_mem _ h)
        · exact fun entries' h => stays entries' (List.mem_cons_of_mem _ h)
        · rintro cursor ⟨⟩
          exact lower'
      · have listed' := (split.mem e).mp (List.mem_append_left _ mem)
        have eq := unique _ (List.mem_cons_self ..) a there e listed'.1 same
        rw [eq]
        exact List.mem_append_left _ mem

lemma Walk.nodup {worlds : List (List α)} {read : List α} (h : Walk pos keep after worlds read)
    (distinct : ∀ entries ∈ worlds, entries.Nodup) : read.Nodup := by
  induction h with
  | done whole => exact whole.nodup (distinct _ (List.mem_singleton_self _))
  | @more after entries front back e worlds rest split last rest' ih =>
    have whole := split.nodup (distinct _ (List.mem_cons_self ..))
    refine whole.of_append_left.append
      (ih fun entries' h => distinct entries' (List.mem_cons_of_mem _ h)) ?_
    intro a ha ha'
    have above := le_of_getLast? last (List.pairwise_append.mp split.sorted).1 a ha
    exact absurd (rest'.lt a ha' _ rfl) (not_lt.mpr above)

lemma Walk.le_first {worlds : List (List α)} {read : List α}
    (h : Walk pos keep after worlds read) :
    ∀ a ∈ read, ∃ b, (∀ first ∈ worlds.head?, b ∈ first) ∧ pos a ≤ pos b := by
  cases h with
  | done whole =>
    intro a ha
    exact ⟨a, fun first h => by cases h; exact ((whole.mem a).mp ha).1, le_refl _⟩
  | @more _ entries front back e worlds rest split last rest' =>
    have there (b : α) (hb : b ∈ front) : b ∈ entries :=
      ((split.mem b).mp (List.mem_append_left _ hb)).1
    intro a ha
    obtain ha | ha := List.mem_append.mp ha
    · exact ⟨a, fun first h => by cases h; exact there a ha, le_refl _⟩
    · refine ⟨e, fun first h => ?_, (rest'.lt a ha _ rfl).le⟩
      cases h
      exact there e (List.mem_of_getLast? last)

lemma filter_key_of_mem {κ : Type} [DecidableEq κ] (key : α → κ) {l : List α} {a : α}
    (nodup : l.Nodup) (only : ∀ b ∈ l, key b = key a → b = a) (mem : a ∈ l) :
    l.filter (fun b => key b = key a) = [a] := by
  refine List.perm_singleton.mp
    ((List.perm_ext_iff_of_nodup (nodup.filter _) (List.nodup_singleton a)).mpr ?_)
  intro b
  rw [List.mem_singleton, List.mem_filter, decide_eq_true_eq]
  constructor
  · rintro ⟨hb, same⟩
    exact only b hb same
  · rintro rfl
    exact ⟨mem, rfl⟩

omit [LinearOrder ρ] in
lemma filter_key_of_not_mem {κ : Type} [DecidableEq κ] (key : α → κ) {l : List α} {a : α}
    (only : ∀ b ∈ l, key b = key a → b = a) (gone : a ∉ l) :
    l.filter (fun b => key b = key a) = [] := by
  rw [List.filter_eq_nil_iff]
  intro b hb same
  exact gone (only b hb (by simpa using same) ▸ hb)

lemma Walk.filter_key {κ : Type} [DecidableEq κ] (key : α → κ) {worlds : List (List α)}
    {read : List α} (h : Walk pos keep after worlds read)
    (place : ∀ a b, pos a = pos b → key a = key b)
    (keyed : ∀ entries ∈ worlds, (entries.map key).Nodup) {a : α}
    (stays : ∀ entries ∈ worlds, a ∈ entries) (lower : ∀ cursor ∈ after, pos a < cursor) :
    read.filter (fun b => key b = key a) = if keep a then [a] else [] := by
  have same (entries) (he : entries ∈ worlds) (b) (hb : b ∈ entries) (c) (hc : c ∈ entries) :
      key b = key c → b = c := List.inj_on_of_nodup_map (keyed entries he) hb hc
  have only : ∀ b ∈ read, key b = key a → b = a := by
    intro b hb keys
    obtain ⟨-, entries, he, there⟩ := h.sound b hb
    exact same entries he b there a (stays entries he) keys
  cases kept : keep a with
  | true =>
    rw [if_pos rfl]
    refine filter_key_of_mem key (h.nodup fun entries he => (keyed entries he).of_map) only ?_
    exact h.covers (fun entries he b hb c hc eq => same entries he b hb c hc (place b c eq)) stays
      kept lower
  | false =>
    refine filter_key_of_not_mem key only fun mem => ?_
    have kept' := (h.sound a mem).1
    rw [kept] at kept'
    cases kept'

end Sheprd.Lib.Pages
