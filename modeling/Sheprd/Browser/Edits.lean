import Sheprd.Browser.Restored

namespace Sheprd.Browser.Layout

open Sheprd.Lib

variable {Share : Type} {w : Widths Share} {l : Layout Share}

inductive Reached (w : Widths Share) : Layout Share → Prop
  | new (id : GroupId) : Reached w (new w id)
  | restore {saved : SavedLayout Share} {ids ids' : GroupIds} {l : Layout Share} :
      saved.valid w = true → restore w saved ids = some (l, ids') → Reached w l
  | split {l : Layout Share} (id : GroupId) {new : GroupId} (focused : Option String) (tabs : List Pick) :
      Reached w l → new ∉ l.ids → Reached w (l.split w id new focused tabs).2
  | close {l : Layout Share} (id : GroupId) : Reached w l → Reached w (l.close w id).2
  | activate {l : Layout Share} (id : GroupId) : Reached w l → Reached w (l.activate id).2
  | adopt {l : Layout Share} (tabs : List Pick) : Reached w l → Reached w (l.adopt tabs)
  | give {l : Layout Share} (id : GroupId) (pick : Pick) : Reached w l → Reached w (l.give id pick)
  | show_ {l : Layout Share} (id : GroupId) (pick : Pick) : Reached w l → Reached w (l.show_ id pick)
  | choose {l : Layout Share} (id : GroupId) (pick : Pick) : Reached w l → Reached w (l.choose id pick)
  | forget {l : Layout Share} (pick : Pick) : Reached w l → Reached w (l.forget pick).2
  | focusMoved {l : Layout Share} (id : GroupId) (tab : String) :
      Reached w l → Reached w (l.focusMoved id tab)

lemma Reached.sound (reached : Reached w l) : l.Sound := by
  induction reached with
  | new id => exact sound_new w id
  | @restore saved ids ids' l valid made =>
    rw [restore_eq valid] at made
    obtain ⟨rfl, -⟩ := Prod.mk.inj (Option.some.inj made)
    exact sound_restored valid ids
  | split id focused tabs _ fresh ih => exact ih.split w id fresh focused tabs
  | close id _ ih => exact ih.close w id
  | activate id _ ih => exact (ih.activate id).1
  | adopt tabs _ ih => exact (ih.adopt tabs).1
  | give id pick _ ih => exact ih.give id pick
  | show_ id pick _ ih => exact ih.show_ id pick
  | choose id pick _ ih => exact ih.choose id pick
  | forget pick _ ih => exact ih.forget pick
  | focusMoved id tab _ ih => exact ih.focusMoved id tab

lemma Sound.lists_iff (h : l.Sound) (id : GroupId) (p : Pick) : l.lists id p = true ↔ l.owner p = id := by
  rw [lists, Bool.and_eq_true, group_isSome, decide_eq_true_eq]
  constructor
  · exact And.right
  · rintro rfl
    exact ⟨h.owner_mem p, rfl⟩

def ClosesWhole (w : Widths Share) (l : Layout Share) (id : GroupId) : Prop :=
  match l.foldTarget id with
  | none => l.close w id = (false, l)
  | some (_, _, next) =>
      (l.close w id).1 = true ∧ (∀ x, x ∈ (l.close w id).2.ids ↔ x ∈ l.ids ∧ x ≠ id) ∧
        (∀ p, l.lists id p = true → (l.close w id).2.lists next p = true) ∧
        ∀ p id', id' ≠ id → l.lists id' p = true → (l.close w id).2.lists id' p = true

def Restores (w : Widths Share) (l : Layout Share) : Prop :=
  ∀ s ids, l.saved = some s → s.valid w = true → ∃ l' ids', restore w s ids = some (l', ids') ∧
    l'.groups.map (fun g => (g.pick, g.share)) =
      l.groups.map (fun g => (g.pick, w.ratio g.share (total w s))) ∧
    l'.position l'.active = l.position l.active ∧ ∀ p, l'.position (l'.owner p) = l.position (l.owner p)

lemma Sound.closesWhole (h : l.Sound) (w : Widths Share) (id : GroupId) : l.ClosesWhole w id := by
  unfold ClosesWhole
  obtain ⟨none, unchanged⟩ | ⟨index, gone, next, -, -, -, -, -, found⟩ := foldTarget_eq l id
  · rw [none]
    exact unchanged w
  · obtain ⟨sound, ids, owners⟩ := h.closed w found
    rw [found]
    refine ⟨by rw [close_eq found], ids, fun p here => ?_, fun p id' apart here => ?_⟩
    · rw [sound.lists_iff, owners, (h.lists_iff id p).mp here]
      exact if_pos rfl
    · rw [sound.lists_iff, owners, (h.lists_iff id' p).mp here]
      exact if_neg apart

lemma Sound.restores (h : l.Sound) (w : Widths Share) : l.Restores w := fun _ ids saved valid =>
  ⟨_, _, restore_eq valid ids, h.round_trip w saved valid ids⟩

theorem reached_whole (reached : Reached w l) :
    l.Sound ∧
      (∀ g ∈ l.groups, ∀ g' ∈ l.groups, ∀ p, g.pick = some p → g'.pick = some p → g.id = g'.id) ∧
      (∀ p, ∃! id, l.lists id p = true) ∧ (∀ id, l.ClosesWhole w id) ∧ l.Restores w := by
  have sound := reached.sound
  refine ⟨sound, fun g hg g' hg' p shows shows' => ?_, sound.lists_once, sound.closesWhole w, sound.restores w⟩
  exact sound.shown_once hg hg' shows shows'

def hundredths : Widths ℕ where
  zero := 0
  one := 100
  plus := Nat.add
  half share := share / 2
  ratio share total := share * 100 / total
  positive share := decide (0 < share)

def beside : Layout ℕ := (((new hundredths 1).split hundredths 1 2 (some "main") [.page 7]).2.choose 2 (.page 7))

theorem reached_whole_beside : beside.groups.length = 2 ∧ beside.Sound ∧ beside.Restores hundredths := by
  have whole := reached_whole (w := hundredths) (l := beside)
    (.choose 2 (.page 7) (.split 1 (some "main") [.page 7] (.new 1) (by decide)))
  exact ⟨by decide, whole.1, whole.2.2.2.2⟩

end Sheprd.Browser.Layout
