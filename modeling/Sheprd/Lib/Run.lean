import Mathlib.Tactic

namespace Sheprd.Lib

inductive Run {σ α : Type} (step : σ → α → σ → Prop) (s : σ) : List α → σ → Prop where
  | nil : Run step s [] s
  | snoc {acts : List α} {t u : σ} {a : α} : Run step s acts t → step t a u →
      Run step s (acts ++ [a]) u

namespace Run

variable {σ α : Type} {step : σ → α → σ → Prop} {s t : σ} {acts : List α}

lemma invariant {P : σ → Prop} (hs : P s) (hstep : ∀ t a u, P t → step t a u → P u)
    (h : Run step s acts t) : P t := by
  induction h with
  | nil => exact hs
  | snoc _ ha ih => exact hstep _ _ _ ih ha

lemma restrict {L : α → Prop} (h : Run step s acts t) (hL : ∀ a ∈ acts, L a) :
    Run (fun s a u => L a ∧ step s a u) s acts t := by
  induction h with
  | nil => exact nil
  | snoc _ ha ih =>
    refine (ih ?_).snoc ⟨hL _ (by simp), ha⟩
    exact fun a hm => hL a (List.mem_append_left _ hm)

lemma among {P : σ → Prop} {L : α → Prop} (h : Run step s acts t) (hs : P s)
    (hstep : ∀ t a u, L a → P t → step t a u → P u) (hL : ∀ a ∈ acts, L a) : P t := by
  refine (h.restrict hL).invariant hs ?_
  intro t a u ht ha
  exact hstep t a u ha.1 ht ha.2

lemma cons {a : α} {u : σ} (ha : step s a u) (h : Run step u acts t) :
    Run step s (a :: acts) t := by
  induction h with
  | nil => exact nil.snoc ha
  | snoc _ hb ih => exact ih.snoc hb

lemma append {acts' : List α} {u : σ} (h : Run step s acts t) (h' : Run step t acts' u) :
    Run step s (acts ++ acts') u := by
  induction h' with
  | nil => rwa [List.append_nil]
  | snoc _ ha ih =>
    rw [← List.append_assoc]
    exact ih.snoc ha

lemma of_append {acts' : List α} (h : Run step s (acts ++ acts') t) :
    ∃ u, Run step s acts u ∧ Run step u acts' t := by
  induction acts' using List.reverseRecOn generalizing t with
  | nil =>
    rw [List.append_nil] at h
    exact ⟨t, h, nil⟩
  | append_singleton acts' a ih =>
    rw [← List.append_assoc] at h
    generalize hall : acts ++ acts' ++ [a] = all at h
    cases h with
    | nil => simp at hall
    | @snoc acts'' v _ b h hb =>
      obtain ⟨rfl, rfl⟩ : acts ++ acts' = acts'' ∧ a = b := by simpa using List.append_inj' hall rfl
      obtain ⟨u, hu, hv⟩ := ih h
      exact ⟨u, hu, hv.snoc hb⟩

lemma of_nil (h : Run step s [] t) : t = s := by
  generalize hacts : ([] : List α) = acts at h
  cases h with
  | nil => rfl
  | snoc _ _ => simp at hacts

lemma of_singleton {a : α} (h : Run step s [a] t) : step s a t := by
  generalize hacts : [a] = acts at h
  cases h with
  | nil => cases hacts
  | @snoc acts' u _ b h hb =>
    obtain ⟨hnil, hab⟩ : acts' = [] ∧ b = a := by
      simpa [List.append_eq_cons_iff] using hacts.symm
    rw [hnil] at h
    rwa [← hab, ← h.of_nil]

def exec (ok : σ → α → Bool) (next : σ → α → Option σ) (s : σ) : List α → Option σ
  | [] => some s
  | a :: acts => if ok s a then (next s a).bind fun t => exec ok next t acts else none

lemma of_exec {ok : σ → α → Bool} {next : σ → α → Option σ}
    (h : exec ok next s acts = some t) :
    Run (fun s a t => ok s a = true ∧ next s a = some t) s acts t := by
  induction acts generalizing s with
  | nil =>
    obtain rfl := Option.some.inj h
    exact nil
  | cons a acts ih =>
    rw [exec] at h
    split at h
    · rename_i ha
      obtain ⟨u, hu, h⟩ := Option.bind_eq_some_iff.mp h
      exact cons ⟨ha, hu⟩ (ih h)
    · exact absurd h (by simp)

lemma mono {step' : σ → α → σ → Prop} (hs : ∀ s a t, step s a t → step' s a t)
    (h : Run step s acts t) : Run step' s acts t := by
  induction h with
  | nil => exact nil
  | snoc _ ha ih => exact ih.snoc (hs _ _ _ ha)

end Run

end Sheprd.Lib
