import Mathlib.Tactic

/-! Programs over an explicit state that may fail. A failure keeps the state it
was raised in, so a postcondition speaks of the state in both outcomes. -/

namespace Sheprd.Lib

lemma bind_eq_ok {ε α β : Type} {r : Except ε α} {f : α → Except ε β} {b : β} :
    (r >>= f) = .ok b ↔ ∃ a, r = .ok a ∧ f a = .ok b := by
  cases r with
  | error e => simp [bind, Except.bind]
  | ok a => simp [bind, Except.bind]

abbrev Exec (ε σ : Type) := ExceptT ε (StateM σ)

namespace Exec

variable {ε σ α β : Type}

def exec (m : Exec ε σ α) (s : σ) : Except ε α × σ := m s

def refuse (p : Prop) [Decidable p] (e : ε) : Exec ε σ Unit := if p then throw e else pure ()

def when (b : Bool) (m : Exec ε σ Unit) : Exec ε σ Unit := if b then m else pure ()

def require (o : Option α) (e : ε) : Exec ε σ α :=
  match o with
  | some a => pure a
  | none => throw e

def lift {δ : Type} (f : δ → ε) (r : Except δ α) : Exec ε σ α :=
  match r with
  | .ok a => pure a
  | .error e => throw (f e)

def attempt {δ : Type} (m : Exec ε σ α) : Exec δ σ (Except ε α) := fun s => (.ok (m s).1, (m s).2)

def mapErr {δ : Type} (f : ε → δ) (m : Exec ε σ α) : Exec δ σ α :=
  fun s => ((m s).1.mapError f, (m s).2)

def wp (m : Exec ε σ α) (Q : Except ε α → σ → Prop) (s : σ) : Prop := Q (exec m s).1 (exec m s).2

lemma wp_mono {m : Exec ε σ α} {Q Q' : Except ε α → σ → Prop} {s : σ} (h : wp m Q s)
    (hQ : ∀ r s', Q r s' → Q' r s') : wp m Q' s := hQ _ _ h

lemma wp_pure {a : α} {Q : Except ε α → σ → Prop} {s : σ} :
    wp (pure a) Q s ↔ Q (.ok a) s := Iff.rfl

lemma wp_throw {e : ε} {Q : Except ε α → σ → Prop} {s : σ} :
    wp (throw e) Q s ↔ Q (.error e) s := Iff.rfl

lemma wp_get {Q : Except ε σ → σ → Prop} {s : σ} : wp get Q s ↔ Q (.ok s) s := Iff.rfl

lemma wp_modify {f : σ → σ} {Q : Except ε PUnit → σ → Prop} {s : σ} :
    wp (modify f) Q s ↔ Q (.ok ⟨⟩) (f s) := Iff.rfl

def andThen (f : α → Exec ε σ β) (Q : Except ε β → σ → Prop) : Except ε α → σ → Prop
  | .ok a, s => wp (f a) Q s
  | .error e, s => Q (.error e) s

@[simp] lemma andThen_ok (f : α → Exec ε σ β) (Q : Except ε β → σ → Prop) (a : α) (s : σ) :
    andThen f Q (.ok a) s = wp (f a) Q s := rfl

@[simp] lemma andThen_error (f : α → Exec ε σ β) (Q : Except ε β → σ → Prop) (e : ε) (s : σ) :
    andThen f Q (.error e) s = Q (.error e) s := rfl

lemma exec_bind (m : Exec ε σ α) (f : α → Exec ε σ β) (s : σ) :
    exec (m >>= f) s = match exec m s with
      | (.ok a, s') => exec (f a) s'
      | (.error e, s') => (.error e, s') := by
  change (match exec m s with | (a, s') => (ExceptT.bindCont f a) s') = _
  rcases exec m s with ⟨r, s'⟩
  cases r <;> rfl

lemma exec_eq_ok {m : Exec ε σ α} {s : σ} {a : α} (h : (exec m s).1.toOption = some a) :
    exec m s = (.ok a, (exec m s).2) := by
  rcases hx : exec m s with ⟨r, s'⟩
  rw [hx] at h
  cases r with
  | ok b =>
    obtain rfl := Option.some.inj h
    rfl
  | error e => cases h

lemma wp_bind {m : Exec ε σ α} {f : α → Exec ε σ β} {Q : Except ε β → σ → Prop} {s : σ} :
    wp (m >>= f) Q s ↔ wp m (andThen f Q) s := by
  rw [wp, exec_bind, wp]
  rcases exec m s with ⟨r, s'⟩
  cases r <;> rfl

lemma wp_ite {p : Prop} [Decidable p] {m n : Exec ε σ α} {Q : Except ε α → σ → Prop} {s : σ} :
    wp (if p then m else n) Q s ↔ (p → wp m Q s) ∧ (¬p → wp n Q s) := by
  by_cases hp : p <;> simp [hp]

lemma wp_refuse {p : Prop} [Decidable p] {e : ε} {Q : Except ε Unit → σ → Prop} {s : σ} :
    wp (refuse p e) Q s ↔ (p → Q (.error e) s) ∧ (¬p → Q (.ok ()) s) := wp_ite

lemma wp_when {b : Bool} {m : Exec ε σ Unit} {Q : Except ε Unit → σ → Prop} {s : σ} :
    wp (when b m) Q s ↔ (b = true → wp m Q s) ∧ (¬b = true → Q (.ok ()) s) := wp_ite

lemma wp_require {o : Option α} {e : ε} {Q : Except ε α → σ → Prop} {s : σ} :
    wp (require o e) Q s ↔ (o = none → Q (.error e) s) ∧ (∀ a, o = some a → Q (.ok a) s) := by
  cases o with
  | none => simp [require, wp_throw]
  | some a => simp [require, wp_pure]

lemma wp_lift {δ : Type} {f : δ → ε} {r : Except δ α} {Q : Except ε α → σ → Prop} {s : σ} :
    wp (lift f r) Q s ↔
      (∀ e, r = .error e → Q (.error (f e)) s) ∧ (∀ a, r = .ok a → Q (.ok a) s) := by
  cases r with
  | error e => simp [lift, wp_throw]
  | ok a => simp [lift, wp_pure]

lemma wp_attempt {δ : Type} {m : Exec ε σ α} {Q : Except δ (Except ε α) → σ → Prop} {s : σ} :
    wp (attempt m) Q s ↔ wp m (fun r s' => Q (.ok r) s') s := Iff.rfl

lemma wp_mapErr {δ : Type} {f : ε → δ} {m : Exec ε σ α} {Q : Except δ α → σ → Prop} {s : σ} :
    wp (mapErr f m) Q s ↔ wp m (fun r s' => Q (r.mapError f) s') s := Iff.rfl

def Keeps (R : σ → σ → Prop) (m : Exec ε σ α) : Prop := ∀ s, wp m (fun _ s' => R s s') s

namespace Keeps

variable {R : σ → σ → Prop}

lemma pure [Std.Refl R] (a : α) : Keeps R (pure a : Exec ε σ α) := fun s => Std.Refl.refl s

lemma throw [Std.Refl R] (e : ε) : Keeps R (throw e : Exec ε σ α) := fun s => Std.Refl.refl s

lemma get [Std.Refl R] : Keeps R (get : Exec ε σ σ) := fun s => Std.Refl.refl s

lemma modify {f : σ → σ} (h : ∀ s, R s (f s)) : Keeps R (modify f : Exec ε σ PUnit) := h

lemma bind [IsTrans σ R] {m : Exec ε σ α} {f : α → Exec ε σ β} (hm : Keeps R m)
    (hf : ∀ a, Keeps R (f a)) : Keeps R (m >>= f) := by
  intro s
  refine wp_bind.mpr (wp_mono (hm s) ?_)
  intro r s' h
  cases r with
  | error e => exact h
  | ok a => exact wp_mono (hf a s') fun _ _ h' => IsTrans.trans _ _ _ h h'

lemma ite {p : Prop} [Decidable p] {m n : Exec ε σ α} (hm : Keeps R m) (hn : Keeps R n) :
    Keeps R (if p then m else n) := fun s => wp_ite.mpr ⟨fun _ => hm s, fun _ => hn s⟩

lemma when [Std.Refl R] (b : Bool) {m : Exec ε σ Unit} (hm : Keeps R m) : Keeps R (when b m) :=
  ite hm (pure ())

lemma refuse [Std.Refl R] (p : Prop) [Decidable p] (e : ε) :
    Keeps R (refuse p e : Exec ε σ Unit) := ite (throw e) (pure ())

lemma require [Std.Refl R] (o : Option α) (e : ε) : Keeps R (require o e : Exec ε σ α) := by
  cases o with
  | none => exact throw e
  | some a => exact pure a

lemma lift {δ : Type} [Std.Refl R] (g : δ → ε) (r : Except δ α) :
    Keeps R (lift g r : Exec ε σ α) := by
  cases r with
  | error e => exact throw _
  | ok a => exact pure a

end Keeps

def Ends (P : σ → Prop) (m : Exec ε σ α) (s : σ) : Prop :=
  wp m (fun r s' => r.isOk = true ∧ P s') s

namespace Ends

variable {P Q : σ → Prop} {s : σ}

lemma mono {m : Exec ε σ α} (h : Ends P m s) (hPQ : ∀ s', P s' → Q s') : Ends Q m s :=
  wp_mono h fun _ _ hr => ⟨hr.1, hPQ _ hr.2⟩

lemma bind {m : Exec ε σ α} {f : α → Exec ε σ β} (hm : Ends P m s)
    (hf : ∀ a s', P s' → Ends Q (f a) s') : Ends Q (m >>= f) s := by
  refine wp_bind.mpr (wp_mono hm ?_)
  rintro (e | a) s' ⟨hok, h⟩
  · cases hok
  · exact hf a s' h

lemma set_bind {t : σ} {f : PUnit → Exec ε σ α} (h : Ends P (f ⟨⟩) t) :
    Ends P (set t >>= f) s := h

lemma modify_bind {g : σ → σ} {f : PUnit → Exec ε σ α} (h : Ends P (f ⟨⟩) (g s)) :
    Ends P (modify g >>= f) s := h

end Ends

def Runs (R : σ → σ → Prop) (m : Exec ε σ α) (s : σ) : Prop := Ends (R s) m s

namespace Runs

variable {R : σ → σ → Prop} {s : σ}

lemma mono {R' : σ → σ → Prop} {m : Exec ε σ α} (h : Runs R m s) (hR : ∀ s', R s s' → R' s s') :
    Runs R' m s := Ends.mono h hR

lemma after [IsTrans σ R] {m : Exec ε σ α} {s' : σ} (h : R s s') (hm : Runs R m s') :
    Ends (R s) m s' := Ends.mono hm fun _ h' => IsTrans.trans _ _ _ h h'

lemma pure [Std.Refl R] (a : α) : Runs R (pure a : Exec ε σ α) s := ⟨rfl, Std.Refl.refl s⟩

lemma set {t : σ} (h : R s t) : Runs R (set t : Exec ε σ PUnit) s := ⟨rfl, h⟩

lemma modify {f : σ → σ} (h : R s (f s)) : Runs R (modify f : Exec ε σ PUnit) s := ⟨rfl, h⟩

lemma get_bind {f : σ → Exec ε σ α} (h : Runs R (f s) s) : Runs R (get >>= f) s := h

lemma bind [IsTrans σ R] {m : Exec ε σ α} {f : α → Exec ε σ β} (hm : Runs R m s)
    (hf : ∀ a s', R s s' → Runs R (f a) s') : Runs R (m >>= f) s :=
  Ends.bind hm fun a s' h => after h (hf a s' h)

lemma ite {p : Prop} [Decidable p] {m n : Exec ε σ α} (hm : p → Runs R m s)
    (hn : ¬p → Runs R n s) : Runs R (if p then m else n) s := by
  by_cases hp : p
  · rw [if_pos hp]
    exact hm hp
  · rw [if_neg hp]
    exact hn hp

lemma when [Std.Refl R] (b : Bool) {m : Exec ε σ Unit} (hm : b = true → Runs R m s) :
    Runs R (when b m) s := ite hm fun _ => pure ()

lemma forM [Std.Refl R] (o : Option α) {f : α → Exec ε σ PUnit} (hf : ∀ a, Runs R (f a) s) :
    Runs R (o.forM f) s := by
  cases o with
  | none => exact pure PUnit.unit
  | some a => exact hf a

end Runs

def Post (P : α → σ → Prop) (m : Exec ε σ α) (s : σ) : Prop :=
  wp m (fun r s' => ∀ a, r = .ok a → P a s') s

namespace Post

variable {P Q : α → σ → Prop} {s : σ}

lemma of_exec {m : Exec ε σ α} (h : Post P m s) {a : α} {s' : σ} (hr : exec m s = (.ok a, s')) :
    P a s' := by
  have := h a (congrArg Prod.fst hr)
  rwa [hr] at this

lemma mono {m : Exec ε σ α} (h : Post P m s) (hPQ : ∀ a s', P a s' → Q a s') : Post Q m s :=
  wp_mono h fun _ _ hr a ha => hPQ a _ (hr a ha)

lemma pure {a : α} (h : P a s) : Post P (pure a : Exec ε σ α) s := by
  intro b hb
  cases hb
  exact h

lemma throw (e : ε) : Post P (throw e : Exec ε σ α) s := nofun

lemma bind {P : β → σ → Prop} {m : Exec ε σ α} {f : α → Exec ε σ β} (hm : Post Q m s)
    (hf : ∀ a s', Q a s' → Post P (f a) s') : Post P (m >>= f) s := by
  refine wp_bind.mpr (wp_mono hm ?_)
  rintro (e | a) s' h
  · exact nofun
  · exact hf a s' (h a rfl)

lemma get_bind {f : σ → Exec ε σ α} (h : Post P (f s) s) : Post P (get >>= f) s := h

lemma set_bind {t : σ} {f : PUnit → Exec ε σ α} (h : Post P (f ⟨⟩) t) :
    Post P (set t >>= f) s := h

lemma modify_bind {g : σ → σ} {f : PUnit → Exec ε σ α} (h : Post P (f ⟨⟩) (g s)) :
    Post P (modify g >>= f) s := h

lemma modify {P : PUnit → σ → Prop} {g : σ → σ} (h : P ⟨⟩ (g s)) :
    Post P (modify g : Exec ε σ PUnit) s := pure h

lemma set {P : PUnit → σ → Prop} {t : σ} (h : P ⟨⟩ t) : Post P (set t : Exec ε σ PUnit) s := by
  intro a _
  exact h

lemma ite {p : Prop} [Decidable p] {m n : Exec ε σ α} (hm : p → Post P m s)
    (hn : ¬p → Post P n s) : Post P (if p then m else n) s := by
  by_cases hp : p
  · rw [if_pos hp]
    exact hm hp
  · rw [if_neg hp]
    exact hn hp

lemma when {P : Unit → σ → Prop} (b : Bool) {m : Exec ε σ Unit} (hm : b = true → Post P m s)
    (hn : b = false → P () s) : Post P (when b m) s :=
  ite hm fun hb => pure (hn (eq_false_of_ne_true hb))

lemma forM {P : PUnit → σ → Prop} (o : Option α) {f : α → Exec ε σ PUnit}
    (hf : ∀ a, o = some a → Post P (f a) s) (hn : o = none → P ⟨⟩ s) : Post P (o.forM f) s := by
  cases o with
  | none => exact pure (hn rfl)
  | some a => exact hf a rfl

end Post

def Gives (Q : α → σ → Prop) (m : Exec ε σ α) (s : σ) : Prop :=
  wp m (fun r s' => ∃ a, r = .ok a ∧ Q a s') s

namespace Gives

variable {Q : α → σ → Prop} {R : β → σ → Prop} {s : σ}

lemma pure {a : α} (h : Q a s) : Gives Q (pure a : Exec ε σ α) s := ⟨a, rfl, h⟩

lemma mono {Q' : α → σ → Prop} {m : Exec ε σ α} (h : Gives Q m s) (hQ : ∀ a s', Q a s' → Q' a s') :
    Gives Q' m s := by
  refine wp_mono h ?_
  rintro r s' ⟨a, hr, ha⟩
  exact ⟨a, hr, hQ a s' ha⟩

lemma bind {m : Exec ε σ α} {f : α → Exec ε σ β} (hm : Gives Q m s)
    (hf : ∀ a s', Q a s' → Gives R (f a) s') : Gives R (m >>= f) s := by
  refine wp_bind.mpr (wp_mono hm ?_)
  rintro r s' ⟨a, rfl, ha⟩
  exact hf a s' ha

lemma exec_eq {m : Exec ε σ α} (h : Gives Q m s) : ∃ a s', exec m s = (.ok a, s') ∧ Q a s' := by
  obtain ⟨a, hr, ha⟩ := h
  exact ⟨a, (exec m s).2, Prod.ext hr rfl, ha⟩

lemma get_bind {f : σ → Exec ε σ α} (h : Gives Q (f s) s) : Gives Q (get >>= f) s := h

lemma modify_bind {g : σ → σ} {f : PUnit → Exec ε σ α} (h : Gives Q (f ⟨⟩) (g s)) :
    Gives Q (modify g >>= f) s := h

lemma modify {Q : PUnit → σ → Prop} {g : σ → σ} (h : Q ⟨⟩ (g s)) :
    Gives Q (modify g : Exec ε σ PUnit) s := ⟨⟨⟩, rfl, h⟩

lemma when {Q : Unit → σ → Prop} (b : Bool) {m : Exec ε σ Unit} (hm : b = true → Gives Q m s)
    (hn : b = false → Q () s) : Gives Q (when b m) s := by
  cases b with
  | true => exact hm rfl
  | false => exact pure (hn rfl)

lemma forM {Q : PUnit → σ → Prop} (o : Option α) {f : α → Exec ε σ PUnit}
    (hf : ∀ a, o = some a → Gives Q (f a) s) (hn : o = none → Q ⟨⟩ s) : Gives Q (o.forM f) s := by
  cases o with
  | none => exact pure (hn rfl)
  | some a => exact hf a rfl

lemma require {o : Option α} {e : ε} (h : ∃ a, o = some a ∧ Q a s) :
    Gives Q (require o e : Exec ε σ α) s := by
  obtain ⟨a, rfl, ha⟩ := h
  exact pure ha

end Gives

def Upholds (P : σ → Prop) (E : ε → Prop) (Q : α → σ → Prop) (m : Exec ε σ α) (s : σ) : Prop :=
  wp m (fun r s' => P s' ∧ (∀ a, r = .ok a → Q a s') ∧ ∀ e, r = .error e → E e) s

namespace Upholds

variable {P : σ → Prop} {E : ε → Prop} {Q : α → σ → Prop} {s : σ}

lemma pure {a : α} (h : P s) (hQ : Q a s) : Upholds P E Q (pure a : Exec ε σ α) s := by
  refine ⟨h, fun b hb => ?_, nofun⟩
  cases hb
  exact hQ

lemma throw {e : ε} (h : P s) (hE : E e) : Upholds P E Q (throw e : Exec ε σ α) s := by
  refine ⟨h, nofun, fun e' he => ?_⟩
  cases he
  exact hE

lemma bind {Q' : β → σ → Prop} {m : Exec ε σ α} {f : α → Exec ε σ β} (hm : Upholds P E Q m s)
    (hf : ∀ a s', P s' → Q a s' → Upholds P E Q' (f a) s') : Upholds P E Q' (m >>= f) s := by
  refine wp_bind.mpr (wp_mono hm ?_)
  rintro (e | a) s' ⟨h, hQ, hE⟩
  · refine ⟨h, nofun, fun e' he => ?_⟩
    cases he
    exact hE e rfl
  · exact hf a s' h (hQ a rfl)

lemma mono {P' : σ → Prop} {E' : ε → Prop} {Q' : α → σ → Prop} {m : Exec ε σ α}
    (h : Upholds P E Q m s) (hP : ∀ s, P s → P' s) (hE : ∀ e, E e → E' e)
    (hQ : ∀ a s, P s → Q a s → Q' a s) : Upholds P' E' Q' m s :=
  wp_mono h fun _ s' hr => ⟨hP s' hr.1, fun a ha => hQ a s' hr.1 (hr.2.1 a ha), fun e he => hE e (hr.2.2 e he)⟩

lemma seq {P' : σ → Prop} {Q' : β → σ → Prop} {m : Exec ε σ α} {f : α → Exec ε σ β}
    (weaken : ∀ s, P s → P' s) (hm : Upholds P E Q m s)
    (hf : ∀ a s', P s' → Q a s' → Upholds P' E Q' (f a) s') : Upholds P' E Q' (m >>= f) s :=
  (hm.mono weaken (fun _ h => h) fun _ _ h hQ => And.intro h hQ).bind fun a s' _ h => hf a s' h.1 h.2

lemma get_bind {f : σ → Exec ε σ α} (h : Upholds P E Q (f s) s) : Upholds P E Q (get >>= f) s := h

lemma set_bind {t : σ} {f : PUnit → Exec ε σ α} (h : Upholds P E Q (f ⟨⟩) t) :
    Upholds P E Q (set t >>= f) s := h

lemma modify_bind {g : σ → σ} {f : PUnit → Exec ε σ α} (h : Upholds P E Q (f ⟨⟩) (g s)) :
    Upholds P E Q (modify g >>= f) s := h

lemma set {Q : PUnit → σ → Prop} {t : σ} (h : P t) (hQ : Q ⟨⟩ t) :
    Upholds P E Q (set t : Exec ε σ PUnit) s := pure h hQ

lemma refuse {Q : Unit → σ → Prop} {p : Prop} [Decidable p] {e : ε} (h : P s) (hE : p → E e)
    (hQ : ¬ p → Q () s) : Upholds P E Q (refuse p e : Exec ε σ Unit) s := by
  by_cases hp : p
  · rw [Exec.refuse, if_pos hp]
    exact throw h (hE hp)
  · rw [Exec.refuse, if_neg hp]
    exact pure h (hQ hp)

lemma require {o : Option α} {e : ε} (h : P s) (hE : E e) (hQ : ∀ a, o = some a → Q a s) :
    Upholds P E Q (require o e : Exec ε σ α) s := by
  cases o with
  | none => exact throw h hE
  | some a => exact pure h (hQ a rfl)

lemma lift {δ : Type} {f : δ → ε} {r : Except δ α} (h : P s) (hE : ∀ e, r = .error e → E (f e))
    (hQ : ∀ a, r = .ok a → Q a s) : Upholds P E Q (lift f r : Exec ε σ α) s := by
  cases r with
  | error e => exact throw h (hE e rfl)
  | ok a => exact pure h (hQ a rfl)

lemma attempt {δ : Type} {E' : δ → Prop} {m : Exec ε σ α} (h : Upholds P E Q m s) :
    Upholds P E' (fun r s' => ∀ a, r = .ok a → Q a s') (attempt m : Exec δ σ (Except ε α)) s := by
  refine ⟨h.1, fun r hr => ?_, nofun⟩
  cases hr
  exact h.2.1

lemma mapErr {δ : Type} {E' : δ → Prop} {f : ε → δ} {m : Exec ε σ α} (h : Upholds P E Q m s)
    (hE : ∀ e, E e → E' (f e)) : Upholds P E' Q (mapErr f m) s := by
  refine ⟨h.1, fun a ha => ?_, fun e he => ?_⟩
  · change (exec m s).1.mapError f = .ok a at ha
    cases hr : (exec m s).1 with
    | error e =>
      rw [hr] at ha
      cases ha
    | ok b =>
      rw [hr] at ha
      cases ha
      exact h.2.1 a hr
  · change (exec m s).1.mapError f = .error e at he
    cases hr : (exec m s).1 with
    | error e' =>
      rw [hr] at he
      cases he
      exact hE e' (h.2.2 e' hr)
    | ok b =>
      rw [hr] at he
      cases he

end Upholds

def Agrees (R : σ → σ → Prop) (m m' : Exec ε σ α) (s s' : σ) : Prop :=
  (exec m' s').1 = (exec m s).1 ∧ R (exec m s).2 (exec m' s').2

namespace Agrees

variable {R : σ → σ → Prop} {s s' : σ}

lemma pure (a : α) (h : R s s') : Agrees R (pure a : Exec ε σ α) (pure a) s s' := ⟨rfl, h⟩

lemma throw (e : ε) (h : R s s') : Agrees R (throw e : Exec ε σ α) (throw e) s s' := ⟨rfl, h⟩

lemma modify {g g' : σ → σ} (h : R (g s) (g' s')) :
    Agrees R (modify g : Exec ε σ PUnit) (modify g') s s' := ⟨rfl, h⟩

lemma get_bind {f f' : σ → Exec ε σ α} (h : Agrees R (f s) (f' s') s s') :
    Agrees R (get >>= f) (get >>= f') s s' := h

lemma bind {m m' : Exec ε σ α} {f f' : α → Exec ε σ β} (hm : Agrees R m m' s s')
    (hf : ∀ a t t', R t t' → Agrees R (f a) (f' a) t t') : Agrees R (m >>= f) (m' >>= f') s s' := by
  revert hm
  rw [Agrees, Agrees, exec_bind, exec_bind]
  rcases exec m s with ⟨r, t⟩
  rcases exec m' s' with ⟨r', t'⟩
  rintro ⟨hr, hs⟩
  obtain rfl : r' = r := hr
  cases r' with
  | ok a => exact hf a t t' hs
  | error e => exact ⟨rfl, hs⟩

lemma require (o : Option α) (e : ε) (h : R s s') : Agrees R (require o e) (require o e) s s' := by
  cases o with
  | none => exact throw e h
  | some a => exact pure a h

lemma refuse (p : Prop) [Decidable p] (e : ε) (h : R s s') : Agrees R (refuse p e) (refuse p e) s s' := by
  by_cases hp : p
  · rw [Exec.refuse, if_pos hp]
    exact throw e h
  · rw [Exec.refuse, if_neg hp]
    exact pure () h

lemma when (b : Bool) {m m' : Exec ε σ Unit} (hm : Agrees R m m' s s') (h : R s s') :
    Agrees R (when b m) (when b m') s s' := by
  cases b with
  | true => exact hm
  | false => exact pure () h

end Agrees

end Exec

end Sheprd.Lib
