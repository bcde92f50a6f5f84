import Sheprd.Automation.Plan
import Sheprd.Lib.Exec

namespace Sheprd.Automation

open Sheprd.Lib

def Live (handler : Handler) (outcomes : List Bool) : Prop :=
  ∀ front ok, front ++ [ok] <+: outcomes →
    ∃ call, handler front = .call call ∧ (ok = false → call.check = false)

lemma live_nil (handler : Handler) : Live handler [] := by
  intro front ok h
  exact absurd (List.prefix_nil.mp h) (by simp)

lemma Live.concat {handler : Handler} {outcomes : List Bool} {call : Call} {ok : Bool}
    (h : Live handler outcomes) (hc : handler outcomes = .call call)
    (hok : ok = false → call.check = false) : Live handler (outcomes ++ [ok]) := by
  intro front last hpre
  rcases List.prefix_concat_iff.mp hpre with heq | hpre
  · obtain ⟨rfl, hlast⟩ := List.append_inj' heq rfl
    obtain rfl : last = ok := by simpa using hlast
    exact ⟨call, hc, hok⟩
  · exact h front last hpre

inductive Straight (handler : Handler) : ℕ → List Bool → List Call → Prop
  | finish {left : ℕ} {outcomes : List Bool} (h : handler outcomes = .finish) :
      Straight handler left outcomes []
  | call {left : ℕ} {outcomes : List Bool} {call : Call} {calls : List Call}
      (h : handler outcomes = .call call) (rest : Straight handler left (outcomes ++ [true]) calls) :
      Straight handler (left + 1) outcomes (call :: calls)

inductive Conforms (handler : Handler) : ℕ → List Bool → List PlannedStep → Prop
  | ended {left : ℕ} {outcomes : List Bool} (h : handler outcomes = .finish) :
      Conforms handler left outcomes []
  | stops {left : ℕ} {outcomes : List Bool} {call : Call} {rest : List PlannedStep}
      (h : handler outcomes = .call call) (checked : call.check = true)
      (ok : Conforms handler left (outcomes ++ [true]) rest) :
      Conforms handler (left + 1) outcomes (⟨call, .stops⟩ :: rest)
  | continues {left : ℕ} {outcomes : List Bool} {call : Call} {rest : List PlannedStep}
      (h : handler outcomes = .call call) (unchecked : call.check = false)
      (ok : Conforms handler left (outcomes ++ [true]) rest)
      (failed : Conforms handler left (outcomes ++ [false]) rest) :
      Conforms handler (left + 1) outcomes (⟨call, .continues⟩ :: rest)
  | branch {left : ℕ} {outcomes : List Bool} {call : Call} {rest instead : List PlannedStep}
      (h : handler outcomes = .call call) (unchecked : call.check = false)
      (ok : Conforms handler left (outcomes ++ [true]) rest)
      (failed : Conforms handler left (outcomes ++ [false]) instead) :
      Conforms handler (left + 1) outcomes (⟨call, .branch instead⟩ :: rest)

section Run

variable {σ η : Type} {exec : Call → StateM σ (Verdict η)} {handler : Handler}
  {outcomes : List Bool} {s : σ}

lemma runFrom_finish (left : ℕ) (h : handler outcomes = .finish) :
    runFrom exec handler left outcomes s = (.ok .completed, s) := by
  rw [runFrom, h]
  rfl

lemma runFrom_fail (left : ℕ) {e : Error} (h : handler outcomes = .fail e) :
    runFrom exec handler left outcomes s = (.error e, s) := by
  rw [runFrom, h]
  rfl

lemma runFrom_spent {call : Call} (h : handler outcomes = .call call) :
    runFrom exec handler 0 outcomes s = (.error .stepBudget, s) := by
  rw [runFrom, h]
  rfl

lemma runFrom_call (left : ℕ) {call : Call} (h : handler outcomes = .call call) :
    runFrom exec handler (left + 1) outcomes s =
      match exec call s with
      | (.halt halt, s') => (.ok (.halted outcomes.length halt), s')
      | (.succeeded, s') => runFrom exec handler left (outcomes ++ [true]) s'
      | (.failed, s') =>
          if call.check then (.ok (.stopped outcomes.length), s')
          else runFrom exec handler left (outcomes ++ [false]) s' := by
  rw [runFrom, h]
  change (exec call >>= _) s = _
  have hbind (f : Verdict η → StateM σ (Except Error (End η))) :
      (exec call >>= f) s = f (exec call s).1 (exec call s).2 := rfl
  rw [hbind]
  rcases exec call s with ⟨verdict, s'⟩
  cases verdict with
  | halt halt => rfl
  | succeeded => rfl
  | failed => cases call.check <;> rfl

end Run

section Simulate

variable {handler : Handler} {decisions : List Bool}

lemma recordCall_eq (call : Call) (calls : List Call) :
    recordCall decisions call calls =
      (if decisions[calls.length]? = some false then .failed else .succeeded, calls ++ [call]) := rfl

lemma run_past (left : ℕ) : ∀ {outcomes : List Bool} {calls calls' : List Call} {e : End Empty},
    decisions.length ≤ calls.length →
    runFrom (recordCall decisions) handler left outcomes calls = (.ok e, calls') →
    ∃ more, calls' = calls ++ more ∧ Straight handler left outcomes more := by
  induction left with
  | zero =>
    intro outcomes calls calls' e hpast hrun
    cases hh : handler outcomes with
    | finish =>
      rw [runFrom_finish _ hh] at hrun
      cases hrun
      exact ⟨[], (List.append_nil _).symm, .finish hh⟩
    | fail e' =>
      rw [runFrom_fail _ hh] at hrun
      cases hrun
    | call call =>
      rw [runFrom_spent hh] at hrun
      cases hrun
  | succ left ih =>
    intro outcomes calls calls' e hpast hrun
    cases hh : handler outcomes with
    | finish =>
      rw [runFrom_finish _ hh] at hrun
      cases hrun
      exact ⟨[], (List.append_nil _).symm, .finish hh⟩
    | fail e' =>
      rw [runFrom_fail _ hh] at hrun
      cases hrun
    | call call =>
      rw [runFrom_call _ hh, recordCall_eq, List.getElem?_eq_none hpast] at hrun
      have hlonger : decisions.length ≤ (calls ++ [call]).length :=
        hpast.trans (by simp)
      obtain ⟨more, hmore, hstraight⟩ := ih hlonger hrun
      exact ⟨call :: more, by rw [hmore, List.append_assoc]; rfl, .call hh hstraight⟩

lemma next_decision {outcomes : List Bool} (h : outcomes <+: decisions)
    (hne : outcomes ≠ decisions) : ∃ ok, outcomes ++ [ok] <+: decisions := by
  obtain ⟨rest, rfl⟩ := h
  cases rest with
  | nil => exact absurd (List.append_nil _).symm hne
  | cons ok rest => exact ⟨ok, rest, by rw [List.append_assoc]; rfl⟩

lemma decision_at {outcomes : List Bool} {ok : Bool} (h : outcomes ++ [ok] <+: decisions) :
    decisions[outcomes.length]? = some ok := by
  obtain ⟨rest, rfl⟩ := h
  simp

lemma run_decided (hlive : Live handler decisions) (left : ℕ) :
    ∀ {outcomes : List Bool} {calls calls' : List Call} {e : End Empty},
    outcomes.length = calls.length → outcomes <+: decisions →
    runFrom (recordCall decisions) handler left outcomes calls = (.ok e, calls') →
    ∃ left', left' + decisions.length = left + outcomes.length ∧
      Straight handler left' decisions (calls'.drop decisions.length) := by
  have hreached {left : ℕ} {calls calls' : List Call} {e : End Empty}
      (hlen : decisions.length = calls.length)
      (hrun : runFrom (recordCall decisions) handler left decisions calls = (.ok e, calls')) :
      Straight handler left decisions (calls'.drop decisions.length) := by
    obtain ⟨more, rfl, hstraight⟩ := run_past left hlen.le hrun
    rw [hlen, List.drop_left]
    exact hstraight
  induction left with
  | zero =>
    intro outcomes calls calls' e hlen hpre hrun
    by_cases hall : outcomes = decisions
    · subst hall
      exact ⟨0, rfl, hreached hlen hrun⟩
    · obtain ⟨ok, hnext⟩ := next_decision hpre hall
      obtain ⟨call, hh, -⟩ := hlive outcomes ok hnext
      rw [runFrom_spent hh] at hrun
      cases hrun
  | succ left ih =>
    intro outcomes calls calls' e hlen hpre hrun
    by_cases hall : outcomes = decisions
    · subst hall
      exact ⟨left + 1, rfl, hreached hlen hrun⟩
    · obtain ⟨ok, hnext⟩ := next_decision hpre hall
      obtain ⟨call, hh, hread⟩ := hlive outcomes ok hnext
      have hlen' : (outcomes ++ [ok]).length = (calls ++ [call]).length := by simp [hlen]
      have hgo : runFrom (recordCall decisions) handler left (outcomes ++ [ok]) (calls ++ [call]) =
          (.ok e, calls') := by
        rw [runFrom_call _ hh, recordCall_eq, ← hlen, decision_at hnext] at hrun
        cases ok with
        | true => exact hrun
        | false => simpa [hread rfl] using hrun
      obtain ⟨left', hleft, hstraight⟩ := ih hlen' hnext hgo
      refine ⟨left', ?_, hstraight⟩
      rw [hleft, List.length_append, List.length_singleton]
      omega

lemma simulate_straight {script : Script} {limits : Limits} {trigger : ℕ} {calls : List Call}
    (ht : script.triggers[trigger]? = some handler) (hlive : Live handler decisions)
    (h : simulate script limits trigger decisions = .ok calls) :
    ∃ left, left + decisions.length = limits.steps ∧
      Straight handler left decisions (calls.drop decisions.length) := by
  rw [simulate, Script.run, ht] at h
  dsimp only at h
  rcases hrun : runFrom (recordCall decisions) handler limits.steps [] [] with ⟨r, calls'⟩
  rw [hrun] at h
  cases r with
  | error e => cases h
  | ok e =>
    cases h
    exact run_decided hlive limits.steps rfl List.nil_prefix hrun

end Simulate

lemma resize_past {decisions : List Bool} {position : ℕ} (h : decisions.length ≤ position) :
    resize decisions position true = decisions ++ List.replicate (position - decisions.length) true := by
  rw [resize, List.take_of_length_le h]

lemma Conforms.compress {handler : Handler} (steps : List PlannedStep) :
    ∀ {left : ℕ} {outcomes : List Bool}, Conforms handler left outcomes steps →
      Conforms handler left outcomes (compress steps) := by
  induction steps with
  | nil => exact fun h => h
  | cons step rest ih =>
    intro left outcomes h
    rw [Automation.compress]
    cases h with
    | stops h checked ok => exact .stops h checked (ih ok)
    | continues h unchecked ok failed => exact .continues h unchecked (ih ok) (ih failed)
    | @branch left _ call _ instead h unchecked ok failed =>
      dsimp only
      split
      case isTrue hsame =>
        subst hsame
        exact .continues h unchecked (ih ok) (ih failed)
      case isFalse => exact .branch h unchecked (ih ok) failed

section Depth

variable {f g : List Bool → ℕ → Except Error (List PlannedStep × ℕ)}

def CountsUp (f : List Bool → ℕ → Except Error (List PlannedStep × ℕ)) : Prop :=
  ∀ decisions paths steps paths', f decisions paths = .ok (steps, paths') → paths ≤ paths'

lemma planFailure_counts (hf : CountsUp f) {failing : List Bool} {call : Call} {paths paths' : ℕ}
    {failure : Failure} (h : planFailure f failing call paths = .ok (failure, paths')) :
    paths ≤ paths' := by
  rw [planFailure] at h
  split at h
  · cases h
    exact Nat.le_refl _
  · obtain ⟨⟨instead, paths₁⟩, hinstead, h⟩ := bind_eq_ok.mp h
    cases h
    exact hf _ _ _ _ hinstead

lemma planCalls_counts (hf : CountsUp f) {decisions : List Bool} (calls : List Call) :
    ∀ {position paths paths' : ℕ} {steps : List PlannedStep},
      planCalls f decisions position calls paths = .ok (steps, paths') → paths ≤ paths' := by
  induction calls with
  | nil =>
    intro position paths paths' steps h
    cases h
    exact Nat.le_refl _
  | cons call calls ih =>
    intro position paths paths' steps h
    rw [planCalls] at h
    obtain ⟨⟨failure, paths₁⟩, hfailure, h⟩ := bind_eq_ok.mp h
    obtain ⟨⟨rest, paths₂⟩, hrest, h⟩ := bind_eq_ok.mp h
    cases h
    exact (planFailure_counts hf hfailure).trans (ih hrest)

lemma exploreTo_counts (script : Script) (limits : Limits) (trigger depth : ℕ) :
    CountsUp (exploreTo script limits trigger depth) := by
  induction depth with
  | zero => exact fun _ _ _ _ h => by cases h
  | succ depth ih =>
    intro decisions paths steps paths' h
    rw [exploreTo] at h
    split at h
    case isTrue => cases h
    case isFalse =>
      obtain ⟨calls, -, h⟩ := bind_eq_ok.mp h
      obtain ⟨⟨planned, paths₁⟩, hplan, h⟩ := bind_eq_ok.mp h
      cases h
      have := planCalls_counts ih _ hplan
      omega

lemma planCalls_congr (hf : CountsUp f) {least : ℕ}
    (hfg : ∀ decisions paths, least ≤ paths → f decisions paths = g decisions paths)
    {decisions : List Bool} (calls : List Call) : ∀ {position paths : ℕ}, least ≤ paths →
      planCalls f decisions position calls paths = planCalls g decisions position calls paths := by
  induction calls with
  | nil => exact fun _ => rfl
  | cons call calls ih =>
    intro position paths hle
    rw [planCalls, planCalls]
    have hsame : ∀ failing, planFailure f failing call paths = planFailure g failing call paths := by
      intro failing
      rw [planFailure, planFailure, hfg _ _ hle]
    rw [hsame]
    cases hfailure : planFailure g (resize decisions position true ++ [false]) call paths with
    | error e => rfl
    | ok planned =>
      obtain ⟨failure, paths₁⟩ := planned
      have hcount := planFailure_counts hf ((hsame _).trans hfailure)
      change (planCalls f decisions (position + 1) calls paths₁ >>= _) =
        (planCalls g decisions (position + 1) calls paths₁ >>= _)
      rw [ih (hle.trans hcount)]

lemma exploreTo_deeper (script : Script) (limits : Limits) (trigger depth : ℕ) :
    ∀ decisions paths, maxPaths ≤ depth + paths →
      exploreTo script limits trigger depth decisions paths =
        exploreTo script limits trigger (depth + 1) decisions paths := by
  induction depth with
  | zero =>
    intro decisions paths hle
    rw [exploreTo, exploreTo]
    exact (if_pos (by omega)).symm
  | succ depth ih =>
    intro decisions paths hle
    have hsame (calls : List Call) :
        planCalls (exploreTo script limits trigger depth) decisions decisions.length calls
          (paths + 1) =
        planCalls (exploreTo script limits trigger (depth + 1)) decisions decisions.length calls
          (paths + 1) :=
      planCalls_congr (exploreTo_counts script limits trigger depth)
        (fun d p hp => ih d p (by omega)) calls (Nat.le_refl (paths + 1))
    rw [exploreTo, exploreTo]
    simp only [hsame]

theorem explore_eq (script : Script) (limits : Limits) (trigger : ℕ) (decisions : List Bool)
    (paths : ℕ) :
    explore script limits trigger decisions paths =
      if maxPaths < paths + 1 then .error (.tooManyPaths maxPaths)
      else (do
        let calls ← simulate script limits trigger decisions
        let (steps, paths) ← planCalls (explore script limits trigger) decisions decisions.length
          (calls.drop decisions.length) (paths + 1)
        .ok (compress steps, paths)) := by
  have hsame (calls : List Call) :
      planCalls (exploreTo script limits trigger maxPaths) decisions decisions.length calls
        (paths + 1) =
      planCalls (explore script limits trigger) decisions decisions.length calls (paths + 1) :=
    planCalls_congr (exploreTo_counts script limits trigger maxPaths)
      (fun d p _ => exploreTo_deeper script limits trigger maxPaths d p (Nat.le_add_right _ _))
      calls (Nat.zero_le (paths + 1))
  rw [explore, exploreTo]
  simp only [hsame]

end Depth

section Explore

variable {script : Script} {limits : Limits} {trigger : ℕ} {handler : Handler}

lemma planCalls_conforms {explore : List Bool → ℕ → Except Error (List PlannedStep × ℕ)}
    (hexplore : ∀ failing paths steps paths', Live handler failing →
      explore failing paths = .ok (steps, paths') →
      ∃ left, left + failing.length = limits.steps ∧ Conforms handler left failing steps)
    {decisions : List Bool} (calls : List Call) :
    ∀ (extra : ℕ) {left paths paths' : ℕ} {steps : List PlannedStep},
      Live handler (decisions ++ List.replicate extra true) →
      left + (decisions.length + extra) = limits.steps →
      Straight handler left (decisions ++ List.replicate extra true) calls →
      planCalls explore decisions (decisions.length + extra) calls paths = .ok (steps, paths') →
      Conforms handler left (decisions ++ List.replicate extra true) steps := by
  induction calls with
  | nil =>
    intro extra left paths paths' steps hlive hleft hs h
    cases h
    cases hs with
    | finish hh => exact .ended hh
  | cons call calls ih =>
    intro extra left paths paths' steps hlive hleft hs h
    cases hs with
    | @call left _ _ _ hh hrest =>
      have hgrow : decisions ++ List.replicate extra true ++ [true] =
          decisions ++ List.replicate (extra + 1) true := by
        rw [List.append_assoc, List.replicate_succ']
      have hlive' : Live handler (decisions ++ List.replicate (extra + 1) true) := by
        rw [← hgrow]
        exact hlive.concat hh (by simp)
      rw [hgrow] at hrest
      have hrestOk (paths : ℕ) (steps : List PlannedStep) (hplan : planCalls explore decisions
          (decisions.length + extra + 1) calls paths = .ok (steps, paths')) :
          Conforms handler left (decisions ++ List.replicate extra true ++ [true]) steps := by
        rw [hgrow]
        exact ih (extra + 1) hlive' (by omega) hrest hplan
      rw [planCalls, resize_past (Nat.le_add_right _ _), Nat.add_sub_cancel_left] at h
      obtain ⟨⟨onFailure, paths₁⟩, hfail, h⟩ := bind_eq_ok.mp h
      obtain ⟨⟨rest, paths₂⟩, hplan, h⟩ := bind_eq_ok.mp h
      cases h
      rw [planFailure] at hfail
      cases hcheck : call.check with
      | true =>
        rw [hcheck] at hfail
        cases hfail
        exact .stops hh hcheck (hrestOk _ _ hplan)
      | false =>
        rw [hcheck] at hfail
        obtain ⟨⟨instead, paths₃⟩, hinstead, hfail⟩ := bind_eq_ok.mp hfail
        cases hfail
        obtain ⟨left', hleft', hconf⟩ := hexplore _ _ _ _ (hlive.concat hh fun _ => hcheck) hinstead
        obtain rfl : left' = left := by
          simp only [List.length_append, List.length_replicate, List.length_singleton] at hleft'
          omega
        exact .branch hh hcheck (hrestOk _ _ hplan) hconf

lemma exploreTo_conforms (ht : script.triggers[trigger]? = some handler) (depth : ℕ) :
    ∀ {decisions : List Bool} {paths paths' : ℕ} {steps : List PlannedStep},
      Live handler decisions →
      exploreTo script limits trigger depth decisions paths = .ok (steps, paths') →
      ∃ left, left + decisions.length = limits.steps ∧ Conforms handler left decisions steps := by
  induction depth with
  | zero =>
    intro decisions paths paths' steps _ h
    cases h
  | succ depth ih =>
    intro decisions paths paths' steps hlive h
    rw [exploreTo] at h
    split at h
    case isTrue => cases h
    case isFalse =>
      obtain ⟨calls, hsim, h⟩ := bind_eq_ok.mp h
      obtain ⟨⟨planned, paths₁⟩, hplan, h⟩ := bind_eq_ok.mp h
      cases h
      obtain ⟨left, hleft, hstraight⟩ := simulate_straight ht hlive hsim
      refine ⟨left, hleft, Conforms.compress _ ?_⟩
      have hconf := planCalls_conforms (fun failing paths steps paths' hf he => ih hf he)
        (calls.drop decisions.length) 0 (by simpa using hlive) (by simpa using hleft)
        (by simpa using hstraight) hplan
      simpa using hconf

lemma explored_trigger {depth paths : ℕ} {decisions : List Bool} {explored : List PlannedStep × ℕ}
    (h : exploreTo script limits trigger depth decisions paths = .ok explored) :
    ∃ handler, script.triggers[trigger]? = some handler := by
  cases depth with
  | zero => cases h
  | succ depth =>
    rw [exploreTo] at h
    split at h
    case isTrue => cases h
    case isFalse =>
      obtain ⟨calls, hsim, -⟩ := bind_eq_ok.mp h
      cases ht : script.triggers[trigger]? with
      | some handler => exact ⟨handler, rfl⟩
      | none =>
        rw [simulate, Script.run, ht] at hsim
        cases hsim

end Explore

def Walker.ahead (w : Walker) : List PlannedStep := w.steps.drop w.position

lemma Conforms.next {handler : Handler} {left : ℕ} {outcomes : List Bool} {steps : List PlannedStep}
    (h : Conforms handler left outcomes steps) :
    handler outcomes = .finish ∨ ∃ call left', handler outcomes = .call call ∧ left = left' + 1 := by
  cases h with
  | ended h => exact Or.inl h
  | _ h => exact Or.inr ⟨_, _, h, rfl⟩

section Walk

variable {handler : Handler} {left : ℕ} {outcomes : List Bool} {w : Walker}

lemma ahead_cons {step : PlannedStep} {rest : List PlannedStep} (h : w.ahead = step :: rest) :
    w.steps[w.position]? = some step ∧ w.steps.drop (w.position + 1) = rest := by
  rw [Walker.ahead] at h
  constructor
  · rw [← List.head?_drop, h]
    rfl
  · rw [← List.drop_drop, h]
    rfl

lemma expects_iff (h : Conforms handler left outcomes w.ahead) (call : Call) :
    w.expects call = true ↔ handler outcomes = .call call := by
  have hhead : w.steps[w.position]? = w.ahead.head? := List.head?_drop.symm
  rw [Walker.expects, hhead]
  generalize w.ahead = ahead at h
  cases h with
  | ended h => simp [h]
  | _ h => simp [h]

lemma Conforms.planned {call : Call} (h : Conforms handler left outcomes w.ahead)
    (hc : handler outcomes = .call call) : ∃ step rest, w.ahead = step :: rest ∧
      w.steps[w.position]? = some step ∧ w.steps.drop (w.position + 1) = rest := by
  cases hahead : w.ahead with
  | nil =>
    rw [hahead] at h
    cases h with
    | ended hh => exact absurd (hc.symm.trans hh) (by simp)
  | cons step rest => exact ⟨step, rest, rfl, ahead_cons hahead⟩

lemma record_conforms {call : Call} {ok : Bool} (h : Conforms handler (left + 1) outcomes w.ahead)
    (hc : handler outcomes = .call call) (hok : ok = true ∨ call.check = false) :
    Conforms handler left (outcomes ++ [ok]) (w.record ok).ahead := by
  obtain ⟨step, rest, hahead, hat, hrest⟩ := h.planned hc
  rw [Walker.record, hat]
  rw [hahead] at h
  dsimp only
  cases ok with
  | true =>
    change Conforms handler left _ (w.steps.drop (w.position + 1))
    rw [hrest]
    cases h with
    | stops h checked ok => exact ok
    | continues h unchecked ok failed => exact ok
    | branch h unchecked ok failed => exact ok
  | false =>
    rw [if_neg (by simp)]
    cases h with
    | stops h checked ok =>
      cases hc.symm.trans h
      exact absurd checked (by simpa using hok)
    | continues h unchecked ok failed =>
      change Conforms handler left _ (w.steps.drop (w.position + 1))
      rw [hrest]
      exact failed
    | branch h unchecked ok failed => exact failed

lemma record_stopped {call : Call} (h : Conforms handler left outcomes w.ahead)
    (hc : handler outcomes = .call call) (checked : call.check = true) : w.record false = ⟨[], 0⟩ := by
  obtain ⟨step, rest, hahead, hat, -⟩ := h.planned hc
  rw [Walker.record, hat]
  rw [hahead] at h
  cases h with
  | stops h _ _ => rfl
  | continues h unchecked _ _ =>
    cases hc.symm.trans h
    exact absurd unchecked (by simp [checked])
  | branch h unchecked _ _ =>
    cases hc.symm.trans h
    exact absurd unchecked (by simp [checked])

end Walk

def firstOutcomes (outcome : ℕ → Bool) (n : ℕ) : List Bool := (List.range n).map outcome

lemma firstOutcomes_succ (outcome : ℕ → Bool) (n : ℕ) :
    firstOutcomes outcome (n + 1) = firstOutcomes outcome n ++ [outcome n] := by
  simp [firstOutcomes, List.range_succ]

def Walker.after (plan : List PlannedStep) (outcome : ℕ → Bool) (n : ℕ) : Walker :=
  (firstOutcomes outcome n).foldl Walker.record (.new plan)

lemma Walker.after_succ (plan : List PlannedStep) (outcome : ℕ → Bool) (n : ℕ) :
    after plan outcome (n + 1) = (after plan outcome n).record (outcome n) := by
  rw [after, firstOutcomes_succ, List.foldl_append]
  rfl

section Walked

variable {handler : Handler} {plan : List PlannedStep} {outcome : ℕ → Bool}

lemma carryOut_eq (call : Call) (made : List Call) :
    carryOut outcome call made =
      (if outcome made.length then .succeeded else .failed, made ++ [call]) := rfl

lemma walk_eq {call : Call} {w : Walker} (made : List Call) (h : w.expects call = true) :
    walk outcome call (w, made) =
      (if outcome made.length then .succeeded else .failed,
        (w.record (outcome made.length), made ++ [call])) := by
  change (if w.expects call then _ else _ : StateM (Walker × List Call) (Verdict Halt)) (w, made) = _
  rw [if_pos h]
  rfl

structure Walked (plan : List PlannedStep) (outcome : ℕ → Bool) (made made' : List Call) : Prop where
  grows : made <+: made'
  exact : ∀ n, made.length ≤ n → n ≤ made'.length → ∀ call,
    (Walker.after plan outcome n).expects call = true ↔ made'[n]? = some call

lemma Walked.cons {made made' : List Call} {call : Call} (h : Walked plan outcome (made ++ [call]) made')
    (hw : ∀ c, (Walker.after plan outcome made.length).expects c = true ↔ call = c) :
    Walked plan outcome made made' where
  grows := (List.prefix_append _ _).trans h.grows
  exact n hn hn' c := by
    rcases Nat.eq_or_lt_of_le hn with rfl | hlt
    · obtain ⟨rest, rfl⟩ := h.grows
      rw [hw, List.append_assoc, List.getElem?_append_right (Nat.le_refl _), Nat.sub_self]
      simp
    · exact h.exact n (by simpa using hlt) hn' c

lemma run_finished (left : ℕ) (made : List Call)
    (h : Conforms handler left (firstOutcomes outcome made.length)
      (Walker.after plan outcome made.length).ahead)
    (hh : handler (firstOutcomes outcome made.length) = .finish) :
    ∃ result made', Walked plan outcome made made' ∧
      runFrom (carryOut outcome) handler left (firstOutcomes outcome made.length) made =
        (.ok result, made') ∧
      runFrom (walk outcome) handler left (firstOutcomes outcome made.length)
        (Walker.after plan outcome made.length, made) =
        (.ok result, (Walker.after plan outcome made'.length, made')) := by
  refine ⟨.completed, made, ⟨List.prefix_refl _, ?_⟩, runFrom_finish _ hh, runFrom_finish _ hh⟩
  intro n hn hn' call
  obtain rfl : n = made.length := Nat.le_antisymm hn' hn
  rw [expects_iff h call, hh]
  simp

lemma run_walked (left : ℕ) : ∀ made : List Call,
    Conforms handler left (firstOutcomes outcome made.length)
      (Walker.after plan outcome made.length).ahead →
    ∃ result made', Walked plan outcome made made' ∧
      runFrom (carryOut outcome) handler left (firstOutcomes outcome made.length) made =
        (.ok result, made') ∧
      runFrom (walk outcome) handler left (firstOutcomes outcome made.length)
        (Walker.after plan outcome made.length, made) =
        (.ok result, (Walker.after plan outcome made'.length, made')) := by
  induction left with
  | zero =>
    intro made h
    rcases h.next with hh | ⟨_, _, -, hbad⟩
    · exact run_finished 0 made h hh
    · exact absurd hbad (by simp)
  | succ left ih =>
    intro made h
    rcases h.next with hh | ⟨call, left', hh, -⟩
    · exact run_finished (left + 1) made h hh
    · have hexpects (c : Call) :
          (Walker.after plan outcome made.length).expects c = true ↔ call = c := by
        rw [expects_iff h c, hh]
        simp
      have hmade : (made ++ [call]).length = made.length + 1 := by simp
      have hnext : firstOutcomes outcome (made ++ [call]).length =
          firstOutcomes outcome made.length ++ [outcome made.length] := by
        rw [hmade, firstOutcomes_succ]
      have hgoes (hok : outcome made.length = true ∨ call.check = false) :
          Conforms handler left (firstOutcomes outcome (made ++ [call]).length)
            (Walker.after plan outcome (made ++ [call]).length).ahead := by
        rw [hnext, hmade, Walker.after_succ]
        exact record_conforms h hh hok
      rw [runFrom_call _ hh, runFrom_call _ hh, carryOut_eq, walk_eq _ ((hexpects call).mpr rfl),
        ← Walker.after_succ, ← hmade]
      cases hok : outcome made.length with
      | true =>
        obtain ⟨result, made', hwalked, hrun, hwalk⟩ := ih _ (hgoes (Or.inl hok))
        rw [hnext, hok] at hrun hwalk
        exact ⟨result, made', hwalked.cons hexpects, hrun, hwalk⟩
      | false =>
        cases hcheck : call.check with
        | false =>
          obtain ⟨result, made', hwalked, hrun, hwalk⟩ := ih _ (hgoes (Or.inr hcheck))
          rw [hnext, hok] at hrun hwalk
          exact ⟨result, made', hwalked.cons hexpects, hrun, hwalk⟩
        | true =>
          refine ⟨_, made ++ [call], Walked.cons ?_ hexpects, rfl, rfl⟩
          refine ⟨List.prefix_refl _, ?_⟩
          intro n hn hn' c
          obtain rfl : n = made.length + 1 := by omega
          rw [Walker.after_succ, hok, record_stopped h hh hcheck]
          simp [Walker.expects]

end Walked

theorem walker_follows_script (script : Script) (limits : Limits) (trigger : ℕ)
    (plan : List PlannedStep) (h : planTrigger script limits trigger = .ok plan)
    (outcome : ℕ → Bool) :
    let run := script.run (carryOut outcome) limits trigger []
    (∀ n ≤ run.2.length, ∀ call,
      (Walker.after plan outcome n).expects call = true ↔ run.2[n]? = some call) ∧
    script.run (walk outcome) limits trigger (.new plan, []) =
      (run.1, (Walker.after plan outcome run.2.length, run.2)) := by
  obtain ⟨⟨steps, paths⟩, hexplore, hplan⟩ := bind_eq_ok.mp h
  cases hplan
  obtain ⟨handler, ht⟩ := explored_trigger hexplore
  obtain ⟨left, rfl, hconf⟩ := exploreTo_conforms ht _ (live_nil handler) hexplore
  obtain ⟨result, made, hwalked, hrun, hwalk⟩ :=
    run_walked limits.steps [] (show Conforms handler _ (firstOutcomes outcome 0)
      (Walker.after plan outcome 0).ahead from hconf)
  intro run
  have hr : run = (.ok result, made) := by
    rw [← hrun]
    simp only [run, Script.run, ht]
    rfl
  rw [hr]
  refine ⟨fun n hn => hwalked.exact n (Nat.zero_le _) hn, ?_⟩
  rw [Script.run, ht]
  exact hwalk

def nightly : Script :=
  ⟨[fun outcomes =>
    match outcomes with
    | [] => .call ⟨.pull "main", true, none⟩
    | [_] => .call ⟨.sh "cargo test", false, none⟩
    | [_, true] => .call ⟨.notify "green", true, none⟩
    | [_, false] => .call ⟨.agent "claude" "fix it" none none false, true, none⟩
    | _ => .finish]⟩

def nightlyPlan : List PlannedStep :=
  [⟨⟨.pull "main", true, none⟩, .stops⟩,
    ⟨⟨.sh "cargo test", false, none⟩,
      .branch [⟨⟨.agent "claude" "fix it" none none false, true, none⟩, .stops⟩]⟩,
    ⟨⟨.notify "green", true, none⟩, .stops⟩]

theorem walker_follows_nightly :
    planTrigger nightly ⟨32⟩ 0 = .ok nightlyPlan ∧
      nightly.run (walk fun n => n ≠ 1) ⟨32⟩ 0 (.new nightlyPlan, []) =
        ((nightly.run (carryOut fun n => n ≠ 1) ⟨32⟩ 0 []).1,
          (Walker.after nightlyPlan (fun n => n ≠ 1)
            (nightly.run (carryOut fun n => n ≠ 1) ⟨32⟩ 0 []).2.length,
            (nightly.run (carryOut fun n => n ≠ 1) ⟨32⟩ 0 []).2)) :=
  ⟨rfl, (walker_follows_script nightly ⟨32⟩ 0 nightlyPlan rfl fun n => n ≠ 1).2⟩

end Sheprd.Automation
