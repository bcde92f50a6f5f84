import Sheprd.Automation.PlanCorrect

namespace Sheprd.Automation

open Sheprd.Lib

inductive Called (script : Script) (limits : Limits) (trigger : ℕ) : List Bool → Prop
  | root : Called script limits trigger []
  | nested {decisions : List Bool} {calls : List Call} {position : ℕ} {call : Call}
      (caller : Called script limits trigger decisions)
      (simulated : simulate script limits trigger decisions = .ok calls)
      (later : decisions.length ≤ position) (here : calls[position]? = some call)
      (unchecked : call.check = false) :
      Called script limits trigger (resize decisions position true ++ [false])

def Canonical (script : Script) (limits : Limits) (trigger : ℕ) (decisions : List Bool)
    (steps : List PlannedStep) : Prop :=
  ∀ (i : ℕ) (step : PlannedStep), steps[i]? = some step →
    if step.call.check then step.onFailure = .stops
    else ∃ instead before after,
      explore script limits trigger (decisions ++ List.replicate i true ++ [false]) before =
          .ok (instead, after) ∧
        step.onFailure = if instead = steps.drop (i + 1) then .continues else .branch instead

def Ignores (handler : Handler) (outcomes : List Bool) : Prop :=
  Live handler outcomes ∧ (∃ call, handler outcomes = .call call ∧ call.check = false) ∧
    ∀ more, Live handler (outcomes ++ [true] ++ more) →
      handler (outcomes ++ [false] ++ more) = handler (outcomes ++ [true] ++ more)

def Plain (steps : List PlannedStep) : Prop := ∀ step ∈ steps, step.onFailure ≠ .continues

lemma compress_drop (steps : List PlannedStep) (n : ℕ) :
    compress (steps.drop n) = (compress steps).drop n := by
  induction steps generalizing n with
  | nil => simp [compress]
  | cons step rest ih =>
    cases n with
    | zero => rfl
    | succ n => exact ih n

lemma compress_plain {steps : List PlannedStep} (h : Plain (compress steps)) :
    compress steps = steps := by
  induction steps with
  | nil => rfl
  | cons step rest ih =>
    obtain ⟨call, failure⟩ := step
    simp only [compress, Plain, List.mem_cons, forall_eq_or_imp] at h ⊢
    rw [ih h.2]
    cases failure with
    | stops => rfl
    | continues => exact absurd rfl h.1
    | branch instead =>
      by_cases same : instead = rest
      · simp [same] at h
      · simp [same]

lemma compress_inj {a b : List PlannedStep} (ha : Plain a) (hb : Plain b)
    (h : compress a = compress b) : a = b := by
  induction a generalizing b with
  | nil =>
    cases b with
    | nil => rfl
    | cons step rest => simp [compress] at h
  | cons step rest ih =>
    cases b with
    | nil => simp [compress] at h
    | cons step' rest' =>
      obtain ⟨call, failure⟩ := step
      obtain ⟨call', failure'⟩ := step'
      simp only [Plain, List.mem_cons, forall_eq_or_imp] at ha hb
      simp only [compress, List.cons.injEq, PlannedStep.mk.injEq] at h
      obtain ⟨⟨rfl, failures⟩, rests⟩ := h
      obtain rfl := ih ha.2 hb.2 rests
      congr 2
      cases failure with
      | stops => cases failure' with
        | stops => rfl
        | continues => exact absurd rfl hb.1
        | branch instead' =>
          dsimp only at failures
          split at failures <;> simp at failures
      | continues => exact absurd rfl ha.1
      | branch instead =>
        cases failure' with
        | stops =>
          dsimp only at failures
          split at failures <;> simp at failures
        | continues => exact absurd rfl hb.1
        | branch instead' =>
          dsimp only at failures
          split at failures
          · next same =>
            split at failures
            · next same' => rw [same, same']
            · cases failures
          · split at failures
            · cases failures
            · exact failures

lemma compress_at (steps : List PlannedStep) (i : ℕ) :
    (compress steps)[i]? = steps[i]?.map fun step =>
      { step with
        onFailure :=
          match step.onFailure with
          | .branch instead => if instead = steps.drop (i + 1) then .continues else .branch instead
          | failure => failure } := by
  induction steps generalizing i with
  | nil => simp [compress]
  | cons step rest ih =>
    cases i with
    | zero =>
      obtain ⟨call, failure⟩ := step
      cases failure <;> simp [compress]
    | succ i => simpa [compress] using ih i

lemma compress_eq_self {steps : List PlannedStep} (h : Plain steps) :
    compress steps = steps ↔ ∀ i call instead, steps[i]? = some ⟨call, .branch instead⟩ →
      instead ≠ compress (steps.drop (i + 1)) := by
  induction steps with
  | nil => simp [compress]
  | cons step rest ih =>
    obtain ⟨call, failure⟩ := step
    simp only [Plain, List.mem_cons, forall_eq_or_imp] at h
    have ih := ih h.2
    constructor
    · intro fixed
      simp only [compress, List.cons.injEq, PlannedStep.mk.injEq, true_and] at fixed
      obtain ⟨first, later⟩ := fixed
      intro i call' instead at'
      cases i with
      | zero =>
        simp only [List.getElem?_cons_zero, Option.some.injEq, PlannedStep.mk.injEq] at at'
        obtain ⟨rfl, rfl⟩ := at'
        intro same
        have same' : instead = rest := same.trans later
        simp [same'] at first
      | succ i => exact ih.mp later i call' instead at'
    · intro differ
      have later : compress rest = rest := ih.mpr fun i => differ (i + 1)
      simp only [compress, later]
      cases failure with
      | stops => rfl
      | continues => exact absurd rfl h.1
      | branch instead =>
        have other : instead ≠ rest := by
          have other := differ 0 call instead rfl
          rwa [zero_add, List.drop_one, List.tail_cons, later] at other
        simp [other]

lemma compress_same {instead rest : List PlannedStep} (hr : Plain rest) :
    (compress instead = rest ↔ compress instead = compress rest) ↔
      (compress instead = compress rest → compress rest = rest) := by
  constructor
  · intro same equal
    exact equal.symm.trans (same.mpr equal)
  · intro fixed
    constructor
    · intro same
      have plain : Plain (compress instead) := same ▸ hr
      rw [← same, compress_plain plain, compress_plain plain]
    · intro equal
      exact equal.trans (fixed equal)

inductive Listed (handler : Handler) : List Bool → List PlannedStep → Prop
  | ended {outcomes : List Bool} (h : handler outcomes = .finish) : Listed handler outcomes []
  | stops {outcomes : List Bool} {call : Call} {rest : List PlannedStep}
      (h : handler outcomes = .call call) (checked : call.check = true)
      (ok : Listed handler (outcomes ++ [true]) rest) :
      Listed handler outcomes (⟨call, .stops⟩ :: rest)
  | branch {outcomes : List Bool} {call : Call} {rest instead : List PlannedStep}
      (h : handler outcomes = .call call) (unchecked : call.check = false)
      (ok : Listed handler (outcomes ++ [true]) rest)
      (failed : Listed handler (outcomes ++ [false]) instead) :
      Listed handler outcomes (⟨call, .branch (compress instead)⟩ :: rest)

namespace Listed

variable {handler : Handler} {outcomes outcomes' : List Bool} {steps steps' : List PlannedStep}

lemma plain (h : Listed handler outcomes steps) : Plain steps := by
  induction h with
  | ended => simp [Plain]
  | stops _ _ _ ih => simpa [Plain] using ih
  | branch _ _ _ _ ih _ => simpa [Plain] using ih

lemma unique (h : Listed handler outcomes steps) (h' : Listed handler outcomes steps') :
    steps = steps' := by
  induction h generalizing steps' with
  | ended h =>
    cases h' with
    | ended => rfl
    | stops h' => simp [h] at h'
    | branch h' => simp [h] at h'
  | stops h checked _ ih =>
    cases h' with
    | ended h' => simp [h] at h'
    | stops h' _ ok =>
      obtain rfl : _ = _ := by simpa [h] using h'
      rw [ih ok]
    | branch h' unchecked =>
      obtain rfl : _ = _ := by simpa [h] using h'
      simp [checked] at unchecked
  | branch h unchecked _ _ ih ih' =>
    cases h' with
    | ended h' => simp [h] at h'
    | stops h' checked =>
      obtain rfl : _ = _ := by simpa [h] using h'
      simp [unchecked] at checked
    | branch h' _ ok failed =>
      obtain rfl : _ = _ := by simpa [h] using h'
      rw [ih ok, ih' failed]

lemma of_same (h : Listed handler outcomes steps) (live : Live handler outcomes)
    (same : ∀ more, Live handler (outcomes ++ more) →
      handler (outcomes' ++ more) = handler (outcomes ++ more)) :
    Listed handler outcomes' steps := by
  induction h generalizing outcomes' with
  | ended h =>
    have here := same [] (by simpa using live)
    simp only [List.append_nil] at here
    exact .ended (here.trans h)
  | stops h checked _ ih =>
    have here := same [] (by simpa using live)
    simp only [List.append_nil] at here
    refine .stops (here.trans h) checked (ih (live.concat h (by simp)) fun more hm => ?_)
    simpa using same (true :: more) (by simpa using hm)
  | branch h unchecked _ _ ih ih' =>
    have here := same [] (by simpa using live)
    simp only [List.append_nil] at here
    refine .branch (here.trans h) unchecked (ih (live.concat h (by simp)) fun more hm => ?_)
      (ih' (live.concat h fun _ => unchecked) fun more hm => ?_)
    · simpa using same (true :: more) (by simpa using hm)
    · simpa using same (false :: more) (by simpa using hm)

end Listed

lemma Live.next {handler : Handler} {outcomes more : List Bool} {ok : Bool}
    (h : Live handler (outcomes ++ ok :: more)) :
    ∃ call, handler outcomes = .call call ∧ (ok = false → call.check = false) :=
  h outcomes ok ⟨more, by simp⟩

namespace Listed

variable {handler : Handler} {outcomes outcomes' : List Bool} {steps : List PlannedStep}

lemma same (h : Listed handler outcomes steps) (h' : Listed handler outcomes' steps)
    {more : List Bool} (live : Live handler (outcomes ++ more)) :
    handler (outcomes' ++ more) = handler (outcomes ++ more) := by
  induction h generalizing outcomes' more with
  | ended h =>
    cases more with
    | nil =>
      cases h' with
      | ended h' => simp [h, h']
    | cons ok more =>
      obtain ⟨call, called, -⟩ := live.next
      simp [h] at called
  | stops h checked _ ih =>
    cases h' with
    | stops h' _ ok' =>
      cases more with
      | nil => simp [h, h']
      | cons ok more =>
        obtain ⟨call, called, unchecked⟩ := live.next
        obtain rfl : _ = call := by simpa [h] using called
        cases ok with
        | false => simp [checked] at unchecked
        | true =>
          rw [List.append_cons] at live
          simpa using ih ok' live
  | branch h unchecked _ failed ih ih' =>
    generalize hsteps : _ :: _ = steps' at h'
    cases h' with
    | ended => cases hsteps
    | stops => cases hsteps
    | branch h' _ ok' failed' =>
      simp only [List.cons.injEq, PlannedStep.mk.injEq, Failure.branch.injEq] at hsteps
      obtain ⟨⟨rfl, equal⟩, rfl⟩ := hsteps
      cases more with
      | nil => simp [h, h']
      | cons ok more =>
        cases ok with
        | true =>
          rw [List.append_cons] at live
          simpa using ih ok' live
        | false =>
          have equal := compress_inj failed.plain failed'.plain equal
          subst equal
          rw [List.append_cons] at live
          simpa using ih' failed' live

end Listed

def Explored (explore : List Bool → ℕ → Except Error (List PlannedStep × ℕ)) (decisions : List Bool)
    (extra : ℕ) (steps : List PlannedStep) : Prop :=
  ∀ (i : ℕ) (step : PlannedStep), steps[i]? = some step → step.call.check = false →
    ∃ instead before after,
      explore (decisions ++ List.replicate (extra + i) true ++ [false]) before =
        .ok (instead, after)

section Explore

variable {script : Script} {limits : Limits} {trigger : ℕ} {handler : Handler}

lemma planCalls_listed {explore : List Bool → ℕ → Except Error (List PlannedStep × ℕ)}
    (hexplore : ∀ failing paths steps paths', Live handler failing →
      explore failing paths = .ok (steps, paths') →
      ∃ raw, Listed handler failing raw ∧ steps = compress raw)
    {decisions : List Bool} (calls : List Call) :
    ∀ (extra : ℕ) {left paths paths' : ℕ} {steps : List PlannedStep},
      Live handler (decisions ++ List.replicate extra true) →
      Straight handler left (decisions ++ List.replicate extra true) calls →
      planCalls explore decisions (decisions.length + extra) calls paths = .ok (steps, paths') →
      Listed handler (decisions ++ List.replicate extra true) steps ∧
        Explored explore decisions extra steps := by
  induction calls with
  | nil =>
    intro extra left paths paths' steps live straight h
    cases h
    cases straight with
    | finish finished => exact ⟨.ended finished, by simp [Explored]⟩
  | cons call calls ih =>
    intro extra left paths paths' steps live straight h
    cases straight with
    | @call left _ _ _ called more =>
      have grow : decisions ++ List.replicate extra true ++ [true] =
          decisions ++ List.replicate (extra + 1) true := by
        rw [List.append_assoc, List.replicate_succ']
      have live' : Live handler (decisions ++ List.replicate extra true ++ [true]) :=
        live.concat called (by simp)
      rw [grow] at more live'
      rw [planCalls, resize_past (Nat.le_add_right _ _), Nat.add_sub_cancel_left] at h
      obtain ⟨⟨onFailure, paths₁⟩, hfail, h⟩ := bind_eq_ok.mp h
      obtain ⟨⟨rest, paths₂⟩, hplan, h⟩ := bind_eq_ok.mp h
      cases h
      obtain ⟨listed, explored⟩ := ih (extra + 1) live' more hplan
      have later (i : ℕ) (step : PlannedStep) (h : rest[i]? = some step)
          (unchecked : step.call.check = false) :
          ∃ instead before after,
            explore (decisions ++ List.replicate (extra + (i + 1)) true ++ [false]) before =
              .ok (instead, after) := by
        have there := explored i step h unchecked
        rwa [show extra + 1 + i = extra + (i + 1) by omega] at there
      rw [planFailure] at hfail
      rw [← grow] at listed
      cases hcheck : call.check with
      | true =>
        rw [hcheck] at hfail
        cases hfail
        refine ⟨.stops called hcheck listed, ?_⟩
        intro i step h unchecked
        cases i with
        | zero =>
          obtain rfl : _ = step := by simpa using h
          simp [hcheck] at unchecked
        | succ i => exact later i step h unchecked
      | false =>
        rw [hcheck] at hfail
        obtain ⟨⟨instead, paths₃⟩, hinstead, hfail⟩ := bind_eq_ok.mp hfail
        cases hfail
        obtain ⟨raw, failed, rfl⟩ := hexplore _ _ _ _ (live.concat called fun _ => hcheck) hinstead
        refine ⟨.branch called hcheck listed failed, ?_⟩
        intro i step h unchecked
        cases i with
        | zero => exact ⟨_, _, _, hinstead⟩
        | succ i => exact later i step h unchecked

lemma exploreTo_listed (ht : script.triggers[trigger]? = some handler) (depth : ℕ) :
    ∀ (decisions : List Bool) (paths : ℕ) (steps : List PlannedStep) (paths' : ℕ),
      Live handler decisions →
      exploreTo script limits trigger depth decisions paths = .ok (steps, paths') →
      ∃ raw, Listed handler decisions raw ∧ steps = compress raw := by
  induction depth with
  | zero =>
    intro decisions paths steps paths' _ h
    cases h
  | succ depth ih =>
    intro decisions paths steps paths' live h
    rw [exploreTo] at h
    split at h
    case isTrue => cases h
    case isFalse =>
      obtain ⟨calls, hsim, h⟩ := bind_eq_ok.mp h
      obtain ⟨⟨planned, paths₁⟩, hplan, h⟩ := bind_eq_ok.mp h
      cases h
      obtain ⟨left, -, straight⟩ := simulate_straight ht live hsim
      have listed := (planCalls_listed ih (calls.drop decisions.length) 0 (by simpa using live)
        (by simpa using straight) hplan).1
      exact ⟨planned, by simpa using listed, rfl⟩

lemma explore_listed (ht : script.triggers[trigger]? = some handler) {decisions : List Bool}
    {paths paths' : ℕ} {steps : List PlannedStep} (live : Live handler decisions)
    (h : explore script limits trigger decisions paths = .ok (steps, paths')) :
    ∃ raw, Listed handler decisions raw ∧ steps = compress raw ∧
      Explored (explore script limits trigger) decisions 0 raw := by
  rw [explore_eq] at h
  split at h
  case isTrue => cases h
  case isFalse =>
    obtain ⟨calls, hsim, h⟩ := bind_eq_ok.mp h
    obtain ⟨⟨planned, paths₁⟩, hplan, h⟩ := bind_eq_ok.mp h
    cases h
    obtain ⟨left, -, straight⟩ := simulate_straight ht live hsim
    obtain ⟨listed, explored⟩ := planCalls_listed (exploreTo_listed ht _)
      (calls.drop decisions.length) 0 (by simpa using live) (by simpa using straight) hplan
    exact ⟨planned, by simpa using listed, rfl, explored⟩

lemma Straight.live {left : ℕ} {outcomes : List Bool} {calls : List Call} {call : Call} {i : ℕ}
    (h : Straight handler left outcomes calls) (live : Live handler outcomes)
    (here : calls[i]? = some call) :
    Live handler (outcomes ++ List.replicate i true) ∧
      handler (outcomes ++ List.replicate i true) = .call call := by
  induction i generalizing left outcomes calls with
  | zero =>
    cases h with
    | finish => simp at here
    | call h _ =>
      obtain rfl : _ = call := by simpa using here
      exact ⟨by simpa using live, by simpa using h⟩
  | succ i ih =>
    cases h with
    | finish => simp at here
    | call h more =>
      have there := ih more (live.concat h (by simp)) (by simpa using here)
      simpa [List.replicate_succ] using there

lemma Called.live (ht : script.triggers[trigger]? = some handler) {decisions : List Bool}
    (h : Called script limits trigger decisions) : Live handler decisions := by
  induction h with
  | root => exact live_nil handler
  | @nested decisions calls position call _ simulated later here unchecked live =>
    obtain ⟨left, -, straight⟩ := simulate_straight ht live simulated
    have there : (calls.drop decisions.length)[position - decisions.length]? = some call := by
      rw [List.getElem?_drop, Nat.add_sub_cancel' later]
      exact here
    obtain ⟨live', called⟩ := straight.live live there
    rw [resize_past later]
    exact live'.concat called fun _ => unchecked

end Explore

namespace Listed

variable {handler : Handler} {outcomes : List Bool} {steps : List PlannedStep}

lemma step_at (h : Listed handler outcomes steps) (live : Live handler outcomes) {i : ℕ}
    {step : PlannedStep} (hi : steps[i]? = some step) :
    Live handler (outcomes ++ List.replicate i true) ∧
      handler (outcomes ++ List.replicate i true) = .call step.call ∧
      Listed handler (outcomes ++ List.replicate i true ++ [true]) (steps.drop (i + 1)) ∧
      (step.call.check = true → step.onFailure = .stops) ∧
      (step.call.check = false → ∃ instead, step.onFailure = .branch (compress instead) ∧
        Listed handler (outcomes ++ List.replicate i true ++ [false]) instead) := by
  induction i generalizing outcomes steps with
  | zero =>
    cases h with
    | ended => simp at hi
    | stops h checked ok =>
      obtain rfl : _ = step := by simpa using hi
      simpa [h, checked] using ⟨live, ok⟩
    | branch h unchecked ok failed =>
      obtain rfl : _ = step := by simpa using hi
      simpa [h, unchecked] using ⟨live, ok, _, rfl, failed⟩
  | succ i ih =>
    cases h with
    | ended => simp at hi
    | stops h checked ok =>
      simpa [List.replicate_succ] using ih ok (live.concat h (by simp)) (by simpa using hi)
    | branch h unchecked ok failed =>
      simpa [List.replicate_succ] using ih ok (live.concat h (by simp)) (by simpa using hi)

lemma ignores_iff (h : Listed handler outcomes steps) (live : Live handler outcomes) {i : ℕ}
    {call : Call} {instead : List PlannedStep} (hi : steps[i]? = some ⟨call, .branch (compress instead)⟩)
    (failed : Listed handler (outcomes ++ List.replicate i true ++ [false]) instead) :
    Ignores handler (outcomes ++ List.replicate i true) ↔
      compress instead = compress (steps.drop (i + 1)) := by
  obtain ⟨live', called, ok, stops, -⟩ := h.step_at live hi
  have unchecked : call.check = false := by
    cases hcheck : call.check with
    | false => rfl
    | true => cases stops hcheck
  constructor
  · rintro ⟨-, -, same⟩
    rw [(ok.of_same (live'.concat called (by simp)) same).unique failed]
  · intro equal
    obtain rfl := compress_inj failed.plain ok.plain equal
    exact ⟨live', ⟨call, called, unchecked⟩, fun more hm => ok.same failed hm⟩

end Listed

namespace Listed

variable {handler : Handler} {outcomes : List Bool} {steps : List PlannedStep}

lemma reached (h : Listed handler outcomes steps) {i : ℕ} {call : Call}
    (live : Live handler (outcomes ++ List.replicate i true))
    (called : handler (outcomes ++ List.replicate i true) = .call call) :
    ∃ step, steps[i]? = some step ∧ step.call = call := by
  induction h generalizing i with
  | ended h =>
    cases i with
    | zero => simp [h] at called
    | succ i =>
      obtain ⟨call', here, -⟩ := live.next
      simp [h] at here
  | stops h _ _ ih =>
    cases i with
    | zero => simpa [h] using called
    | succ i =>
      rw [List.replicate_succ, List.append_cons] at live called
      exact ih live called
  | branch h _ _ _ ih _ =>
    cases i with
    | zero => simpa [h] using called
    | succ i =>
      rw [List.replicate_succ, List.append_cons] at live called
      exact ih live called

lemma ignored_at (h : Listed handler outcomes steps) (live : Live handler outcomes) {i : ℕ}
    (ignores : Ignores handler (outcomes ++ List.replicate i true)) :
    ∃ call, steps[i]? = some ⟨call, .branch (compress (steps.drop (i + 1)))⟩ := by
  obtain ⟨live', ⟨call, called, unchecked⟩, -⟩ := id ignores
  obtain ⟨⟨call', failure⟩, hi, rfl⟩ := h.reached live' called
  obtain ⟨-, -, -, -, branches⟩ := h.step_at live hi
  obtain ⟨instead, rfl, failed⟩ := branches unchecked
  exact ⟨call', by rw [hi, (h.ignores_iff live hi failed).mp ignores]⟩

lemma fixed_iff (h : Listed handler outcomes steps) (live : Live handler outcomes) (i : ℕ) :
    compress (steps.drop (i + 1)) = steps.drop (i + 1) ↔
      ∀ j, i < j → ¬ Ignores handler (outcomes ++ List.replicate j true) := by
  rw [compress_eq_self fun step mem => h.plain step (List.mem_of_mem_drop mem)]
  constructor
  · intro differ j hij ignores
    obtain ⟨call, hj⟩ := h.ignored_at live ignores
    obtain ⟨k, rfl⟩ := Nat.exists_eq_add_of_lt hij
    refine differ k call _ ?_ rfl
    rw [List.getElem?_drop, List.drop_drop, show i + 1 + k = i + k + 1 by omega, hj]
    congr 5
    omega
  · intro none k call instead hk same
    rw [List.getElem?_drop] at hk
    obtain ⟨-, -, -, stops, branches⟩ := h.step_at live hk
    cases hcheck : call.check with
    | true => cases stops hcheck
    | false =>
      obtain ⟨raw, told, failed⟩ := branches hcheck
      cases told
      refine none (i + 1 + k) (by omega) ((h.ignores_iff live hk failed).mpr ?_)
      rw [same, List.drop_drop]
      rfl

end Listed

lemma told_iff (instead rest rest' : List PlannedStep) :
    (if instead = rest then Failure.continues else .branch instead) =
        (if instead = rest' then Failure.continues else .branch instead) ↔
      (instead = rest ↔ instead = rest') := by
  by_cases first : instead = rest <;> by_cases second : instead = rest' <;> simp [first, second]

theorem explore_canonical_iff (script : Script) (limits : Limits) (trigger : ℕ) (handler : Handler)
    (decisions : List Bool) (paths paths' : ℕ) (steps : List PlannedStep)
    (ht : script.triggers[trigger]? = some handler)
    (called : Called script limits trigger decisions)
    (h : explore script limits trigger decisions paths = .ok (steps, paths')) :
    Canonical script limits trigger decisions steps ↔
      ∀ i j, i < j → Ignores handler (decisions ++ List.replicate i true) →
        ¬ Ignores handler (decisions ++ List.replicate j true) := by
  have live := called.live ht
  obtain ⟨raw, listed, rfl, explored⟩ := explore_listed ht live h
  have at_step (i : ℕ) (call : Call) (instead : List PlannedStep)
      (hi : raw[i]? = some ⟨call, .branch (compress instead)⟩)
      (failed : Listed handler (decisions ++ List.replicate i true ++ [false]) instead) :
      (if compress instead = raw.drop (i + 1) then Failure.continues else .branch (compress instead)) =
          (if compress instead = (compress raw).drop (i + 1) then Failure.continues
          else .branch (compress instead)) ↔
        (Ignores handler (decisions ++ List.replicate i true) →
          ∀ j, i < j → ¬ Ignores handler (decisions ++ List.replicate j true)) := by
    rw [told_iff, ← compress_drop, listed.ignores_iff live hi failed, ← listed.fixed_iff live i]
    exact compress_same fun step mem => listed.plain step (List.mem_of_mem_drop mem)
  have again (i : ℕ) (call : Call) (hi : raw[i]?.map PlannedStep.call = some call)
      (unchecked : call.check = false) :
      ∃ instead before after, raw[i]? = some ⟨call, .branch (compress instead)⟩ ∧
        Listed handler (decisions ++ List.replicate i true ++ [false]) instead ∧
        explore script limits trigger (decisions ++ List.replicate i true ++ [false]) before =
          .ok (compress instead, after) ∧
        ∀ instead' before' after',
          explore script limits trigger (decisions ++ List.replicate i true ++ [false]) before' =
            .ok (instead', after') → instead' = compress instead := by
    obtain ⟨⟨call', failure⟩, here, rfl⟩ := Option.map_eq_some_iff.mp hi
    obtain ⟨live', next, -, -, branches⟩ := listed.step_at live here
    obtain ⟨instead, rfl, failed⟩ := branches unchecked
    have unique (instead' : List PlannedStep) (before' after' : ℕ)
        (h : explore script limits trigger (decisions ++ List.replicate i true ++ [false]) before' =
          .ok (instead', after')) : instead' = compress instead := by
      obtain ⟨raw', listed', rfl, -⟩ :=
        explore_listed ht (live'.concat next fun _ => unchecked) h
      rw [listed'.unique failed]
    obtain ⟨instead', before, after, found⟩ := explored i _ here unchecked
    rw [zero_add] at found
    obtain rfl := unique _ _ _ found
    exact ⟨instead, before, after, here, failed, found, unique⟩
  constructor
  · intro canonical i j hij ignores
    obtain ⟨call, hi⟩ := listed.ignored_at live ignores
    have unchecked : call.check = false := by
      obtain ⟨-, -, -, stops, -⟩ := listed.step_at live hi
      cases hcheck : call.check with
      | false => rfl
      | true => cases stops hcheck
    obtain ⟨instead, -, -, hi, failed, -, unique⟩ := again i call (by rw [hi]; rfl) unchecked
    have here := canonical i _ (by rw [compress_at, hi]; rfl)
    simp only [unchecked] at here
    obtain ⟨instead', before, after, found, told⟩ := here
    obtain rfl := unique _ _ _ found
    exact (at_step i call instead hi failed).mp told ignores j hij
  · intro apart i step hstep
    rw [compress_at] at hstep
    obtain ⟨⟨call, failure⟩, hi, rfl⟩ := Option.map_eq_some_iff.mp hstep
    cases hcheck : call.check with
    | true =>
      obtain ⟨-, -, -, stops, -⟩ := listed.step_at live hi
      obtain rfl : failure = .stops := stops hcheck
      simp
    | false =>
      obtain ⟨instead, before, after, hi', failed, found, -⟩ :=
        again i call (by rw [hi]; rfl) hcheck
      obtain rfl : failure = .branch (compress instead) := by simpa [hi] using hi'
      simp only [Bool.false_eq_true, if_false]
      exact ⟨_, before, after, found,
        (at_step i call instead hi failed).mpr fun ignores j hij => apart i j hij ignores⟩

def tidy : Handler := fun outcomes =>
  match outcomes with
  | [] => .call ⟨.sh "first", false, none⟩
  | [_] => .call ⟨.sh "second", false, none⟩
  | _ => .finish

def tidyPlan : List PlannedStep :=
  [⟨⟨.sh "first", false, none⟩, .branch [⟨⟨.sh "second", false, none⟩, .continues⟩]⟩,
    ⟨⟨.sh "second", false, none⟩, .continues⟩]

lemma tidy_failed : Listed tidy [false] [⟨⟨.sh "second", false, none⟩, .branch (compress [])⟩] :=
  .branch rfl rfl (.ended rfl) (.ended rfl)

theorem tidy_not_canonical :
    explore ⟨[tidy]⟩ ⟨32⟩ 0 [] 0 = .ok (tidyPlan, 4) ∧ ¬ Canonical ⟨[tidy]⟩ ⟨32⟩ 0 [] tidyPlan := by
  refine ⟨rfl, fun canonical => ?_⟩
  obtain ⟨instead, before, after, found, told⟩ := canonical 0 _ rfl
  have live : Live tidy [false] := (live_nil tidy).concat rfl fun _ => rfl
  obtain ⟨raw, listed, rfl, -⟩ := explore_listed rfl live found
  obtain rfl := listed.unique tidy_failed
  have same : compress [⟨⟨.sh "second", false, none⟩, .branch (compress [])⟩] =
      tidyPlan.drop (0 + 1) := rfl
  rw [if_pos same] at told
  cases told

def notifying : Handler := fun outcomes =>
  match outcomes with
  | [] => .call ⟨.sh "first", true, none⟩
  | [true] => .call ⟨.sh "second", false, none⟩
  | _ => .finish

def notifyingPlan : List PlannedStep :=
  [⟨⟨.sh "first", true, none⟩, .stops⟩, ⟨⟨.sh "second", false, none⟩, .continues⟩]

theorem notifying_canonical_iff :
    Canonical ⟨[notifying]⟩ ⟨32⟩ 0 [] notifyingPlan ↔
      ∀ i j, i < j → Ignores notifying (List.replicate i true) →
        ¬ Ignores notifying (List.replicate j true) :=
  explore_canonical_iff ⟨[notifying]⟩ ⟨32⟩ 0 notifying [] 0 2 notifyingPlan rfl .root rfl

end Sheprd.Automation
