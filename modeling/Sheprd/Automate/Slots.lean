import Sheprd.Lib.Run

namespace Sheprd.Automate

open Sheprd.Lib

def usizeMax : ℕ := 2 ^ 64 - 1

inductive Halt where
  | agentsPerRun
  | hostAgents
  | scriptTokens
  | hostTokens

structure Caps where
  agentsPerRun : ℕ
  tokensPerDay : ℕ
  maxTokensPerDay : ℕ
  maxAgents : ℕ
  fits : maxAgents < 2 ^ 32

structure AgentRow where
  run : ℕ
  position : ℕ
  done : Bool := false

structure Reservation where
  run : ℕ
  position : ℕ
  recorded : Bool := false

structure Asking where
  run : ℕ
  position : ℕ
  counted : Option (Option ℕ) := none

structure Slots where
  rows : List AgentRow
  starting : ℕ
  lock : Option Asking
  held : List Reservation

def capsBefore (caps : Caps) (started used hostUsed : ℕ) : Except Halt Unit :=
  if caps.agentsPerRun ≤ started then .error .agentsPerRun
  else if caps.tokensPerDay ≤ used then .error .scriptTokens
  else if caps.maxTokensPerDay ≤ hostUsed then .error .hostTokens
  else .ok ()

def takeSlot (caps : Caps) (counted : Option ℕ) (starting : ℕ) : Except Halt ℕ :=
  let live := min (counted.getD usizeMax + starting) usizeMax
  if caps.maxAgents ≤ live then .error .hostAgents else .ok (starting + 1)

def addAgent (rows : List AgentRow) (run position : ℕ) : List AgentRow :=
  rows.filter (fun row => ¬(row.run = run ∧ row.position = position)) ++ [⟨run, position, false⟩]

def markDone (rows : List AgentRow) (run position : ℕ) : List AgentRow :=
  rows.map fun row =>
    if row.run = run ∧ row.position = position then { row with done := true } else row

inductive SlotAct where
  | ask (run position started used hostUsed : ℕ)
  | count (ok : Bool)
  | decide
  | record (index : ℕ)
  | release (index : ℕ)
  | done (run position : ℕ)

namespace Slots

def live (s : Slots) : ℕ := s.rows.countP fun row => !row.done

def unrecorded (s : Slots) : ℕ := s.held.countP fun r => !r.recorded

def recorded (s : Slots) : ℕ := s.held.countP fun r => r.recorded

def asks (s : Slots) (caps : Caps) (run position started used hostUsed : ℕ) : Option Slots :=
  if s.lock.isSome ∨ s.held.any (·.run = run) then none
  else
    match capsBefore caps started used hostUsed with
    | .error _ => some s
    | .ok () => some { s with lock := some { run, position } }

def counts (s : Slots) (ok : Bool) : Option Slots :=
  match s.lock with
  | some { run, position, counted := none } =>
      some { s with lock := some { run, position, counted := some (if ok then some s.live else none) } }
  | _ => none

def decides (s : Slots) (caps : Caps) : Option Slots :=
  match s.lock with
  | some { run, position, counted := some seen } =>
      match takeSlot caps seen s.starting with
      | .error _ => some { s with lock := none }
      | .ok starting =>
          some { s with lock := none, starting, held := s.held ++ [{ run, position }] }
  | _ => none

def records (s : Slots) (index : ℕ) : Option Slots :=
  match s.held[index]? with
  | some { run, position, recorded := false } =>
      some { s with
        rows := addAgent s.rows run position
        held := s.held.set index { run, position, recorded := true } }
  | _ => none

def releases (s : Slots) (index : ℕ) : Option Slots :=
  if s.lock.isNone ∧ index < s.held.length then
    some { s with starting := s.starting - 1, held := s.held.eraseIdx index }
  else none

def step (caps : Caps) (s : Slots) : SlotAct → Option Slots
  | .ask run position started used hostUsed => s.asks caps run position started used hostUsed
  | .count ok => s.counts ok
  | .decide => s.decides caps
  | .record index => s.records index
  | .release index => s.releases index
  | .done run position => some { s with rows := markDone s.rows run position }

def Step (caps : Caps) (s : Slots) (a : SlotAct) (t : Slots) : Prop := s.step caps a = some t

def start (rows : List AgentRow) : Slots where
  rows := rows
  starting := 0
  lock := none
  held := []

structure Within (caps : Caps) (s : Slots) : Prop where
  starting : s.starting = s.held.length
  capped : s.live + s.unrecorded ≤ caps.maxAgents
  counted : ∀ asking seen, s.lock = some asking → asking.counted = some (some seen) →
    s.live + s.unrecorded ≤ seen + s.starting

lemma unrecorded_add_recorded (s : Slots) : s.unrecorded + s.recorded = s.held.length := by
  have h := List.length_eq_countP_add_countP (fun r : Reservation => r.recorded) (l := s.held)
  rw [unrecorded, recorded, Nat.add_comm]
  simpa using h.symm

lemma live_addAgent (rows : List AgentRow) (run position : ℕ) :
    (addAgent rows run position).countP (fun row => !row.done) ≤
      rows.countP (fun row => !row.done) + 1 := by
  rw [addAgent, List.countP_append]
  exact Nat.add_le_add List.filter_sublist.countP_le List.countP_le_length

lemma live_markDone (rows : List AgentRow) (run position : ℕ) :
    (markDone rows run position).countP (fun row => !row.done) ≤
      rows.countP (fun row => !row.done) := by
  rw [markDone, List.countP_map]
  apply List.countP_mono_left
  intro row _ h
  by_cases hk : row.run = run ∧ row.position = position
  · simp [hk] at h
  · simpa [hk] using h

lemma within_start {caps : Caps} {rows : List AgentRow}
    (h : rows.countP (fun row => !row.done) ≤ caps.maxAgents) : (start rows).Within caps := by
  refine ⟨rfl, h, ?_⟩
  intro asking seen hl
  exact absurd hl (by simp [start])

variable {caps : Caps} {s t : Slots}

lemma takeSlot_ok {seen : Option ℕ} {starting n : ℕ} (h : takeSlot caps seen starting = .ok n) :
    n = starting + 1 ∧ ∃ live, seen = some live ∧ live + starting < caps.maxAgents := by
  have hfits := caps.fits
  simp only [takeSlot] at h
  split at h
  · exact absurd h (by simp)
  · rename_i hlt
    refine ⟨(Except.ok.inj h).symm, ?_⟩
    cases seen with
    | none =>
      rw [Option.getD_none, Nat.min_eq_right (Nat.le_add_right _ _), usizeMax] at hlt
      omega
    | some live =>
      refine ⟨live, rfl, ?_⟩
      rw [Option.getD_some, not_le, min_lt_iff, usizeMax] at hlt
      omega

lemma Within.asks (h : s.Within caps) {run position started used hostUsed : ℕ}
    (ha : s.asks caps run position started used hostUsed = some t) : t.Within caps := by
  rw [Slots.asks] at ha
  split at ha
  · exact absurd ha (by simp)
  · split at ha
    · obtain rfl := Option.some.inj ha
      exact h
    · obtain rfl := Option.some.inj ha
      refine ⟨h.starting, h.capped, ?_⟩
      intro asking seen hl hc
      obtain rfl := Option.some.inj hl
      exact absurd hc (by simp)

lemma Within.counts (h : s.Within caps) {ok : Bool} (ha : s.counts ok = some t) :
    t.Within caps := by
  rw [Slots.counts] at ha
  split at ha
  · obtain rfl := Option.some.inj ha
    refine ⟨h.starting, h.capped, ?_⟩
    intro asking seen hl hc
    obtain rfl := Option.some.inj hl
    have hs : s.live = seen := by
      cases ok with
      | true => exact Option.some.inj (Option.some.inj hc)
      | false => exact absurd hc (by simp)
    have hu := s.unrecorded_add_recorded
    have hst := h.starting
    show s.live + s.unrecorded ≤ seen + s.starting
    omega
  · exact absurd ha (by simp)

lemma Within.decides (h : s.Within caps) (ha : s.decides caps = some t) : t.Within caps := by
  rw [Slots.decides] at ha
  split at ha
  · rename_i run position seen hlock
    split at ha
    · obtain rfl := Option.some.inj ha
      exact ⟨h.starting, h.capped, fun _ _ hl => absurd hl (by simp)⟩
    · rename_i starting htake
      obtain rfl := Option.some.inj ha
      obtain ⟨rfl, live, rfl, hroom⟩ := takeSlot_ok htake
      have hbound := h.counted _ live hlock rfl
      have hu : (s.held ++ [Reservation.mk run position false]).countP (fun r => !r.recorded) = s.unrecorded + 1 := by
        rw [List.countP_append, unrecorded]
        rfl
      refine ⟨?_, ?_, fun _ _ hl => absurd hl (by simp)⟩
      · rw [List.length_append, h.starting]
        rfl
      · show s.live + (s.held ++ [Reservation.mk run position false]).countP (fun r => !r.recorded) ≤ _
        omega
  · exact absurd ha (by simp)

lemma Within.records (h : s.Within caps) {index : ℕ} (ha : s.records index = some t) :
    t.Within caps := by
  rw [Slots.records] at ha
  split at ha
  · rename_i run position hr
    obtain rfl := Option.some.inj ha
    obtain ⟨hi, hr⟩ := List.getElem?_eq_some_iff.mp hr
    have hlive := live_addAgent s.rows run position
    have hpos : 0 < s.unrecorded :=
      List.countP_pos_iff.mpr ⟨_, List.getElem_mem hi, by rw [hr]; rfl⟩
    have hu : (s.held.set index ⟨run, position, true⟩).countP
        (fun r => !r.recorded) = s.unrecorded - 1 := by
      rw [List.countP_set hi, hr, unrecorded]
      rfl
    have hsum : (addAgent s.rows run position).countP (fun row => !row.done) +
        (s.held.set index ⟨run, position, true⟩).countP (fun r => !r.recorded) ≤
        s.live + s.unrecorded := by
      rw [hu, live]
      omega
    refine ⟨?_, hsum.trans h.capped, fun asking seen hl hc => hsum.trans (h.counted asking seen hl hc)⟩
    rw [List.length_set]
    exact h.starting
  · exact absurd ha (by simp)

lemma Within.releases (h : s.Within caps) {index : ℕ} (ha : s.releases index = some t) :
    t.Within caps := by
  rw [Slots.releases] at ha
  split at ha
  · rename_i hc
    obtain rfl := Option.some.inj ha
    have hu : (s.held.eraseIdx index).countP (fun r => !r.recorded) ≤ s.unrecorded :=
      (List.eraseIdx_sublist _ _).countP_le
    refine ⟨?_, ?_, ?_⟩
    · rw [List.length_eraseIdx, if_pos hc.2, h.starting]
    · exact (Nat.add_le_add_left hu s.live).trans h.capped
    · intro asking seen hl
      exact absurd hc.1 (by simp [show s.lock = some asking from hl])
  · exact absurd ha (by simp)

lemma Within.step (h : s.Within caps) {a : SlotAct} (ha : s.Step caps a t) : t.Within caps := by
  cases a with
  | ask run position started used hostUsed => exact h.asks ha
  | count ok => exact h.counts ha
  | decide => exact h.decides ha
  | record index => exact h.records ha
  | release index => exact h.releases ha
  | done run position =>
    obtain rfl := Option.some.inj ha
    have hlive := live_markDone s.rows run position
    refine ⟨h.starting, (Nat.add_le_add_right hlive _).trans h.capped, ?_⟩
    intro asking seen hl hc
    exact (Nat.add_le_add_right hlive _).trans (h.counted asking seen hl hc)

theorem agents_within_cap (caps : Caps) (rows : List AgentRow)
    (hrows : rows.countP (fun row => !row.done) ≤ caps.maxAgents) {acts : List SlotAct} {t : Slots}
    (h : Run (Step caps) (start rows) acts t) :
    t.live + t.unrecorded ≤ caps.maxAgents ∧
      t.live + t.starting ≤ caps.maxAgents + t.recorded ∧
      t.starting = t.held.length := by
  have hw := h.invariant (within_start hrows) fun _ _ _ hw ha => hw.step ha
  have hu := t.unrecorded_add_recorded
  have hc := hw.capped
  have hs := hw.starting
  exact ⟨hc, by omega, hs⟩

def oneAgent : Caps where
  agentsPerRun := 5
  tokensPerDay := 1000
  maxTokensPerDay := 1000
  maxAgents := 1
  fits := by decide

lemma run_of_exec {acts : List SlotAct}
    (h : Run.exec (fun _ _ => true) (step caps) s acts = some t) : Run (Step caps) s acts t :=
  (Run.of_exec h).mono fun _ _ _ ha => ha.2

theorem agents_within_cap_one :
    ∃ t, Run (Step oneAgent) (start [])
      [.ask 1 1 0 0 0, .count true, .decide, .record 0, .release 0, .ask 2 1 0 0 0, .count true,
        .decide] t ∧
      t.live + t.unrecorded ≤ 1 ∧ t.starting = 0 ∧ t.live = 1 := by
  have hrun : ∃ t, Run.exec (fun _ _ => true) (step oneAgent) (start [])
      [.ask 1 1 0 0 0, .count true, .decide, .record 0, .release 0, .ask 2 1 0 0 0, .count true,
        .decide] = some t ∧ t.held.length = 0 ∧ t.live = 1 := ⟨_, rfl, rfl, rfl⟩
  obtain ⟨t, ht, hheld, hlive⟩ := hrun
  obtain ⟨hcap, -, hstarting⟩ := agents_within_cap oneAgent [] (by decide) (run_of_exec ht)
  exact ⟨t, run_of_exec ht, hcap, hstarting.trans hheld, hlive⟩

theorem recorded_slot_counts_twice :
    ∃ t, Run (Step oneAgent) (start []) [.ask 1 1 0 0 0, .count true, .decide, .record 0] t ∧
      ¬t.live + t.starting ≤ oneAgent.maxAgents :=
  ⟨_, run_of_exec rfl, by decide⟩

end Slots

end Sheprd.Automate
