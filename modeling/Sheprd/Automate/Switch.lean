import Sheprd.Lib.Run

namespace Sheprd.Automate

open Sheprd.Lib

def failuresToPause : ℕ := 3

structure Switch where
  paused : Bool := false
  disabled : Bool := false
  reason : Option String := none

inductive UserCommand where
  | pause
  | resume
  | disable
  | enable
  deriving DecidableEq

def UserCommand.edit (command : UserCommand) (switch : Switch) : Switch :=
  match command with
  | .pause => { switch with paused := true, reason := some "paused by you" }
  | .resume => { switch with paused := false, reason := none }
  | .disable => { switch with disabled := true, reason := some "disabled by you" }
  | .enable => { switch with disabled := false, reason := none }

def finishPause (failures : ℕ) (switch : Switch) : Option Switch :=
  if failuresToPause ≤ failures ∧ switch.paused = false then
    some { switch with paused := true, reason := some "paused after 3 failed runs in a row" }
  else none

def budgetPause : Switch :=
  { paused := true, disabled := false, reason := some "reached its daily token budget" }

inductive Writer where
  | user (command : UserCommand)
  | finish (failures : ℕ)
  deriving DecidableEq

structure Pending where
  writer : Writer
  path : String
  seen : Switch

def Pending.writes (p : Pending) : Option Switch :=
  match p.writer with
  | .user command => some (command.edit p.seen)
  | .finish failures => finishPause failures p.seen

structure Switches where
  stored : String → Option Switch
  pending : List Pending
  userDisabled : String → Bool
  cleared : List String

inductive SwitchAct where
  | read (writer : Writer) (path : String)
  | write (index : ℕ)
  | fail (index : ℕ)
  | budget (path : String)

namespace Switches

def switch (s : Switches) (path : String) : Switch := (s.stored path).getD {}

def setSwitch (s : Switches) (path : String) (switch : Switch) : Switches :=
  { s with stored := Function.update s.stored path (some switch) }

def asked (s : Switches) (writer : Writer) (path : String) : Switches :=
  match writer with
  | .user .disable => { s with userDisabled := Function.update s.userDisabled path true }
  | .user .enable => { s with userDisabled := Function.update s.userDisabled path false }
  | _ => s

def note (s : Switches) (path : String) (switch : Switch) : Switches :=
  if (s.switch path).disabled = true ∧ switch.disabled = false then
    { s with cleared := s.cleared ++ [path] }
  else s

def drop (s : Switches) (index : ℕ) : Switches := { s with pending := s.pending.eraseIdx index }

def writeBack (s : Switches) (p : Pending) : Switches :=
  match p.writer, p.writes with
  | _, none => s
  | .user command, some switch => (s.setSwitch p.path switch).asked (.user command) p.path
  | .finish _, some switch => (s.note p.path switch).setSwitch p.path switch

def step (s : Switches) : SwitchAct → Option Switches
  | .read writer path => some { s with pending := s.pending ++ [⟨writer, path, s.switch path⟩] }
  | .write index => s.pending[index]?.map fun p => (s.drop index).writeBack p
  | .fail index => s.pending[index]?.map fun _ => s.drop index
  | .budget path => some ((s.note path budgetPause).setSwitch path budgetPause)

def Step (s : Switches) (a : SwitchAct) (t : Switches) : Prop := s.step a = some t

def start (stored : String → Option Switch) : Switches where
  stored := stored
  pending := []
  userDisabled path := ((stored path).getD {}).disabled
  cleared := []

structure Kept (s : Switches) : Prop where
  disabled : ∀ path, s.userDisabled path = true → (s.switch path).disabled = true
  cleared : s.cleared = []

def careful (s : Switches) : SwitchAct → Bool
  | .read _ _ | .fail _ => true
  | .write index => s.pending[index]?.all fun p =>
      p.writes = none || p.writer = .user .disable || p.writer = .user .enable ||
        !(s.switch p.path).disabled || p.seen.disabled
  | .budget path => !(s.switch path).disabled

def CarefulStep (s : Switches) (a : SwitchAct) (t : Switches) : Prop :=
  s.careful a = true ∧ s.Step a t

lemma switch_setSwitch (s : Switches) (path path' : String) (switch : Switch) :
    (s.setSwitch path switch).switch path' = if path' = path then switch else s.switch path' := by
  simp only [Switches.switch, setSwitch, Function.update_apply]
  split <;> rfl

lemma kept_start (stored : String → Option Switch) : (start stored).Kept :=
  ⟨fun _ h => h, rfl⟩

variable {s : Switches}

lemma Kept.drop (h : s.Kept) (index : ℕ) : (s.drop index).Kept := ⟨h.disabled, h.cleared⟩

lemma Kept.setSwitch (h : s.Kept) {path : String} {switch : Switch}
    (hd : (s.switch path).disabled = true → switch.disabled = true) :
    (s.setSwitch path switch).Kept := by
  refine ⟨?_, h.cleared⟩
  intro path' hu
  rw [switch_setSwitch]
  split
  · rename_i he
    exact hd (he ▸ h.disabled path' hu)
  · exact h.disabled path' hu

lemma note_eq {path : String} {switch : Switch}
    (hd : (s.switch path).disabled = true → switch.disabled = true) : s.note path switch = s := by
  rw [note, if_neg]
  rintro ⟨hs, hn⟩
  exact absurd (hd hs) (by simp [hn])

lemma Kept.disable (h : s.Kept) (p : Pending) :
    ((s.setSwitch p.path (UserCommand.disable.edit p.seen)).asked (.user .disable) p.path).Kept := by
  refine ⟨?_, h.cleared⟩
  intro path' hu
  have hw : ((s.setSwitch p.path (UserCommand.disable.edit p.seen)).switch path').disabled = true := by
    rw [switch_setSwitch]
    split
    · rfl
    · rename_i hne
      simp only [asked, Function.update_apply, if_neg hne] at hu
      exact h.disabled path' hu
  exact hw

lemma Kept.enable (h : s.Kept) (p : Pending) :
    ((s.setSwitch p.path (UserCommand.enable.edit p.seen)).asked (.user .enable) p.path).Kept := by
  refine ⟨?_, h.cleared⟩
  intro path' hu
  have hne : path' ≠ p.path := by
    rintro rfl
    simp [asked] at hu
  have hw : (s.setSwitch p.path (UserCommand.enable.edit p.seen)).switch path' = s.switch path' := by
    rw [switch_setSwitch, if_neg hne]
  simp only [asked, Function.update_apply, if_neg hne] at hu
  exact (congrArg Switch.disabled hw).trans (h.disabled path' hu)

lemma finishPause_disabled {failures : ℕ} {seen switch : Switch}
    (h : finishPause failures seen = some switch) : switch.disabled = seen.disabled := by
  rw [finishPause] at h
  split at h
  · rw [← Option.some.inj h]
  · exact absurd h (by simp)

lemma Kept.writeBack (h : s.Kept) {p : Pending}
    (hc : p.writes ≠ none → p.writer ≠ .user .disable → p.writer ≠ .user .enable →
      (s.switch p.path).disabled = true → p.seen.disabled = true) : (s.writeBack p).Kept := by
  obtain ⟨writer, path, seen⟩ := p
  cases writer with
  | user command =>
    cases command with
    | disable => exact h.disable ⟨_, path, seen⟩
    | enable => exact h.enable ⟨_, path, seen⟩
    | pause => exact h.setSwitch (hc (by simp [Pending.writes]) (by simp) (by simp))
    | resume => exact h.setSwitch (hc (by simp [Pending.writes]) (by simp) (by simp))
  | finish failures =>
    cases hw : finishPause failures seen with
    | none =>
      simp only [Switches.writeBack, Pending.writes, hw]
      exact h
    | some switch =>
      have hd : (s.switch path).disabled = true → switch.disabled = true := by
        rw [finishPause_disabled hw]
        exact hc (by simp [Pending.writes, hw]) (by simp) (by simp)
      simp only [Switches.writeBack, Pending.writes, hw, note_eq hd]
      exact h.setSwitch hd

lemma Kept.step {a : SwitchAct} {t : Switches} (h : s.Kept) (ha : s.CarefulStep a t) : t.Kept := by
  obtain ⟨hc, hs⟩ := ha
  cases a with
  | read writer path =>
    obtain rfl := Option.some.inj hs
    exact ⟨h.disabled, h.cleared⟩
  | write index =>
    obtain ⟨p, hp, rfl⟩ := Option.map_eq_some_iff.mp hs
    refine (h.drop index).writeBack ?_
    intro hw hdisable henable hd
    rw [careful, hp] at hc
    have hd' : (s.switch p.path).disabled = true := hd
    simpa [hw, hdisable, henable, hd'] using hc
  | fail index =>
    obtain ⟨p, -, rfl⟩ := Option.map_eq_some_iff.mp hs
    exact h.drop index
  | budget path =>
    obtain rfl := Option.some.inj hs
    have hd : (s.switch path).disabled = true → budgetPause.disabled = true := by
      intro hd
      exact absurd hc (by simp [careful, hd])
    rw [note_eq hd]
    exact h.setSwitch hd

theorem disabled_until_enabled (stored : String → Option Switch) {acts : List SwitchAct}
    {t : Switches} (h : Run CarefulStep (start stored) acts t) : t.Kept :=
  h.invariant (kept_start stored) fun _ _ _ hk ha => hk.step ha

theorem disabled_until_enabled_failures :
    ∃ t, Run CarefulStep (start fun _ => none)
      [.read (.user .disable) "a.luau", .write 0, .read (.finish 3) "a.luau", .write 0] t ∧
      t.Kept ∧ t.userDisabled "a.luau" = true ∧ (t.switch "a.luau").paused = true := by
  have hrun : ∃ t, Run.exec careful step (start fun _ => none)
      [.read (.user .disable) "a.luau", .write 0, .read (.finish 3) "a.luau", .write 0] = some t ∧
      t.userDisabled "a.luau" = true ∧ (t.switch "a.luau").paused = true := ⟨_, rfl, rfl, rfl⟩
  obtain ⟨t, ht, hu, hp⟩ := hrun
  exact ⟨t, Run.of_exec ht, disabled_until_enabled _ (Run.of_exec ht), hu, hp⟩

lemma run_of_exec {s t : Switches} {acts : List SwitchAct}
    (h : Run.exec (fun _ _ => true) step s acts = some t) : Run Step s acts t :=
  (Run.of_exec h).mono fun _ _ _ ha => ha.2

theorem budgetPause_enables :
    ∃ t, Run Step (start fun _ => none)
      [.read (.user .disable) "a.luau", .write 0, .budget "a.luau"] t ∧
      t.userDisabled "a.luau" = true ∧ (t.switch "a.luau").disabled = false ∧
      t.cleared = ["a.luau"] :=
  ⟨_, run_of_exec rfl, rfl, rfl, rfl⟩

example : ∃ t, Run Step (start fun _ => none)
    [.read (.finish 3) "a.luau", .read (.user .disable) "a.luau", .write 1, .write 0] t ∧
    t.userDisabled "a.luau" = true ∧ (t.switch "a.luau").disabled = false :=
  ⟨_, run_of_exec rfl, rfl, rfl⟩

end Switches

end Sheprd.Automate
