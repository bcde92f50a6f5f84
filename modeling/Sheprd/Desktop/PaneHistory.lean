import Mathlib.Tactic

namespace Sheprd.Desktop.PaneHistory

def limit : ℕ := 100

inductive Step where
  | back
  | forward

structure Snapshot where
  bootId : String
  focusedPaneId : Option String
  panes : List String

structure History where
  boot : String
  panes : List String
  cursor : ℕ
  travel : Option ℕ

def blank (boot : String) : History := ⟨boot, [], 0, none⟩

def bounded (panes : List String) : List String :=
  if limit < panes.length then panes.tail else panes

namespace History

def entry (history : History) (index : ℕ) : Option String := history.panes[index]?

def reboot (history : History) (boot : String) : History :=
  if boot ≠ history.boot then blank boot else history

def visit (history : History) (focused : String) : History :=
  let panes := bounded (history.panes.take (history.cursor + 1) ++ [focused])
  { history with panes := panes, cursor := panes.length - 1, travel := none }

def focus (history : History) (focused : String) : History :=
  if history.entry history.cursor = some focused then history
  else
    match history.travel with
    | none => history.visit focused
    | some index =>
      if history.entry index = some focused then { history with cursor := index, travel := none }
      else history.visit focused

def record (history : History) (snapshot : Snapshot) : History :=
  let history := history.reboot snapshot.bootId
  match snapshot.focusedPaneId with
  | none => history
  | some focused => history.focus focused

def observe (history : History) (snapshot : Option Snapshot) (navigating : Bool) : History :=
  let history := match snapshot with
    | none => history
    | some snapshot => history.record snapshot
  if navigating then history else { history with travel := none }

def start (history : History) : ℕ := history.travel.getD history.cursor

def usable (history : History) (snapshot : Snapshot) (index : ℕ) : Bool :=
  match history.entry index with
  | none => false
  | some pane => snapshot.focusedPaneId ≠ some pane && snapshot.panes.contains pane

def target (history : History) (step : Step) (snapshot : Snapshot) : Option ℕ :=
  if snapshot.bootId ≠ history.boot then none
  else
    match step with
    | .back => (List.range history.start).reverse.find? (history.usable snapshot)
    | .forward =>
      (List.range' (history.start + 1) (history.panes.length - (history.start + 1))).find?
        (history.usable snapshot)

def peek (history : History) (step : Step) (snapshot : Snapshot) : Option (ℕ × String) := do
  let index ← history.target step snapshot
  let pane ← history.entry index
  return (index, pane)

def begin (history : History) (index : ℕ) : History :=
  if index < history.panes.length then { history with travel := some index } else history

end History

inductive Act where
  | observe (snapshot : Option Snapshot) (navigating : Bool)
  | begin (index : ℕ)

def next (history : History) : Act → History
  | .observe snapshot navigating => history.observe snapshot navigating
  | .begin index => history.begin index

def run (history : History) (acts : List Act) : History := acts.foldl next history

structure Seen where
  boot : String
  pane : Option String
  deriving DecidableEq

def see (seen : Seen) : Act → Seen
  | .observe (some snapshot) _ =>
    let kept := if snapshot.bootId ≠ seen.boot then none else seen.pane
    ⟨snapshot.bootId, snapshot.focusedPaneId.or kept⟩
  | _ => seen

def seen (acts : List Act) : Seen := acts.foldl see ⟨"", none⟩

structure Kept (history : History) : Prop where
  bounded : history.panes.length ≤ limit
  apart : history.panes.IsChain (· ≠ ·)
  cursor : history.cursor < history.panes.length ∨ history.panes = [] ∧ history.cursor = 0
  travel : ∀ index, history.travel = some index → index < history.panes.length

lemma blank_kept (boot : String) : Kept (blank boot) where
  bounded := Nat.zero_le _
  apart := .nil
  cursor := .inr ⟨rfl, rfl⟩
  travel := by simp [blank]

lemma reboot_kept {history : History} (h : Kept history) (boot : String) :
    Kept (history.reboot boot) := by
  simp only [History.reboot]
  split
  · exact blank_kept boot
  · exact h

lemma getLast?_take {history : History} (h : Kept history) :
    (history.panes.take (history.cursor + 1)).getLast? = history.entry history.cursor := by
  rcases h.cursor with hcursor | ⟨hnil, hcursor⟩
  · have hlength : (history.panes.take (history.cursor + 1)).length - 1 = history.cursor := by
      rw [List.length_take]
      omega
    rw [List.getLast?_eq_getElem?, hlength, List.getElem?_take_of_lt (by omega)]
    rfl
  · simp [hnil, History.entry]

lemma visited_apart {history : History} {focused : String} (h : Kept history)
    (hfocused : history.entry history.cursor ≠ some focused) :
    (history.panes.take (history.cursor + 1) ++ [focused]).IsChain (· ≠ ·) := by
  refine List.isChain_append.mpr ⟨h.apart.take _, List.isChain_singleton _, ?_⟩
  intro pane hpane other hother
  rw [getLast?_take h] at hpane
  obtain rfl : focused = other := by simpa using hother
  rintro rfl
  exact hfocused hpane

lemma bounded_cases (panes : List String) :
    bounded panes = panes ∧ panes.length ≤ limit ∨
      bounded panes = panes.tail ∧ limit < panes.length := by
  simp only [bounded]
  split
  · exact .inr ⟨rfl, ‹_›⟩
  · exact .inl ⟨rfl, by omega⟩

lemma visit_kept {history : History} {focused : String} (h : Kept history)
    (hfocused : history.entry history.cursor ≠ some focused) :
    Kept (history.visit focused) := by
  have hbounded := h.bounded
  have hchain := visited_apart h hfocused
  have hlength : (history.panes.take (history.cursor + 1) ++ [focused]).length ≤ limit + 1 := by
    rw [List.length_append, List.length_take, List.length_singleton]
    omega
  have hpositive : 0 < limit := by decide
  simp only [History.visit]
  rcases bounded_cases (history.panes.take (history.cursor + 1) ++ [focused]) with
    ⟨hsame, hshort⟩ | ⟨htail, hlong⟩
  · refine ⟨?_, ?_, .inl ?_, by simp⟩
    · simpa only [hsame] using hshort
    · simpa only [hsame] using hchain
    · simp [hsame]
  · refine ⟨?_, ?_, .inl ?_, by simp⟩
    · simp only [htail, List.length_tail]
      omega
    · simpa only [htail] using hchain.tail
    · simp only [htail, List.length_tail]
      omega

lemma bounded_getLast? (panes : List String) (focused : String) :
    (bounded (panes ++ [focused])).getLast? = some focused := by
  rcases bounded_cases (panes ++ [focused]) with ⟨hsame, -⟩ | ⟨htail, hlong⟩
  · rw [hsame, List.getLast?_concat]
  · cases panes with
    | nil => simp [limit] at hlong
    | cons pane panes =>
      rw [htail]
      exact List.getLast?_concat

lemma visit_entry (history : History) (focused : String) :
    (history.visit focused).entry (history.visit focused).cursor = some focused := by
  simp only [History.visit, History.entry, ← List.getLast?_eq_getElem?]
  exact bounded_getLast? _ _

lemma focus_kept {history : History} {focused : String} (h : Kept history) :
    Kept (history.focus focused) := by
  simp only [History.focus]
  split
  · exact h
  · rename_i hfocused
    split
    · exact visit_kept h hfocused
    · rename_i index htravel
      split
      · exact ⟨h.bounded, h.apart, .inl (h.travel index htravel), by simp⟩
      · exact visit_kept h hfocused

lemma focus_entry (history : History) (focused : String) :
    (history.focus focused).entry (history.focus focused).cursor = some focused := by
  simp only [History.focus]
  split
  · assumption
  · split
    · exact visit_entry history focused
    · split
      · assumption
      · exact visit_entry history focused

lemma record_kept {history : History} (h : Kept history) (snapshot : Snapshot) :
    Kept (history.record snapshot) := by
  simp only [History.record]
  split
  · exact reboot_kept h _
  · exact focus_kept (reboot_kept h _)

lemma next_kept {history : History} (h : Kept history) (act : Act) : Kept (next history act) := by
  cases act with
  | observe snapshot navigating =>
    have hrecorded : Kept (match snapshot with
        | none => history
        | some snapshot => history.record snapshot) := by
      cases snapshot with
      | none => exact h
      | some snapshot => exact record_kept h snapshot
    simp only [next, History.observe]
    split
    · exact hrecorded
    · exact ⟨hrecorded.bounded, hrecorded.apart, hrecorded.cursor, by simp⟩
  | begin index =>
    simp only [next, History.begin]
    split
    · refine ⟨h.bounded, h.apart, h.cursor, ?_⟩
      rintro other hother
      obtain rfl := Option.some.inj hother
      assumption
    · exact h

lemma run_kept {history : History} (h : Kept history) (acts : List Act) :
    Kept (run history acts) := by
  induction acts generalizing history with
  | nil => exact h
  | cons act acts ih => exact ih (next_kept h act)

lemma reboot_boot (history : History) (boot : String) : (history.reboot boot).boot = boot := by
  simp only [History.reboot]
  split
  · rfl
  · rename_i hsame
    exact (not_not.mp hsame).symm

lemma focus_boot (history : History) (focused : String) :
    (history.focus focused).boot = history.boot := by
  simp only [History.focus]
  split
  · rfl
  · split
    · rfl
    · split <;> rfl

def At (history : History) (seen : Seen) : Prop :=
  history.boot = seen.boot ∧ history.entry history.cursor = seen.pane

lemma record_at {history : History} {seen : Seen} (h : At history seen) (snapshot : Snapshot)
    (navigating : Bool) : At (history.record snapshot) (see seen (.observe snapshot navigating)) := by
  obtain ⟨hboot, hpane⟩ := h
  simp only [History.record, see]
  cases hfocused : snapshot.focusedPaneId with
  | some focused =>
    refine ⟨?_, ?_⟩
    · exact (focus_boot _ _).trans (reboot_boot _ _)
    · exact focus_entry _ _
  | none =>
    refine ⟨reboot_boot _ _, ?_⟩
    simp only [History.reboot, hboot, Option.none_or]
    split
    · rfl
    · exact hpane

lemma next_at {history : History} {seen : Seen} (h : At history seen) (act : Act) :
    At (next history act) (see seen act) := by
  cases act with
  | observe snapshot navigating =>
    have hrecorded : At (match snapshot with
        | none => history
        | some snapshot => history.record snapshot) (see seen (.observe snapshot navigating)) := by
      cases snapshot with
      | none => exact h
      | some snapshot => exact record_at h snapshot navigating
    simp only [next, History.observe]
    split <;> exact hrecorded
  | begin index =>
    simp only [next, History.begin]
    split <;> exact h

lemma foldl_at {history : History} {start : Seen} (h : At history start) (acts : List Act) :
    At (run history acts) (acts.foldl see start) := by
  induction acts generalizing history start with
  | nil => exact h
  | cons act acts ih => exact ih (next_at h act)

lemma run_at (acts : List Act) : At (run (blank "") acts) (seen acts) :=
  foldl_at ⟨rfl, rfl⟩ acts

lemma focus_arrives {history : History} {focused : String} {index : ℕ}
    (hfocused : history.entry history.cursor ≠ some focused)
    (htravel : history.travel = some index) (hentry : history.entry index = some focused) :
    history.focus focused = { history with cursor := index, travel := none } := by
  simp [History.focus, hfocused, htravel, hentry]

lemma focus_elsewhere {history : History} {focused : String}
    (hfocused : history.entry history.cursor ≠ some focused)
    (htravel : ∀ index, history.travel = some index → history.entry index ≠ some focused) :
    history.focus focused = history.visit focused := by
  simp only [History.focus, if_neg hfocused]
  split
  · rfl
  · rename_i index hindex
    rw [if_neg (htravel index hindex)]

lemma reboot_same {history : History} {boot : String} (h : boot = history.boot) :
    history.reboot boot = history := by
  simp [History.reboot, h]

section Travelled

variable {history : History} {snapshot : Snapshot}

lemma usable_iff (index : ℕ) :
    history.usable snapshot index = true ↔ ∃ pane, history.entry index = some pane ∧
      snapshot.focusedPaneId ≠ some pane ∧ pane ∈ snapshot.panes := by
  simp only [History.usable]
  cases history.entry index with
  | none => simp
  | some pane => simp

lemma find_back {usable : ℕ → Bool} {start index : ℕ}
    (h : (List.range start).reverse.find? usable = some index) :
    index < start ∧ usable index = true ∧ ∀ k, index < k → k < start → usable k = false := by
  induction start with
  | zero => simp at h
  | succ start ih =>
    rw [List.range_succ, List.reverse_concat, List.find?_cons] at h
    split at h
    · rename_i husable
      obtain rfl := Option.some.inj h
      exact ⟨Nat.lt_succ_self _, husable, fun k hk hk' => by omega⟩
    · rename_i hunusable
      obtain ⟨hindex, husable, hbetween⟩ := ih h
      refine ⟨by omega, husable, fun k hk hk' => ?_⟩
      rcases Nat.lt_succ_iff_lt_or_eq.mp hk' with hk' | rfl
      · exact hbetween k hk hk'
      · simpa using hunusable

lemma find_forward {usable : ℕ → Bool} (start length : ℕ) {index : ℕ}
    (husable : usable index = true) (hstart : start ≤ index) (hlength : index < start + length) :
    ∃ found, (List.range' start length).find? usable = some found ∧ usable found = true ∧
      start ≤ found ∧ found ≤ index := by
  induction length generalizing start with
  | zero => omega
  | succ length ih =>
    rw [List.range'_succ, List.find?_cons]
    cases hhere : usable start with
    | true => exact ⟨start, rfl, hhere, le_refl _, hstart⟩
    | false =>
      have hne : start ≠ index := by
        rintro rfl
        simp [husable] at hhere
      obtain ⟨found, hfind, hfound, hle, hle'⟩ := ih (start + 1) (by omega) (by omega)
      exact ⟨found, hfind, hfound, by omega, hle'⟩

lemma peek_back {index : ℕ} {pane : String}
    (h : history.peek .back snapshot = some (index, pane)) :
    index < history.start ∧ history.entry index = some pane ∧
      snapshot.focusedPaneId ≠ some pane ∧
      ∀ k, index < k → k < history.start → history.usable snapshot k = false := by
  simp only [History.peek, Option.bind_eq_bind, Option.bind_eq_some_iff] at h
  obtain ⟨found, htarget, entry, hentry, hpair⟩ := h
  obtain ⟨rfl, rfl⟩ := Prod.mk.inj (Option.some.inj hpair)
  simp only [History.target] at htarget
  split at htarget
  · cases htarget
  · obtain ⟨hfound, husable, hbetween⟩ := find_back htarget
    obtain ⟨pane, hpane, hfocused, -⟩ := (usable_iff _).mp husable
    obtain rfl := Option.some.inj (hentry.symm.trans hpane)
    exact ⟨hfound, hentry, hfocused, hbetween⟩

lemma entry_lt {index : ℕ} {pane : String} (h : history.entry index = some pane) :
    index < history.panes.length :=
  (List.getElem?_eq_some_iff.mp h).1

lemma peek_forward {index : ℕ} (hboot : snapshot.bootId = history.boot)
    (husable : history.usable snapshot index = true) (hindex : history.start < index) :
    ∃ found pane, history.peek .forward snapshot = some (found, pane) ∧
      history.entry found = some pane ∧ pane ∈ snapshot.panes ∧
      history.start < found ∧ found ≤ index := by
  obtain ⟨last, hlast, -⟩ := (usable_iff _).mp husable
  have hlength := entry_lt hlast
  obtain ⟨found, hfind, hfound, hstart, hle⟩ := find_forward (history.start + 1)
    (history.panes.length - (history.start + 1)) husable hindex (by omega)
  obtain ⟨pane, hpane, -, hopen⟩ := (usable_iff _).mp hfound
  refine ⟨found, pane, ?_, hpane, hopen, hstart, hle⟩
  simp [History.peek, History.target, hboot, hfind, hpane]

end Travelled

def Waits (boot focused : String) : Act → Prop
  | .observe none navigating => navigating = true
  | .observe (some snapshot) navigating => navigating = true ∧ snapshot.bootId = boot ∧
      (snapshot.focusedPaneId = none ∨ snapshot.focusedPaneId = some focused)
  | .begin _ => False

def Stays (boot focused : String) : Act → Prop
  | .observe none _ => True
  | .observe (some snapshot) _ => snapshot.bootId = boot ∧
      (snapshot.focusedPaneId = none ∨ snapshot.focusedPaneId = some focused)
  | .begin _ => False

lemma record_stays {history : History} {snapshot : Snapshot} {focused : String}
    (hboot : snapshot.bootId = history.boot)
    (hfocused : snapshot.focusedPaneId = none ∨ snapshot.focusedPaneId = some focused)
    (hentry : history.entry history.cursor = some focused) :
    history.record snapshot = history := by
  rcases hfocused with hnone | hsome
  · simp [History.record, reboot_same hboot, hnone]
  · simp [History.record, reboot_same hboot, hsome, History.focus, hentry]

lemma run_unmoved {history : History} {acts : List Act} (h : ∀ act ∈ acts, next history act = history) :
    run history acts = history := by
  induction acts with
  | nil => rfl
  | cons act acts ih =>
    obtain ⟨hact, hacts⟩ := List.forall_mem_cons.mp h
    rw [run, List.foldl_cons, hact]
    exact ih hacts

lemma run_waits {history : History} {focused : String} {acts : List Act}
    (hacts : ∀ act ∈ acts, Waits history.boot focused act)
    (hentry : history.entry history.cursor = some focused) : run history acts = history := by
  refine run_unmoved fun act hmem => ?_
  have hact := hacts act hmem
  cases act with
  | begin index => exact hact.elim
  | observe snapshot navigating =>
    cases snapshot with
    | none =>
      obtain rfl : navigating = true := hact
      rfl
    | some snapshot =>
      obtain ⟨rfl, hboot, hfocused⟩ := hact
      exact record_stays hboot hfocused hentry

lemma run_stays {history : History} {focused : String} {acts : List Act}
    (hacts : ∀ act ∈ acts, Stays history.boot focused act) (htravel : history.travel = none)
    (hentry : history.entry history.cursor = some focused) : run history acts = history := by
  refine run_unmoved fun act hmem => ?_
  have hact := hacts act hmem
  cases act with
  | begin index => exact hact.elim
  | observe snapshot navigating =>
    have hsettled : { history with travel := none } = history := by rw [← htravel]
    cases snapshot with
    | none =>
      simp only [next, History.observe, hsettled]
      exact ite_self _
    | some snapshot =>
      simp only [next, History.observe, record_stays hact.1 hact.2 hentry, hsettled]
      exact ite_self _

lemma run_arrives {history : History} {snapshot : Snapshot} {index : ℕ} {left pane : String}
    {waits stays : List Act} {navigating : Bool}
    (hleft : history.entry history.cursor = some left) (hpane : history.entry index = some pane)
    (hne : left ≠ pane) (hwaits : ∀ act ∈ waits, Waits history.boot left act)
    (hboot : snapshot.bootId = history.boot) (hfocused : snapshot.focusedPaneId = some pane)
    (hstays : ∀ act ∈ stays, Stays history.boot pane act) :
    run history (.begin index :: waits ++ .observe (some snapshot) navigating :: stays) =
      { history with cursor := index, travel := none } := by
  have hbegin : next history (.begin index) = { history with travel := some index } := by
    simp [next, History.begin, entry_lt hpane]
  have harrives : next { history with travel := some index }
      (.observe (some snapshot) navigating) = { history with cursor := index, travel := none } := by
    have hrecord : History.record { history with travel := some index } snapshot =
        { history with cursor := index, travel := none } := by
      simp only [History.record, hfocused]
      rw [reboot_same (by exact hboot)]
      refine focus_arrives ?_ rfl hpane
      exact fun h => hne (Option.some.inj (hleft.symm.trans h))
    simp only [next, History.observe, hrecord]
    exact ite_self _
  have hwaited : run { history with travel := some index } waits =
      { history with travel := some index } := run_waits hwaits hleft
  have hstayed : run { history with cursor := index, travel := none } stays =
      { history with cursor := index, travel := none } := run_stays hstays rfl hpane
  rw [run, List.cons_append, List.foldl_cons, hbegin, List.foldl_append]
  change (Act.observe (some snapshot) navigating :: stays).foldl next
    (run { history with travel := some index } waits) = _
  rw [hwaited, List.foldl_cons, harrives]
  exact hstayed

structure Trip (history : History) where
  back : Snapshot
  left : String
  origin : String
  index : ℕ
  pane : String
  waits : List Act
  arrival : Snapshot
  navigating : Bool
  stays : List Act
  forward : Snapshot
  focused : back.focusedPaneId = some left
  boots : back.bootId = history.boot ∧ arrival.bootId = history.boot ∧
    forward.bootId = history.boot
  starts : history.entry history.cursor = some left
  continues : history.entry history.start = some origin
  peeked : history.peek .back back = some (index, pane)
  waiting : ∀ act ∈ waits, Waits history.boot left act
  arrives : arrival.focusedPaneId = some pane
  staying : ∀ act ∈ stays, Stays history.boot pane act
  exists_still : origin ∈ forward.panes ∧ forward.focusedPaneId ≠ some origin
  closed_still : ∀ k stepped, index < k → k < history.start →
    history.entry k = some stepped → stepped ∈ forward.panes → stepped ∈ back.panes

namespace Trip

variable {history : History} (trip : Trip history)

def acts : List Act :=
  .begin trip.index :: trip.waits ++ .observe (some trip.arrival) trip.navigating :: trip.stays

def settled : History := { history with cursor := trip.index, travel := none }

lemma run_acts : run history trip.acts = trip.settled := by
  obtain ⟨-, hpane, hfocused, -⟩ := peek_back trip.peeked
  refine run_arrives trip.starts hpane ?_ trip.waiting trip.boots.2.1 trip.arrives trip.staying
  intro hleft
  rw [← hleft] at hfocused
  exact hfocused trip.focused

lemma stepped_over {k : ℕ} {stepped : String} (hk : trip.index < k) (hk' : k < history.start)
    (hentry : history.entry k = some stepped) (hopen : stepped ∈ trip.forward.panes) :
    stepped = trip.left := by
  obtain ⟨-, -, -, hunusable⟩ := peek_back trip.peeked
  have hback := trip.closed_still k stepped hk hk' hentry hopen
  by_contra hne
  have husable : history.usable trip.back k = true := by
    refine (usable_iff k).mpr ⟨stepped, hentry, ?_, hback⟩
    intro hfocused
    exact hne (Option.some.inj (hfocused.symm.trans trip.focused))
  simp [hunusable k hk hk'] at husable

lemma leads_back : ∃ found pane, (run history trip.acts).peek .forward trip.forward =
    some (found, pane) ∧ (pane = trip.left ∨ pane = trip.origin) := by
  have hindex : trip.settled.start < history.start := (peek_back trip.peeked).1
  have hboot : trip.forward.bootId = trip.settled.boot := trip.boots.2.2
  have husable : trip.settled.usable trip.forward history.start = true :=
    (usable_iff _).mpr
      ⟨trip.origin, trip.continues, trip.exists_still.2, trip.exists_still.1⟩
  obtain ⟨found, pane, hpeek, hpane, hopen, hstart, hle⟩ := peek_forward hboot husable hindex
  rw [run_acts]
  refine ⟨found, pane, hpeek, ?_⟩
  rcases Nat.lt_or_eq_of_le hle with hlt | rfl
  · exact .inl (trip.stepped_over hstart hlt hpane hopen)
  · exact .inr (Option.some.inj (hpane.symm.trans trip.continues))

end Trip

theorem trail_walks (acts : List Act) :
    let history := run (blank "") acts
    history.panes.length ≤ limit ∧ history.panes.IsChain (· ≠ ·) ∧
      (history.cursor < history.panes.length ∨ history.panes = [] ∧ history.cursor = 0) ∧
      (∀ index, history.travel = some index → index < history.panes.length) ∧
      history.boot = (seen acts).boot ∧ history.entry history.cursor = (seen acts).pane ∧
      (∀ snapshot focused, snapshot.bootId = history.boot →
        snapshot.focusedPaneId = some focused → history.entry history.cursor ≠ some focused →
        (∀ index, history.travel = some index → history.entry index = some focused →
          history.record snapshot = { history with cursor := index, travel := none }) ∧
        ((∀ index, history.travel = some index → history.entry index ≠ some focused) →
          (history.record snapshot).panes =
            bounded (history.panes.take (history.cursor + 1) ++ [focused]))) ∧
      ∀ trip : Trip history, ∃ found pane,
        (run (blank "") (acts ++ trip.acts)).peek .forward trip.forward = some (found, pane) ∧
        (pane = trip.left ∨ pane = trip.origin) ∧ (history.travel = none → pane = trip.left) := by
  intro history
  obtain ⟨hbounded, hapart, hcursor, htravel⟩ := run_kept (blank_kept "") acts
  obtain ⟨hboot, hpane⟩ := run_at acts
  refine ⟨hbounded, hapart, hcursor, htravel, hboot, hpane, ?_, ?_⟩
  · intro snapshot focused hsame hfocused hnew
    have hrecord : history.record snapshot = history.focus focused := by
      simp [History.record, reboot_same hsame, hfocused]
    rw [hrecord]
    refine ⟨fun index hindex hentry => focus_arrives hnew hindex hentry, fun helsewhere => ?_⟩
    rw [focus_elsewhere hnew helsewhere]
    rfl
  · intro trip
    obtain ⟨found, pane, hpeek, hleft⟩ := trip.leads_back
    refine ⟨found, pane, ?_, hleft, fun hnone => ?_⟩
    · have happend : run (blank "") (acts ++ trip.acts) = run history trip.acts :=
        List.foldl_append
      rw [happend]
      exact hpeek
    · have horigin : trip.origin = trip.left := by
        have hstart := trip.continues
        simp only [History.start, hnone, Option.getD_none, trip.starts] at hstart
        exact (Option.some.inj hstart).symm
      rcases hleft with hleft | hleft
      · exact hleft
      · exact hleft.trans horigin

def showing (panes : List String) (focused : String) : Snapshot := ⟨"boot", some focused, panes⟩

def visits : List Act :=
  ["a", "x", "b"].map fun pane => .observe (some (showing ["a", "x", "b"] pane)) false

def backAndForward : Trip (run (blank "") visits) where
  back := showing ["a", "b"] "b"
  left := "b"
  origin := "b"
  index := 0
  pane := "a"
  waits := [.observe none true, .observe (some (showing ["a", "b"] "b")) true]
  arrival := showing ["a", "b"] "a"
  navigating := false
  stays := [.observe (some (showing ["a", "b"] "a")) true]
  forward := showing ["a", "b"] "a"
  focused := rfl
  boots := by decide
  starts := by decide
  continues := by decide
  peeked := by decide
  waiting := by simp [Waits, showing]; decide
  arrives := rfl
  staying := by simp [Stays, showing]; decide
  exists_still := by decide
  closed_still := by
    intro k stepped _ _ _ hopen
    exact hopen

theorem trail_walks_back : ∃ found, (run (blank "") (visits ++ backAndForward.acts)).peek .forward
    backAndForward.forward = some (found, "b") := by
  obtain ⟨-, -, -, -, -, -, -, htrip⟩ := trail_walks visits
  obtain ⟨found, pane, hpeek, -, hleft⟩ := htrip backAndForward
  obtain rfl : pane = "b" := hleft (by decide)
  exact ⟨found, hpeek⟩

theorem forward_reopened :
    let history := run (blank "") visits
    let returned := showing ["a", "x", "b"] "a"
    let travelled := run (blank "")
      (visits ++ [.begin 0, .observe (some returned) false])
    seen visits = ⟨"boot", some "b"⟩ ∧ history.travel = none ∧
      history.peek .back (showing ["a", "b"] "b") = some (0, "a") ∧ "b" ∈ returned.panes ∧
      travelled.cursor = 0 ∧ travelled.panes = history.panes ∧
      travelled.peek .forward returned = some (1, "x") := by
  decide

end Sheprd.Desktop.PaneHistory
