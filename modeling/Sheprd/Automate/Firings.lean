import Sheprd.Automate.Daemon
import Sheprd.Automation.Zoned

namespace Sheprd.Automate

open Sheprd.Automation Sheprd.Lib

namespace Host

def Forward (s : Host) : HostAct → Prop
  | .schedule path zones _ _ => ∀ script, s.loaded path = some script →
      ∀ entry ∈ script.source.triggers.zipIdx, ∀ c, s.cursors path entry.2 = some c →
        entry.1.schedule.Forward (zones entry.1.zone) c.1
  | _ => True

def SameFiring (a b : RunRow) : Prop :=
  a.scheduled ≠ none ∧ a.path = b.path ∧ a.trigger = b.trigger ∧ a.scheduled = b.scheduled

structure Recorded (s : Host) : Prop where
  once : s.runs.Pairwise fun a b => ¬SameFiring a b
  single : s.runs.Pairwise fun a b => a.running = true → b.running = true → a.path ≠ b.path
  live : s.serving = true → ∀ i row, s.runs[i]? = some row → row.running = true →
    s.live row.path = some i
  idle : s.serving = false → s.due = []

structure Cursored (s : Host) : Prop where
  increasing : s.firings.Pairwise fun f g =>
    f.path = g.path → f.trigger = g.trigger → f.epoch = g.epoch → f.scheduled < g.scheduled
  passed : ∀ f ∈ s.firings, f.epoch = s.epoch → f.scheduled ≤ s.clock ∧
    ∀ c, s.cursors f.path f.trigger = some c → f.scheduled ≤ c.1
  epochs : ∀ f ∈ s.firings, f.epoch ≤ s.epoch
  checked : ∀ path index c, s.cursors path index = some c → InRange c.1
  clock : InRange s.clock

variable {s t : Host}

lemma foldlM_invariant {σ ι : Type} {step : σ → ι → Option σ} {P : σ → Prop}
    (hstep : ∀ s a t, P s → step s a = some t → P t) {as : List ι} {s t : σ} (hs : P s)
    (h : as.foldlM step s = some t) : P t := by
  induction as generalizing s with
  | nil => exact Option.some.inj h ▸ hs
  | cons a as ih =>
    obtain ⟨u, hu, h⟩ := Option.bind_eq_some_iff.mp h
    exact ih (hstep s a u hs hu) h

lemma atSecond_eq {second : ℤ} (h : InRange second) : atSecond second = second := if_pos h

lemma cursors_setCursor (s : Host) (path : String) (index : ℕ) (checked : ℤ) (fired : Option ℤ)
    {path' : String} {index' : ℕ} {c : ℤ × Option ℤ}
    (h : (s.setCursor path index checked fired).cursors path' index' = some c) :
    (path' = path ∧ index' = index ∧ c.1 = checked) ∨ s.cursors path' index' = some c := by
  simp only [setCursor, Function.update_apply] at h
  split at h
  · rename_i hp
    rw [Function.update_apply] at h
    split at h
    · rename_i hi
      exact .inl ⟨hp, hi, by rw [← Option.some.inj h]⟩
    · exact .inr (hp ▸ h)
  · exact .inr h

lemma setCursor_other (s : Host) (path : String) {index other : ℕ} (checked : ℤ)
    (fired : Option ℤ) (hne : other ≠ index) :
    (s.setCursor path index checked fired).cursors path other = s.cursors path other := by
  simp only [setCursor, Function.update_self]
  exact Function.update_of_ne hne _ _

lemma scheduleTrigger_cursors {zones : Zone → TimeZone} {turns : ℕ} {path : String} {active : Bool}
    {entry : Trigger × ℕ} (ht : scheduleTrigger zones turns path active s entry = some t)
    {other : ℕ} (hne : other ≠ entry.2) : t.cursors path other = s.cursors path other := by
  rw [scheduleTrigger] at ht
  split at ht
  · rw [Option.some.inj ht]
  · rw [dueTrigger] at ht
    split at ht
    · exact Option.some.inj ht ▸ setCursor_other _ _ _ _ hne
    · split at ht
      · exact absurd ht (by simp)
      · exact Option.some.inj ht ▸ setCursor_other _ _ _ _ hne
      · exact Option.some.inj ht ▸ setCursor_other _ _ _ _ hne

namespace Cursored

lemma of_same (h : s.Cursored) (hc : t.cursors = s.cursors) (hk : t.clock = s.clock)
    (he : t.epoch = s.epoch) (hf : t.firings = s.firings) : t.Cursored := by
  refine ⟨?_, ?_, ?_, ?_, ?_⟩
  · rw [hf]
    exact h.increasing
  · rw [hf, he, hk, hc]
    exact h.passed
  · rw [hf, he]
    exact h.epochs
  · rw [hc]
    exact h.checked
  · rw [hk]
    exact h.clock

lemma initial (worktrees : String → WorktreeScripts) : (initial worktrees).Cursored := by
  refine ⟨.nil, ?_, ?_, ?_, (by decide : InRange timestampMin)⟩
  · exact fun f hf => absurd hf List.not_mem_nil
  · exact fun f hf => absurd hf List.not_mem_nil
  · exact fun path index c hc => absurd hc (by simp [Host.initial])

lemma setCursor (h : s.Cursored) (path : String) (index : ℕ) (fired : Option ℤ) :
    (s.setCursor path index s.clock fired).Cursored := by
  refine ⟨h.increasing, ?_, h.epochs, ?_, h.clock⟩
  · intro f hf he
    obtain ⟨hclock, hcursor⟩ := h.passed f hf he
    refine ⟨hclock, ?_⟩
    intro c hc
    obtain ⟨-, -, hchecked⟩ | hold := cursors_setCursor _ _ _ _ _ hc
    · exact hchecked ▸ hclock
    · exact hcursor c hold
  · intro path' index' c hc
    obtain ⟨-, -, hchecked⟩ | hold := cursors_setCursor _ _ _ _ _ hc
    · exact hchecked ▸ h.clock
    · exact h.checked path' index' c hold

lemma fire (h : s.Cursored) {path : String} {index : ℕ} {c : ℤ × Option ℤ} {d : Due}
    (hc : s.cursors path index = some c) (hlow : c.1 < d.scheduled) (hhigh : d.scheduled ≤ s.clock) :
    ((s.setCursor path index s.clock (some d.scheduled)).fire path index d).Cursored := by
  have hs := h.setCursor path index (some d.scheduled)
  refine ⟨?_, ?_, ?_, hs.checked, hs.clock⟩
  · refine List.pairwise_append.mpr ⟨h.increasing, List.pairwise_singleton _ _, ?_⟩
    intro f hf g hg hp ht he
    obtain rfl := List.mem_singleton.mp hg
    have hle := (h.passed f hf he).2 c (by rw [hp, ht]; exact hc)
    exact lt_of_le_of_lt hle hlow
  · intro f hf he
    obtain hf | hf := List.mem_append.mp hf
    · exact hs.passed f hf he
    · obtain rfl := List.mem_singleton.mp hf
      refine ⟨hhigh, ?_⟩
      intro c' hc'
      have hset : (s.setCursor path index s.clock (some d.scheduled)).cursors path index =
          some (s.clock, some d.scheduled) := by
        simp [Host.setCursor]
      have he' : some c' = some (s.clock, some d.scheduled) := hc'.symm.trans hset
      rw [Option.some.inj he']
      exact hhigh
  · intro f hf
    obtain hf | hf := List.mem_append.mp hf
    · exact h.epochs f hf
    · obtain rfl := List.mem_singleton.mp hf
      exact le_rfl

lemma dueTrigger (h : s.Cursored) {zones : Zone → TimeZone} {turns : ℕ} {path : String}
    {active : Bool} {trigger : Trigger} {index : ℕ}
    (hz : ∀ c, s.cursors path index = some c → trigger.schedule.Forward (zones trigger.zone) c.1)
    (ht : s.dueTrigger zones turns path active trigger index = some t) : t.Cursored := by
  rw [Host.dueTrigger] at ht
  split at ht
  · exact Option.some.inj ht ▸ h.setCursor path index _
  · rename_i checked fired hfilter
    have hc : s.cursors path index = some (checked, fired) := (Option.filter_eq_some_iff.mp hfilter).1
    rw [atSecond_eq (h.checked path index _ hc), atSecond_eq h.clock] at ht
    split at ht
    · exact absurd ht (by simp)
    · exact Option.some.inj ht ▸ h.setCursor path index none
    · rename_i d hd
      have hb := due_between (hz _ hc) hd
      exact Option.some.inj ht ▸ h.fire hc hb.1 hb.2

lemma scheduleTrigger (h : s.Cursored) {zones : Zone → TimeZone} {turns : ℕ} {path : String}
    {active : Bool} {entry : Trigger × ℕ}
    (hz : ∀ c, s.cursors path entry.2 = some c →
      entry.1.schedule.Forward (zones entry.1.zone) c.1)
    (ht : scheduleTrigger zones turns path active s entry = some t) : t.Cursored := by
  rw [Host.scheduleTrigger] at ht
  split at ht
  · exact Option.some.inj ht ▸ h
  · exact h.dueTrigger hz ht

lemma foldl_scheduleTrigger {zones : Zone → TimeZone} {turns : ℕ} {path : String} {active : Bool}
    {entries : List (Trigger × ℕ)} (distinct : (entries.map Prod.snd).Nodup) (h : s.Cursored)
    (hz : ∀ entry ∈ entries, ∀ c, s.cursors path entry.2 = some c →
      entry.1.schedule.Forward (zones entry.1.zone) c.1)
    (ht : entries.foldlM (Host.scheduleTrigger zones turns path active) s = some t) :
    t.Cursored := by
  induction entries generalizing s with
  | nil => exact Option.some.inj ht ▸ h
  | cons entry entries ih =>
    obtain ⟨u, hu, ht⟩ := Option.bind_eq_some_iff.mp ht
    obtain ⟨hnew, hrest⟩ := List.nodup_cons.mp distinct
    refine ih hrest (h.scheduleTrigger (hz entry List.mem_cons_self) hu) ?_ ht
    intro other hother c hc
    have hne : other.2 ≠ entry.2 := fun he => hnew (he ▸ List.mem_map_of_mem hother)
    rw [scheduleTrigger_cursors hu hne] at hc
    exact hz other (List.mem_cons_of_mem _ hother) c hc

lemma scheduleScript (h : s.Cursored) {path : String} {zones : Zone → TimeZone}
    {turns reached : ℕ} (hz : s.Forward (.schedule path zones turns reached))
    (ht : s.scheduleScript path zones turns reached = some t) : t.Cursored := by
  rw [Host.scheduleScript] at ht
  split at ht
  · exact Option.some.inj ht ▸ h
  · rename_i script hscript
    obtain ⟨checked, hfold, rfl⟩ := Option.map_eq_some_iff.mp ht
    have hdistinct : ((script.source.triggers.zipIdx.take reached).map Prod.snd).Nodup := by
      rw [List.map_take, List.zipIdx_map_snd]
      exact (List.take_sublist ..).nodup List.nodup_range'
    have hchecked : checked.Cursored :=
      h.foldl_scheduleTrigger hdistinct
        (fun entry he => hz script hscript entry (List.mem_of_mem_take he)) hfold
    split
    · exact hchecked.of_same rfl rfl rfl rfl
    · exact hchecked

lemma tick (h : s.Cursored) {now : ℤ} (hn : InRange now) : (s.tick now).Cursored := by
  by_cases hback : now < s.clock
  · have he : (s.tick now).epoch = s.epoch + 1 := if_pos hback
    refine ⟨h.increasing, ?_, ?_, h.checked, hn⟩
    · intro f hf hepoch
      have := h.epochs f hf
      omega
    · intro f hf
      have := h.epochs f hf
      omega
  · have he : (s.tick now).epoch = s.epoch := if_neg hback
    refine ⟨h.increasing, ?_, ?_, h.checked, hn⟩
    · intro f hf hepoch
      obtain ⟨hclock, hcursor⟩ := h.passed f hf (hepoch.trans he)
      exact ⟨hclock.trans (not_lt.mp hback), hcursor⟩
    · intro f hf
      rw [he]
      exact h.epochs f hf

lemma forgetCursors (h : s.Cursored) (path : String) : (s.forgetCursors path).Cursored := by
  have hkept : ∀ path' index c, (s.forgetCursors path).cursors path' index = some c →
      s.cursors path' index = some c := by
    intro path' index c hc
    simp only [Host.forgetCursors, Function.update_apply] at hc
    split at hc
    · exact absurd hc (by simp)
    · exact hc
  refine ⟨h.increasing, ?_, h.epochs, fun path' index c hc => h.checked _ _ _ (hkept _ _ _ hc), h.clock⟩
  intro f hf he
  obtain ⟨hclock, hcursor⟩ := h.passed f hf he
  exact ⟨hclock, fun c hc => hcursor c (hkept _ _ _ hc)⟩

end Cursored

namespace Recorded

lemma initial (worktrees : String → WorktreeScripts) : (initial worktrees).Recorded := by
  refine ⟨.nil, .nil, ?_, fun _ => rfl⟩
  exact fun _ i row hr => absurd hr (by simp [Host.initial])

lemma of_same (h : s.Recorded) (hr : t.runs = s.runs) (hl : t.live = s.live)
    (hs : t.serving = s.serving) (hd : s.serving = false → s.due = [] → t.due = []) : t.Recorded := by
  refine ⟨?_, ?_, ?_, ?_⟩
  · rw [hr]
    exact h.once
  · rw [hr]
    exact h.single
  · rw [hr, hl, hs]
    exact h.live
  · rw [hs]
    exact fun hn => hd hn (h.idle hn)

lemma halted (h : s.Recorded) : s.halted.Recorded :=
  ⟨h.once, h.single, fun hs => absurd hs Bool.false_ne_true, fun _ => rfl⟩

lemma not_running (h : s.Recorded) (hs : s.serving = true) {path : String}
    (hl : s.live path = none) : ∀ row ∈ s.runs, row.running = true → row.path ≠ path := by
  rintro row hr hrun rfl
  obtain ⟨i, hi⟩ := List.getElem?_of_mem hr
  exact absurd (hl.symm.trans (h.live hs i row hi hrun)) (by simp)

lemma record (h : s.Recorded) (hs : s.serving = true) {path hash : String} {trigger : ℕ}
    {scheduled : Option ℤ} (hl : s.live path = none) (hf : s.isFree path trigger scheduled = true) :
    (s.record path trigger scheduled hash).Recorded := by
  have hidle := h.not_running hs hl
  refine ⟨?_, ?_, ?_, fun hn => absurd (hs.symm.trans hn) (by decide)⟩
  · refine List.pairwise_append.mpr ⟨h.once, List.pairwise_singleton _ _, ?_⟩
    intro a hmem b hb hsame
    obtain rfl := List.mem_singleton.mp hb
    obtain ⟨hne, hp, ht, hsch⟩ := hsame
    rw [isFree, Bool.or_eq_true, List.all_eq_true] at hf
    obtain hnone | hfree := hf
    · exact hne (hsch.trans (Option.isNone_iff_eq_none.mp hnone))
    · simpa [hp, ht, hsch] using hfree a hmem
  · refine List.pairwise_append.mpr ⟨h.single, List.pairwise_singleton _ _, ?_⟩
    intro a hmem b hb hrun _
    obtain rfl := List.mem_singleton.mp hb
    exact hidle a hmem hrun
  · intro _ i row hi hrun
    by_cases hlt : i < s.runs.length
    · have hold : s.runs[i]? = some row := by
        rwa [Host.record, List.getElem?_append_left hlt] at hi
      have hne := hidle row (List.mem_of_getElem? hold) hrun
      exact (Function.update_of_ne hne _ _).trans (h.live hs i row hold hrun)
    · rw [Host.record, List.getElem?_append_right (not_lt.mp hlt)] at hi
      obtain ⟨hi0, hrow⟩ := List.getElem?_eq_some_iff.mp hi
      simp only [List.length_singleton, Nat.lt_one_iff] at hi0
      simp only [hi0, List.getElem_cons_zero] at hrow
      have hi' : i = s.runs.length := by omega
      rw [← hrow, hi']
      exact Function.update_self path (some s.runs.length) s.live

lemma start (h : s.Recorded) (hs : s.serving = true) (digest : List UInt8 → String)
    (path : String) (trigger : ℕ) (scheduled : Option ℤ) (stores : Bool) :
    (s.start digest path trigger scheduled stores).Recorded := by
  rw [Host.start]
  split
  · exact h
  · simp only
    split
    · exact h
    · rename_i hl
      split
      · rename_i hc
        exact h.record hs (by simpa using hl) hc.2.2.2
      · exact h

def Stopped (old row : RunRow) : Prop :=
  ∃ running, (running = true → old.running = true) ∧ row = { old with running := running }

def Stops (old runs : List RunRow) : Prop :=
  ∀ (i : ℕ) (row : RunRow), runs[i]? = some row →
    ∃ before, old[i]? = some before ∧ Stopped before row

lemma Stops.pairwise {old runs : List RunRow} (h : Stops old runs) {R : RunRow → RunRow → Prop}
    (hR : ∀ a b a' b', Stopped a a' → Stopped b b' → R a b → R a' b') (hp : old.Pairwise R) :
    runs.Pairwise R := by
  rw [List.pairwise_iff_getElem] at hp ⊢
  intro i j hi hj hij
  obtain ⟨a, ha, hsa⟩ := h i _ (List.getElem?_eq_getElem hi)
  obtain ⟨b, hb, hsb⟩ := h j _ (List.getElem?_eq_getElem hj)
  obtain ⟨hi', rfl⟩ := List.getElem?_eq_some_iff.mp ha
  obtain ⟨hj', rfl⟩ := List.getElem?_eq_some_iff.mp hb
  exact hR _ _ _ _ hsa hsb (hp i j hi' hj' hij)

lemma stops_modify (runs : List RunRow) (n : ℕ) :
    Stops runs (runs.modify n fun row => { row with running := false }) := by
  intro i row hr
  rw [List.getElem?_modify] at hr
  obtain ⟨before, hb, rfl⟩ := Option.map_eq_some_iff.mp hr
  refine ⟨before, hb, ?_⟩
  split
  · exact ⟨false, by simp, rfl⟩
  · exact ⟨before.running, id, rfl⟩

lemma stops_map (runs : List RunRow) :
    Stops runs (runs.map fun row => { row with running := false }) := by
  intro i row hr
  rw [List.getElem?_map] at hr
  obtain ⟨before, hb, rfl⟩ := Option.map_eq_some_iff.mp hr
  exact ⟨before, hb, false, by simp, rfl⟩

lemma stopped (h : s.Recorded) {runs : List RunRow} (hst : Stops s.runs runs)
    (hr : t.runs = runs)
    (hl : t.serving = true → ∀ i row, runs[i]? = some row → row.running = true →
      t.live row.path = some i)
    (hd : t.serving = false → t.due = []) : t.Recorded := by
  refine ⟨?_, ?_, ?_, hd⟩
  · rw [hr]
    refine hst.pairwise ?_ h.once
    rintro a b _ _ ⟨_, -, rfl⟩ ⟨_, -, rfl⟩ hab
    exact hab
  · rw [hr]
    refine hst.pairwise ?_ h.single
    rintro a b _ _ ⟨_, ha, rfl⟩ ⟨_, hb, rfl⟩ hab
    exact fun hra hrb => hab (ha hra) (hb hrb)
  · rw [hr]
    exact hl

lemma serve (h : s.Recorded) : s.serve.Recorded := by
  refine h.stopped (stops_map s.runs) rfl ?_ fun _ => rfl
  intro _ i row hr hrun
  rw [List.getElem?_map] at hr
  obtain ⟨before, -, rfl⟩ := Option.map_eq_some_iff.mp hr
  exact absurd hrun (by simp)

lemma ended (h : s.Recorded) {path : String} {run : ℕ} (hl : s.live path = some run) :
    ({ s with live := Function.update s.live path none }.finishRun run).Recorded := by
  refine h.stopped (stops_modify s.runs run) rfl ?_ h.idle
  intro hs i row hr hrun
  rw [List.getElem?_modify] at hr
  obtain ⟨before, hb, hrow⟩ := Option.map_eq_some_iff.mp hr
  have hne : run ≠ i := by
    rintro rfl
    rw [if_pos rfl] at hrow
    exact absurd hrun (by simp [← hrow])
  rw [if_neg hne] at hrow
  obtain rfl : before = row := hrow
  have hlive := h.live hs i before hb hrun
  have hpath : before.path ≠ path := by
    rintro rfl
    exact hne (Option.some.inj (hl.symm.trans hlive))
  exact (Function.update_of_ne hpath _ _).trans hlive

lemma scheduleTrigger_same {zones : Zone → TimeZone} {turns : ℕ} {path : String} {active : Bool}
    {entry : Trigger × ℕ} (ht : scheduleTrigger zones turns path active s entry = some t) :
    t.runs = s.runs ∧ t.live = s.live ∧ t.serving = s.serving := by
  rw [Host.scheduleTrigger] at ht
  split at ht
  · obtain rfl := Option.some.inj ht
    exact ⟨rfl, rfl, rfl⟩
  · rw [Host.dueTrigger] at ht
    split at ht
    · obtain rfl := Option.some.inj ht
      exact ⟨rfl, rfl, rfl⟩
    · split at ht
      · exact absurd ht (by simp)
      · obtain rfl := Option.some.inj ht
        exact ⟨rfl, rfl, rfl⟩
      · obtain rfl := Option.some.inj ht
        exact ⟨rfl, rfl, rfl⟩

lemma scheduleScript (h : s.Recorded) (hs : s.serving = true) {path : String}
    {zones : Zone → TimeZone} {turns reached : ℕ}
    (ht : s.scheduleScript path zones turns reached = some t) : t.Recorded := by
  rw [Host.scheduleScript] at ht
  split at ht
  · exact Option.some.inj ht ▸ h
  · obtain ⟨checked, hfold, rfl⟩ := Option.map_eq_some_iff.mp ht
    have hchecked : checked.Recorded ∧ checked.serving = true := by
      refine foldlM_invariant (P := fun u : Host => u.Recorded ∧ u.serving = true) ?_ ⟨h, hs⟩ hfold
      intro u entry v hu hv
      obtain ⟨hr, hl, hsv⟩ := scheduleTrigger_same hv
      refine ⟨hu.1.of_same hr hl hsv ?_, hsv.trans hu.2⟩
      exact fun hn => absurd (hu.2.symm.trans hn) (by decide)
    split
    · exact hchecked.1.halted
    · exact hchecked.1

end Recorded

def StartsApproved (digest : List UInt8 → String) (s t : Host) : Prop :=
  ∀ row ∈ t.runs.drop s.runs.length, ∃ script, s.loaded row.path = some script ∧
    row.hash = fingerprintOf digest s.worktrees script.source ∧
    s.approvals row.path = some row.hash

lemma startsApproved_of_length {digest : List UInt8 → String} (h : t.runs.length ≤ s.runs.length) :
    StartsApproved digest s t := by
  intro row hr
  rw [List.drop_eq_nil_of_le h] at hr
  exact absurd hr List.not_mem_nil

lemma start_approved (digest : List UInt8 → String) (s : Host) (path : String) (trigger : ℕ)
    (scheduled : Option ℤ) (stores : Bool) :
    StartsApproved digest s (s.start digest path trigger scheduled stores) := by
  rw [start]
  split
  · exact startsApproved_of_length le_rfl
  · rename_i script hscript
    simp only
    split
    · exact startsApproved_of_length le_rfl
    · split
      · rename_i hc
        intro row hr
        rw [record, List.drop_left, List.mem_singleton] at hr
        obtain rfl := hr
        exact ⟨script, hscript, rfl, hc.1⟩
      · exact startsApproved_of_length le_rfl

lemma Cursored.start (h : s.Cursored) (digest : List UInt8 → String) (path : String) (trigger : ℕ)
    (scheduled : Option ℤ) (stores : Bool) :
    (s.start digest path trigger scheduled stores).Cursored := by
  rw [Host.start]
  split
  · exact h
  · simp only
    split
    · exact h
    · split
      · exact h.of_same rfl rfl rfl rfl
      · exact h

structure Lawful (digest : List UInt8 → String) (a : HostAct) (s t : Host) : Prop where
  recorded : t.Recorded
  cursored : s.Cursored → s.Forward a → t.Cursored
  approved : StartsApproved digest s t

lemma Lawful.of_same {digest : List UInt8 → String} {a : HostAct} (hr : s.Recorded)
    (hruns : t.runs = s.runs) (hlive : t.live = s.live)
    (hserving : t.serving = s.serving) (hdue : t.due = s.due) (hcursors : t.cursors = s.cursors)
    (hclock : t.clock = s.clock) (hepoch : t.epoch = s.epoch) (hfirings : t.firings = s.firings) :
    Lawful digest a s t :=
  ⟨hr.of_same hruns hlive hserving fun _ hd => hdue.trans hd,
    fun hc _ => hc.of_same hcursors hclock hepoch hfirings, startsApproved_of_length (hruns ▸ le_rfl)⟩

lemma scheduleScript_runs {path : String} {zones : Zone → TimeZone} {turns reached : ℕ}
    (ht : s.scheduleScript path zones turns reached = some t) : t.runs = s.runs := by
  rw [scheduleScript] at ht
  split at ht
  · exact Option.some.inj ht ▸ rfl
  · obtain ⟨checked, hfold, rfl⟩ := Option.map_eq_some_iff.mp ht
    have hchecked : checked.runs = s.runs :=
      foldlM_invariant (P := fun u : Host => u.runs = s.runs)
        (fun u entry v hu hv => (Recorded.scheduleTrigger_same hv).1.trans hu) rfl hfold
    split
    · exact hchecked
    · exact hchecked

lemma lawful_launch {digest : List UInt8 → String} {stores : Bool} (hr : s.Recorded)
    (ha : s.Step digest (.launch stores) t) :
    Lawful digest (.launch stores) s t := by
  rw [Step, step] at ha
  split at ha
  · exact absurd ha (by simp)
  · rename_i next due hdue
    obtain rfl := Option.some.inj ha
    have hs : s.serving = true := by
      by_contra hn
      exact absurd (hdue.symm.trans (hr.idle (by simpa using hn))) (List.cons_ne_nil _ _)
    have hr' : ({ s with due := due } : Host).Recorded :=
      hr.of_same rfl rfl rfl fun hn => absurd (hs.symm.trans hn) (by decide)
    have hc' (hc : s.Cursored) : ({ s with due := due } : Host).Cursored :=
      hc.of_same rfl rfl rfl rfl
    exact ⟨hr'.start hs .., fun hc _ => (hc' hc).start ..,
      start_approved digest { s with due := due } _ _ _ _⟩

lemma lawful_ended {digest : List UInt8 → String} {path : String} {stores : Bool} (hr : s.Recorded)
    (ha : s.Step digest (.ended path stores) t) :
    Lawful digest (.ended path stores) s t := by
  rw [Step, step] at ha
  split at ha
  · exact absurd ha (by simp)
  · rename_i run hrun
    cases stores with
    | true =>
      obtain rfl := Option.some.inj ha
      refine ⟨hr.ended hrun, fun hc _ => hc.of_same rfl rfl rfl rfl, startsApproved_of_length ?_⟩
      exact (List.length_modify ..).le
    | false =>
      obtain rfl := Option.some.inj ha
      refine ⟨?_, fun hc _ => hc.of_same rfl rfl rfl rfl, startsApproved_of_length le_rfl⟩
      exact ⟨hr.once, hr.single, fun hs => absurd hs Bool.false_ne_true, fun _ => rfl⟩

lemma lawful_step {digest : List UInt8 → String} {a : HostAct} (hr : s.Recorded)
    (ha : s.Step digest a t) : Lawful digest a s t := by
  cases a with
  | approve path hash =>
    obtain rfl := Option.some.inj ha
    exact .of_same hr rfl rfl rfl rfl rfl rfl rfl rfl
  | clearCursors path =>
    obtain rfl := Option.some.inj ha
    exact ⟨hr.of_same rfl rfl rfl fun _ hd => hd, fun hc _ => hc.forgetCursors path,
      startsApproved_of_length le_rfl⟩
  | setSwitch path switch =>
    obtain rfl := Option.some.inj ha
    exact .of_same hr rfl rfl rfl rfl rfl rfl rfl rfl
  | setPausedAll paused =>
    obtain rfl := Option.some.inj ha
    exact .of_same hr rfl rfl rfl rfl rfl rfl rfl rfl
  | editWorktree repo scripts =>
    obtain rfl := Option.some.inj ha
    exact .of_same hr rfl rfl rfl rfl rfl rfl rfl rfl
  | serve =>
    rw [Step, step] at ha
    split at ha
    · exact absurd ha (by simp)
    · obtain rfl := Option.some.inj ha
      refine ⟨hr.serve, fun hc _ => hc.of_same rfl rfl rfl rfl, startsApproved_of_length ?_⟩
      exact (List.length_map _).le
  | stop =>
    obtain rfl := Option.some.inj ha
    exact ⟨hr.halted, fun hc _ => hc.of_same rfl rfl rfl rfl, startsApproved_of_length le_rfl⟩
  | refresh found =>
    rw [Step, step] at ha
    split at ha
    · obtain rfl := Option.some.inj ha
      exact .of_same hr rfl rfl rfl rfl rfl rfl rfl rfl
    · exact absurd ha (by simp)
  | tick now =>
    rw [Step, step] at ha
    split at ha
    · rename_i hn
      obtain rfl := Option.some.inj ha
      exact ⟨hr.of_same rfl rfl rfl fun _ hd => hd, fun hc _ => hc.tick hn.2.1,
        startsApproved_of_length le_rfl⟩
    · exact absurd ha (by simp)
  | schedule path zones turns reached =>
    rw [Step, step] at ha
    split at ha
    · rename_i hn
      exact ⟨hr.scheduleScript hn.1 ha, fun hc hz => hc.scheduleScript hz ha,
        startsApproved_of_length (by rw [scheduleScript_runs ha])⟩
    · exact absurd ha (by simp)
  | launch stores => exact lawful_launch hr ha
  | runNow path trigger stores =>
    rw [Step, step] at ha
    split at ha
    · rename_i hs
      obtain rfl := Option.some.inj ha
      exact ⟨hr.start hs .., fun hc _ => hc.start .., start_approved digest s _ _ _ _⟩
    · exact absurd ha (by simp)
  | ended path stores => exact lawful_ended hr ha

lemma recorded_run {digest : List UInt8 → String} {worktrees : String → WorktreeScripts}
    {acts : List HostAct} (h : Run (Step digest) (initial worktrees) acts t) : t.Recorded := by
  refine h.invariant (.initial worktrees) ?_
  intro s a u hs ha
  exact (lawful_step hs ha).recorded

theorem scheduler_laws (digest : List UInt8 → String) (worktrees : String → WorktreeScripts)
    {acts : List HostAct} {t : Host}
    (h : Run (fun s a u => s.Forward a ∧ s.Step digest a u) (initial worktrees) acts t) :
    t.runs.Pairwise (fun a b => ¬SameFiring a b) ∧
      t.runs.Pairwise (fun a b => a.running = true → b.running = true → a.path ≠ b.path) ∧
      t.firings.Pairwise (fun f g => f.path = g.path → f.trigger = g.trigger →
        f.epoch = g.epoch → f.scheduled < g.scheduled) ∧
      ∀ a u, t.Step digest a u → StartsApproved digest t u := by
  have hrun : Run (Step digest) (initial worktrees) acts t := h.mono fun _ _ _ ha => ha.2
  have hrecorded := recorded_run hrun
  have hcursored : t.Recorded ∧ t.Cursored := by
    refine h.invariant (P := fun s => s.Recorded ∧ s.Cursored)
      ⟨.initial worktrees, .initial worktrees⟩ ?_
    intro s a u hs ha
    have hl := lawful_step hs.1 ha.2
    exact ⟨hl.recorded, hl.cursored hs.2 ha.1⟩
  refine ⟨hrecorded.once, hrecorded.single, hcursored.2.increasing, ?_⟩
  exact fun a u ha => (lawful_step hrecorded ha).approved

def plainZone : TimeZone where
  date t := t / 86400
  addDays date days := some (date + days)
  weekday date := ((date + 3) % 7).toNat
  atTime date hour minute := some (date * 86400 + hour * 3600 + minute * 60)
  toZoned t := ⟨(t / 60 % 60).toNat, (t / 3600 % 24).toNat, 1, 1, 0⟩
  startOfNextDay t := some ((t / 86400 + 1) * 86400)
  startOfNextHour t := some ((t / 3600 + 1) * 3600)

lemma plainZone_forward (schedule : Schedule) (since : ℤ) :
    schedule.Forward plainZone since := by
  have forward : plainZone.Forward since := by
    refine ⟨?_, ?_⟩
    · intro t u _ h
      rw [← Option.some.inj h]
      omega
    · intro t u _ h
      rw [← Option.some.inj h]
      omega
  cases schedule with
  | cron expression => exact forward
  | atTime hour minute days => trivial
  | every seconds => trivial
  | manual => trivial

def everyMinute : Source := ⟨"c0ffee", [⟨.every 60, .host, []⟩], none⟩

def minuteActs : List HostAct :=
  [.approve "a.luau" "c0ffee", .serve, .refresh fun _ => some everyMinute,
    .tick 1000, .schedule "a.luau" (fun _ => plainZone) 0 1,
    .tick 1100, .schedule "a.luau" (fun _ => plainZone) 0 1, .launch true,
    .ended "a.luau" true,
    .tick 1130, .schedule "a.luau" (fun _ => plainZone) 0 1, .launch true]

theorem scheduler_laws_everyMinute :
    ∃ t, Run (Step fun _ => "") (initial fun _ => ⟨none, none⟩) minuteActs t ∧
      t.runs.Pairwise (fun a b => ¬SameFiring a b) ∧
      t.runs.map RunRow.scheduled = [some 1060, some 1120] := by
  have hrun : ∃ t, Run.exec (fun _ _ => true) (step fun _ => "") (initial fun _ => ⟨none, none⟩)
      minuteActs = some t ∧ t.runs.map RunRow.scheduled = [some 1060, some 1120] := ⟨_, rfl, rfl⟩
  obtain ⟨t, ht, hruns⟩ := hrun
  have h : Run (Step fun _ => "") (initial fun _ => ⟨none, none⟩) minuteActs t :=
    (Run.of_exec ht).mono fun _ _ _ ha => ha.2
  have hforward : ∀ a ∈ minuteActs, ∀ s : Host, s.Forward a := by
    simp [minuteActs, Forward, plainZone_forward]
  have hmet : Run (fun s a u => s.Forward a ∧ s.Step (fun _ => "") a u)
      (initial fun _ => ⟨none, none⟩) minuteActs t :=
    (h.restrict hforward).mono fun s _ _ ha => ⟨ha.1 s, ha.2⟩
  exact ⟨t, h, (scheduler_laws _ _ hmet).1, hruns⟩

def newfoundland : ZoneRules where
  first := -9000
  jumps := [⟨1289097060, -12600⟩]
  apart := by simp [Apart]
  bounded := by simp

def seventhOfNovember : Cron where
  minutes := 1
  hours := 1
  daysOfMonth := 128
  months := 2048
  daysOfWeek := 127
  anyDayOfMonth := false
  anyDayOfWeek := true

lemma midnight_next {after : ℤ} (low : 1289096880 ≤ after) (high : after ≤ 1289097120)
    (anchor : Option ℤ) : (Schedule.cron seventhOfNovember).nextAfter 2 newfoundland.timeZone after
      anchor = some (some 1289097000) := by
  have near (t : ℤ) (ht : after ≤ t) (ht' : t ≤ after + 8808 * 3600) : InRange t := by
    simp only [InRange, timestampMin, timestampMax]
    omega
  have here : seventhOfNovember.advance newfoundland.timeZone 1289097000 = some none := by decide
  have back (t : ℤ) (ht : t ∈ ([1289096940, 1289097060, 1289097120, 1289097180] : List ℤ)) :
      seventhOfNovember.advance newfoundland.timeZone t = some (some 1289097000) := by
    have all : ∀ t ∈ ([1289096940, 1289097060, 1289097120, 1289097180] : List ℤ),
        seventhOfNovember.advance newfoundland.timeZone t = some (some 1289097000) := by decide
    exact all t ht
  change nextCron 2 seventhOfNovember newfoundland.timeZone after = _
  rw [nextCron_first (near _ (by omega) le_rfl) (near _ (by omega) (by omega))
    (near _ (by omega) (by omega))]
  by_cases first : after + 60 - (after + 60) % 60 = 1289097000
  · rw [first, Cron.walk, if_pos (by omega), here]
  · rw [Cron.walk, if_pos (by omega), back _ (by simp; omega)]
    simp only
    rw [Cron.walk, if_pos (by omega), here]

lemma midnight_missed {now : ℤ} (later : 1289097000 ≤ now) (n : ℕ) {w : Walk} {count : ℕ}
    (low : 1289096880 ≤ w.after) (high : w.after ≤ 1289097120) (hn : w.walked + n + 1 = count) :
    walkMissed 2 (.cron seventhOfNovember) newfoundland.timeZone now (n + 1) w =
      some ⟨some 1289097000, 1289097000, some 1289097000, count⟩ := by
  induction n generalizing w with
  | zero =>
    rw [walkMissed, midnight_next low high]
    simp only
    rw [if_neg (by omega), ← hn]
    rfl
  | succ n ih =>
    rw [walkMissed, midnight_next low high]
    simp only
    rw [if_neg (by omega)]
    refine ih (by simp [Walk.found]) (by simp [Walk.found]) ?_
    simp only [Walk.found]
    omega

lemma midnight_passes {now : ℤ} (later : 1289097000 ≤ now) (soon : now ≤ 1289097060) (n : ℕ) {w : Walk}
    (low : 1289096880 ≤ w.after) (high : w.after ≤ 1289097120) :
    ∃ final, walkPasses 2 (.cron seventhOfNovember) newfoundland.timeZone now (n + 1) w = some final ∧
      final.latest = some 1289097000 := by
  have passed (w : Walk) (low : 1289096880 ≤ w.after) (high : w.after ≤ 1289097120) :
      walkMissed 2 (.cron seventhOfNovember) newfoundland.timeZone now missedWalk
        { w with walked := 0 } =
          some ⟨some 1289097000, 1289097000, some 1289097000, missedWalk⟩ := by
    rw [show missedWalk = 9999 + 1 from rfl]
    exact midnight_missed later 9999 low high (by simp)
  induction n generalizing w with
  | zero => exact ⟨_, walkPasses_again (passed w low high) (lt_irrefl _), rfl⟩
  | succ n ih =>
    have next : 1289097000 ≤ restart now w.after 1289097000 ∧
        restart now w.after 1289097000 ≤ 1289097120 := by
      have sign : Int.sign 2 = 1 := rfl
      have half : (1289097000 - w.after).tdiv 2 = (1289097000 - w.after) / 2 + _ := Int.tdiv_eq_ediv
      have inside : InRange (1289097000 + max (now - 1289097000 - (1289097000 - w.after).tdiv 2) 0) := by
        simp only [InRange, timestampMin, timestampMax]
        split_ifs at half <;> omega
      simp only [restart, checkedAdd_inRange inside, Option.getD_some]
      split_ifs at half <;> omega
    obtain ⟨final, ran, latest⟩ := @ih ⟨some 1289097000, restart now w.after 1289097000,
      some 1289097000, missedWalk⟩ (by simp only; omega) next.2
    exact ⟨final, (walkPasses_again (passed w low high) (lt_irrefl _)).trans ran, latest⟩

lemma midnight_due {checked now : ℤ} {anchor : Option ℤ} (low : 1289096880 ≤ checked)
    (high : checked ≤ 1289097120) (later : 1289097000 ≤ now) (soon : now ≤ 1289097060) :
    ∃ late, Automation.due 2 (.cron seventhOfNovember) newfoundland.timeZone checked anchor now =
      some (some ⟨1289097000, late⟩) := by
  obtain ⟨final, ran, latest⟩ := @midnight_passes now later soon 31 ⟨none, checked, anchor, 0⟩ low high
  refine ⟨decide (lateAfter < now - 1289097000), ?_⟩
  have passes : walkPasses 2 (.cron seventhOfNovember) newfoundland.timeZone now missedPasses
      ⟨none, checked, anchor, 0⟩ = some final := ran
  rw [Automation.due, passes, Option.map_some, latest]
  rfl

def atMidnight : Source := ⟨"c0ffee", [⟨.cron seventhOfNovember, .host, []⟩], none⟩

def midnightZones : Zone → TimeZone := fun _ => newfoundland.timeZone

def beforeActs : List HostAct :=
  [.approve "a.luau" "c0ffee", .serve, .refresh fun _ => some atMidnight,
    .tick 1289096940, .schedule "a.luau" midnightZones 2 1, .tick 1289097000]

def schedule : HostAct := .schedule "a.luau" midnightZones 2 1

def beforeMidnight : Host :=
  (Run.exec (fun _ _ => true) (step fun _ => "") (initial fun _ => ⟨none, none⟩) beforeActs).getD
    (initial fun _ => ⟨none, none⟩)

def firedAt (s : Host) (late : Bool) : Host :=
  (s.setCursor "a.luau" 0 s.clock (some 1289097000)).fire "a.luau" 0 ⟨1289097000, late⟩

def afterMidnight (late : Bool) : Host :=
  (Run.exec (fun _ _ => true) (step fun _ => "") (beforeMidnight.firedAt late)
    [.launch true, .tick 1289097060]).getD (initial fun _ => ⟨none, none⟩)

lemma schedule_fires {s : Host} {checked : ℤ} {fired : Option ℤ} (serving : s.serving = true)
    (idle : s.due = []) (loaded : s.loaded "a.luau" = some ⟨atMidnight, "c0ffee"⟩)
    (active : s.isActive "a.luau" ⟨atMidnight, "c0ffee"⟩ = true)
    (cursor : s.cursors "a.luau" 0 = some (checked, fired))
    (low : 1289096880 ≤ checked) (high : checked ≤ 1289097120) (later : 1289097000 ≤ s.clock)
    (soon : s.clock ≤ 1289097060) : ∃ late, s.Step (fun _ => "") schedule (s.firedAt late) := by
  have inside (t : ℤ) (ht : 1289096880 ≤ t) (ht' : t ≤ 1289097120) : atSecond t = t :=
    atSecond_eq (by
      simp only [InRange, timestampMin, timestampMax]
      omega)
  obtain ⟨late, found⟩ := @midnight_due checked s.clock (fired.map atSecond) low high later soon
  refine ⟨late, ?_⟩
  have fires : s.dueTrigger midnightZones 2 "a.luau" true ⟨.cron seventhOfNovember, .host, []⟩ 0 =
      some (s.firedAt late) := by
    rw [dueTrigger, cursor]
    simp only [Option.filter_some, if_true, inside checked low high,
      inside s.clock (by omega) (by omega), midnightZones, found]
    rfl
  rw [Step, schedule, step, if_pos ⟨serving, idle⟩, scheduleScript, loaded]
  simp only [active]
  simp only [atMidnight, List.zipIdx_cons, List.zipIdx_nil, List.take_succ_cons, List.take_zero,
    List.foldlM_cons, List.foldlM_nil, scheduleTrigger, fires]
  rfl

theorem midnight_fires_twice :
    ∃ acts t, Run (Step fun _ => "") (initial fun _ => ⟨none, none⟩) acts t ∧
      ¬t.firings.Pairwise (fun f g => f.path = g.path → f.trigger = g.trigger →
        f.epoch = g.epoch → f.scheduled < g.scheduled) := by
  have started : Run.exec (fun _ _ => true) (step fun _ => "") (initial fun _ => ⟨none, none⟩)
      beforeActs = some beforeMidnight := rfl
  have before : Run (Step fun _ => "") (initial fun _ => ⟨none, none⟩) beforeActs beforeMidnight :=
    (Run.of_exec started).mono fun _ _ _ ha => ha.2
  obtain ⟨late, first⟩ : ∃ late, beforeMidnight.Step (fun _ => "") schedule
      (beforeMidnight.firedAt late) :=
    schedule_fires rfl rfl rfl rfl rfl (by decide) (by decide) (by decide) (by decide)
  have waited : Run.exec (fun _ _ => true) (step fun _ => "") (beforeMidnight.firedAt late)
      [.launch true, .tick 1289097060] = some (afterMidnight late) := rfl
  have between : Run (Step fun _ => "") (beforeMidnight.firedAt late)
      [.launch true, .tick 1289097060] (afterMidnight late) :=
    (Run.of_exec waited).mono fun _ _ _ ha => ha.2
  have clock : (afterMidnight late).clock = 1289097060 := rfl
  obtain ⟨late', second⟩ : ∃ late', (afterMidnight late).Step (fun _ => "") schedule
      ((afterMidnight late).firedAt late') :=
    schedule_fires rfl rfl rfl rfl rfl (by decide) (by decide) (by omega) (by omega)
  refine ⟨_, _, ((before.snoc first).append between).snoc second, ?_⟩
  have twice : ((afterMidnight late).firedAt late').firings =
      [⟨"a.luau", 0, 1289097000, 0⟩, ⟨"a.luau", 0, 1289097000, 0⟩] := rfl
  rw [twice]
  simp

end Host

end Sheprd.Automate
