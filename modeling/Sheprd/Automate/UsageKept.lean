import Sheprd.Automate.Usage
import Sheprd.Lib.Fold

namespace Sheprd.Automate

open Sheprd.Lib

structure Account where
  key : ℕ × ℕ
  path : String
  latest : Option Tokens := none
  opening : Kind → ℕ := fun _ => 0
  done : Bool := false

namespace Account

def started (key : ℕ × ℕ) (path : String) : Account := { key, path }

def now (a : Account) (kind : Kind) : ℕ := a.latest.elim 0 fun tokens => tokens.count kind

def turn (a : Account) : Account := { a with opening := a.now }

def sampled (a : Account) (reading : Option Tokens) (doneAt : Option ℤ) : Account :=
  { a with latest := reading <|> a.latest, done := doneAt.isSome }

end Account

abbrev Ledger := List Account

namespace Ledger

def event (l : Ledger) : UsageEvent → Ledger
  | .add key path => l ++ [.started key path]
  | .sample key reading doneAt =>
      l.map fun a => if a.key = key ∧ a.done = false then a.sampled reading doneAt else a

def live (l : Ledger) (today : Day) : Ledger := today.events.foldl event (l.map Account.turn)

def through (l : Ledger) (days : List Day) : Ledger := days.foldl live l

def ofPath (path : Option String) (l : Ledger) : Ledger :=
  l.filter fun a => path.all fun path => decide (a.path = path)

def total (path : Option String) (kind : Kind) (l : Ledger) : ℕ :=
  ((l.ofPath path).map fun a => a.now kind).sum

def opened (path : Option String) (kind : Kind) (l : Ledger) : ℕ :=
  ((l.ofPath path).map fun a => a.opening kind).sum

end Ledger

def Grows (l : Ledger) : UsageEvent → Prop
  | .add key _ => ∀ a ∈ l, a.key ≠ key
  | .sample key reading _ => ∀ a ∈ l, a.key = key → a.done = false → ∀ tokens ∈ reading,
      ∀ kind, a.now kind ≤ tokens.count kind

def Fits (l : Ledger) : UsageEvent → Prop
  | .add _ _ => True
  | .sample key reading _ => ∀ a ∈ l, a.key = key → a.done = false → ∀ tokens ∈ reading,
      ∀ kind, tokens.count kind < 2 ^ 63

def Along (condition : Ledger → UsageEvent → Prop) : Ledger → List UsageEvent → Prop
  | _, [] => True
  | l, e :: events => condition l e ∧ Along condition (l.event e) events

def AlongDays (condition : Ledger → UsageEvent → Prop) : Ledger → List Day → Prop
  | _, [] => True
  | l, today :: days =>
      Along condition (l.map Account.turn) today.events ∧ AlongDays condition (l.live today) days

def Summable (path : Option String) : Ledger → List Day → Prop
  | _, [] => True
  | l, today :: days =>
      (∀ kind, (l.live today).total path kind < l.total path kind + 2 ^ 63) ∧
        Summable path (l.live today) days

def Conserved (path : Option String) (kind : Kind) (days : List Day) : Prop :=
  ∃ counts : List (Option Tokens), UsageStore.counts path {} days = counts.map Except.ok ∧
    (counts.map fun count => count.elim 0 fun tokens => tokens.count kind).sum =
      Ledger.total path kind (Ledger.through [] days)

section Sum

lemma foldlM_sum (values : List ℤ) (start : ℤ) (hstart : 0 ≤ start) (h : ∀ value ∈ values, 0 ≤ value)
    (hfits : start + values.sum < 2 ^ 63) :
    values.foldlM (fun sum value =>
      if -2 ^ 63 ≤ sum + value ∧ sum + value < 2 ^ 63 then Except.ok (sum + value)
      else Except.error StoreError.integerOverflow) start = .ok (start + values.sum) := by
  induction values generalizing start with
  | nil => simp [pure, Except.pure]
  | cons value values ih =>
    obtain ⟨hvalue, hrest⟩ := List.forall_mem_cons.mp h
    have hsum : 0 ≤ values.sum := List.sum_nonneg hrest
    rw [List.sum_cons] at hfits ⊢
    rw [List.foldlM_cons, if_pos ⟨by omega, by omega⟩]
    change values.foldlM _ (start + value) = _
    rw [ih (start + value) (by omega) hrest (by omega), add_assoc]

lemma sumColumn_eq {values : List ℤ} (h : ∀ value ∈ values, 0 ≤ value)
    (hfits : values.sum < 2 ^ 63) : sumColumn values = .ok values.sum := by
  have hsum := foldlM_sum values 0 le_rfl h (by rwa [zero_add])
  rwa [zero_add] at hsum

end Sum

structure Account.Booked (days : List DayRow) (day : ℤ) (a : Account) (row : UsageRow) : Prop where
  key : row.key = a.key
  path : row.path = a.path
  done : row.doneAt.isSome = a.done
  fits : ∀ tokens ∈ a.latest, ∀ kind, tokens.count kind < 2 ^ 63
  columns : ∀ kind, row.columns kind = a.latest.map fun tokens => (tokens.count kind : ℤ)
  grown : ∀ kind, a.opening kind ≤ a.now kind
  kept : ∀ kept ∈ days, kept.key = a.key → kept.day = day → ∀ kind, kept.used kind = a.opening kind
  unsampled : (∀ kept ∈ days, kept.key = a.key → kept.day ≠ day) → ∀ kind, a.now kind = a.opening kind

structure Books (day : ℤ) (l : Ledger) (s : UsageStore) : Prop where
  rows : List.Forall₂ (Account.Booked s.days day) l s.agents
  distinct : (l.map Account.key).Nodup
  once : (s.days.map fun kept => (kept.key, kept.day)).Nodup
  past : ∀ kept ∈ s.days, kept.day ≤ day ∧ kept.key ∈ l.map Account.key

namespace Account.Booked

variable {days : List DayRow} {day : ℤ} {a : Account} {row : UsageRow}

lemma column (h : a.Booked days day row) (kind : Kind) : (row.columns kind).getD 0 = a.now kind := by
  rw [h.columns]
  cases hl : a.latest with
  | none => simp [Account.now, hl]
  | some tokens => simp [Account.now, hl]

lemma tokens (h : a.Booked days day row) : row.tokens = a.latest := by
  cases hl : a.latest with
  | none =>
    have hinput := h.columns .input
    rw [hl] at hinput
    rw [UsageRow.tokens, hinput]
    rfl
  | some tokens =>
    have hcolumn : ∀ kind, ofColumn (row.columns kind) = some (.ofNat (tokens.count kind)) := by
      intro kind
      rw [h.columns, hl, Option.map_some, ofColumn, Option.bind_some, if_pos (by omega)]
      rfl
    rw [UsageRow.tokens, hcolumn, hcolumn, hcolumn, hcolumn]
    simp [Tokens.count]

lemma other (h : a.Booked days day row) {kept : DayRow} (hne : kept.key ≠ a.key) :
    a.Booked (days ++ [kept]) day row where
  key := h.key
  path := h.path
  done := h.done
  fits := h.fits
  columns := h.columns
  grown := h.grown
  kept other hm hkey hday := by
    rcases List.mem_append.mp hm with hm | hm
    · exact h.kept other hm hkey hday
    · rw [List.mem_singleton.mp hm] at hkey
      exact absurd hkey hne
  unsampled hnone := h.unsampled fun other hm => hnone other (List.mem_append_left _ hm)

lemma first (h : a.Booked days day row) {kept : DayRow} (hkey : kept.key = a.key)
    (hused : ∀ kind, kept.used kind = (row.columns kind).getD 0)
    (hnone : ∀ kept ∈ days, kept.key = a.key → kept.day ≠ day) (hday : kept.day = day) :
    a.Booked (days ++ [kept]) day row where
  key := h.key
  path := h.path
  done := h.done
  fits := h.fits
  columns := h.columns
  grown := h.grown
  kept other hm hkey' hday' := by
    rcases List.mem_append.mp hm with hm | hm
    · exact absurd hday' (hnone other hm hkey')
    · intro kind
      rw [List.mem_singleton.mp hm, hused, h.column, h.unsampled hnone]
  unsampled hall := by
    exact absurd hday (hall kept (List.mem_append_right _ (List.mem_singleton_self _)) hkey)

lemma again (h : a.Booked days day row) (hsampled : ∃ kept ∈ days, kept.key = a.key ∧ kept.day = day)
    {reading : Option Tokens} (doneAt : Option ℤ)
    (hgrows : ∀ tokens ∈ reading, ∀ kind, a.now kind ≤ tokens.count kind)
    (hfits : ∀ tokens ∈ reading, ∀ kind, tokens.count kind < 2 ^ 63) :
    (a.sampled reading doneAt).Booked days day { row with
      columns := fun kind => ((reading <|> a.latest).map fun tokens => tokens.count kind).bind toColumn
      doneAt := doneAt } := by
  have hlatest : (a.sampled reading doneAt).latest = (reading <|> a.latest) := rfl
  have hboth : ∀ tokens ∈ (reading <|> a.latest), ∀ kind, tokens.count kind < 2 ^ 63 := by
    intro tokens hm
    cases reading with
    | none => exact h.fits tokens hm
    | some read => exact hfits tokens hm
  have hnow : ∀ kind, a.now kind ≤ (a.sampled reading doneAt).now kind := by
    intro kind
    cases reading with
    | none => exact le_rfl
    | some read => exact hgrows read rfl kind
  refine ⟨h.key, h.path, rfl, hboth, fun kind => ?_, fun kind => (h.grown kind).trans (hnow kind),
    h.kept, fun hnone => ?_⟩
  · rw [hlatest]
    cases hl : (reading <|> a.latest) with
    | none => rfl
    | some tokens =>
      change (if tokens.count kind < 2 ^ 63 then some (tokens.count kind : ℤ) else none) = _
      rw [if_pos (hboth tokens hl kind)]
      rfl
  · obtain ⟨kept, hm, hkey, hday⟩ := hsampled
    exact absurd hday (hnone kept hm hkey)

end Account.Booked

namespace UsageStore

variable {s : UsageStore} {key : ℕ × ℕ}

lemma keepDay_cases (day : ℤ) {row : UsageRow}
    (hrow : s.agents.find? (fun row => decide (row.key = key)) = some row) :
    ((∃ kept ∈ s.days, kept.key = key ∧ kept.day = day) ∧ s.keepDay key day = s) ∨
      (∀ kept ∈ s.days, kept.key = key → kept.day ≠ day) ∧
        s.keepDay key day = { s with
          days := s.days ++ [⟨key.1, key.2, day, fun kind => (row.columns kind).getD 0⟩] } := by
  rw [keepDay, hrow]
  dsimp only
  split
  · rename_i hany
    obtain ⟨kept, hm, hk⟩ := List.any_eq_true.mp hany
    exact Or.inl ⟨⟨kept, hm, of_decide_eq_true hk⟩, rfl⟩
  · rename_i hnone
    refine Or.inr ⟨fun kept hm hkey hday => hnone ?_, rfl⟩
    exact List.any_eq_true.mpr ⟨kept, hm, decide_eq_true ⟨hkey, hday⟩⟩

end UsageStore

namespace Books

variable {day : ℤ} {l : Ledger} {s : UsageStore} (h : Books day l s)

include h

lemma same {a b : Account} (ha : a ∈ l) (hb : b ∈ l) (hkey : a.key = b.key) : a = b :=
  List.inj_on_of_nodup_map h.distinct ha hb hkey

lemma add {key : ℕ × ℕ} {path : String} (hnew : ∀ a ∈ l, a.key ≠ key) :
    Books day (l ++ [.started key path]) (s.addAgent key path) := by
  have hothers : s.agents.filter (fun row => decide (row.key ≠ key)) = s.agents := by
    refine List.filter_eq_self.mpr fun row hm => decide_eq_true ?_
    obtain ⟨a, ha, hbooked⟩ := exists_of_forall₂ h.rows hm
    rw [hbooked.key]
    exact hnew a ha
  have hunkept : ∀ kept ∈ s.days, kept.key ≠ key := by
    intro kept hm hkey
    obtain ⟨a, ha, hak⟩ := List.mem_map.mp (h.past kept hm).2
    exact hnew a ha (hak.trans hkey)
  refine ⟨?_, ?_, h.once, fun kept hm => ⟨(h.past kept hm).1, ?_⟩⟩
  · rw [UsageStore.addAgent, hothers]
    refine List.rel_append h.rows (.cons ⟨rfl, rfl, rfl, nofun, fun _ => rfl, fun _ => le_rfl, ?_, ?_⟩ .nil)
    · exact fun kept hm hkey => absurd hkey (hunkept kept hm)
    · exact fun _ _ => rfl
  · rw [List.map_append]
    refine List.nodup_append.mpr ⟨h.distinct, List.nodup_singleton _, ?_⟩
    rintro _ hm _ hm' rfl
    obtain ⟨a, ha, hkey⟩ := List.mem_map.mp hm
    exact hnew a ha (hkey.trans (List.mem_singleton.mp hm'))
  · rw [List.map_append]
    exact List.mem_append_left _ (h.past kept hm).2

lemma keepDay {key : ℕ × ℕ} {row : UsageRow}
    (hrow : s.agents.find? (fun row => decide (row.key = key)) = some row) :
    Books day l (s.keepDay key day) ∧ (s.keepDay key day).agents = s.agents ∧
      ∃ kept ∈ (s.keepDay key day).days, kept.key = key ∧ kept.day = day := by
  have hkey : row.key = key := by simpa using List.find?_some hrow
  obtain ⟨known, hknown, hbooked⟩ := exists_of_forall₂ h.rows (List.mem_of_find?_eq_some hrow)
  rcases UsageStore.keepDay_cases day hrow with ⟨hkept, heq⟩ | ⟨hnone, heq⟩
  · rw [heq]
    exact ⟨h, rfl, hkept⟩
  · rw [heq]
    refine ⟨⟨?_, h.distinct, ?_, ?_⟩, rfl, _, List.mem_append_right _ (List.mem_singleton_self _), rfl, rfl⟩
    · refine (forall₂_mem h.rows).imp ?_
      rintro a r ⟨ha, -, hr⟩
      by_cases hak : a.key = key
      · have hsame : a = known := h.same ha hknown (hak.trans (hkey.symm.trans hbooked.key))
        have hcolumns : ∀ kind, (row.columns kind).getD 0 = (r.columns kind).getD 0 := by
          intro kind
          rw [hbooked.column, hr.column, hsame]
        exact hr.first hak.symm hcolumns (fun kept hm hk => hnone kept hm (hk.trans hak)) rfl
      · exact hr.other (Ne.symm hak)
    · rw [List.map_append]
      refine List.nodup_append.mpr ⟨h.once, List.nodup_singleton _, ?_⟩
      rintro _ hm _ hm' rfl
      obtain ⟨kept, hk, heq⟩ := List.mem_map.mp hm
      obtain ⟨hkk, hkd⟩ := Prod.mk.inj (heq.trans (List.mem_singleton.mp hm'))
      exact hnone kept hk hkk hkd
    · intro kept hm
      rcases List.mem_append.mp hm with hm | hm
      · exact h.past kept hm
      · rw [List.mem_singleton.mp hm]
        refine ⟨le_rfl, List.mem_map.mpr ⟨known, hknown, ?_⟩⟩
        exact hbooked.key.symm.trans hkey

lemma sampleAgent {row : UsageRow} {reading : Option Tokens} {doneAt : Option ℤ}
    (hrow : row ∈ s.agents) (hlive : row.doneAt = none)
    (hgrows : Grows l (.sample row.key reading doneAt))
    (hfits : Fits l (.sample row.key reading doneAt)) :
    Books day (l.event (.sample row.key reading doneAt))
      (s.sampleAgent ⟨row.key, reading <|> row.tokens, doneAt⟩ day) := by
  obtain ⟨known, hknown, hbooked⟩ := exists_of_forall₂ h.rows hrow
  have hfind : ∃ first, s.agents.find? (fun other => decide (other.key = row.key)) = some first :=
    Option.isSome_iff_exists.mp (List.find?_isSome.mpr ⟨row, hrow, decide_eq_true rfl⟩)
  obtain ⟨first, hfirst⟩ := hfind
  obtain ⟨hkept, hagents, hsampled⟩ := h.keepDay hfirst
  have hkeys : (l.event (.sample row.key reading doneAt)).map Account.key = l.map Account.key := by
    rw [Ledger.event, List.map_map]
    refine List.map_congr_left fun a _ => ?_
    rw [Function.comp_apply]
    split <;> rfl
  refine ⟨?_, ?_, hkept.once, ?_⟩
  · change List.Forall₂ _ (l.map _) (List.map _ (s.keepDay row.key day).agents)
    rw [List.forall₂_map_left_iff, List.forall₂_map_right_iff]
    refine (forall₂_mem hkept.rows).imp ?_
    rintro a r ⟨ha, -, hr⟩
    by_cases hak : a.key = row.key
    · have hsame : a = known := h.same ha hknown (hak.trans hbooked.key)
      have hdone : a.done = false := by
        rw [hsame, ← hbooked.done, hlive]
        rfl
      have htokens : row.tokens = a.latest := by rw [hbooked.tokens, hsame]
      rw [if_pos ⟨hak, hdone⟩, if_pos (hr.key.trans hak), htokens]
      exact hr.again (hak ▸ hsampled) doneAt (hgrows a ha hak hdone) (hfits a ha hak hdone)
    · rw [if_neg fun hk => hak hk.1, if_neg fun hk => hak (hr.key.symm.trans hk)]
      exact hr
  · rw [hkeys]
    exact h.distinct
  · rw [hkeys]
    exact hkept.past

lemma event {e : UsageEvent} (hgrows : Grows l e) (hfits : Fits l e) :
    Books day (l.event e) (s.event day e) := by
  cases e with
  | add key path => exact h.add hgrows
  | sample key reading doneAt =>
    change Books day _ (s.sample key reading doneAt day)
    rw [UsageStore.sample]
    cases hrow : s.agents.find? fun row => decide (row.key = key ∧ row.doneAt = none) with
    | some row =>
      obtain ⟨hkey, hlive⟩ : row.key = key ∧ row.doneAt = none := by
        simpa using List.find?_some hrow
      subst hkey
      exact h.sampleAgent (List.mem_of_find?_eq_some hrow) hlive hgrows hfits
    | none =>
      have hsame : l.event (.sample key reading doneAt) = l := by
        refine (List.map_congr_left fun a ha => ?_).trans (List.map_id l)
        refine if_neg fun ⟨hkey, hdone⟩ => ?_
        obtain ⟨row, hm, hbooked⟩ := exists_of_forall₂ h.rows.flip ha
        have hlive : row.doneAt = none := by
          rw [← Option.isNone_iff_eq_none, ← Option.not_isSome, hbooked.done, hdone]
          rfl
        have hnone := List.find?_eq_none.mp hrow row hm
        exact hnone (decide_eq_true ⟨hbooked.key.trans hkey, hlive⟩)
      rw [hsame]
      exact h

lemma turn {next : ℤ} (hnext : day < next) : Books next (l.map Account.turn) s where
  rows := by
    rw [List.forall₂_map_left_iff]
    refine h.rows.imp fun a row hr => ?_
    refine ⟨hr.key, hr.path, hr.done, hr.fits, hr.columns, fun _ => le_rfl, ?_, fun _ _ => rfl⟩
    intro kept hm _ hday
    exact absurd ((h.past kept hm).1.trans_lt hnext) (by rw [hday]; exact lt_irrefl next)
  distinct := by
    rw [List.map_map]
    exact h.distinct
  once := h.once
  past kept hm := by
    rw [List.map_map]
    exact ⟨(h.past kept hm).1.trans hnext.le, (h.past kept hm).2⟩

lemma events {es : List UsageEvent} (hgrows : Along Grows l es) (hfits : Along Fits l es) :
    Books day (es.foldl Ledger.event l) (es.foldl (UsageStore.event day) s) := by
  induction es generalizing l s with
  | nil => exact h
  | cons e es ih => exact ih (h.event hgrows.1 hfits.1) hgrows.2 hfits.2

end Books

section Joined

variable {days : List DayRow} {day : ℤ}

lemma joined_mem {l : Ledger} {agents : List UsageRow}
    (hrows : List.Forall₂ (Account.Booked days day) l agents) {path : Option String}
    {entry : UsageRow × DayRow} (hm : entry ∈ UsageStore.joined ⟨agents, days⟩ path day) :
    ∃ a : Account, a.Booked days day entry.1 ∧
      ∀ kind, UsageStore.usedSince kind entry = (a.now kind : ℤ) - a.opening kind := by
  obtain ⟨row, hrow, hentry⟩ := List.mem_flatMap.mp hm
  obtain ⟨kept, hkept, rfl⟩ := List.mem_map.mp hentry
  obtain ⟨hkept, hk⟩ := List.mem_filter.mp hkept
  obtain ⟨hkey, hday⟩ := of_decide_eq_true hk
  obtain ⟨a, -, hr⟩ := exists_of_forall₂ hrows (List.mem_of_mem_filter hrow)
  refine ⟨a, hr, fun kind => ?_⟩
  rw [UsageStore.usedSince, hr.column, hr.kept kept hkept (hkey.trans hr.key) hday]

variable (honce : (days.map fun kept => (kept.key, kept.day)).Nodup)

include honce

lemma joined_row {a : Account} {row : UsageRow} (hr : a.Booked days day row) (kind : Kind) :
    (((days.filter fun kept => decide (kept.key = row.key ∧ kept.day = day)).map
      (Prod.mk row)).map (UsageStore.usedSince kind)).sum = (a.now kind : ℤ) - a.opening kind := by
  have hkept := honce.sublist ((List.filter_sublist (p := fun kept =>
    decide (kept.key = row.key ∧ kept.day = day)) (l := days)).map fun kept => (kept.key, kept.day))
  have hall : ∀ kept ∈ days.filter fun kept => decide (kept.key = row.key ∧ kept.day = day),
      kept ∈ days ∧ kept.key = row.key ∧ kept.day = day := by
    intro kept hm
    exact ⟨List.mem_of_mem_filter hm, of_decide_eq_true (List.mem_filter.mp hm).2⟩
  cases heq : days.filter fun kept => decide (kept.key = row.key ∧ kept.day = day) with
  | nil =>
    have hnone : ∀ kept ∈ days, kept.key = a.key → kept.day ≠ day := by
      intro kept hm hkey hday
      have hout := List.filter_eq_nil_iff.mp heq kept hm
      exact hout (decide_eq_true ⟨hkey.trans hr.key.symm, hday⟩)
    rw [hr.unsampled hnone, sub_self]
    rfl
  | cons entry rest =>
    rw [heq] at hkept hall
    obtain ⟨hm, hkey, hday⟩ := hall entry List.mem_cons_self
    cases rest with
    | nil =>
      rw [List.map_singleton, List.map_singleton, List.sum_singleton, UsageStore.usedSince, hr.column,
        hr.kept entry hm (hkey.trans hr.key) hday]
    | cons other rest =>
      obtain ⟨-, hkey', hday'⟩ := hall other (List.mem_cons_of_mem _ List.mem_cons_self)
      rw [List.map_cons, List.map_cons, List.nodup_cons] at hkept
      refine absurd (List.mem_cons.mpr (Or.inl ?_)) hkept.1
      rw [hkey, hday, hkey', hday']

lemma joined_sum {l : Ledger} {agents : List UsageRow}
    (hrows : List.Forall₂ (Account.Booked days day) l agents) (path : Option String) (kind : Kind) :
    ((UsageStore.joined ⟨agents, days⟩ path day).map (UsageStore.usedSince kind)).sum =
      ((l.ofPath path).map fun a => (a.now kind : ℤ) - a.opening kind).sum := by
  induction hrows with
  | nil => rfl
  | @cons a row l agents hr _ ih =>
    rw [UsageStore.joined] at ih ⊢
    rw [Ledger.ofPath] at ih ⊢
    rw [List.filter_cons, List.filter_cons, hr.path]
    split
    · rw [List.flatMap_cons, List.map_append, List.sum_append, ih, List.map_cons, List.sum_cons,
        joined_row honce hr]
    · exact ih

end Joined

lemma Ledger.used_sum (path : Option String) (kind : Kind) (l : Ledger) :
    ((l.ofPath path).map fun a => (a.now kind : ℤ) - a.opening kind).sum =
      (l.total path kind : ℤ) - l.opened path kind := by
  rw [total, opened]
  induction l.ofPath path with
  | nil => rfl
  | cons a l ih =>
    simp only [List.map_cons, List.sum_cons]
    rw [ih]
    push_cast
    ring

namespace Books

variable {day : ℤ} {l : Ledger} {s : UsageStore} (h : Books day l s)

include h

lemma used_nonneg {path : Option String} {kind : Kind} :
    ∀ value ∈ (s.joined path day).map (UsageStore.usedSince kind), 0 ≤ value := by
  intro value hm
  obtain ⟨entry, hentry, rfl⟩ := List.mem_map.mp hm
  obtain ⟨a, hr, hused⟩ := joined_mem h.rows hentry
  have hgrown := hr.grown kind
  rw [hused]
  omega

lemma used_sum (path : Option String) (kind : Kind) :
    ((s.joined path day).map (UsageStore.usedSince kind)).sum =
      (l.total path kind : ℤ) - l.opened path kind :=
  (joined_sum h.once h.rows path kind).trans (l.used_sum path kind)

lemma unmeasured {path : Option String}
    (hnone : ¬((s.joined path day).any fun entry => (entry.1.columns .input).isSome) = true)
    (kind : Kind) : l.total path kind = l.opened path kind := by
  have hzero : ∀ value ∈ (s.joined path day).map (UsageStore.usedSince kind), value = 0 := by
    intro value hm
    obtain ⟨entry, hentry, rfl⟩ := List.mem_map.mp hm
    obtain ⟨a, hr, hused⟩ := joined_mem h.rows hentry
    have hlatest : a.latest = none := by
      cases hl : a.latest with
      | none => rfl
      | some tokens =>
        refine absurd (List.any_eq_true.mpr ⟨entry, hentry, ?_⟩) hnone
        rw [hr.columns, hl]
        rfl
    have hgrown := hr.grown kind
    have hnow : a.now kind = 0 := by rw [Account.now, hlatest]; rfl
    rw [hused]
    omega
  have hsum := h.used_sum path kind
  rw [List.sum_eq_zero hzero] at hsum
  omega

lemma tokensOn {path : Option String}
    (hfits : ∀ kind, l.total path kind < l.opened path kind + 2 ^ 63) :
    ∃ count : Option Tokens, s.tokensOn path day = .ok count ∧
      ∀ kind, l.opened path kind + count.elim 0 (fun tokens => tokens.count kind) =
        l.total path kind := by
  have hnonneg : ∀ kind, (0 : ℤ) ≤ (l.total path kind : ℤ) - l.opened path kind := fun kind =>
    h.used_sum path kind ▸ List.sum_nonneg h.used_nonneg
  have hsum : ∀ kind, sumColumn ((s.joined path day).map (UsageStore.usedSince kind)) =
      .ok ((l.total path kind : ℤ) - l.opened path kind) := by
    intro kind
    have hkind := hfits kind
    rw [← h.used_sum path kind]
    refine sumColumn_eq h.used_nonneg ?_
    rw [h.used_sum path kind]
    omega
  have hcount : ∀ kind, (UInt64.ofNat ((l.total path kind : ℤ) - l.opened path kind).toNat).toNat =
      l.total path kind - l.opened path kind := by
    intro kind
    have hkind := hfits kind
    have hpos := hnonneg kind
    have hsmall : ((l.total path kind : ℤ) - l.opened path kind).toNat < UInt64.size := by
      simp only [UInt64.size]
      omega
    rw [UInt64.toNat_ofNat_of_lt' hsmall]
    omega
  have heq : s.tokensOn path day =
      if (s.joined path day).any fun entry => (entry.1.columns .input).isSome then
        .ok (some ⟨.ofNat ((l.total path .input : ℤ) - l.opened path .input).toNat,
          .ofNat ((l.total path .output : ℤ) - l.opened path .output).toNat,
          .ofNat ((l.total path .cacheRead : ℤ) - l.opened path .cacheRead).toNat,
          .ofNat ((l.total path .cacheWrite : ℤ) - l.opened path .cacheWrite).toNat⟩)
      else .ok none := by
    simp only [UsageStore.tokensOn, hsum]
    rfl
  by_cases hany : ((s.joined path day).any fun entry => (entry.1.columns .input).isSome) = true
  · refine ⟨_, heq.trans (if_pos hany), fun kind => ?_⟩
    have hkind := hnonneg kind
    cases kind with
    | input => exact (congrArg _ (hcount .input)).trans (by omega)
    | output => exact (congrArg _ (hcount .output)).trans (by omega)
    | cacheRead => exact (congrArg _ (hcount .cacheRead)).trans (by omega)
    | cacheWrite => exact (congrArg _ (hcount .cacheWrite)).trans (by omega)
  · exact ⟨none, heq.trans (if_neg hany), fun kind => (h.unmeasured hany kind).symm⟩

end Books

section Days

variable {path : Option String}

lemma Ledger.opened_turn (kind : Kind) (l : Ledger) :
    Ledger.opened path kind (l.map Account.turn) = l.total path kind := by
  rw [opened, total, ofPath, ofPath, List.filter_map, List.map_map]
  rfl

lemma Ledger.opened_event (kind : Kind) (l : Ledger) (e : UsageEvent) :
    (l.event e).opened path kind = l.opened path kind := by
  cases e with
  | add key added =>
    rw [event, opened, ofPath, List.filter_append, List.map_append, List.sum_append, opened, ofPath]
    by_cases hpath : (path.all fun path => decide (added = path)) = true
    · simp [Account.started, hpath]
    · simp [Account.started, hpath]
  | sample key reading doneAt =>
    have hsame : ∀ a : Account, (if a.key = key ∧ a.done = false then a.sampled reading doneAt
        else a).opening = a.opening ∧ (if a.key = key ∧ a.done = false then a.sampled reading doneAt
          else a).path = a.path := by
      intro a
      split <;> exact ⟨rfl, rfl⟩
    rw [event, opened, ofPath, List.filter_map, List.map_map, opened, ofPath]
    congr 1
    rw [Function.comp_def, Function.comp_def]
    simp only [(hsame _).1, (hsame _).2]

lemma Ledger.opened_live (kind : Kind) (l : Ledger) (today : Day) :
    (l.live today).opened path kind = l.total path kind := by
  have hevents : ∀ (es : List UsageEvent) (l : Ledger),
      (es.foldl Ledger.event l).opened path kind = l.opened path kind := by
    intro es
    induction es with
    | nil => exact fun _ => rfl
    | cons e es ih => exact fun l => (ih _).trans (l.opened_event kind e)
  exact (hevents _ _).trans (l.opened_turn kind)

lemma Books.conserved {day : ℤ} {l : Ledger} {s : UsageStore} (h : Books day l s) {days : List Day}
    (hlater : ∀ today ∈ days, day < today.day)
    (hdays : days.Pairwise fun today next => today.day < next.day) (hgrows : AlongDays Grows l days)
    (hfits : AlongDays Fits l days) (hsum : Summable path l days) :
    ∃ counts : List (Option Tokens), UsageStore.counts path s days = counts.map Except.ok ∧
      ∀ kind, l.total path kind +
        (counts.map fun count => count.elim 0 fun tokens => tokens.count kind).sum =
          (l.through days).total path kind := by
  induction days generalizing day l s with
  | nil => exact ⟨[], rfl, fun _ => rfl⟩
  | cons today days ih =>
    obtain ⟨hnext, -⟩ := List.forall_mem_cons.mp hlater
    obtain ⟨hafter, hrest⟩ := List.pairwise_cons.mp hdays
    have hbooks : Books today.day (l.live today) (s.live today) :=
      (h.turn hnext).events hgrows.1 hfits.1
    obtain ⟨count, hcount, huse⟩ := hbooks.tokensOn fun kind => by
      rw [Ledger.opened_live]
      exact hsum.1 kind
    obtain ⟨counts, hcounts, htotal⟩ := ih hbooks hafter hrest hgrows.2 hfits.2 hsum.2
    refine ⟨count :: counts, ?_, fun kind => ?_⟩
    · rw [UsageStore.counts, hcount, hcounts]
      rfl
    · have hkind := huse kind
      rw [Ledger.opened_live] at hkind
      rw [List.map_cons, List.sum_cons, ← add_assoc, hkind]
      exact htotal kind

theorem tokens_conserved {days : List Day}
    (hdays : days.Pairwise fun today next => today.day < next.day) (hgrows : AlongDays Grows [] days)
    (hfits : AlongDays Fits [] days) (hsum : Summable path [] days) (kind : Kind) :
    Conserved path kind days := by
  have hempty : ∀ day, Books day [] {} := fun _ => ⟨.nil, .nil, .nil, nofun⟩
  obtain ⟨before, hbefore⟩ : ∃ before, ∀ today ∈ days, before < today.day := by
    cases days with
    | nil => exact ⟨0, nofun⟩
    | cons today days =>
      refine ⟨today.day - 1, List.forall_mem_cons.mpr ⟨sub_one_lt _, fun next hm => ?_⟩⟩
      exact (sub_one_lt _).trans ((List.pairwise_cons.mp hdays).1 next hm)
  obtain ⟨counts, hcounts, htotal⟩ :=
    (hempty before).conserved hbefore hdays hgrows hfits hsum
  exact ⟨counts, hcounts, (Nat.zero_add _).symm.trans (htotal kind)⟩

def readings (counts : List UInt64) : List Day :=
  counts.zipIdx.map fun (count, index) =>
    { day := 86400 * index
      events := (if index = 0 then [.add (1, 1) "/a.luau"] else []) ++
        [.sample (1, 1) (some ⟨count, 0, 0, 0⟩) none] }

lemma forall_only {a : Account} {P : Account → Prop} (h : P a) : ∀ b ∈ [a], P b :=
  fun _ hm => List.mem_singleton.mp hm ▸ h

theorem tokens_conserved_overnight : Conserved none .input (readings [2000, 3000]) := by
  refine tokens_conserved ?_ ?_ ?_ ?_ _
  · exact List.pairwise_pair.mpr (by decide)
  · refine ⟨⟨nofun, forall_only ?_, trivial⟩, ⟨forall_only ?_, trivial⟩, trivial⟩
    · rintro - - _ ⟨⟩ kind
      cases kind <;> decide
    · rintro - - _ ⟨⟩ kind
      cases kind <;> decide
  · refine ⟨⟨trivial, forall_only ?_, trivial⟩, ⟨forall_only ?_, trivial⟩, trivial⟩
    · rintro - - _ ⟨⟩ kind
      cases kind <;> decide
    · rintro - - _ ⟨⟩ kind
      cases kind <;> decide
  · refine ⟨fun kind => ?_, fun kind => ?_, trivial⟩
    · cases kind <;> decide
    · cases kind <;> decide

theorem huge_count_lost : ¬∀ (path : Option String) (kind : Kind) (days : List Day),
    (days.Pairwise fun today next => today.day < next.day) → AlongDays Grows [] days →
      Conserved path kind days := by
  intro h
  have hgrows : AlongDays Grows [] (readings [9223372036854775808]) := by
    refine ⟨⟨nofun, forall_only ?_, trivial⟩, trivial⟩
    rintro - - _ ⟨⟩ kind
    cases kind <;> decide
  obtain ⟨counts, hcounts, hsum⟩ :=
    h none .input (readings [9223372036854775808]) (List.pairwise_singleton _ _) hgrows
  have heq : UsageStore.counts none {} (readings [9223372036854775808]) = [.ok none] := rfl
  have htotal : Ledger.total none .input (Ledger.through [] (readings [9223372036854775808])) =
      9223372036854775808 := by decide
  rw [htotal] at hsum
  rw [heq] at hcounts
  cases counts with
  | nil => cases hcounts
  | cons count counts =>
    obtain ⟨hcount, hrest⟩ := List.cons.inj hcounts
    obtain rfl := Except.ok.inj hcount
    obtain rfl := List.map_eq_nil_iff.mp hrest.symm
    exact absurd hsum (by decide)

end Days

end Sheprd.Automate
