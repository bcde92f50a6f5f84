import Sheprd.Core.Lines
import Sheprd.Core.Stream
import Sheprd.Lib.Dict
import Sheprd.Lib.Exec
import Sheprd.Lib.Text

namespace Sheprd.Core

open Sheprd.Lib

def maxTerminalId : ℕ := 256

inductive Error where
  | lost
  | busy
  | protocol
  | emptyTerminalId
  | invalidTerminalId
  deriving DecidableEq

def IsTerminalId (id : String) : Prop :=
  id ≠ "" ∧ id.utf8ByteSize ≤ maxTerminalId ∧ id.toList.any Text.isControl = false

instance (id : String) : Decidable (IsTerminalId id) :=
  inferInstanceAs (Decidable (_ ∧ _ ∧ _))

structure TerminalId where
  text : String
  valid : IsTerminalId text
  deriving DecidableEq

namespace TerminalId

def new (id : String) : Except Error TerminalId :=
  if id = "" then .error .emptyTerminalId
  else if h : IsTerminalId id then .ok ⟨id, h⟩
  else .error .invalidTerminalId

lemma ext_text {a b : TerminalId} (h : a.text = b.text) : a = b := by
  cases a
  cases b
  simp_all

lemma new_eq {id : String} (h : IsTerminalId id) : new id = .ok ⟨id, h⟩ := by
  simp [new, h, h.1]

end TerminalId

inductive TerminalState where
  | finished
  | live
  | other

inductive StatusState where
  | blocked
  | done
  | error
  | idle
  | working
  | other

structure Status where
  state : StatusState

structure Foreground where
  cwd : String

structure Terminal where
  address : String
  cols : UInt16
  cwd : String
  exitCode : Option Int32
  foreground : Option Foreground
  keep : Bool
  labels : List (String × String)
  name : Option String
  pid : Option Int32
  reason : Option String
  rows : UInt16
  state : TerminalState
  status : Option Status
  title : Option String

structure Ended where
  exitCode : Option Int32
  reason : Option String

inductive TerminalChange where
  | created (record : Terminal)
  | finished (ended : Ended)
  | foreground (foreground : Option Foreground)
  | keep (keep : Bool)
  | labels (labels : List (String × String)) (record : Option Terminal)
  | lost (ended : Ended)
  | removed
  | restarted (record : Terminal)
  | size (cols rows : UInt16)
  | status (reported : Bool) (status : Option Status)
  | title (title : Option String)
  | turn (state : Option String) (turn : ℕ)
  | unknown (kind : String)

structure Event where
  change : TerminalChange
  seq : ℕ
  terminal : String

inductive Notice where
  | doc (machine : Option String) (name : String) (seq version : ℕ)
  | event (event : Event)
  | heartbeat (seq : ℕ)
  | missed (seq : ℕ) (terminals : List Terminal)

inductive AgentStatus where
  | blocked
  | done
  | idle
  | working
  | unknown
  deriving DecidableEq

inductive RunState where
  | running
  | lost
  | exited (code : Option Int32)
  deriving DecidableEq

structure TerminalInfo where
  agent : AgentStatus
  cwd : Option String
  id : TerminalId
  labels : List (String × String)
  name : Option String
  state : RunState
  title : Option String
  deriving DecidableEq

inductive Change where
  | upsert (info : TerminalInfo)
  | removed (id : TerminalId)
  | resync (infos : List TerminalInfo)

def agent (status : Status) : AgentStatus :=
  match status.state with
  | .blocked | .error => .blocked
  | .done => .done
  | .idle => .idle
  | .working => .working
  | .other => .unknown

def runState (terminal : Terminal) : RunState :=
  match terminal.state with
  | .finished => .exited terminal.exitCode
  | .live => if terminal.pid.isNone ∧ terminal.reason.isSome then .lost else .running
  | .other => .running

def nonEmpty (text : String) : Option String := if text = "" then none else some text

def info (terminal : Terminal) : Except Error TerminalInfo := do
  let cwd := ((terminal.foreground.map Foreground.cwd).bind nonEmpty).or (nonEmpty terminal.cwd)
  let id ← TerminalId.new terminal.address
  return ⟨terminal.status.elim .unknown agent, cwd, id, terminal.labels, terminal.name,
    runState terminal, terminal.title.bind nonEmpty⟩

def update (record : Terminal) : TerminalChange → Bool × Terminal
  | .finished ended => (true, { record with
      state := .finished, exitCode := ended.exitCode, reason := ended.reason, foreground := none,
      status := none })
  | .foreground foreground => (true, { record with foreground })
  | .keep keep => (true, { record with keep })
  | .labels labels _ => (true, { record with labels })
  | .lost ended => (true, { record with
      exitCode := ended.exitCode, reason := ended.reason, pid := none, foreground := none })
  | .size cols rows => (true, { record with cols, rows })
  | .status _ status => (true, { record with status })
  | .title title => (true, { record with title })
  | .turn _ _ | .unknown _ | .created _ | .removed | .restarted _ => (false, record)

abbrev Records := Dict String Terminal

def Records.collect (terminals : List Terminal) : Records :=
  terminals.foldl (fun records terminal => records.insert terminal.address terminal) ∅

def Records.infos (records : Records) : Except Error (List TerminalInfo) :=
  (records.entries.map Sigma.snd).mapM info

structure Subscription where
  ended : Bool
  lines : Framed.Lines

def Subscription.opened : Subscription := ⟨false, .new⟩

section

variable (parse : List UInt8 → Except Error (Option Notice))

def noticed (lines : List (List UInt8)) : List Notice :=
  lines.filterMap fun line => (parse line).toOption.join

def Subscription.next (subscription : Subscription) (read : Except Error Chunk) :
    Except Error (List Notice) × Subscription :=
  if subscription.ended then (.error .lost, subscription)
  else match read with
    | .error error => (.error error, subscription)
    | .ok chunk =>
      match subscription.lines.push chunk.bytes with
      | (.error _, lines) => (.error .protocol, { subscription with lines })
      | (.ok found, lines) =>
        if chunk.ending.isSome ∧ noticed parse found = [] then (.error .lost, ⟨true, lines⟩)
        else (.ok (noticed parse found), ⟨chunk.ending.isSome, lines⟩)

end

structure CoreChanges where
  records : Records
  seq : ℕ
  subscription : Subscription

namespace CoreChanges

def put (c : CoreChanges) (address : String) (record : Terminal) : CoreChanges :=
  { c with records := c.records.insert address record }

def upsert (record : Terminal) : Except Error (Option Change) :=
  (info record).map fun info => some (.upsert info)

def amend (c : CoreChanges) (address : String) (change : TerminalChange) :
    Except Error (Option Change) × CoreChanges :=
  match c.records.lookup address with
  | none => (.ok none, c)
  | some record =>
    match update record change with
    | (false, _) => (.ok none, c)
    | (true, record) => (upsert record, c.put address record)

def apply (c : CoreChanges) (address : String) : TerminalChange →
    Except Error (Option Change) × CoreChanges
  | .removed => ((TerminalId.new address).map fun id => some (.removed id),
      { c with records := c.records.erase address })
  | .created record | .restarted record | .labels _ (some record) =>
    (upsert record, c.put address record)
  | change => c.amend address change

def gather (c : CoreChanges) (changes : List Change) : List Notice →
    Except Error (List Change) × CoreChanges
  | [] => (.ok changes, c)
  | .doc .. :: notices | .heartbeat _ :: notices => c.gather changes notices
  | .missed seq terminals :: notices =>
    let c := { c with seq, records := Records.collect terminals }
    match c.records.infos with
    | .error error => (.error error, c)
    | .ok infos => c.gather [.resync infos] notices
  | .event event :: notices =>
    if event.seq ≤ c.seq then c.gather changes notices
    else match { c with seq := event.seq }.apply event.terminal event.change with
      | (.error error, c) => (.error error, c)
      | (.ok change, c) => c.gather (changes ++ change.toList) notices

def next (parse : List UInt8 → Except Error (Option Notice)) (c : CoreChanges)
    (read : Except Error Chunk) : Except Error (List Change) × CoreChanges :=
  match c.subscription.next parse read with
  | (.error error, subscription) => (.error error, { c with subscription })
  | (.ok notices, subscription) => { c with subscription }.gather [] notices

end CoreChanges

def watch (seq : ℕ) (terminals : List Terminal) :
    Except Error (List TerminalInfo × CoreChanges) := do
  let records := Records.collect terminals
  let snapshot ← records.infos
  return (snapshot, ⟨records, seq, .opened⟩)

abbrev View := Dict TerminalId TerminalInfo

def View.collect (infos : List TerminalInfo) : View :=
  infos.foldr (fun info view => view.insert info.id info) ∅

def View.apply (view : View) : Change → View
  | .upsert info => view.insert info.id info
  | .removed id => view.erase id
  | .resync infos => View.collect infos

structure Watcher where
  changes : CoreChanges
  view : View

section

variable (parse : List UInt8 → Except Error (Option Notice))

def Watcher.call (w : Watcher) (read : Except Error Chunk) : Watcher :=
  match w.changes.next parse read with
  | (.ok changes, c) => ⟨c, changes.foldl View.apply w.view⟩
  | (.error _, c) => ⟨c, w.view⟩

def Subscription.received (subscription : Subscription) : List (Except Error Chunk) → List Notice
  | [] => []
  | read :: reads =>
    match subscription.next parse read with
    | (.ok notices, subscription) => notices ++ subscription.received reads
    | (.error _, subscription) => subscription.received reads

end

def Records.amend (records : Records) (address : String) (change : TerminalChange) : Records :=
  match records.lookup address with
  | none => records
  | some record =>
    if (update record change).1 then records.insert address (update record change).2 else records

def Event.onto (event : Event) (records : Records) : Records :=
  match event.change with
  | .removed => records.erase event.terminal
  | .created record | .restarted record | .labels _ (some record) =>
    records.insert event.terminal record
  | change => records.amend event.terminal change

structure Replay where
  since : ℕ
  records : Records

def Replay.step (r : Replay) : Notice → Replay
  | .doc .. | .heartbeat _ => r
  | .missed seq terminals => ⟨seq, Records.collect terminals⟩
  | .event event => if r.since < event.seq then { r with records := event.onto r.records } else r

def Shows (view : View) (records : Records) : Prop :=
  (∀ id : TerminalId, (view.lookup id).map Except.ok = (records.lookup id.text).map info) ∧
    ∀ address ∈ records, IsTerminalId address

def events : List Notice → List Event :=
  List.filterMap fun
    | .event event => some event
    | _ => none

def Replay.Accepts (r : Replay) : Notice → Prop
  | .doc .. | .heartbeat _ => True
  | .missed _ terminals => ∀ terminal ∈ terminals, IsTerminalId terminal.address
  | .event event => r.since < event.seq →
    match event.change with
    | .removed => IsTerminalId event.terminal
    | .created record | .restarted record | .labels _ (some record) =>
      record.address = event.terminal ∧ IsTerminalId record.address
    | _ => True

def Replay.AcceptsAll (r : Replay) : List Notice → Prop
  | [] => True
  | notice :: notices => r.Accepts notice ∧ (r.step notice).AcceptsAll notices

lemma update_address (record : Terminal) (change : TerminalChange) :
    (update record change).2.address = record.address := by
  cases change <;> rfl

lemma info_ok {record : Terminal} (h : IsTerminalId record.address) :
    ∃ shown, info record = .ok shown ∧ shown.id.text = record.address := by
  rw [info, TerminalId.new_eq h]
  exact ⟨_, rfl, rfl⟩

def Records.Keyed (records : Records) : Prop :=
  ∀ address record, records.lookup address = some record →
    record.address = address ∧ IsTerminalId address

namespace Records

variable {records : Records}

lemma Keyed.insert {record : Terminal} (h : records.Keyed) (hr : IsTerminalId record.address) :
    Keyed (AList.insert record.address record records) := by
  intro address r hl
  rcases Dict.of_lookup_insert hl with ⟨rfl, rfl⟩ | hl
  · exact ⟨rfl, hr⟩
  · exact h _ _ hl

lemma Keyed.erase {address : String} (h : records.Keyed) :
    Keyed (AList.erase address records) := by
  intro a r hl
  exact h _ _ (Dict.of_lookup_erase hl).2

lemma Keyed.valid (h : records.Keyed) {address : String} (ha : address ∈ records) :
    IsTerminalId address := by
  obtain ⟨record, hr⟩ := Option.isSome_iff_exists.mp (AList.lookup_isSome.mpr ha)
  exact (h _ _ hr).2

lemma of_collect {terminals : List Terminal} {address : String} {record : Terminal}
    (h : (collect terminals).lookup address = some record) :
    record.address = address ∧ record ∈ terminals := by
  induction terminals using List.reverseRecOn with
  | nil => simp [collect] at h
  | append_singleton terminals terminal ih =>
    rw [collect, List.foldl_append] at h
    rcases Dict.of_lookup_insert h with ⟨rfl, rfl⟩ | h
    · simp
    · obtain ⟨ha, hm⟩ := ih h
      exact ⟨ha, List.mem_append_left _ hm⟩

lemma keyed_collect {terminals : List Terminal}
    (h : ∀ terminal ∈ terminals, IsTerminalId terminal.address) : (collect terminals).Keyed := by
  intro address record hl
  obtain ⟨rfl, hm⟩ := of_collect hl
  exact ⟨rfl, h _ hm⟩

lemma Keyed.infos (h : records.Keyed) :
    ∃ infos, records.infos = .ok infos ∧ Shows (View.collect infos) records := by
  have hentries : ∀ entries : List (Sigma fun _ : String => Terminal),
      (∀ e ∈ entries, e.2.address = e.1 ∧ IsTerminalId e.1) →
      ∃ infos, (entries.map Sigma.snd).mapM info = .ok infos ∧
        ∀ id : TerminalId, ((View.collect infos).lookup id).map Except.ok
          = (entries.dlookup id.text).map info := by
    intro entries hv
    induction entries with
    | nil => exact ⟨[], rfl, fun _ => rfl⟩
    | cons e entries ih =>
      obtain ⟨infos, hi, hl⟩ := ih fun e' he' => hv e' (List.mem_cons_of_mem _ he')
      obtain ⟨ha, hid⟩ := hv e List.mem_cons_self
      rw [← ha] at hid
      obtain ⟨shown, hs, hsid⟩ := info_ok hid
      refine ⟨shown :: infos, by simp [List.mapM_cons, hs, hi]; rfl, ?_⟩
      intro id
      by_cases hk : id = shown.id
      · have htext : id.text = e.1 := by rw [hk, hsid, ha]
        rw [View.collect, List.foldr_cons, hk, AList.lookup_insert, ← hk, htext]
        obtain ⟨address, record⟩ := e
        simp [List.dlookup_cons_eq, hs]
      · have htext : id.text ≠ e.1 := by
          intro h
          exact hk (TerminalId.ext_text (by rw [hsid, h, ha]))
        rw [View.collect, List.foldr_cons, AList.lookup_insert_ne hk]
        obtain ⟨address, record⟩ := e
        rw [List.dlookup_cons_ne _ _ htext]
        exact hl id
  obtain ⟨infos, hi, hl⟩ := hentries records.entries fun e he =>
    h e.1 e.2 (AList.mem_lookup_iff.mpr he)
  exact ⟨infos, hi, hl, fun _ ha => h.valid ha⟩

end Records

section Shows

variable {view : View} {records : Records}

lemma Shows.insert {record : Terminal} {shown : TerminalInfo} (h : Shows view records)
    (hi : info record = .ok shown) (hid : shown.id.text = record.address) :
    Shows (AList.insert shown.id shown view) (AList.insert record.address record records) := by
  constructor
  · intro id
    by_cases hk : id = shown.id
    · rw [hk, AList.lookup_insert, hid, AList.lookup_insert]
      exact congrArg some hi.symm
    · have htext : id.text ≠ record.address := by
        intro h
        exact hk (TerminalId.ext_text (by rw [h, hid]))
      rw [AList.lookup_insert_ne hk, AList.lookup_insert_ne htext]
      exact h.1 id
  · intro address ha
    rcases (AList.mem_insert _).mp ha with rfl | ha
    · exact hid ▸ shown.id.valid
    · exact h.2 _ ha

lemma Shows.erase {address : String} (h : Shows view records) (ha : IsTerminalId address) :
    Shows (AList.erase ⟨address, ha⟩ view) (AList.erase address records) := by
  constructor
  · intro id
    by_cases hk : id = ⟨address, ha⟩
    · rw [hk]
      simp
    · have htext : id.text ≠ address := by
        intro h
        exact hk (TerminalId.ext_text h)
      rw [AList.lookup_erase_ne hk, AList.lookup_erase_ne htext]
      exact h.1 id
  · intro a hm
    exact h.2 _ (AList.mem_erase.mp hm).2

end Shows

namespace CoreChanges

variable {c : CoreChanges} {view : View}

structure Current (c : CoreChanges) (view : View) : Prop where
  keyed : c.records.Keyed
  shows : Shows view c.records

lemma Current.put {record : Terminal} (h : c.Current view) (hr : IsTerminalId record.address) :
    ∃ change, upsert record = .ok change ∧
      (c.put record.address record).Current (change.toList.foldl View.apply view) := by
  obtain ⟨shown, hi, hid⟩ := info_ok hr
  refine ⟨some (.upsert shown), by rw [upsert, hi]; rfl, h.keyed.insert hr, ?_⟩
  exact h.shows.insert hi hid

lemma Current.amend (h : c.Current view) (address : String) (change : TerminalChange) :
    ∃ made, c.amend address change = (.ok made, { c with records := c.records.amend address change })
      ∧ Current { c with records := c.records.amend address change }
        (made.toList.foldl View.apply view) := by
  cases hl : c.records.lookup address with
  | none =>
    rw [CoreChanges.amend, Records.amend, hl]
    exact ⟨none, rfl, h⟩
  | some record =>
    obtain ⟨rfl, hid⟩ := h.keyed _ _ hl
    have hsame := update_address record change
    rw [CoreChanges.amend, Records.amend, hl]
    rcases hu : update record change with ⟨shown, record'⟩
    rw [hu] at hsame
    cases shown with
    | false =>
      simp only [hu, Bool.false_eq_true, if_false]
      exact ⟨none, rfl, h⟩
    | true =>
      simp only [hu, if_true, ← hsame]
      obtain ⟨made, hm, hc⟩ := h.put (hsame.symm ▸ hid)
      exact ⟨made, by rw [hm]; rfl, hc⟩

lemma Current.apply {event : Event} {r : Replay} (h : c.Current view)
    (ha : r.Accepts (.event event)) (hs : r.since < event.seq) :
    ∃ made, c.apply event.terminal event.change
        = (.ok made, { c with records := event.onto c.records })
      ∧ Current { c with records := event.onto c.records } (made.toList.foldl View.apply view) := by
  obtain ⟨change, seq, address⟩ := event
  have ha := ha hs
  have hrecord {record : Terminal} (ha : record.address = address ∧ IsTerminalId record.address) :
      ∃ made, (upsert record, c.put address record)
          = (.ok made, { c with records := c.records.insert address record })
        ∧ Current { c with records := c.records.insert address record }
          (made.toList.foldl View.apply view) := by
    obtain ⟨rfl, hid⟩ := ha
    obtain ⟨made, hm, hc⟩ := h.put hid
    exact ⟨made, by rw [hm]; rfl, hc⟩
  cases change with
  | removed =>
    refine ⟨some (.removed ⟨address, ha⟩), ?_, h.keyed.erase, h.shows.erase ha⟩
    simp [CoreChanges.apply, Event.onto, TerminalId.new_eq ha, Except.map]
  | created record => exact hrecord ha
  | restarted record => exact hrecord ha
  | labels labels record =>
    cases record with
    | none => exact h.amend address (.labels labels none)
    | some record => exact hrecord ha
  | _ =>
    simp only [CoreChanges.apply, Event.onto]
    exact h.amend _ _

structure Follows (c : CoreChanges) (r : Replay) (notices : List Notice) : Prop where
  records : c.records = r.records
  since : r.since ≤ c.seq
  ahead : ∀ event ∈ events notices, r.since < event.seq → c.seq < event.seq

lemma gather_current {r : Replay} {changes : List Change} {notices later : List Notice}
    (hc : c.Current (changes.foldl View.apply view)) (hf : c.Follows r (notices ++ later))
    (hup : ((events (notices ++ later)).map Event.seq).Pairwise (· < ·))
    (ha : r.AcceptsAll (notices ++ later)) :
    ∃ made c', c.gather changes notices = (.ok made, c') ∧ c'.subscription = c.subscription ∧
      c'.Current (made.foldl View.apply view) ∧
      c'.Follows (notices.foldl Replay.step r) later ∧
      (notices.foldl Replay.step r).AcceptsAll later := by
  induction notices generalizing c r changes with
  | nil => exact ⟨changes, c, rfl, rfl, hc, hf, ha⟩
  | cons notice notices ih =>
    obtain ⟨hn, ha⟩ := ha
    cases notice with
    | doc machine name seq version => exact ih hc ⟨hf.records, hf.since, hf.ahead⟩ hup ha
    | heartbeat seq => exact ih hc ⟨hf.records, hf.since, hf.ahead⟩ hup ha
    | missed seq terminals =>
      have hk := Records.keyed_collect hn
      obtain ⟨infos, hi, hs⟩ := hk.infos
      simp only [gather, hi]
      exact ih ⟨hk, hs⟩ ⟨rfl, le_rfl, fun _ _ h => h⟩ hup ha
    | event event =>
      rw [List.foldl_cons]
      obtain ⟨hlater, hup⟩ := List.pairwise_cons.mp hup
      have hahead : ∀ e ∈ events (notices ++ later), event.seq < e.seq := by
        intro e he
        exact hlater _ (List.mem_map_of_mem he)
      by_cases hs : r.since < event.seq
      · have hseq := hf.ahead event List.mem_cons_self hs
        have hstep : r.step (.event event) = ⟨r.since, event.onto r.records⟩ := by
          simp [Replay.step, hs]
        obtain ⟨made, hm, hc⟩ := Current.apply (c := { c with seq := event.seq }) ⟨hc.keyed, hc.shows⟩ hn hs
        rw [gather, if_neg hseq.not_ge, hm]
        rw [hstep] at ha ⊢
        refine ih (by rwa [List.foldl_append]) ⟨?_, hs.le, fun e he _ => hahead e he⟩ hup ha
        exact congrArg event.onto hf.records
      · have hstep : r.step (.event event) = r := by simp [Replay.step, hs]
        have hseq : event.seq ≤ c.seq := le_trans (not_lt.mp hs) hf.since
        rw [gather, if_pos hseq]
        rw [hstep] at ha ⊢
        refine ih hc ⟨hf.records, hf.since, ?_⟩ hup ha
        intro e he
        exact hf.ahead e (List.mem_cons_of_mem _ he)

end CoreChanges

section

variable {parse : List UInt8 → Except Error (Option Notice)}

lemma Watcher.calls_show {w : Watcher} {r : Replay} {reads : List (Except Error Chunk)}
    (hc : w.changes.Current w.view)
    (hf : w.changes.Follows r (w.changes.subscription.received parse reads))
    (hup : ((events (w.changes.subscription.received parse reads)).map Event.seq).Pairwise (· < ·))
    (ha : r.AcceptsAll (w.changes.subscription.received parse reads)) :
    Shows (reads.foldl (Watcher.call parse) w).view
      ((w.changes.subscription.received parse reads).foldl Replay.step r).records := by
  induction reads generalizing w r with
  | nil => exact hf.records ▸ hc.shows
  | cons read reads ih =>
    rw [List.foldl_cons]
    rcases hs : w.changes.subscription.next parse read with ⟨given, subscription⟩
    cases given with
    | error error =>
      simp only [Subscription.received, hs] at hf hup ha ⊢
      have hcall : w.call parse read = ⟨{ w.changes with subscription }, w.view⟩ := by
        simp [Watcher.call, CoreChanges.next, hs]
      rw [hcall]
      exact ih ⟨hc.keyed, hc.shows⟩ ⟨hf.records, hf.since, hf.ahead⟩ hup ha
    | ok notices =>
      simp only [Subscription.received, hs] at hf hup ha ⊢
      have hc : CoreChanges.Current { w.changes with subscription }
          (([] : List Change).foldl View.apply w.view) := ⟨hc.keyed, hc.shows⟩
      obtain ⟨made, c, hg, hsub, hc, hf, ha⟩ := CoreChanges.gather_current hc
        ⟨hf.records, hf.since, hf.ahead⟩ hup ha
      have hcall : w.call parse read = ⟨c, made.foldl View.apply w.view⟩ := by
        simp [Watcher.call, CoreChanges.next, hs, hg]
      rw [hcall, List.foldl_append]
      have hsub : subscription = c.subscription := hsub.symm
      rw [hsub] at hf hup ha ⊢
      refine ih hc hf ?_ ha
      rw [events, List.filterMap_append, List.map_append] at hup
      exact (List.pairwise_append.mp hup).2.1

lemma keyed_of_infos {terminals : List Terminal} {infos : List TerminalInfo}
    (h : (Records.collect terminals).infos = .ok infos) : (Records.collect terminals).Keyed := by
  have hall : ∀ (records : List Terminal) (infos : List TerminalInfo),
      records.mapM info = .ok infos → ∀ record ∈ records, IsTerminalId record.address := by
    intro records
    induction records with
    | nil => simp
    | cons record records ih =>
      intro infos h
      rw [List.mapM_cons] at h
      obtain ⟨shown, hs, h⟩ := bind_eq_ok.mp h
      obtain ⟨rest, hr, -⟩ := bind_eq_ok.mp h
      obtain ⟨id, hid, -⟩ := bind_eq_ok.mp hs
      have hrecord : IsTerminalId record.address := by
        by_contra hn
        rw [TerminalId.new] at hid
        split at hid
        · cases hid
        · simp at hid
      exact List.forall_mem_cons.mpr ⟨hrecord, ih rest hr⟩
  intro address record hl
  obtain ⟨rfl, -⟩ := Records.of_collect hl
  refine ⟨rfl, hall _ _ h record ?_⟩
  exact List.mem_map_of_mem (f := Sigma.snd) (AList.mem_lookup_iff.mp hl)

lemma watch_current {seq : ℕ} {terminals : List Terminal} {snapshot : List TerminalInfo}
    {c : CoreChanges} (hw : watch seq terminals = .ok (snapshot, c)) :
    c = ⟨Records.collect terminals, seq, .opened⟩ ∧ c.Current (View.collect snapshot) := by
  obtain ⟨infos, hi, heq⟩ := bind_eq_ok.mp hw
  obtain ⟨rfl, rfl⟩ := Prod.mk.inj (Except.ok.inj heq)
  have hk := keyed_of_infos hi
  obtain ⟨infos', hi', hs⟩ := hk.infos
  obtain rfl : infos = infos' := Except.ok.inj (hi.symm.trans hi')
  exact ⟨rfl, hk, hs⟩

end

end Sheprd.Core
