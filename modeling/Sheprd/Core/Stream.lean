import Sheprd.Lib.Run
import Mathlib.Data.List.TakeWhile

namespace Sheprd.Core

open Sheprd.Lib

def maxBuffered : ℕ := 8 * 2 ^ 20

structure Closed where
  exitCode : Option ℤ
  reason : Option String

inductive End where
  | closed (closed : Closed)
  | lost

structure Chunk where
  bytes : List UInt8
  ending : Option End

structure Inbox where
  bytes : List UInt8
  ending : Option End
  takenEnd : Bool

namespace Inbox

def push (bytes : List UInt8) (inbox : Inbox) : Option Bool × Inbox :=
  if inbox.ending.isSome then (none, inbox)
  else if maxBuffered < inbox.bytes.length + bytes.length then (some false, inbox)
  else (some true, { inbox with bytes := inbox.bytes ++ bytes })

def finish (ending : End) (inbox : Inbox) : Inbox :=
  { inbox with ending := some (inbox.ending.getD ending) }

def ready (inbox : Inbox) : Bool := !inbox.bytes.isEmpty || (inbox.ending.isSome && !inbox.takenEnd)

def take (inbox : Inbox) : Chunk × Inbox :=
  let ending := if inbox.takenEnd then none else inbox.ending
  (⟨inbox.bytes, ending⟩, ⟨[], inbox.ending, inbox.takenEnd || ending.isSome⟩)

end Inbox

def Chunk.credit (chunk : Chunk) : Option ℕ :=
  if chunk.bytes.length < 2 ^ 32 ∧ 0 < chunk.bytes.length ∧ chunk.ending = none then
    some chunk.bytes.length
  else none

inductive Reader where
  | idle
  | waiting
  | ready
  | took (chunk : Chunk)

inductive ChannelAct where
  | push (bytes : List UInt8)
  | finish (ending : End)
  | signal
  | read
  | woken
  | timeout
  | take
  | returns
  | credit
  | refuse

structure Channel where
  inbox : Inbox
  wake : Bool
  signalling : Bool
  reader : Reader
  pushed : List UInt8
  reads : List Chunk
  credits : List ℕ

namespace Channel

def opened : Channel := ⟨⟨[], none, false⟩, false, false, .idle, [], [], []⟩

inductive Step (c : Channel) : ChannelAct → Channel → Prop
  | ended {bytes : List UInt8} {inbox : Inbox} (free : c.signalling = false)
      (pushed : c.inbox.push bytes = (none, inbox)) : Step c (.push bytes) c
  | pastCredit {bytes : List UInt8} {inbox : Inbox} (free : c.signalling = false)
      (pushed : c.inbox.push bytes = (some false, inbox)) : Step c (.push bytes) c
  | push {bytes : List UInt8} {inbox : Inbox} (free : c.signalling = false)
      (pushed : c.inbox.push bytes = (some true, inbox)) :
      Step c (.push bytes)
        { c with inbox := inbox, pushed := c.pushed ++ bytes, signalling := true }
  | finish (ending : End) (free : c.signalling = false) :
      Step c (.finish ending) { c with inbox := c.inbox.finish ending, signalling := true }
  | signal (signalling : c.signalling = true) :
      Step c .signal { c with wake := true, signalling := false }
  | readReady (idle : c.reader = .idle) (ready : c.inbox.ready = true) :
      Step c .read { c with reader := .ready }
  | readWait (idle : c.reader = .idle) (empty : c.inbox.ready = false) :
      Step c .read { c with reader := .waiting }
  | woken (waiting : c.reader = .waiting) (wake : c.wake = true) :
      Step c .woken { c with wake := false, reader := .ready }
  | timeout (waiting : c.reader = .waiting) : Step c .timeout { c with reader := .ready }
  | take (ready : c.reader = .ready) :
      Step c .take { c with inbox := c.inbox.take.2, reader := .took c.inbox.take.1 }
  | returns {chunk : Chunk} (took : c.reader = .took chunk) (none : chunk.credit = none) :
      Step c .returns { c with reader := .idle, reads := c.reads ++ [chunk] }
  | credit {chunk : Chunk} {credit : ℕ} (took : c.reader = .took chunk)
      (some : chunk.credit = some credit) :
      Step c .credit
        { c with reader := .idle, reads := c.reads ++ [chunk], credits := c.credits ++ [credit] }
  | refuse {chunk : Chunk} {credit : ℕ} (took : c.reader = .took chunk)
      (some : chunk.credit = some credit) : Step c .refuse { c with reader := .idle }

def taken (c : Channel) : List Chunk :=
  match c.reader with
  | .took chunk => [chunk]
  | _ => []

def chunks (c : Channel) : List Chunk := c.reads ++ c.taken

def held (c : Channel) : List UInt8 := c.chunks.flatMap Chunk.bytes ++ c.inbox.bytes

def beforeEnd (chunks : List Chunk) : List Chunk :=
  chunks.takeWhile fun chunk => chunk.ending.isNone

variable {c c' : Channel} {act : ChannelAct}

lemma taken_of_ne {reader : Reader} (h : c.reader = reader)
    (hne : ∀ chunk, reader ≠ .took chunk) : c.taken = [] := by
  rw [taken, h]
  cases reader with
  | took chunk => exact absurd rfl (hne chunk)
  | _ => rfl

lemma taken_took {chunk : Chunk} (h : c.reader = .took chunk) : c.taken = [chunk] := by
  rw [taken, h]

lemma push_cases {inbox inbox' : Inbox} {bytes : List UInt8}
    (h : inbox.push bytes = (some true, inbox')) :
    inbox.ending = none ∧ inbox.bytes.length + bytes.length ≤ maxBuffered ∧
      inbox' = { inbox with bytes := inbox.bytes ++ bytes } := by
  rw [Inbox.push] at h
  split at h
  · simp at h
  · rename_i hnone
    split at h
    · simp at h
    · rename_i hfits
      have hinbox : { inbox with bytes := inbox.bytes ++ bytes } = inbox' := by simpa using h
      exact ⟨by simpa using hnone, not_lt.mp hfits, hinbox.symm⟩

lemma credit_some {chunk : Chunk} {credit : ℕ} (h : chunk.credit = some credit) :
    chunk.ending = none ∧ credit = chunk.bytes.length ∧ 0 < chunk.bytes.length := by
  obtain ⟨⟨-, hpos, hnone⟩, hcredit⟩ := Option.ite_none_right_eq_some.mp h
  exact ⟨hnone, (Option.some.inj hcredit).symm, hpos⟩

lemma credit_none {chunk : Chunk} (h : chunk.credit = none) (hsize : chunk.bytes.length ≤ maxBuffered)
    (hend : chunk.ending = none) : chunk.bytes = [] := by
  by_contra hne
  have hpos : 0 < chunk.bytes.length := List.length_pos_iff.mpr hne
  have hlt : chunk.bytes.length < 2 ^ 32 := by
    rw [maxBuffered] at hsize
    omega
  rw [Chunk.credit, if_pos ⟨hlt, hpos, hend⟩] at h
  cases h

lemma Step.held (hs : Step c act c') :
    (act ≠ .refuse ∧ ∃ more, c'.pushed = c.pushed ++ more ∧ c'.held = c.held ++ more) ∨
      act = .refuse ∧ c'.pushed = c.pushed ∧ c'.held.length < c.held.length := by
  have hsame : c'.pushed = c.pushed → c'.held = c.held → act ≠ .refuse →
      (act ≠ .refuse ∧ ∃ more, c'.pushed = c.pushed ++ more ∧ c'.held = c.held ++ more) ∨
      act = .refuse ∧ c'.pushed = c.pushed ∧ c'.held.length < c.held.length := by
    intro hpushed hheld hact
    exact Or.inl ⟨hact, [], by rw [hpushed, List.append_nil], by rw [hheld, List.append_nil]⟩
  cases hs with
  | ended _ _ => exact hsame rfl rfl nofun
  | pastCredit _ _ => exact hsame rfl rfl nofun
  | @push bytes inbox _ pushed =>
    obtain ⟨-, -, rfl⟩ := push_cases pushed
    refine Or.inl ⟨nofun, bytes, rfl, ?_⟩
    simp [Channel.held, chunks, taken]
  | finish _ _ => exact hsame rfl rfl nofun
  | signal _ => exact hsame rfl rfl nofun
  | readReady idle _ =>
    refine hsame rfl ?_ nofun
    simp [Channel.held, chunks, taken, idle]
  | readWait idle _ =>
    refine hsame rfl ?_ nofun
    simp [Channel.held, chunks, taken, idle]
  | woken waiting _ =>
    refine hsame rfl ?_ nofun
    simp [Channel.held, chunks, taken, waiting]
  | timeout waiting =>
    refine hsame rfl ?_ nofun
    simp [Channel.held, chunks, taken, waiting]
  | take ready =>
    refine hsame rfl ?_ nofun
    simp [Channel.held, chunks, taken, ready, Inbox.take]
  | returns took _ =>
    refine hsame rfl ?_ nofun
    simp [Channel.held, chunks, taken, took]
  | credit took _ =>
    refine hsame rfl ?_ nofun
    simp [Channel.held, chunks, taken, took]
  | @refuse chunk credit took some =>
    refine Or.inr ⟨rfl, rfl, ?_⟩
    have hpos := (credit_some some).2.2
    simp [Channel.held, chunks, taken, took]
    omega

structure Sound (c : Channel) : Prop where
  done : c.inbox.takenEnd = true → c.inbox.ending.isSome = true ∧ c.inbox.bytes = []
  ends : c.chunks.filterMap Chunk.ending =
    if c.inbox.takenEnd then c.inbox.ending.toList else []
  last : c.chunks.Pairwise fun chunk later => chunk.ending.isSome = true → later.bytes = []
  credit : c.credits.sum = ((beforeEnd c.reads).flatMap Chunk.bytes).length
  chunk : ∀ chunk ∈ c.taken, chunk.bytes.length ≤ maxBuffered
  bounded : c.inbox.bytes.length ≤ maxBuffered

lemma beforeEnd_concat {reads : List Chunk} {chunk : Chunk}
    (h : chunk.ending.isSome = true ∨ chunk.bytes = []) :
    (beforeEnd (reads ++ [chunk])).flatMap Chunk.bytes = (beforeEnd reads).flatMap Chunk.bytes := by
  rw [beforeEnd, beforeEnd, List.takeWhile_append]
  split
  · rename_i hall
    have hreads : reads.takeWhile (fun chunk => chunk.ending.isNone) = reads :=
      (List.takeWhile_sublist _).eq_of_length hall
    rw [hreads]
    rcases h with hend | hempty
    · simp [List.takeWhile, Option.isNone_eq_false_iff.mpr hend]
    · cases hchunk : chunk.ending.isNone with
      | true => simp [List.takeWhile, hchunk, hempty]
      | false => simp [List.takeWhile, hchunk]
  · rfl

lemma beforeEnd_of_none {reads : List Chunk} (h : ∀ chunk ∈ reads, chunk.ending = none) :
    beforeEnd reads = reads := by
  refine List.takeWhile_eq_self_iff.2 fun chunk hm => ?_
  simp [h chunk hm]

lemma Sound.kept (h : Sound c) (hreads : c'.reads = c.reads) (htaken : c'.taken = c.taken)
    (hinbox : c'.inbox = c.inbox) (hcredits : c'.credits = c.credits) : Sound c' := by
  have hchunks : c'.chunks = c.chunks := by rw [chunks, hreads, htaken, chunks]
  refine ⟨?_, ?_, ?_, ?_, ?_, ?_⟩
  · rw [hinbox]
    exact h.done
  · rw [hinbox, hchunks]
    exact h.ends
  · rw [hchunks]
    exact h.last
  · rw [hcredits, hreads]
    exact h.credit
  · rw [htaken]
    exact h.chunk
  · rw [hinbox]
    exact h.bounded

lemma Sound.none_of_open (h : Sound c) (hopen : c.inbox.takenEnd = false) :
    ∀ chunk ∈ c.chunks, chunk.ending = none := by
  have hends := h.ends
  rw [hopen] at hends
  exact List.filterMap_eq_nil_iff.mp hends

lemma Sound.push {bytes : List UInt8} {inbox : Inbox} (h : Sound c)
    (hpushed : c.inbox.push bytes = (some true, inbox)) :
    Sound { c with inbox := inbox, pushed := c.pushed ++ bytes, signalling := true } := by
  obtain ⟨hnone, hfits, rfl⟩ := push_cases hpushed
  refine ⟨fun htaken => ?_, h.ends, h.last, h.credit, h.chunk, ?_⟩
  · have := (h.done htaken).1
    simp [hnone] at this
  · rw [List.length_append]
    exact hfits

lemma Sound.finish (h : Sound c) (ending : End) :
    Sound { c with inbox := c.inbox.finish ending, signalling := true } := by
  refine ⟨fun htaken => ⟨rfl, (h.done htaken).2⟩, ?_, h.last, h.credit, h.chunk, h.bounded⟩
  change c.chunks.filterMap Chunk.ending = _
  rw [h.ends]
  change _ = if c.inbox.takenEnd then (some (c.inbox.ending.getD ending)).toList else []
  cases htaken : c.inbox.takenEnd with
  | false => rfl
  | true =>
    obtain ⟨e, he⟩ := Option.isSome_iff_exists.mp (h.done htaken).1
    rw [he]
    rfl

lemma Sound.turned {reader reader' : Reader} {wake : Bool} (h : Sound c) (hreader : c.reader = reader)
    (hne : ∀ chunk, reader ≠ .took chunk) (hne' : ∀ chunk, reader' ≠ .took chunk) :
    Sound { c with wake, reader := reader' } :=
  h.kept rfl ((taken_of_ne rfl hne').trans (taken_of_ne hreader hne).symm) rfl rfl

lemma Sound.take (h : Sound c) (hready : c.reader = .ready) :
    Sound { c with inbox := c.inbox.take.2, reader := .took c.inbox.take.1 } := by
  have htaken : c.taken = [] := taken_of_ne hready (by simp)
  have hnew : chunks { c with inbox := c.inbox.take.2, reader := .took c.inbox.take.1 } =
      c.chunks ++ [c.inbox.take.1] := by
    rw [chunks, chunks, htaken, List.append_nil]
    rfl
  refine ⟨?_, ?_, ?_, h.credit, ?_, Nat.zero_le _⟩
  · intro htaken
    refine ⟨?_, rfl⟩
    change (c.inbox.takenEnd || _) = true at htaken
    cases hopen : c.inbox.takenEnd with
    | true => exact (h.done hopen).1
    | false =>
      change c.inbox.ending.isSome = true
      simpa [hopen] using htaken
  · rw [hnew, List.filterMap_append, h.ends]
    cases hopen : c.inbox.takenEnd with
    | true => simp [Inbox.take, hopen]
    | false => cases hend : c.inbox.ending <;> simp [Inbox.take, hopen, hend]
  · rw [hnew]
    refine List.pairwise_append.mpr ⟨h.last, List.pairwise_singleton _ _, ?_⟩
    intro chunk hm later hl hend
    obtain rfl := List.mem_singleton.mp hl
    have hopen : c.inbox.takenEnd = true := by
      by_contra hopen
      rw [h.none_of_open (by simpa using hopen) chunk hm] at hend
      cases hend
    exact (h.done hopen).2
  · intro chunk hm
    obtain rfl := List.mem_singleton.mp hm
    exact h.bounded

lemma Sound.read {chunk : Chunk} {credits : List ℕ} (h : Sound c) (htook : c.reader = .took chunk)
    (hcredits : credits.sum = ((beforeEnd (c.reads ++ [chunk])).flatMap Chunk.bytes).length) :
    Sound { c with reader := .idle, reads := c.reads ++ [chunk], credits } := by
  have hnew : chunks { c with reader := .idle, reads := c.reads ++ [chunk], credits } = c.chunks := by
    rw [chunks, chunks, taken_took htook]
    exact List.append_nil _
  refine ⟨h.done, ?_, ?_, hcredits, List.forall_mem_nil _, h.bounded⟩
  · rw [hnew]
    exact h.ends
  · rw [hnew]
    exact h.last

lemma chunks_took {chunk : Chunk} (htook : c.reader = .took chunk) :
    c.chunks = c.reads ++ [chunk] := by rw [chunks, taken_took htook]

lemma Sound.returns {chunk : Chunk} (h : Sound c) (htook : c.reader = .took chunk)
    (hcredit : chunk.credit = none) :
    Sound { c with reader := .idle, reads := c.reads ++ [chunk] } := by
  have hquiet : chunk.ending.isSome = true ∨ chunk.bytes = [] := by
    cases hend : chunk.ending with
    | some e => exact Or.inl rfl
    | none =>
      refine Or.inr (credit_none hcredit (h.chunk chunk ?_) hend)
      rw [taken_took htook]
      exact List.mem_singleton_self _
  refine h.read htook ?_
  rw [beforeEnd_concat hquiet]
  exact h.credit

lemma Sound.credited {chunk : Chunk} {credit : ℕ} (h : Sound c) (htook : c.reader = .took chunk)
    (hcredit : chunk.credit = some credit) :
    Sound { c with reader := .idle, reads := c.reads ++ [chunk], credits := c.credits ++ [credit] } := by
  obtain ⟨hend, rfl, hpos⟩ := credit_some hcredit
  have hlast := h.last
  rw [chunks_took htook] at hlast
  have hnone : ∀ read ∈ c.reads, read.ending = none := by
    intro read hm
    have hbytes := (List.pairwise_append.mp hlast).2.2 read hm chunk (List.mem_singleton_self _)
    by_contra hsome
    rw [hbytes (Option.isSome_iff_ne_none.mpr hsome)] at hpos
    cases hpos
  have hall : ∀ read ∈ c.reads ++ [chunk], read.ending = none := by
    intro read hm
    rcases List.mem_append.mp hm with hm | hm
    · exact hnone read hm
    · rw [List.mem_singleton.mp hm]
      exact hend
  have hsum := h.credit
  rw [beforeEnd_of_none hnone] at hsum
  refine h.read htook ?_
  rw [beforeEnd_of_none hall, List.sum_append, hsum]
  simp

lemma Sound.refused {chunk : Chunk} {credit : ℕ} (h : Sound c) (htook : c.reader = .took chunk)
    (hcredit : chunk.credit = some credit) : Sound { c with reader := .idle } := by
  obtain ⟨hend, -, -⟩ := credit_some hcredit
  have hnew : chunks { c with reader := .idle } = c.reads := List.append_nil _
  have hends := h.ends
  have hlast := h.last
  rw [chunks_took htook] at hends hlast
  refine ⟨h.done, ?_, ?_, h.credit, List.forall_mem_nil _, h.bounded⟩
  · rw [hnew, ← hends]
    simp [hend]
  · rw [hnew]
    exact (List.pairwise_append.mp hlast).1

lemma Sound.step (h : Sound c) (hs : Step c act c') : Sound c' := by
  cases hs with
  | ended _ _ => exact h
  | pastCredit _ _ => exact h
  | push _ pushed => exact h.push pushed
  | finish ending _ => exact h.finish ending
  | signal _ => exact h.kept rfl rfl rfl rfl
  | readReady idle _ => exact h.turned idle (by simp) (by simp)
  | readWait idle _ => exact h.turned idle (by simp) (by simp)
  | woken waiting _ => exact h.turned waiting (by simp) (by simp)
  | timeout waiting => exact h.turned waiting (by simp) (by simp)
  | take ready => exact h.take ready
  | returns took none => exact h.returns took none
  | credit took some => exact h.credited took some
  | refuse took some => exact h.refused took some

structure Delivers (c : Channel) : Prop where
  bytes : c.held = c.pushed
  sound : Sound c
  all : ∀ c', Step c .take c' →
    c'.inbox.bytes = [] ∧ c'.inbox.takenEnd = c'.inbox.ending.isSome

lemma take_all (h : Sound c) (hs : Step c .take c') :
    c'.inbox.bytes = [] ∧ c'.inbox.takenEnd = c'.inbox.ending.isSome := by
  cases hs with
  | take _ =>
    refine ⟨rfl, ?_⟩
    change (c.inbox.takenEnd || (if c.inbox.takenEnd then none else c.inbox.ending).isSome) = _
    cases hopen : c.inbox.takenEnd with
    | true => exact (h.done hopen).1.symm
    | false => rfl

lemma sound_opened : Sound opened :=
  ⟨nofun, rfl, .nil, rfl, List.forall_mem_nil _, Nat.zero_le _⟩

lemma run_held {acts : List ChannelAct} (hr : Run Step opened acts c) :
    (.refuse ∉ acts → c.held = c.pushed) ∧ (.refuse ∈ acts → c.held.length < c.pushed.length) := by
  induction hr with
  | nil => exact ⟨fun _ => rfl, nofun⟩
  | @snoc acts t u act _ hs ih =>
    obtain ⟨hkept, hlost⟩ := ih
    simp only [List.mem_append, List.mem_singleton, not_or]
    rcases hs.held with ⟨hact, more, hpushed, hheld⟩ | ⟨rfl, hpushed, hheld⟩
    · rw [hpushed, hheld, List.length_append, List.length_append]
      refine ⟨fun h => by rw [hkept h.1], fun h => ?_⟩
      have := hlost (h.resolve_right fun heq => hact heq.symm)
      omega
    · refine ⟨fun h => absurd rfl h.2, fun _ => ?_⟩
      rw [hpushed]
      by_cases hm : .refuse ∈ acts
      · exact hheld.trans (hlost hm)
      · rw [← hkept hm]
        exact hheld

theorem delivers_iff_no_refusal {acts : List ChannelAct} (hr : Run Step opened acts c) :
    Delivers c ↔ .refuse ∉ acts := by
  have hsound : Sound c := hr.invariant sound_opened fun _ _ _ h hs => h.step hs
  obtain ⟨hkept, hlost⟩ := run_held hr
  constructor
  · intro h hm
    have := hlost hm
    rw [h.bytes] at this
    exact absurd this (lt_irrefl _)
  · intro hm
    exact ⟨hkept hm, hsound, fun _ hs => take_all hsound hs⟩

def lostByte : Channel := { opened with wake := true, pushed := [97] }

theorem refused_read_loses_byte :
    Run Step opened [.push [97], .signal, .read, .take, .refuse] lostByte ∧ ¬Delivers lostByte := by
  have hpush : Step opened (.push [97]) _ := .push rfl rfl
  have hr : Run Step opened [.push [97], .signal, .read, .take, .refuse] lostByte :=
    ((((Run.nil.snoc hpush).snoc (.signal rfl)).snoc (.readReady rfl rfl)).snoc (.take rfl)).snoc
      (.refuse rfl rfl)
  refine ⟨hr, fun h => ?_⟩
  have hbytes : [] = [(97 : UInt8)] := h.bytes
  cases hbytes

theorem delivers_iff_no_refusal_credited : ∃ c, Run Step opened
    [.push [97, 98], .signal, .read, .take, .credit, .read, .push [99], .signal, .woken, .take,
      .credit, .finish .lost, .signal, .read, .take, .returns] c ∧
      Delivers c ∧ c.credits = [2, 1] ∧ c.reads.map Chunk.bytes = [[97, 98], [99], []] := by
  have hpush : Step opened (.push [97, 98]) _ := .push rfl rfl
  have hfirst := ((((Run.nil.snoc hpush).snoc (.signal rfl)).snoc (.readReady rfl rfl)).snoc
    (.take rfl)).snoc (.credit rfl rfl)
  have hmore := (hfirst.snoc (.readWait rfl rfl)).snoc
    (.push rfl (show Inbox.push [99] _ = (some true, _) from rfl))
  have hsecond := (hmore.snoc (.signal rfl)).snoc (.woken rfl rfl)
  have hthird := (((hsecond.snoc (.take rfl)).snoc (.credit rfl rfl)).snoc (.finish .lost rfl)).snoc
    (.signal rfl)
  have hr := ((hthird.snoc (.readReady rfl rfl)).snoc (.take rfl)).snoc (.returns rfl rfl)
  exact ⟨_, hr, (delivers_iff_no_refusal hr).mpr (by simp), rfl, rfl⟩

end Channel

end Sheprd.Core
