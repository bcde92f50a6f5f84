import Sheprd.Core.Backend
import Sheprd.Lib.Run

namespace Sheprd.Core

open Sheprd.Lib

inductive WatchAct where
  | section (act : ChannelAct)
  | lost

structure Watching where
  channel : Channel
  watcher : Watcher

namespace Watching

variable (parse : List UInt8 → Except Error (Option Notice))

inductive Step (w : Watching) : WatchAct → Watching → Prop
  | inside {act : ChannelAct} {channel : Channel} (step : w.channel.Step act channel)
      (within : act ≠ .returns ∧ act ≠ .credit ∧ act ≠ .refuse)
      (unended : act = .read → w.watcher.changes.subscription.ended = false) :
      Step w (.section act) { w with channel }
  | returned {act : ChannelAct} {channel : Channel} {chunk : Chunk}
      (took : w.channel.reader = .took chunk) (step : w.channel.Step act channel)
      (back : act = .returns ∨ act = .credit) :
      Step w (.section act) ⟨channel, w.watcher.call parse (.ok chunk)⟩
  | refused {channel : Channel} {error : Error} (step : w.channel.Step .refuse channel)
      (full : error = .busy ∨ error = .lost) :
      Step w (.section .refuse) ⟨channel, w.watcher.call parse (.error error)⟩
  | lost (idle : w.channel.reader = .idle) (ended : w.watcher.changes.subscription.ended = true)
      (read : Except Error Chunk) :
      Step w .lost { w with watcher := w.watcher.call parse read }

end Watching

def Channel.arrived (c : Channel) : List UInt8 :=
  c.pushed.take (c.pushed.length - c.inbox.bytes.length)

def sections (acts : List WatchAct) : List ChannelAct :=
  acts.filterMap fun
    | .section act => some act
    | .lost => none

def sent (parse : List UInt8 → Except Error (Option Notice)) (bytes : List UInt8) : List Notice :=
  noticed parse ((Framed.Lines.whole bytes).filter fun line => !Framed.blank line)

section Calls

variable {parse : List UInt8 → Except Error (Option Notice)} {l : Framed.Lines}
  {chunks : List Chunk}

lemma feed_empty {pieces : List (List UInt8)} (h : ∀ piece ∈ pieces, piece = []) :
    l.feed pieces = (.ok [], l) := by
  induction pieces with
  | nil => rfl
  | cons piece pieces ih =>
    obtain ⟨rfl, hpieces⟩ := List.forall_mem_cons.mp h
    have hpush : l.push [] = (.ok [], l) := rfl
    rw [Framed.Lines.feed, hpush]
    simp only [ih hpieces, List.append_nil]

lemma received_ended (reads : List (Except Error Chunk)) :
    Subscription.received parse ⟨true, l⟩ reads = [] := by
  induction reads with
  | nil => rfl
  | cons read reads ih => exact ih

lemma noticed_append (front back : List (List UInt8)) :
    noticed parse (front ++ back) = noticed parse front ++ noticed parse back :=
  List.filterMap_append

lemma received_feed {lines : List (List UInt8)} (hfed : (l.feed (chunks.map Chunk.bytes)).1 = .ok lines)
    (hlast : chunks.Pairwise fun chunk later => chunk.ending.isSome = true → later.bytes = []) :
    Subscription.received parse ⟨false, l⟩ (chunks.map Except.ok) = noticed parse lines := by
  induction chunks generalizing l lines with
  | nil =>
    obtain rfl := Except.ok.inj hfed
    rfl
  | cons chunk chunks ih =>
    obtain ⟨hempty, hlast⟩ := List.pairwise_cons.mp hlast
    rw [List.map_cons, Framed.Lines.feed] at hfed
    rcases hpush : l.push chunk.bytes with ⟨result, l'⟩
    rw [hpush] at hfed
    cases result with
    | error violation => cases hfed
    | ok found =>
      rcases hmore : l'.feed (chunks.map Chunk.bytes) with ⟨result', l''⟩
      simp only [hmore] at hfed
      cases result' with
      | error violation => cases hfed
      | ok lines' =>
        obtain rfl := Except.ok.inj hfed
        rw [noticed_append]
        simp only [List.map_cons, Subscription.received, Subscription.next, Bool.false_eq_true,
          if_false, hpush]
        cases hend : chunk.ending.isSome with
        | false =>
          simp only [Bool.false_eq_true, false_and, if_false]
          rw [ih (congrArg Prod.fst hmore) hlast]
        | true =>
          have hnone : ∀ piece ∈ chunks.map Chunk.bytes, piece = [] :=
            List.forall_mem_map.mpr fun later hm => hempty later hm hend
          rw [feed_empty hnone] at hmore
          obtain rfl := Except.ok.inj (Prod.mk.inj hmore).1
          by_cases hfound : noticed parse found = []
          · simp only [hfound, true_and, if_true, received_ended]
            rfl
          · simp only [hfound, and_false, if_false, received_ended]
            rfl

lemma Watcher.call_ended {w : Watcher} (h : w.changes.subscription.ended = true)
    (read : Except Error Chunk) : w.call parse read = w := by
  obtain ⟨⟨records, seq, ⟨ended, lines⟩⟩, view⟩ := w
  obtain rfl : ended = true := h
  rfl

end Calls

section Runs

variable {parse : List UInt8 → Except Error (Option Notice)} {c c' : Channel} {act : ChannelAct}
  {w : Watching} {start : Watcher} {acts : List WatchAct}

lemma Channel.Step.reads_inside (h : c.Step act c')
    (within : act ≠ .returns ∧ act ≠ .credit ∧ act ≠ .refuse) : c'.reads = c.reads := by
  obtain ⟨hreturns, hcredit, -⟩ := within
  cases h with
  | returns _ _ => exact absurd rfl hreturns
  | credit _ _ => exact absurd rfl hcredit
  | _ => rfl

lemma Channel.Step.reads_back {chunk : Chunk} (h : c.Step act c') (took : c.reader = .took chunk)
    (back : act = .returns ∨ act = .credit) : c'.reads = c.reads ++ [chunk] := by
  have hsame {other : Chunk} (h : c.reader = .took other) : other = chunk := by
    rw [took] at h
    exact (Reader.took.inj h).symm
  cases h with
  | returns other _ => rw [hsame other]
  | credit other _ => rw [hsame other]
  | _ => exact absurd back (by simp)

lemma mem_sections : act ∈ sections acts ↔ .section act ∈ acts := by
  rw [sections, List.mem_filterMap]
  constructor
  · rintro ⟨other | _, hm, heq⟩
    · obtain rfl := Option.some.inj heq
      exact hm
    · cases heq
  · exact fun hm => ⟨_, hm, rfl⟩

lemma run_channel (h : Run (Watching.Step parse) ⟨.opened, start⟩ acts w) :
    Run Channel.Step .opened (sections acts) w.channel := by
  induction h with
  | nil => exact .nil
  | @snoc acts t u act _ hs ih =>
    rw [sections, List.filterMap_append]
    cases hs with
    | inside step _ _ => exact ih.snoc step
    | returned _ step _ => exact ih.snoc step
    | refused step _ => exact ih.snoc step
    | lost _ _ _ =>
      change Run Channel.Step _ (sections acts ++ []) t.channel
      rwa [List.append_nil]

lemma run_watcher (h : Run (Watching.Step parse) ⟨.opened, start⟩ acts w)
    (hrefused : .section .refuse ∉ acts) :
    w.watcher = (w.channel.reads.map Except.ok).foldl (Watcher.call parse) start := by
  induction h with
  | nil => rfl
  | @snoc acts t u act _ hs ih =>
    rw [List.mem_append, not_or] at hrefused
    have ih := ih hrefused.1
    cases hs with
    | inside step within _ => rw [step.reads_inside within, ih]
    | returned took step back =>
      rw [step.reads_back took back, List.map_append, List.foldl_append, ← ih]
      rfl
    | refused _ _ => exact absurd (List.mem_singleton_self _) hrefused.2
    | lost _ ended read =>
      rw [← ih]
      exact Watcher.call_ended ended read

end Runs

def titledLine : List UInt8 :=
  [123, 34, 109, 101, 116, 104, 111, 100, 34, 58, 34, 101, 118, 101, 110, 116, 34, 44, 34,
   112, 97, 114, 97, 109, 115, 34, 58, 123, 34, 100, 97, 116, 97, 34, 58, 123, 34, 116, 105,
   116, 108, 101, 34, 58, 34, 118, 105, 109, 34, 125, 44, 34, 115, 101, 113, 34, 58, 49, 44,
   34, 116, 101, 114, 109, 105, 110, 97, 108, 34, 58, 34, 116, 49, 34, 44, 34, 116, 121, 112,
   101, 34, 58, 34, 116, 105, 116, 108, 101, 34, 125, 125]

example : titledLine = ("\x7b\"method\":\"event\",\"params\":\x7b\"data\":\x7b\"title\":\"vim\"\x7d,\"seq\":1,\"terminal\":\"t1\",\"type\":\"title\"\x7d\x7d").toList.map
    fun c => UInt8.ofNat c.toNat := by decide +kernel

def removedLine (address : List UInt8) : List UInt8 :=
  [123, 34, 109, 101, 116, 104, 111, 100, 34, 58, 34, 101, 118, 101, 110, 116, 34, 44, 34,
   112, 97, 114, 97, 109, 115, 34, 58, 123, 34, 115, 101, 113, 34, 58, 50, 44, 34, 116, 101,
   114, 109, 105, 110, 97, 108, 34, 58, 34] ++ address ++
    [34, 44, 34, 116, 121, 112, 101, 34, 58, 34, 114, 101, 109, 111, 118, 101, 100, 34, 125,
     125]

example : removedLine [116, 50] = ("\x7b\"method\":\"event\",\"params\":\x7b\"seq\":2,\"terminal\":\"t2\",\"type\":\"removed\"\x7d\x7d").toList.map
    fun c => UInt8.ofNat c.toNat := by decide +kernel

def parsed (line : List UInt8) : Except Error (Option Notice) :=
  if line = titledLine then .ok (some (.event ⟨.title (some "vim"), 1, "t1"⟩))
  else if line = removedLine [116, 50] then .ok (some (.event ⟨.removed, 2, "t2"⟩))
  else if line = removedLine [] then .ok (some (.event ⟨.removed, 2, ""⟩))
  else .error .protocol

def shell : Terminal :=
  ⟨"t1", 80, "", none, none, true, [], none, none, none, 24, .live, none, none⟩

def shellInfo : TerminalInfo :=
  ⟨.unknown, none, ⟨"t1", by decide +kernel⟩, [], none, .running, none⟩

def watched : CoreChanges := ⟨Records.collect [shell], 0, .opened⟩

def watching : Watching := ⟨.opened, ⟨watched, View.collect [shellInfo]⟩⟩

lemma watch_shell : watch 0 [shell] = .ok ([shellInfo], watched) := by
  rw [watch]
  have hi : (Records.collect [shell]).infos = .ok [shellInfo] := by decide +kernel
  rw [hi]
  rfl

def batch (address : List UInt8) : List UInt8 := titledLine ++ [10] ++ removedLine address ++ [10]

def readOf (bytes : List UInt8) : List WatchAct :=
  [.section (.push bytes), .section .signal, .section .read, .section .take]

structure Fresh (w : Watching) : Prop where
  inbox : w.channel.inbox = ⟨[], none, false⟩
  signalling : w.channel.signalling = false
  idle : w.channel.reader = .idle
  unended : w.watcher.changes.subscription.ended = false

def taking (w : Watching) (bytes : List UInt8) : Channel :=
  { w.channel with
    wake := true, pushed := w.channel.pushed ++ bytes, reader := .took ⟨bytes, none⟩ }

def afterRead (w : Watching) (bytes : List UInt8) : Watching :=
  ⟨{ taking w bytes with
      reader := .idle, reads := w.channel.reads ++ [⟨bytes, none⟩]
      credits := w.channel.credits ++ [bytes.length] },
    w.watcher.call parsed (.ok ⟨bytes, none⟩)⟩

def afterRefusal (w : Watching) (bytes : List UInt8) : Watching :=
  ⟨{ taking w bytes with reader := .idle }, w.watcher.call parsed (.error .busy)⟩

lemma inside_step {channel channel' : Channel} {watcher : Watcher} {act : ChannelAct}
    (step : channel.Step act channel') (within : act ≠ .returns ∧ act ≠ .credit ∧ act ≠ .refuse)
    (unended : act = .read → watcher.changes.subscription.ended = false) :
    Watching.Step parsed ⟨channel, watcher⟩ (.section act) ⟨channel', watcher⟩ :=
  .inside step within unended

lemma run_taking {w : Watching} (h : Fresh w) {bytes : List UInt8} (hne : bytes ≠ [])
    (hsize : bytes.length ≤ maxBuffered) :
    Run (Watching.Step parsed) w (readOf bytes) ⟨taking w bytes, w.watcher⟩ := by
  obtain ⟨⟨inbox, wake, signalling, reader, pushed, reads, credits⟩, watcher⟩ := w
  obtain ⟨rfl, rfl, rfl, hunended⟩ := h
  have hpush : Inbox.push bytes ⟨[], none, false⟩ = (some true, ⟨bytes, none, false⟩) := by
    simp [Inbox.push, hsize]
  have hready : Inbox.ready ⟨bytes, none, false⟩ = true := by
    simp [Inbox.ready, hne]
  have hpushed : Channel.Step ⟨⟨[], none, false⟩, wake, false, .idle, pushed, reads, credits⟩
      (.push bytes) ⟨⟨bytes, none, false⟩, wake, true, .idle, pushed ++ bytes, reads, credits⟩ :=
    .push rfl hpush
  have hsignalled : Channel.Step ⟨⟨bytes, none, false⟩, wake, true, .idle, pushed ++ bytes, reads, credits⟩
      .signal ⟨⟨bytes, none, false⟩, true, false, .idle, pushed ++ bytes, reads, credits⟩ := .signal rfl
  have hread : Channel.Step ⟨⟨bytes, none, false⟩, true, false, .idle, pushed ++ bytes, reads, credits⟩
      .read ⟨⟨bytes, none, false⟩, true, false, .ready, pushed ++ bytes, reads, credits⟩ :=
    .readReady rfl hready
  have htake : Channel.Step ⟨⟨bytes, none, false⟩, true, false, .ready, pushed ++ bytes, reads, credits⟩
      .take ⟨⟨[], none, false⟩, true, false, .took ⟨bytes, none⟩, pushed ++ bytes, reads, credits⟩ :=
    .take rfl
  exact (((Run.nil.snoc (inside_step hpushed (by simp) (by simp))).snoc
    (inside_step hsignalled (by simp) (by simp))).snoc
    (inside_step hread (by simp) fun _ => hunended)).snoc (inside_step htake (by simp) (by simp))

lemma credit_of_size {bytes : List UInt8} (hne : bytes ≠ []) (hsize : bytes.length ≤ maxBuffered) :
    Chunk.credit ⟨bytes, none⟩ = some bytes.length := by
  rw [maxBuffered] at hsize
  rw [Chunk.credit, if_pos ⟨by simp only; omega, List.length_pos_iff.mpr hne, rfl⟩]

lemma run_read {w : Watching} (h : Fresh w) {bytes : List UInt8} (hne : bytes ≠ [])
    (hsize : bytes.length ≤ maxBuffered) :
    Run (Watching.Step parsed) w (readOf bytes ++ [.section .credit]) (afterRead w bytes) :=
  (run_taking h hne hsize).snoc (.returned rfl (.credit rfl (credit_of_size hne hsize)) (.inr rfl))

lemma run_refusal {w : Watching} (h : Fresh w) {bytes : List UInt8} (hne : bytes ≠ [])
    (hsize : bytes.length ≤ maxBuffered) :
    Run (Watching.Step parsed) w (readOf bytes ++ [.section .refuse]) (afterRefusal w bytes) :=
  (run_taking h hne hsize).snoc (.refused (.refuse rfl (credit_of_size hne hsize)) (.inl rfl))

lemma fresh_watching : Fresh watching := ⟨rfl, rfl, rfl, rfl⟩

def cut : Watching := afterRead watching ((batch [116, 50]).take 20)

def joined : Watching := afterRead cut ((batch [116, 50]).drop 20)

end Sheprd.Core
