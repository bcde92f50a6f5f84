import Sheprd.Client.Event

namespace Sheprd.Client

open Sheprd.Lib Sheprd.Lib.Bincode Sheprd.Protocol

inductive Ready where
  | data (more : ℕ)
  | wouldBlock
  | timedOut
  | interrupted
  | failed

structure Arrival where
  ready : Ready
  now : ℕ
  late : Bool

structure FrameReader where
  bytes : List UInt8
  target : ℕ
  started : Option ℕ

structure Link where
  reader : FrameReader
  stream : List UInt8

def FrameReader.new : FrameReader := ⟨[], 4, none⟩

namespace Link

def complete (l : Link) : Except Error (Option ServerMessage) × Link :=
  if l.reader.bytes.length ≠ l.reader.target then (.ok none, l)
  else if l.reader.target = 4 then
    let len := littleEndian l.reader.bytes
    if len = 0 ∨ maxGraphicsFrameSize < len then (.error .frameLength, l)
    else (.ok none, { l with reader := { l.reader with target := l.reader.target + len } })
  else
    match decodePayload Decode.serverMessage (l.reader.bytes.drop 4) with
    | .error e => (.error (.protocol e), l)
    | .ok message => (.ok (some message), { l with reader := .new })

def poll (a : Arrival) (l : Link) : Option (Except Error (Option ServerMessage) × Link) :=
  if l.reader.target < l.reader.bytes.length then none
  else
    let len := min 8192 (l.reader.target - l.reader.bytes.length)
    match a.ready with
    | .wouldBlock | .timedOut | .interrupted => some (.ok none, l)
    | .failed => some (.error .io, l)
    | .data more =>
        let chunk := l.stream.take (min (more + 1) len)
        if chunk = [] then some (.error .socketClosed, l)
        else
          some (complete
            { reader := { l.reader with
                bytes := l.reader.bytes ++ chunk
                started := some (l.reader.started.getD a.now) }
              stream := l.stream.drop chunk.length })

def pollBatch : ℕ → List Arrival → Link →
    Option (Except Error (Option ServerMessage) × Link × List Arrival)
  | 0, arrivals, l => some (.ok none, l, arrivals)
  | _ + 1, [], l => some (.ok none, l, [])
  | n + 1, a :: arrivals, l =>
      match poll a l with
      | none => none
      | some (.error e, l') => some (.error e, l', arrivals)
      | some (.ok (some message), l') => some (.ok (some message), l', arrivals)
      | some (.ok none, l') =>
          if l'.reader.bytes.length = l.reader.bytes.length ∨ a.late then
            some (.ok none, l', arrivals)
          else pollBatch n arrivals l'

def receiveFuel : ℕ → List Arrival → Link → Option (List ServerMessage × Option Error × Link)
  | 0, _, l => some ([], none, l)
  | _ + 1, [], l => some ([], none, l)
  | n + 1, a :: arrivals, l =>
      match pollBatch 128 (a :: arrivals) l with
      | none => none
      | some (.error e, l', _) => some ([], some e, l')
      | some (.ok message, l', rest) =>
          (receiveFuel n rest l').map fun r => (message.toList ++ r.1, r.2)

def receive (arrivals : List Arrival) (l : Link) :
    Option (List ServerMessage × Option Error × Link) :=
  receiveFuel arrivals.length arrivals l

def pending (l : Link) : List UInt8 := l.reader.bytes ++ l.stream

end Link

def readFrame (input : List UInt8) : Except Protocol.Error (ServerMessage × List UInt8) :=
  readMessage Decode.serverMessage maxGraphicsFrameSize input

def readFramesFuel : ℕ → List UInt8 → List ServerMessage
  | 0, _ => []
  | n + 1, input =>
      match readFrame input with
      | .error _ => []
      | .ok (message, rest) => message :: readFramesFuel n rest

def readFrames (input : List UInt8) : List ServerMessage := readFramesFuel input.length input

lemma readFrame_shorter {input rest : List UInt8} {message : ServerMessage}
    (h : readFrame input = .ok (message, rest)) : rest.length < input.length := by
  rw [readFrame, readMessage] at h
  split at h
  · exact absurd h (by simp)
  · dsimp only at h
    split at h
    · exact absurd h (by simp)
    · split at h
      · exact absurd h (by simp)
      · obtain ⟨m, -, h⟩ := bind_eq_ok.mp h
        cases h
        simp only [List.length_drop]
        omega

lemma readFramesFuel_nil (n : ℕ) : readFramesFuel n [] = [] := by
  cases n <;> rfl

lemma readFramesFuel_eq {n m : ℕ} {input : List UInt8} (hn : input.length ≤ n)
    (hm : input.length ≤ m) : readFramesFuel n input = readFramesFuel m input := by
  induction n generalizing m input with
  | zero =>
    obtain rfl : input = [] := List.eq_nil_of_length_eq_zero (by omega)
    rw [readFramesFuel_nil, readFramesFuel_nil]
  | succ n ih =>
    cases m with
    | zero =>
      obtain rfl : input = [] := List.eq_nil_of_length_eq_zero (by omega)
      rw [readFramesFuel_nil, readFramesFuel_nil]
    | succ m =>
      rw [readFramesFuel, readFramesFuel]
      cases hr : readFrame input with
      | error e => rfl
      | ok r =>
        obtain ⟨message, rest⟩ := r
        have hlt := readFrame_shorter hr
        exact congrArg _ (ih (by omega) (by omega))

lemma readFrames_error {input : List UInt8} {e : Protocol.Error} (h : readFrame input = .error e) :
    readFrames input = [] := by
  rw [readFrames]
  cases input with
  | nil => rfl
  | cons b bs => rw [List.length_cons, readFramesFuel, h]

lemma readFrames_ok {input rest : List UInt8} {message : ServerMessage}
    (h : readFrame input = .ok (message, rest)) :
    readFrames input = message :: readFrames rest := by
  have hlt := readFrame_shorter h
  rw [readFrames, readFramesFuel_eq le_rfl (Nat.le_succ _), readFramesFuel, h]
  exact congrArg _ (readFramesFuel_eq hlt.le le_rfl)

def Announced (r : FrameReader) : Prop :=
  r.target = 4 ∨ 4 ≤ r.bytes.length ∧ r.target = 4 + littleEndian (r.bytes.take 4) ∧
    0 < littleEndian (r.bytes.take 4) ∧ littleEndian (r.bytes.take 4) ≤ maxGraphicsFrameSize

structure Within (r : FrameReader) : Prop where
  room : r.bytes.length < r.target
  header : Announced r

lemma within_new : Within .new := ⟨by decide, Or.inl rfl⟩

lemma readFrame_within {r : FrameReader} (h : Within r) : readFrame r.bytes = .error .io := by
  have hroom := h.room
  rw [readFrame, readMessage]
  rcases h.header with ht | ⟨h4, ht, hpos, hmax⟩
  · rw [if_pos (by omega)]
  · rw [if_neg (by omega)]
    dsimp only
    rw [Nat.min_self, if_neg (by omega), if_pos (by rw [List.length_drop]; omega)]

lemma readFrame_badHeader {bytes stream : List UInt8} (hlen : bytes.length = 4)
    (h : littleEndian bytes = 0 ∨ maxGraphicsFrameSize < littleEndian bytes) :
    readFrame (bytes ++ stream) = .error .frameLimit := by
  rw [readFrame, readMessage, if_neg (by rw [List.length_append]; omega)]
  dsimp only
  rw [← hlen, List.take_left, Nat.min_self, if_pos h]

lemma readFrame_full {bytes : List UInt8} (stream : List UInt8) (h4 : 4 ≤ bytes.length)
    (hlen : bytes.length = 4 + littleEndian (bytes.take 4))
    (hpos : 0 < littleEndian (bytes.take 4))
    (hmax : littleEndian (bytes.take 4) ≤ maxGraphicsFrameSize) :
    readFrame (bytes ++ stream) =
      (decodePayload Decode.serverMessage (bytes.drop 4)).map fun message => (message, stream) := by
  have hdrop : (bytes.drop 4).length = littleEndian (bytes.take 4) := by
    rw [List.length_drop]
    omega
  rw [readFrame, readMessage, if_neg (by rw [List.length_append]; omega)]
  dsimp only
  rw [List.take_append_of_le_length h4, List.drop_append_of_le_length h4, Nat.min_self,
    if_neg (by omega), if_neg (by rw [List.length_append]; omega), ← hdrop, List.take_left,
    List.drop_left]
  cases decodePayload Decode.serverMessage (bytes.drop 4) <;> rfl

def isData (a : Arrival) : Bool :=
  match a.ready with
  | .data _ => true
  | _ => false

def Polled (l : Link) (used : List Arrival) : Except Error (Option ServerMessage) → Link → Prop
  | .ok none, l' => Within l'.reader ∧ l'.pending = l.pending ∧
      l'.stream.length + used.countP isData ≤ l.stream.length
  | .ok (some message), l' => l'.reader = .new ∧ readFrame l.pending = .ok (message, l'.stream) ∧
      l'.stream.length + used.countP isData ≤ l.stream.length
  | .error _, l' => l'.pending = l.pending ∧ l'.reader.bytes.length ≤ l'.reader.target ∧
      ((∃ a ∈ used, a.ready = .failed) ∨ ∃ e, readFrame l.pending = .error e)

lemma complete_spec {l : Link} (hle : l.reader.bytes.length ≤ l.reader.target)
    (hh : Announced l.reader) :
    (∃ l', l.complete = (.ok none, l') ∧ Within l'.reader ∧ l'.reader.bytes = l.reader.bytes ∧
      l'.stream = l.stream) ∨
    (∃ message, l.complete = (.ok (some message), { l with reader := .new }) ∧
      readFrame l.pending = .ok (message, l.stream)) ∨
    ∃ e e', l.complete = (.error e, l) ∧ readFrame l.pending = .error e' := by
  rw [Link.complete]
  split
  · rename_i hne
    exact Or.inl ⟨l, rfl, ⟨by omega, hh⟩, rfl, rfl⟩
  · rename_i heq
    rw [not_not] at heq
    split
    · rename_i ht
      dsimp only
      split
      · rename_i hbad
        exact Or.inr (Or.inr ⟨_, _, rfl, readFrame_badHeader (heq.trans ht) hbad⟩)
      · rename_i hgood
        rw [not_or] at hgood
        have htake : l.reader.bytes.take 4 = l.reader.bytes := List.take_of_length_le (by omega)
        refine Or.inl ⟨_, rfl, ⟨?_, Or.inr ⟨?_, ?_, ?_, ?_⟩⟩, rfl, rfl⟩
        · dsimp only
          omega
        · dsimp only
          omega
        · dsimp only
          rw [htake, ht]
        · dsimp only
          rw [htake]
          omega
        · dsimp only
          rw [htake]
          omega
    · rename_i ht
      rcases hh with h4 | ⟨h4, htarget, hpos, hmax⟩
      · exact absurd h4 ht
      · have hfull := readFrame_full l.stream h4 (heq.trans htarget) hpos hmax
        cases hd : decodePayload Decode.serverMessage (l.reader.bytes.drop 4) with
        | error e =>
          rw [hd] at hfull
          exact Or.inr (Or.inr ⟨_, _, rfl, hfull⟩)
        | ok message =>
          rw [hd] at hfull
          exact Or.inr (Or.inl ⟨message, rfl, hfull⟩)

lemma announced_append {r : FrameReader} (h : Announced r) (chunk : List UInt8)
    (started : Option ℕ) : Announced ⟨r.bytes ++ chunk, r.target, started⟩ := by
  rcases h with h | ⟨h4, h⟩
  · exact Or.inl h
  · refine Or.inr ⟨?_, ?_⟩
    · rw [List.length_append]
      omega
    · rw [List.take_append_of_le_length h4]
      exact h

lemma poll_spec {l : Link} (h : Within l.reader) (a : Arrival) :
    ∃ r l', l.poll a = some (r, l') ∧ Polled l [a] r l' := by
  have hroom := h.room
  rw [Link.poll, if_neg (by omega)]
  dsimp only
  cases hr : a.ready with
  | wouldBlock => exact ⟨_, _, rfl, h, rfl, by simp [isData, hr]⟩
  | timedOut => exact ⟨_, _, rfl, h, rfl, by simp [isData, hr]⟩
  | interrupted => exact ⟨_, _, rfl, h, rfl, by simp [isData, hr]⟩
  | failed => exact ⟨_, _, rfl, rfl, hroom.le, Or.inl ⟨a, by simp, hr⟩⟩
  | data more =>
    set n := min (more + 1) (min 8192 (l.reader.target - l.reader.bytes.length)) with hn
    dsimp only
    split
    · rename_i hc
      have hs : l.stream = [] := by
        rcases List.take_eq_nil_iff.mp hc with h0 | h0
        · omega
        · exact h0
      refine ⟨_, _, rfl, rfl, hroom.le, Or.inr ⟨.io, ?_⟩⟩
      rw [Link.pending, hs, List.append_nil]
      exact readFrame_within h
    · rename_i hc
      have hcl : (l.stream.take n).length ≤ n := List.length_take_le _ _
      have hcpos := List.length_pos_iff.mpr hc
      have hcs := List.length_take_le' n l.stream
      set chunk := l.stream.take n with hchunk
      have hdrop : l.stream.drop chunk.length = l.stream.drop n := by
        rw [hchunk, List.length_take]
        rcases Nat.le_total n l.stream.length with hle | hle
        · rw [Nat.min_eq_left hle]
        · rw [Nat.min_eq_right hle, List.drop_length, List.drop_of_length_le hle]
      have hpend : l.reader.bytes ++ chunk ++ l.stream.drop chunk.length = l.pending := by
        rw [hdrop, List.append_assoc, hchunk, List.take_append_drop, Link.pending]
      have hcount : (l.stream.drop chunk.length).length + [a].countP isData ≤ l.stream.length := by
        rw [List.length_drop]
        simp only [List.countP_singleton, isData, hr, if_true]
        omega
      have hspec := complete_spec (l := ⟨⟨l.reader.bytes ++ chunk, l.reader.target,
        some (l.reader.started.getD a.now)⟩, l.stream.drop chunk.length⟩)
        (by simp only [List.length_append]; omega) (announced_append h.header _ _)
      rcases hspec with ⟨l', hc', hw, hb, hs⟩ | ⟨message, hc', hf⟩ | ⟨e, e', hc', hf⟩
      · refine ⟨_, l', congrArg some hc', hw, ?_, ?_⟩
        · rw [Link.pending, hb, hs]
          exact hpend
        · rw [hs]
          exact hcount
      · exact ⟨_, _, congrArg some hc', rfl, (congrArg readFrame hpend).symm.trans hf, hcount⟩
      · refine ⟨_, _, congrArg some hc', hpend, ?_, Or.inr ⟨e', (congrArg readFrame hpend).symm.trans hf⟩⟩
        simp only [List.length_append]
        omega

lemma Polled.trans {l l₁ l' : Link} {used used' : List Arrival}
    {r : Except Error (Option ServerMessage)} (h : Polled l used (.ok none) l₁)
    (h' : Polled l₁ used' r l') : Polled l (used ++ used') r l' := by
  obtain ⟨-, hp, hc⟩ := h
  rcases r with e | _ | message
  · obtain ⟨hp', hb, he⟩ := h'
    refine ⟨hp'.trans hp, hb, ?_⟩
    rcases he with ⟨a, ha, hf⟩ | he
    · exact Or.inl ⟨a, List.mem_append_right _ ha, hf⟩
    · exact Or.inr (hp ▸ he)
  · obtain ⟨hw, hp', hc'⟩ := h'
    refine ⟨hw, hp'.trans hp, ?_⟩
    rw [List.countP_append]
    omega
  · obtain ⟨hn, hf, hc'⟩ := h'
    refine ⟨hn, hp ▸ hf, ?_⟩
    rw [List.countP_append]
    omega

lemma pollBatch_spec (n : ℕ) (arrivals : List Arrival) {l : Link} (h : Within l.reader) :
    ∃ r l' used rest, Link.pollBatch n arrivals l = some (r, l', rest) ∧ arrivals = used ++ rest ∧
      Polled l used r l' ∧ (0 < n → arrivals ≠ [] → used ≠ []) := by
  have hstay : Polled l [] (.ok none) l := ⟨h, rfl, by simp⟩
  induction n generalizing arrivals l with
  | zero => exact ⟨_, _, [], arrivals, rfl, rfl, hstay, by simp⟩
  | succ n ih =>
    cases arrivals with
    | nil => exact ⟨_, _, [], [], rfl, rfl, hstay, by simp⟩
    | cons a arrivals =>
      obtain ⟨r, l₁, hp, hs⟩ := poll_spec h a
      rw [Link.pollBatch, hp]
      rcases r with e | _ | message
      · exact ⟨_, _, [a], arrivals, rfl, rfl, hs, by simp⟩
      · dsimp only
        split
        · exact ⟨_, _, [a], arrivals, rfl, rfl, hs, by simp⟩
        · obtain ⟨r, l', used, rest, hb, ha, hs', -⟩ := ih arrivals hs.1 ⟨hs.1, rfl, by simp⟩
          exact ⟨r, l', a :: used, rest, hb, by rw [ha]; rfl, hs.trans hs', by simp⟩
      · exact ⟨_, _, [a], arrivals, rfl, rfl, hs, by simp⟩

inductive ReadsOff : List UInt8 → List ServerMessage → List UInt8 → Prop
  | nil (input : List UInt8) : ReadsOff input [] input
  | cons {input rest rest' : List UInt8} {message : ServerMessage} {messages : List ServerMessage}
      (head : readFrame input = .ok (message, rest)) (tail : ReadsOff rest messages rest') :
      ReadsOff input (message :: messages) rest'

lemma ReadsOff.readFrames {input rest : List UInt8} {messages : List ServerMessage}
    (h : ReadsOff input messages rest) : readFrames input = messages ++ readFrames rest := by
  induction h with
  | nil input => rfl
  | cons head tail ih => rw [readFrames_ok head, ih, List.cons_append]

structure Ran (l : Link) (arrivals : List Arrival) (messages : List ServerMessage)
    (failure : Option Error) (l' : Link) : Prop where
  reads : ReadsOff l.pending messages l'.pending
  bound : l'.reader.bytes.length ≤ l'.reader.target
  within : failure = none → Within l'.reader
  spent : failure = none → l'.stream.length + arrivals.countP isData ≤ l.stream.length
  stuck : failure ≠ none →
    (∃ a ∈ arrivals, a.ready = .failed) ∨ ∃ e, readFrame l'.pending = .error e

lemma Ran.stay {l : Link} (h : Within l.reader) : Ran l [] [] none l :=
  ⟨.nil _, h.room.le, fun _ => h, fun _ => by simp, fun hf => absurd rfl hf⟩

lemma Ran.after {l l₁ l' : Link} {used rest : List Arrival} {messages all : List ServerMessage}
    {failure : Option Error} (hran : Ran l₁ rest messages failure l')
    (hc : l₁.stream.length + used.countP isData ≤ l.stream.length)
    (reads : ReadsOff l.pending all l'.pending) : Ran l (used ++ rest) all failure l' := by
  refine ⟨reads, hran.bound, hran.within, ?_, ?_⟩
  · intro hf
    have := hran.spent hf
    rw [List.countP_append]
    omega
  · intro hf
    rcases hran.stuck hf with ⟨b, hb, hf⟩ | he
    · exact Or.inl ⟨b, List.mem_append_right _ hb, hf⟩
    · exact Or.inr he

lemma receiveFuel_spec (n : ℕ) {arrivals : List Arrival} {l : Link} (h : Within l.reader)
    (hn : arrivals.length ≤ n) :
    ∃ messages failure l', Link.receiveFuel n arrivals l = some (messages, failure, l') ∧
      Ran l arrivals messages failure l' := by
  induction n generalizing arrivals l with
  | zero =>
    obtain rfl := List.eq_nil_of_length_eq_zero (Nat.le_zero.mp hn)
    exact ⟨_, _, _, rfl, .stay h⟩
  | succ n ih =>
    cases arrivals with
    | nil => exact ⟨_, _, _, rfl, .stay h⟩
    | cons a arrivals =>
      obtain ⟨r, l₁, used, rest, hb, ha, hs, hused⟩ := pollBatch_spec 128 (a :: arrivals) h
      have hlen : rest.length ≤ n := by
        have hpos := List.length_pos_iff.mpr (hused (by decide) (by simp))
        have hsum := congrArg List.length ha
        rw [List.length_append] at hsum
        omega
      rw [Link.receiveFuel, hb, ha]
      rcases r with e | _ | message
      · obtain ⟨hp, hle, he⟩ := hs
        refine ⟨_, _, _, rfl, hp ▸ .nil _, hle, by simp, by simp, ?_⟩
        intro _
        rcases he with ⟨b, hb, hf⟩ | he
        · exact Or.inl ⟨b, List.mem_append_left _ hb, hf⟩
        · exact Or.inr (hp ▸ he)
      · obtain ⟨hw, hp, hc⟩ := hs
        obtain ⟨messages, failure, l', hr, hran⟩ := ih hw hlen
        exact ⟨messages, failure, l', by simp only [hr]; rfl, hran.after hc (hp ▸ hran.reads)⟩
      · obtain ⟨hnew, hread, hc⟩ := hs
        have hw : Within l₁.reader := hnew ▸ within_new
        obtain ⟨messages, failure, l', hr, hran⟩ := ih hw hlen
        have hp : l₁.pending = l₁.stream := by
          rw [Link.pending, hnew]
          rfl
        exact ⟨message :: messages, failure, l', by simp only [hr]; rfl,
          hran.after hc (.cons hread (hp ▸ hran.reads))⟩

theorem frameReader_reads_off (input : List UInt8) (arrivals : List Arrival) :
    ∃ messages failure link,
      Link.receive arrivals ⟨.new, input⟩ = some (messages, failure, link) ∧
      ReadsOff input messages (link.reader.bytes ++ link.stream) ∧
      link.reader.bytes.length ≤ link.reader.target ∧
      (failure = none → Within link.reader) ∧
      ((∀ a ∈ arrivals, a.ready ≠ .failed) →
        link.stream = [] ∨ failure ≠ none ∨ input.length < arrivals.countP isData →
        messages = readFrames input) := by
  obtain ⟨messages, failure, link, hr, hran⟩ :=
    receiveFuel_spec arrivals.length (l := ⟨.new, input⟩) within_new le_rfl
  refine ⟨messages, failure, link, hr, hran.reads, hran.bound, hran.within, ?_⟩
  intro hfine hdone
  have hall : readFrames input = messages ++ readFrames link.pending := hran.reads.readFrames
  suffices hrest : readFrames link.pending = [] by rw [hall, hrest, List.append_nil]
  by_cases hf : failure = none
  · have hspent := hran.spent hf
    have hs : link.stream = [] := by
      rcases hdone with hs | hf' | hc
      · exact hs
      · exact absurd hf hf'
      · dsimp only at hspent
        omega
    apply readFrames_error (e := .io)
    rw [Link.pending, hs, List.append_nil]
    exact readFrame_within (hran.within hf)
  · rcases hran.stuck hf with ⟨a, ha, hfail⟩ | ⟨e, he⟩
    · exact absurd hfail (hfine a ha)
    · exact readFrames_error he

end Sheprd.Client
