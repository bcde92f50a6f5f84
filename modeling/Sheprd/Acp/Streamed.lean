import Sheprd.Acp.Refines

namespace Sheprd.Acp

open Sheprd.Lib Sheprd.Lib.Exec Sheprd.Chat Sheprd.Chat.Transcript

def takeChunk (stream : Stream) (message : Option String) (s : Transcript × Projector)
    (chunk : String) : Transcript × Projector :=
  match s.2.text s.1 stream message chunk with
  | (none, p) => (s.1, p)
  | (some change, p) => ((exec (Transcript.apply change) s.1).2, p)

def heldText (s : Transcript × Projector) (id : EntryId) : String :=
  ((s.1.entry id).bind fun entry => entry.kind.text).getD ""

section Clip

def Full (held : String) : Prop := maxEntryText < held.utf8ByteSize + truncatedMark.utf8ByteSize + 4

def Marked (held : String) : Prop := ∃ front, held = front ++ truncatedMark

def Faithful (said held : String) : Prop :=
  held.utf8ByteSize ≤ maxEntryText ∧
    (held = said ∨ ∃ front rest, said = front ++ rest ∧ held = front ++ truncatedMark)

inductive Stalls : String → List String → Prop where
  | now {said : String} {chunks : List String} (full : Full said) (unmarked : ¬Marked said)
      (more : String.join chunks ≠ "") : Stalls said chunks
  | later {said chunk : String} {chunks : List String} (room : ¬Full said)
      (fits : (said ++ chunk).utf8ByteSize ≤ maxEntryText) (stalls : Stalls (said ++ chunk) chunks) :
      Stalls said (chunk :: chunks)

def streamText (held chunk : String) : String :=
  if chunk.isEmpty then held else (clip held.utf8ByteSize chunk).elim held fun text => held ++ text

variable {held said chunk : String} {chunks : List String}

lemma mark_size : truncatedMark.utf8ByteSize = 16 := by decide

lemma clip_full (h : Full held) : clip held.utf8ByteSize chunk = none := by
  rw [Full] at h
  rw [clip]
  split
  · rfl
  · rw [if_pos (by omega)]

lemma streamText_full (h : Full held) : streamText held chunk = held := by
  rw [streamText, clip_full h]
  exact ite_self held

lemma foldl_streamText_full (h : Full held) : chunks.foldl streamText held = held := by
  induction chunks with
  | nil => rfl
  | cons chunk chunks ih => rw [List.foldl_cons, streamText_full h, ih]

lemma streamText_fits (h : ¬Full held) (hfits : (held ++ chunk).utf8ByteSize ≤ maxEntryText) :
    streamText held chunk = held ++ chunk := by
  rw [Full] at h
  rw [String.utf8ByteSize_append] at hfits
  rw [streamText]
  split
  · rename_i hempty
    rw [String.isEmpty_iff.mp hempty, String.append_empty]
  · rw [clip, if_neg (by omega), if_neg (by omega), if_pos (by omega)]
    rfl

lemma streamText_cut (h : ¬Full held) (hover : maxEntryText < (held ++ chunk).utf8ByteSize) :
    ∃ front rest, chunk = front ++ rest ∧ streamText held chunk = held ++ front ++ truncatedMark ∧
      (streamText held chunk).utf8ByteSize ≤ maxEntryText ∧ Full (streamText held chunk) := by
  have hmark := mark_size
  rw [Full] at h
  rw [String.utf8ByteSize_append] at hover
  have hlong : ¬chunk.isEmpty = true := by
    intro hempty
    rw [String.isEmpty_iff.mp hempty, String.utf8ByteSize_empty] at hover
    omega
  let cut := maxEntryText - held.utf8ByteSize - truncatedMark.utf8ByteSize
  obtain ⟨rest, hrest⟩ := Text.truncate_prefix cut chunk
  have hsize := Text.truncate_size cut chunk
  have hfull : cut < (Text.truncate cut chunk).utf8ByteSize + 4 := Text.truncate_full (by omega)
  have htext : streamText held chunk = held ++ Text.truncate cut chunk ++ truncatedMark := by
    rw [streamText, if_neg hlong, clip, if_neg (by omega)]
    simp only
    rw [if_neg (by omega), if_neg (by omega), Option.elim_some, String.append_assoc]
  refine ⟨Text.truncate cut chunk, rest, hrest, htext, ?_, ?_⟩
  · rw [htext, String.utf8ByteSize_append, String.utf8ByteSize_append]
    omega
  · rw [Full, htext, String.utf8ByteSize_append, String.utf8ByteSize_append]
    omega

lemma bounded_eq (text : String) : bounded text = (clip "".utf8ByteSize text).elim "" ("" ++ ·) := by
  rw [bounded, String.utf8ByteSize_empty]
  cases clip 0 text with
  | none => rfl
  | some text => exact String.empty_append.symm

lemma faithful_said (h : said.utf8ByteSize ≤ maxEntryText) :
    Faithful (said ++ chunk) said ↔ (chunk = "" ∨ Marked said) := by
  constructor
  · rintro ⟨-, hall | ⟨front, rest, -, hfront⟩⟩
    · refine .inl ?_
      have hsize := congrArg String.utf8ByteSize hall
      rw [String.utf8ByteSize_append] at hsize
      exact String.utf8ByteSize_eq_zero_iff.mp (by omega)
    · exact .inr ⟨front, hfront⟩
  · rintro (rfl | ⟨front, hfront⟩)
    · exact ⟨h, .inl String.append_empty.symm⟩
    · refine ⟨h, .inr ⟨front, truncatedMark ++ chunk, ?_, hfront⟩⟩
      rw [← String.append_assoc, ← hfront]

lemma faithful_foldl (h : said.utf8ByteSize ≤ maxEntryText) :
    Faithful (said ++ String.join chunks) (chunks.foldl streamText said) ↔ ¬Stalls said chunks := by
  induction chunks generalizing said with
  | nil =>
    refine iff_of_true ?_ ?_
    · exact (faithful_said h).mpr (.inl String.join_nil)
    · rintro (⟨-, -, hmore⟩ | _)
      exact hmore String.join_nil
  | cons chunk chunks ih =>
    by_cases hfull : Full said
    · rw [foldl_streamText_full hfull, faithful_said h]
      constructor
      · rintro hkept (⟨-, hunmarked, hmore⟩ | ⟨hroom, -, -⟩)
        · exact hkept.elim hmore hunmarked
        · exact hroom hfull
      · intro hgoes
        by_cases hmore : String.join (chunk :: chunks) = ""
        · exact .inl hmore
        · exact .inr (not_not.mp fun hunmarked => hgoes (.now hfull hunmarked hmore))
    · rw [List.foldl_cons]
      by_cases hfits : (said ++ chunk).utf8ByteSize ≤ maxEntryText
      · rw [streamText_fits hfull hfits, String.join_cons, ← String.append_assoc, ih hfits]
        refine not_congr ⟨fun hs => .later hfull hfits hs, ?_⟩
        rintro (⟨hnow, -, -⟩ | ⟨-, -, hs⟩)
        · exact absurd hnow hfull
        · exact hs
      · obtain ⟨front, rest, hrest, htext, hsize, hend⟩ :=
          streamText_cut hfull (Nat.lt_of_not_le hfits)
        rw [foldl_streamText_full hend]
        refine iff_of_true ⟨hsize, .inr ⟨said ++ front, rest ++ String.join chunks, ?_, htext⟩⟩ ?_
        · rw [String.join_cons, hrest]
          simp only [String.append_assoc]
        · rintro (⟨hnow, -, -⟩ | ⟨-, hfits', -⟩)
          · exact hfull hnow
          · exact hfits hfits'

end Clip

section Chunks

variable {stream : Stream} {message : Option String} {t : Transcript} {p : Projector}

structure Holds (stream : Stream) (message : Option String) (id : EntryId) (held : String)
    (s : Transcript × Projector) : Prop where
  wellFormed : WellFormed s.1
  streaming : s.2.streaming = some ⟨id, message, stream⟩
  last : ∃ front, s.1.entries = front ++ [⟨id, Projector.streamKind held stream⟩]

structure Awaits (stream : Stream) (message : Option String) (s : Transcript × Projector) : Prop where
  wellFormed : WellFormed s.1
  made : ∀ entry ∈ s.1.entries, entry.id ≤ s.2.next
  fresh : ∀ open' ∈ s.2.streaming, ¬(open'.stream = stream ∧ open'.message = message ∧
    s.1.lastEntryId = some open'.entry)

lemma streamKind_text (held : String) (stream : Stream) :
    (Projector.streamKind held stream).text = some held := by
  cases stream <;> rfl

lemma streamKind_pushStr (held more : String) (stream : Stream) :
    (Projector.streamKind held stream).pushStr more =
      some (Projector.streamKind (held ++ more) stream) := by
  cases stream <;> rfl

lemma streamKind_short (id : EntryId) (held : String) (stream : Stream) :
    Entry.overlongAnswers ⟨id, Projector.streamKind held stream⟩ = false := by
  cases stream <;> rfl

variable {s : Transcript × Projector} {id : EntryId} {held : String}

lemma Holds.entry (h : Holds stream message id held s) :
    s.1.entry id = some ⟨id, Projector.streamKind held stream⟩ := by
  obtain ⟨front, hlast⟩ := h.last
  refine h.wellFormed.entry_iff.mpr ⟨?_, rfl⟩
  rw [hlast]
  exact List.mem_append_right front (List.mem_singleton.mpr rfl)

lemma Holds.heldText (h : Holds stream message id held s) : heldText s id = held := by
  rw [Acp.heldText, h.entry, Option.bind_some, streamKind_text, Option.getD_some]

lemma Holds.exec_append (h : Holds stream message id held s) (more : String) :
    Holds stream message id (held ++ more)
      ((exec (Transcript.apply (.append id more)) s.1).2, s.2) := by
  obtain ⟨front, hlast⟩ := h.last
  have hfound : s.1.entries[front.length]? = some ⟨id, Projector.streamKind held stream⟩ := by
    rw [hlast, List.getElem?_concat_length]
  have hposition : s.1.position id = some front.length := by
    rw [position, (binarySearchByKey_iff h.wellFormed.entries).mpr ⟨_, hfound, rfl⟩]
    rfl
  have hentries : (exec (Transcript.apply (.append id more)) s.1).2.entries =
      s.1.entries.modify front.length fun entry =>
        { entry with kind := Projector.streamKind (held ++ more) stream } := by
    change (exec (appendText id more) s.1).2.entries = _
    rw [appendText, exec_bind]
    change (exec (require (s.1.position id) (Chat.Error.unknownEntry id) >>= _) s.1).2.entries = _
    rw [exec_bind, hposition]
    change (exec (require (s.1.entries[front.length]?.bind fun entry => entry.kind.pushStr more)
      (Chat.Error.notText id) >>= _) s.1).2.entries = _
    rw [exec_bind, hfound, Option.bind_some, streamKind_pushStr]
    rfl
  refine ⟨h.wellFormed.apply _, h.streaming, front, ?_⟩
  rw [hentries, hlast, modify_concat_length]

lemma Holds.takeChunk (h : Holds stream message id held s) (chunk : String) :
    Holds stream message id (streamText held chunk) (takeChunk stream message s chunk) := by
  obtain ⟨front, hlast⟩ := h.last
  have hid : s.1.lastEntryId = some id := by
    rw [lastEntryId, hlast, List.getLast?_concat]
    rfl
  rw [Acp.takeChunk, Projector.text, streamText]
  split_ifs with hempty
  · exact h
  · have hopen : (s.2.streaming.filter fun open' => decide (open'.stream = stream ∧
        open'.message = message ∧ s.1.lastEntryId = some open'.entry)) =
          some ⟨id, message, stream⟩ := by
      rw [h.streaming, hid]
      simp
    rw [hopen]
    simp only
    rw [h.entry, Option.bind_some, streamKind_text, Option.elim_some]
    cases clip held.utf8ByteSize chunk with
    | none => exact h
    | some more => exact h.exec_append more

lemma Awaits.takeChunk (h : Awaits stream message s) {chunk : String} (hc : chunk ≠ "") :
    Holds stream message (s.2.next + 1) (streamText "" chunk) (takeChunk stream message s chunk) := by
  have hempty : ¬chunk.isEmpty = true := fun he => hc (String.isEmpty_iff.mp he)
  have hnone : (s.2.streaming.filter fun open' => decide (open'.stream = stream ∧
      open'.message = message ∧ s.1.lastEntryId = some open'.entry)) = none := by
    rw [Option.filter_eq_none_iff]
    intro open' hopen
    simpa using h.fresh open' hopen
  have hpush := @exec_push s.1 ⟨s.2.next + 1, Projector.streamKind (bounded chunk) stream⟩
    (streamKind_short _ _ _) fun known hk => Nat.lt_succ_of_le (h.made known hk)
  have htext : streamText "" chunk = bounded chunk := by
    rw [streamText, if_neg hempty, bounded_eq]
  rw [Acp.takeChunk, Projector.text, if_neg hempty, hnone, htext]
  simp only
  refine ⟨h.wellFormed.apply _, rfl, s.1.entries, ?_⟩
  simp only
  rw [hpush]

lemma Holds.foldl (h : Holds stream message id held s) (chunks : List String) :
    Holds stream message id (chunks.foldl streamText held)
      (chunks.foldl (Acp.takeChunk stream message) s) := by
  induction chunks generalizing held s with
  | nil => exact h
  | cons chunk chunks ih => exact ih (h.takeChunk chunk)

lemma Awaits.heldText_foldl (h : Awaits stream message s) (chunks : List String) :
    heldText (chunks.foldl (Acp.takeChunk stream message) s) (s.2.next + 1) =
      chunks.foldl streamText "" := by
  induction chunks with
  | nil =>
    have hnone : s.1.entry (s.2.next + 1) = none := by
      refine Option.eq_none_iff_forall_not_mem.mpr fun entry he => ?_
      obtain ⟨hm, hid⟩ := h.wellFormed.entry_iff.mp he
      exact absurd (hid ▸ h.made entry hm) (Nat.not_succ_le_self _)
    rw [List.foldl_nil, heldText, hnone]
    rfl
  | cons chunk chunks ih =>
    by_cases hc : chunk = ""
    · subst hc
      exact ih
    · exact ((h.takeChunk hc).foldl chunks).heldText

end Chunks

theorem streamed_text_iff (stream : Stream) (message : Option String) {s : Transcript × Projector}
    (h : Awaits stream message s) (chunks : List String) :
    Faithful (String.join chunks)
        (heldText (chunks.foldl (takeChunk stream message) s) (s.2.next + 1)) ↔
      ¬Stalls "" chunks := by
  rw [h.heldText_foldl, ← faithful_foldl (Nat.zero_le _), String.empty_append]

lemma awaits_new (stream : Stream) (message : Option String) (agent : String) :
    Awaits stream message (Transcript.new agent, .default) :=
  ⟨wellFormed_new agent, fun entry he => absurd he List.not_mem_nil, fun open' ho => by cases ho⟩

theorem streamed_text_short :
    Faithful "Bonjour" (heldText (["Bon", "jour"].foldl (takeChunk .agent none)
      (Transcript.new "agent", .default)) 1) := by
  refine (streamed_text_iff .agent none (awaits_new _ _ "agent") ["Bon", "jour"]).mpr ?_
  rintro (⟨hnow, -, -⟩ | ⟨-, -, ⟨hnow, -, -⟩ | ⟨-, -, ⟨-, -, hmore⟩⟩⟩)
  · exact absurd hnow (by decide : ¬maxEntryText < "".utf8ByteSize + truncatedMark.utf8ByteSize + 4)
  · exact absurd hnow
      (by decide : ¬maxEntryText < ("" ++ "Bon").utf8ByteSize + truncatedMark.utf8ByteSize + 4)
  · exact hmore rfl

def nearlyFull : List String := [String.ofList (List.replicate 262134 'a'), "alors"]

lemma letters_unmarked (n : ℕ) : ¬Marked (String.ofList (List.replicate n 'a')) := by
  rintro ⟨front, hfront⟩
  have hlist := congrArg String.toList hfront
  rw [String.toList_ofList, String.toList_append] at hlist
  have hlast : ')' ∈ List.replicate n 'a' := by
    rw [hlist]
    exact List.mem_append_right _ (by decide)
  exact absurd (List.eq_of_mem_replicate hlast) (by decide)

theorem nearlyFull_loses :
    ¬Faithful (String.join nearlyFull) (heldText (nearlyFull.foldl (takeChunk .agent none)
      (Transcript.new "agent", .default)) 1) := by
  have hsize := Text.size_replicate (by decide : 'a'.utf8Size = 1) 262134
  have hunmarked := letters_unmarked 262134
  generalize hletters : String.ofList (List.replicate 262134 'a') = letters at hsize hunmarked
  have hstalls : Stalls "" nearlyFull := by
    rw [nearlyFull, hletters]
    refine .later ?_ ?_ (.now ?_ ?_ ?_)
    · exact (by decide : ¬maxEntryText < "".utf8ByteSize + truncatedMark.utf8ByteSize + 4)
    · rw [String.empty_append, hsize]
      decide
    · rw [String.empty_append, Full, hsize]
      decide
    · rwa [String.empty_append]
    · decide
  have hheld := (awaits_new .agent none "agent").heldText_foldl nearlyFull
  have hiff := @faithful_foldl "" nearlyFull (Nat.zero_le _)
  rw [String.empty_append, ← hheld] at hiff
  exact fun hkept => hiff.mp hkept hstalls

end Sheprd.Acp
