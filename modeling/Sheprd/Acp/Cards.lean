import Sheprd.Acp.Bookkeeping

namespace Sheprd.Acp

open Sheprd.Lib Sheprd.Lib.Exec Sheprd.Chat

def Entry.call (entry : Entry) : Option String :=
  match entry.kind with
  | .tool tool => some tool.callId
  | _ => none

def Change.quiet : Change → Bool
  | .push _ => false
  | .replace _ => false
  | .truncate _ => false
  | _ => true

section Deals

variable {t : Transcript} {p p' : Projector} {changes others : List Change}

inductive Projector.Deals (t : Transcript) (p : Projector) : List Change → Projector → Prop where
  | beside {changes : List Change} {p' : Projector} (tools : p'.tools = p.tools)
      (next : p'.next = p.next) (quiet : ∀ change ∈ changes, Change.quiet change = true) :
      Deals t p changes p'
  | plain {kind : EntryKind} {p' : Projector} (other : Entry.call ⟨p.next + 1, kind⟩ = none)
      (tools : p'.tools = p.tools) (next : p'.next = p.next + 1) :
      Deals t p [.push ⟨p.next + 1, kind⟩] p'
  | card {tool : Tool} {others : List Change} {p' : Projector}
      (unknown : p.known t tool.callId = none)
      (tools : p'.tools = p.tools.insert tool.callId (p.next + 1)) (next : p'.next = p.next + 1)
      (quiet : ∀ change ∈ others, Change.quiet change = true) :
      Deals t p (.push ⟨p.next + 1, .tool tool⟩ :: others) p'
  | again {callId : String} {id : EntryId} {old tool : Tool} {others : List Change} {p' : Projector}
      (found : p.known t callId = some (id, old)) (same : tool.callId = old.callId)
      (tools : p'.tools = p.tools) (next : p'.next = p.next)
      (quiet : ∀ change ∈ others, Change.quiet change = true) :
      Deals t p (.replace ⟨id, .tool tool⟩ :: others) p'

namespace Projector

lemma known_congr (h : p'.tools = p.tools) (callId : String) :
    p'.known t callId = p.known t callId := by
  rw [known, known, h]

lemma Deals.append (h : Deals t p changes p')
    (hq : ∀ change ∈ others, Change.quiet change = true) (hone : changes.length ≤ 1)
    (hcard : ∀ entry, .push entry ∈ changes → (Entry.call entry).isSome = true) :
    Deals t p (changes ++ others) p' := by
  cases h with
  | beside tools next quiet =>
    refine .beside tools next fun change hc => ?_
    exact (List.mem_append.mp hc).elim (quiet change) (hq change)
  | plain other tools next =>
    have := hcard _ List.mem_cons_self
    rw [other] at this
    exact absurd this (by decide)
  | @card tool rest _ unknown tools next quiet =>
    obtain rfl : rest = [] := List.eq_nil_of_length_eq_zero (by simpa using hone)
    exact .card unknown tools next hq
  | @again callId id old tool rest _ found same tools next quiet =>
    obtain rfl : rest = [] := List.eq_nil_of_length_eq_zero (by simpa using hone)
    exact .again found same tools next hq

lemma Deals.after {q : Projector} (h : Deals t p changes p') (ht : p.tools = q.tools)
    (hn : p.next = q.next) : Deals t q changes p' := by
  cases h with
  | beside tools next quiet => exact .beside (tools.trans ht) (next.trans hn) quiet
  | plain other tools next =>
    rw [hn] at other next ⊢
    exact .plain other (tools.trans ht) next
  | card unknown tools next quiet =>
    rw [known_congr ht] at unknown
    rw [hn] at tools next ⊢
    exact .card unknown (ht ▸ tools) next quiet
  | again found same tools next quiet =>
    rw [known_congr ht] at found
    exact .again found same (tools.trans ht) (next.trans hn) quiet

lemma push_deals (kind : EntryKind) (hk : ∀ tool, kind ≠ .tool tool) (t : Transcript)
    (p : Projector) : Deals t p [(push kind p).1] (push kind p).2 := by
  refine .plain ?_ rfl rfl
  cases kind with
  | tool tool => exact absurd rfl (hk tool)
  | _ => rfl

lemma tool_deals (t : Transcript) (callId : String) {update : Tool → Tool}
    (hu : ∀ tool, (update tool).callId = tool.callId) (p : Projector) :
    Deals t p [(p.tool t callId update).1] (p.tool t callId update).2 := by
  rw [tool]
  cases hk : p.known t callId with
  | none =>
    have hcall : (update (blankTool callId)).callId = callId := hu _
    refine .card ?_ ?_ rfl (List.forall_mem_nil _)
    · rw [hcall, hk]
    · rw [hcall]
  | some found => exact .again hk (hu _) rfl rfl (List.forall_mem_nil _)

lemma admitStep_tools (t : Transcript) (parent : String) (p : Projector) :
    (p.admitStep t parent).2.tools = p.tools := by
  rw [admitStep]
  dsimp only
  split <;> rfl

lemma skip_tools (t : Transcript) (call parent : String) (p : Projector) :
    (p.skip t call parent).tools = p.tools := by
  rw [skip]
  dsimp only
  split <;> split <;> rfl

lemma mark_callId (tag : Tag) (tool : Tool) : (tag.mark tool).callId = tool.callId := by
  simp only [Tag.mark]
  split <;> split <;> rfl

lemma begun_callId (now : ℕ) (tool : Tool) : (begun now tool).callId = tool.callId := by
  rw [begun]
  split <;> rfl

lemma tool_single (t : Transcript) (callId : String) (update : Tool → Tool) (p : Projector)
    {entry : Entry} (h : (p.tool t callId update).1 = .push entry) :
    (Entry.call entry).isSome = true := by
  rw [tool] at h
  cases hk : p.known t callId with
  | none =>
    rw [hk] at h
    cases h
    rfl
  | some found =>
    rw [hk] at h
    cases h

lemma showCall_deals (t : Transcript) (callId : String) (tag : Tag) (now : ℕ)
    {update : Tool → Tool} (hu : ∀ tool, (update tool).callId = tool.callId) (p : Projector) :
    Deals t p (p.showCall t callId tag now update).1 (p.showCall t callId tag now update).2.2 ∧
      (p.showCall t callId tag now update).1.length ≤ 1 ∧
      ∀ entry, .push entry ∈ (p.showCall t callId tag now update).1 →
        (Entry.call entry).isSome = true := by
  simp only [showCall]
  generalize (if callId ∈ p.tools then none else tag.parent) = step
  have hadmitted : (if callId ∈ p.skipped then (false, p)
      else step.elim (true, p) fun parent => p.admitStep t parent).2.next = p.next ∧
      (if callId ∈ p.skipped then (false, p)
      else step.elim (true, p) fun parent => p.admitStep t parent).2.tools = p.tools := by
    split
    · exact ⟨rfl, rfl⟩
    · cases step with
      | none => exact ⟨rfl, rfl⟩
      | some parent => exact ⟨admitStep_next t parent p, admitStep_tools t parent p⟩
  generalize (if callId ∈ p.skipped then (false, p) else _) = admission at hadmitted
  obtain ⟨admitted, q⟩ := admission
  obtain ⟨hnext, htools⟩ := hadmitted
  cases admitted with
  | true =>
    refine ⟨(tool_deals t callId ?_ q).after htools hnext, le_rfl, ?_⟩
    · intro tool
      rw [begun_callId, mark_callId, hu]
    · intro entry hm
      exact tool_single t callId _ q (List.mem_singleton.mp hm).symm
  | false =>
    refine ⟨.beside ?_ ?_ (List.forall_mem_nil _), Nat.zero_le _, fun _ hm => absurd hm List.not_mem_nil⟩
    · change (if _ then _ else _ : Projector).tools = p.tools
      split
      · exact htools
      · cases step with
        | none => exact htools
        | some parent => exact (skip_tools t callId parent q).trans htools
    · change (if _ then _ else _ : Projector).next = p.next
      split
      · exact hnext
      · cases step with
        | none => exact hnext
        | some parent => exact (skip_next t callId parent q).trans hnext

lemma recordActivity_quiet {callId title : String} {report : Report} {now : ℕ} {change : Change}
    (h : recordActivity t callId title report now = some change) : Change.quiet change = true := by
  rw [recordActivity] at h
  grind [Change.quiet]

lemma stepActivity_quiet {parent title : String} {change : Change}
    (h : stepActivity t parent title = some change) : Change.quiet change = true := by
  rw [stepActivity] at h
  obtain ⟨known, -, h⟩ := Option.bind_eq_some_iff.mp h
  grind [Change.quiet]

lemma todoChange_quiet {change : Change} {input : Option Value} (h : change ∈ p.todoChange input) :
    Change.quiet change = true := by
  obtain ⟨plan, -, rfl⟩ := Option.map_eq_some_iff.mp (Option.mem_toList.mp h)
  rfl

lemma tagged_deals (t : Transcript) (callId : String) (tag : Tag) (now : ℕ)
    {update : Tool → Tool} (hu : ∀ tool, (update tool).callId = tool.callId) (p : Projector) :
    Deals t p (p.tagged t callId tag now update).1 (p.tagged t callId tag now update).2 := by
  have hshown := showCall_deals t callId tag now hu p
  rw [tagged]
  generalize p.showCall t callId tag now update = shown at hshown ⊢
  obtain ⟨changes, tool, p'⟩ := shown
  obtain ⟨hdeals, hone, hcard⟩ := hshown
  cases tool with
  | none => exact hdeals
  | some tool =>
    simp only [List.append_assoc]
    refine hdeals.append (fun change hm => ?_) hone hcard
    obtain hm | hm := List.mem_append.mp hm
    · obtain ⟨report, -, hr⟩ := Option.bind_eq_some_iff.mp (Option.mem_toList.mp hm)
      exact recordActivity_quiet hr
    · obtain ⟨parent, -, hp⟩ := Option.bind_eq_some_iff.mp (Option.mem_toList.mp hm)
      exact stepActivity_quiet hp

lemma text_deals (t : Transcript) (stream : Stream) (message : Option String) (text : String)
    (p : Projector) :
    Deals t p (p.text t stream message text).1.toList (p.text t stream message text).2 := by
  rw [Projector.text]
  split
  · exact .beside rfl rfl (List.forall_mem_nil _)
  split
  · refine .beside rfl rfl fun change hm => ?_
    obtain ⟨text, -, rfl⟩ := Option.map_eq_some_iff.mp (Option.mem_toList.mp hm)
    rfl
  · refine .plain ?_ rfl rfl
    cases stream <;> rfl

lemma chunk_deals (t : Transcript) (stream : Stream) (chunk : Wire.ContentChunk) (p : Projector) :
    Deals t p (p.chunk t stream chunk).1.toList (p.chunk t stream chunk).2 := by
  rw [Projector.chunk.eq_def]
  split
  · refine push_deals _ ?_ t p
    exact fun _ h => nomatch h
  · refine push_deals _ ?_ t p
    exact fun _ h => nomatch h
  · exact text_deals _ _ _ _ p

lemma toolCall_deals (decode : Wire.Decoders) (t : Transcript) (call : Wire.ToolCall) (now : ℕ)
    (p : Projector) : Deals t p (p.toolCall decode t call now).1 (p.toolCall decode t call now).2 := by
  simp only [toolCall]
  split
  · exact .beside rfl rfl fun _ => todoChange_quiet
  · refine tagged_deals _ _ _ _ ?_ p
    exact fun _ => rfl

lemma shownCallUpdate_deals (t : Transcript) (update : Wire.ToolCallUpdate) (tag : Tag) (now : ℕ)
    (p : Projector) : Deals t p (p.shownCallUpdate t update tag now).1
      (p.shownCallUpdate t update tag now).2 := by
  simp only [shownCallUpdate]
  split
  · exact .beside rfl rfl fun _ hm => recordActivity_quiet (Option.mem_toList.mp hm)
  · refine tagged_deals _ _ _ _ ?_ p
    exact fun _ => rfl

lemma toolCallUpdate_deals (decode : Wire.Decoders) (t : Transcript) (update : Wire.ToolCallUpdate)
    (now : ℕ) (p : Projector) : Deals t p (p.toolCallUpdate decode t update now).1
      (p.toolCallUpdate decode t update now).2 := by
  have hkept : ∀ b : Bool, (if b then { p with todos := p.todos.erase update.toolCallId } else p :
      Projector).tools = p.tools ∧ (if b then { p with todos := p.todos.erase update.toolCallId }
      else p : Projector).next = p.next := by
    intro b
    cases b <;> exact ⟨rfl, rfl⟩
  simp only [toolCallUpdate]
  split
  · split
    · exact .beside (hkept _).1 (hkept _).2 fun _ => todoChange_quiet
    · exact (shownCallUpdate_deals _ _ _ _ _).after (hkept _).1 (hkept _).2
  · exact shownCallUpdate_deals _ _ _ _ p

lemma update_deals (decode : Wire.Decoders) (t : Transcript) (update : Wire.SessionUpdate) (now : ℕ)
    (p : Projector) : Deals t p (p.update decode t update now).1 (p.update decode t update now).2 := by
  cases update with
  | userMessageChunk chunk => exact chunk_deals t .user chunk p
  | agentMessageChunk chunk => exact chunk_deals t .agent chunk p
  | agentThoughtChunk chunk => exact chunk_deals t .thought chunk p
  | toolCall call => exact toolCall_deals decode t call now p
  | toolCallUpdate update => exact toolCallUpdate_deals decode t update now p
  | plan entries => exact .beside rfl rfl fun _ hm => List.mem_singleton.mp hm ▸ rfl
  | availableCommandsUpdate commands => exact .beside rfl rfl fun _ hm => List.mem_singleton.mp hm ▸ rfl
  | currentModeUpdate id =>
    refine .beside rfl rfl fun change hm => ?_
    obtain ⟨_, -, rfl⟩ := Option.map_eq_some_iff.mp (Option.mem_toList.mp hm)
    rfl
  | sessionInfoUpdate title =>
    refine .beside rfl rfl fun change hm => ?_
    obtain ⟨_, -, rfl⟩ := Option.map_eq_some_iff.mp (Option.mem_toList.mp hm)
    rfl
  | usageUpdate usage => exact .beside rfl rfl fun _ hm => List.mem_singleton.mp hm ▸ rfl
  | notice severity title description =>
    refine push_deals _ ?_ t p
    exact fun _ h => nomatch h
  | other => exact .beside rfl rfl (List.forall_mem_nil _)

end Projector

end Deals

structure Board where
  transcript : Transcript
  projector : Projector
  due : List Change

inductive BoardAct where
  | update (update : Wire.SessionUpdate) (now : ℕ)
  | ask (callId : String) (fields : Wire.ToolCallUpdateFields)
  | say (kind : EntryKind)
  | tell (change : Change)
  | picture (image : Image)
  | renumber
  | land
  | bound
  | enrich (id : EntryId) (images : List ToolContent)

namespace Board

def land (change : Change) (t : Transcript) : Transcript := (exec (Transcript.apply change) t).2

def cut (b : Board) (before : EntryId) : Board :=
  { b with
    transcript := land (.truncate before) b.transcript
    projector := b.projector.forgetBefore before }

def step (decode : Wire.Decoders) (b : Board) : BoardAct → Option Board
  | .update update now =>
      if b.due.isEmpty then
        let (changes, p) := b.projector.update decode b.transcript update now
        some ⟨b.transcript, p, changes⟩
      else none
  | .ask callId fields =>
      if b.due.isEmpty then
        let (change, p) := b.projector.tool b.transcript callId (applyFields fields)
        some ⟨b.transcript, p, [change]⟩
      else none
  | .say kind =>
      if b.due.isEmpty && (Entry.call ⟨0, kind⟩).isNone then
        let (change, p) := b.projector.push kind
        some ⟨b.transcript, p, [change]⟩
      else none
  | .tell change =>
      if Change.quiet change then some { b with transcript := land change b.transcript } else none
  | .picture image =>
      match b.due with
      | .push _ :: _ =>
          let (change, p) := b.projector.image .agent image
          some { b with transcript := land change b.transcript, projector := p }
      | _ => none
  | .renumber =>
      match b.due with
      | .push entry :: rest =>
          let (id, p) := b.projector.renumber entry.id
          some ⟨b.transcript, p, .push { entry with id } :: rest⟩
      | _ => none
  | .land =>
      match b.due with
      | change :: rest => some { b with transcript := land change b.transcript, due := rest }
      | [] => none
  | .bound =>
      match b.transcript.entries[keepFrom b.transcript.entries]? with
      | some first => if 0 < keepFrom b.transcript.entries then some (b.cut first.id) else some b
      | none => some b
  | .enrich id images =>
      match b.transcript.entry id with
      | some entry =>
          some { b with transcript := land (.replace (Entry.withImages images entry)) b.transcript }
      | none => some b

def Spares (b : Board) : BoardAct → Prop
  | .bound => ∀ card rest first, b.due = .push card :: rest → (Entry.call card).isSome = true →
      b.transcript.entries[keepFrom b.transcript.entries]? = some first → first.id ≤ card.id
  | _ => True

inductive Waits (start : EntryId) (b : Board) : List Change → Prop where
  | quiet {changes : List Change} (quiet : ∀ change ∈ changes, Change.quiet change = true) :
      Waits start b changes
  | push {entry : Entry} {rest : List Change} (later : start < entry.id)
      (made : entry.id ≤ b.projector.next)
      (absent : ∀ known ∈ b.transcript.entries, known.id ≠ entry.id)
      (table : ∀ callId, b.projector.tools.lookup callId = some entry.id ↔
        Entry.call entry = some callId)
      (quiet : ∀ change ∈ rest, Change.quiet change = true) : Waits start b (.push entry :: rest)
  | replace {entry : Entry} {rest : List Change}
      (same : ∀ known ∈ b.transcript.entries, known.id = entry.id →
        Entry.call known = Entry.call entry)
      (quiet : ∀ change ∈ rest, Change.quiet change = true) :
      Waits start b (.replace entry :: rest)

structure Kept (start : EntryId) (b : Board) : Prop where
  formed : b.transcript.WellFormed
  started : start ≤ b.projector.next
  made : ∀ entry ∈ b.transcript.entries, entry.id ≤ b.projector.next
  table : ∀ callId id, b.projector.tools.lookup callId = some id → id ≤ b.projector.next ∧
    ∀ entry ∈ b.transcript.entries, entry.id = id → Entry.call entry = some callId
  shown : ∀ entry ∈ b.transcript.entries, start < entry.id → ∀ callId,
    Entry.call entry = some callId → b.projector.tools.lookup callId = some entry.id
  waits : Waits start b b.due

section Land

open Transcript

def Comes (t t' : Transcript) : Prop :=
  ∀ entry ∈ t'.entries, ∃ old ∈ t.entries, old.id = entry.id ∧ Entry.call old = Entry.call entry

variable {t t' : Transcript} {change : Change}

lemma comes_of_entries (h : t'.entries = t.entries) : Comes t t' :=
  fun entry he => ⟨entry, h ▸ he, rfl, rfl⟩

lemma pushStr_call {kind kind' : EntryKind} {more : String} (h : kind.pushStr more = some kind')
    (id id' : EntryId) : Entry.call ⟨id, kind⟩ = Entry.call ⟨id', kind'⟩ := by
  cases kind <;> cases h <;> rfl

lemma applied_comes (ha : Applied t change t') (hp : ∀ entry, change ≠ .push entry)
    (hr : ∀ entry, change = .replace entry → ∀ known ∈ t.entries, known.id = entry.id →
      Entry.call known = Entry.call entry) : Comes t t' := by
  cases ha with
  | @pushed entry after => exact absurd rfl (hp entry)
  | @appended id text i entry kind found same longer =>
    intro x hx
    obtain ⟨j, hj⟩ := List.mem_iff_getElem?.mp hx
    rw [List.getElem?_modify] at hj
    obtain ⟨old, hold, rfl⟩ := Option.map_eq_some_iff.mp hj
    refine ⟨old, List.mem_of_getElem? hold, ?_⟩
    split
    · rename_i hij
      subst hij
      rw [found] at hold
      obtain rfl := Option.some.inj hold
      exact ⟨rfl, pushStr_call longer _ _⟩
    · exact ⟨rfl, rfl⟩
  | @replaced entry old i found same =>
    intro x hx
    obtain hx | rfl := List.mem_or_eq_of_mem_set hx
    · exact ⟨x, hx, rfl, rfl⟩
    · exact ⟨old, List.mem_of_getElem? found, same, hr x rfl old (List.mem_of_getElem? found) same⟩
  | truncated point => exact fun x hx => ⟨x, List.mem_of_mem_drop hx, rfl, rfl⟩
  | beside entries _ _ => exact comes_of_entries entries
  | _ => exact comes_of_entries rfl

lemma land_comes (t : Transcript) (hp : ∀ entry, change ≠ .push entry)
    (hr : ∀ entry, change = .replace entry → ∀ known ∈ t.entries, known.id = entry.id →
      Entry.call known = Entry.call entry) : Comes t (land change t) := by
  have ho := apply_outcome change t
  rw [wp] at ho
  cases he : (exec (Transcript.apply change) t).1 with
  | ok u =>
    rw [he] at ho
    exact applied_comes ho hp hr
  | error e =>
    rw [he] at ho
    exact comes_of_entries (congrArg Transcript.entries ho)

lemma land_quiet (t : Transcript) (h : Change.quiet change = true) : Comes t (land change t) := by
  refine land_comes t ?_ ?_
  · rintro entry rfl
    cases h
  · rintro entry rfl
    cases h

lemma land_push (entry : Entry) (t : Transcript) :
    (land (.push entry) t).entries = t.entries ++ [entry] ∨
      (land (.push entry) t).entries = t.entries := by
  have ho := apply_outcome (.push entry) t
  rw [wp] at ho
  cases he : (exec (Transcript.apply (.push entry)) t).1 with
  | ok u =>
    rw [he] at ho
    generalize hland : (exec (Transcript.apply (.push entry)) t).2 = t' at ho
    rw [land, hland]
    cases ho with
    | pushed after => exact .inl rfl
    | beside entries _ _ => exact .inr entries
  | error e =>
    rw [he] at ho
    exact .inr (congrArg Transcript.entries ho)

end Land

variable {start : EntryId} {b b' : Board}

lemma Waits.comes (h : Waits start b b.due) (hc : Comes b.transcript b'.transcript)
    (hp : b'.projector = b.projector) : Waits start b' b.due := by
  generalize b.due = due at h ⊢
  cases h with
  | quiet quiet => exact .quiet quiet
  | push later made absent table quiet =>
    refine .push later (hp ▸ made) ?_ (hp ▸ table) quiet
    intro known hk
    obtain ⟨old, hold, hid, -⟩ := hc known hk
    exact hid ▸ absent old hold
  | replace same quiet =>
    refine .replace ?_ quiet
    intro known hk heq
    obtain ⟨old, hold, hid, hcall⟩ := hc known hk
    exact hcall ▸ same old hold (hid.trans heq)

namespace Kept

lemma comes (h : Kept start b) {t : Transcript} (hf : t.WellFormed) (hc : Comes b.transcript t) :
    Kept start { b with transcript := t } where
  formed := hf
  started := h.started
  made entry he := by
    obtain ⟨old, hold, hid, -⟩ := hc entry he
    exact hid ▸ h.made old hold
  table callId id hl := by
    refine ⟨(h.table callId id hl).1, fun entry he heq => ?_⟩
    obtain ⟨old, hold, hid, hcall⟩ := hc entry he
    exact hcall ▸ (h.table callId id hl).2 old hold (hid.trans heq)
  shown entry he hlater callId hcall := by
    obtain ⟨old, hold, hid, hsame⟩ := hc entry he
    exact hid ▸ h.shown old hold (hid ▸ hlater) callId (hsame.trans hcall)
  waits := by
    have hsame : { b with transcript := t }.projector = b.projector := rfl
    exact h.waits.comes hc hsame

lemma land_comes (h : Kept start b) {change : Change}
    (hc : Comes b.transcript (land change b.transcript)) :
    Kept start { b with transcript := land change b.transcript } :=
  h.comes (h.formed.apply change) hc

lemma absent_next (h : Kept start b) :
    ∀ known ∈ b.transcript.entries, known.id ≠ b.projector.next + 1 := by
  intro known hk heq
  exact Nat.not_succ_le_self _ (heq ▸ h.made known hk)

lemma known_of_shown (h : Kept start b) {entry : Entry} (he : entry ∈ b.transcript.entries)
    (hlater : start < entry.id) {callId : String} (hcall : Entry.call entry = some callId) :
    b.projector.known b.transcript callId ≠ none := by
  have hlookup := h.shown entry he hlater callId hcall
  have hentry : b.transcript.entry entry.id = some entry := h.formed.entry_iff.mpr ⟨he, rfl⟩
  rw [Projector.known, hlookup, Option.bind_some, hentry, Option.bind_some]
  rw [Entry.call] at hcall
  cases hk : entry.kind with
  | tool tool => simp
  | _ => simp [hk] at hcall

lemma call_of_known (h : Kept start b) {callId : String} {id : EntryId} {old : Tool}
    (hk : b.projector.known b.transcript callId = some (id, old)) :
    old.callId = callId ∧
      ∀ entry ∈ b.transcript.entries, entry.id = id → Entry.call entry = some callId := by
  obtain ⟨entry, hentry, hkind⟩ := Option.bind_eq_some_iff.mp hk
  obtain ⟨found, hlookup, hfound⟩ := Option.bind_eq_some_iff.mp hentry
  obtain ⟨hm, hid⟩ := h.formed.entry_iff.mp hfound
  have hcall := (h.table callId found hlookup).2 entry hm hid
  rw [Entry.call] at hcall
  cases hk : entry.kind with
  | tool tool =>
    rw [hk] at hkind hcall
    obtain ⟨rfl, rfl⟩ := Prod.mk.inj (Option.some.inj hkind)
    refine ⟨Option.some.inj hcall, fun other ho heq => ?_⟩
    exact (h.table callId found hlookup).2 other ho (heq.trans hid)
  | _ => simp [hk] at hcall

lemma deals (h : Kept start b) {changes : List Change} {p : Projector}
    (hd : Projector.Deals b.transcript b.projector changes p) :
    Kept start ⟨b.transcript, p, changes⟩ := by
  have hnext : b.projector.next ≤ b.projector.next + 1 := Nat.le_succ _
  cases hd with
  | beside tools next quiet =>
    refine ⟨h.formed, next ▸ h.started, next ▸ h.made, ?_, ?_, .quiet quiet⟩
    · simp only [tools, next]
      exact h.table
    · simp only [tools]
      exact h.shown
  | plain other tools next =>
    have hmore : b.projector.next ≤ p.next := hnext.trans next.ge
    refine ⟨h.formed, h.started.trans hmore, fun entry he => (h.made entry he).trans hmore, ?_, ?_,
      .push ?_ next.ge h.absent_next ?_ (List.forall_mem_nil _)⟩
    · simp only [tools, next]
      exact fun c i hl => ⟨(h.table c i hl).1.trans hnext, (h.table c i hl).2⟩
    · simp only [tools]
      exact h.shown
    · exact Nat.lt_succ_of_le h.started
    · intro callId
      rw [tools, other]
      refine iff_of_false (fun hl => ?_) nofun
      exact absurd (h.table callId _ hl).1 (Nat.not_succ_le_self _)
  | @card tool others p unknown tools next quiet =>
    have hmore : b.projector.next ≤ p.next := hnext.trans next.ge
    refine ⟨h.formed, h.started.trans hmore, fun entry he => (h.made entry he).trans hmore, ?_, ?_,
      .push ?_ next.ge h.absent_next ?_ quiet⟩
    · intro c i hl
      simp only [tools] at hl
      obtain ⟨-, rfl⟩ | hl := Dict.of_lookup_insert hl
      · exact ⟨next.ge, fun entry he heq => absurd heq (h.absent_next entry he)⟩
      · exact ⟨(h.table c i hl).1.trans hmore, (h.table c i hl).2⟩
    · intro entry he hlater c hcall
      have hc : c ≠ tool.callId := by
        rintro rfl
        exact h.known_of_shown he hlater hcall unknown
      simp only [tools]
      rw [AList.lookup_insert_ne hc]
      exact h.shown entry he hlater c hcall
    · exact Nat.lt_succ_of_le h.started
    · intro c
      simp only [tools]
      constructor
      · intro hl
        obtain ⟨rfl, -⟩ | hl := Dict.of_lookup_insert hl
        · rfl
        · exact absurd (h.table c _ hl).1 (Nat.not_succ_le_self _)
      · intro hcall
        obtain rfl := Option.some.inj hcall
        exact AList.lookup_insert _
  | again found same tools next quiet =>
    obtain ⟨hold, hothers⟩ := h.call_of_known found
    refine ⟨h.formed, next ▸ h.started, next ▸ h.made, ?_, ?_, .replace ?_ quiet⟩
    · simp only [tools, next]
      exact h.table
    · simp only [tools]
      exact h.shown
    · intro known hk heq
      rw [hothers known hk heq]
      exact congrArg some (hold.symm.trans same.symm)

lemma picture (h : Kept start b) {entry : Entry} {rest : List Change}
    (hdue : b.due = .push entry :: rest) (image : Image) : Kept start { b with
      transcript := land (b.projector.image .agent image).1 b.transcript
      projector := (b.projector.image .agent image).2 } := by
  have hnext : b.projector.next ≤ b.projector.next + 1 := Nat.le_succ _
  have hentries : ∀ entry ∈ (land (b.projector.image .agent image).1 b.transcript).entries,
      entry ∈ b.transcript.entries ∨
        entry.id = b.projector.next + 1 ∧ Entry.call entry = none := by
    intro entry he
    obtain hgrown | hsame := land_push ⟨b.projector.next + 1, .image .agent image⟩ b.transcript
    · obtain he | he := List.mem_append.mp (hgrown ▸ he)
      · exact .inl he
      · obtain rfl := List.mem_singleton.mp he
        exact .inr ⟨rfl, rfl⟩
    · exact .inl (hsame ▸ he)
  refine ⟨h.formed.apply _, h.started.trans hnext, ?_, ?_, ?_, ?_⟩
  · intro entry he
    obtain he | ⟨hid, -⟩ := hentries entry he
    · exact (h.made entry he).trans hnext
    · exact hid.le
  · intro c i hl
    obtain ⟨hi, hothers⟩ := h.table c i hl
    refine ⟨hi.trans hnext, fun entry he heq => ?_⟩
    obtain he | ⟨hid, -⟩ := hentries entry he
    · exact hothers entry he heq
    · exact absurd (hid ▸ heq ▸ hi) (Nat.not_succ_le_self _)
  · intro entry he hlater c hcall
    obtain he | ⟨-, hnone⟩ := hentries entry he
    · exact h.shown entry he hlater c hcall
    · rw [hnone] at hcall
      cases hcall
  · have hw := h.waits
    simp only [hdue] at hw ⊢
    cases hw with
    | quiet quiet => exact absurd (quiet _ List.mem_cons_self) Bool.false_ne_true
    | push later made absent table quiet =>
      refine .push later (made.trans hnext) ?_ table quiet
      intro known hk
      obtain hk | ⟨hid, -⟩ := hentries known hk
      · exact absent known hk
      · intro heq
        exact Nat.not_succ_le_self _ (hid ▸ heq ▸ made)

lemma renumber (h : Kept start b) {entry : Entry} {rest : List Change}
    (hdue : b.due = .push entry :: rest) : Kept start
      ⟨b.transcript, (b.projector.renumber entry.id).2,
        .push { entry with id := (b.projector.renumber entry.id).1 } :: rest⟩ := by
  have hnext : b.projector.next ≤ b.projector.next + 1 := Nat.le_succ _
  have hlookup : ∀ c, (b.projector.renumber entry.id).2.tools.lookup c =
      (b.projector.tools.lookup c).map fun id =>
        if id = entry.id then b.projector.next + 1 else id :=
    fun c => Dict.lookup_mapValues _ _ c
  have hw := h.waits
  rw [hdue] at hw
  cases hw with
  | quiet quiet => exact absurd (quiet _ List.mem_cons_self) Bool.false_ne_true
  | push later made absent table quiet =>
    refine ⟨h.formed, h.started.trans hnext, fun entry he => (h.made entry he).trans hnext, ?_, ?_,
      .push ?_ le_rfl h.absent_next ?_ quiet⟩
    · intro c i hl
      rw [hlookup] at hl
      obtain ⟨old, hold, hi⟩ := Option.map_eq_some_iff.mp hl
      split at hi
      · subst hi
        exact ⟨le_rfl, fun other ho heq => absurd heq (h.absent_next other ho)⟩
      · subst hi
        exact ⟨(h.table c old hold).1.trans hnext, (h.table c old hold).2⟩
    · intro other ho hlater c hcall
      rw [hlookup, h.shown other ho hlater c hcall, Option.map_some, if_neg (absent other ho)]
    · exact Nat.lt_succ_of_le h.started
    · intro c
      rw [hlookup]
      change _ ↔ Entry.call entry = some c
      rw [← table c]
      constructor
      · intro hl
        obtain ⟨old, hold, hi⟩ := Option.map_eq_some_iff.mp hl
        split at hi
        · rename_i heq
          exact heq ▸ hold
        · exact absurd (hi ▸ (h.table c old hold).1) (Nat.not_succ_le_self _)
      · intro hl
        rw [hl, Option.map_some, if_pos rfl]
        rfl

lemma land (h : Kept start b) {change : Change} {rest : List Change}
    (hdue : b.due = change :: rest) : Kept start
      { b with transcript := Board.land change b.transcript, due := rest } := by
  have hw := h.waits
  rw [hdue] at hw
  cases hw with
  | quiet quiet =>
    have hc := land_quiet b.transcript (quiet change List.mem_cons_self)
    have hk := h.land_comes hc
    exact ⟨hk.formed, hk.started, hk.made, hk.table, hk.shown,
      .quiet fun other ho => quiet other (List.mem_cons_of_mem _ ho)⟩
  | @replace entry _ same quiet =>
    have hc : Comes b.transcript (Board.land (.replace entry) b.transcript) := by
      refine Board.land_comes b.transcript (fun _ h => nomatch h) ?_
      intro other heq
      cases heq
      exact same
    have hk := h.land_comes hc
    exact ⟨hk.formed, hk.started, hk.made, hk.table, hk.shown, .quiet quiet⟩
  | @push entry _ later made absent table quiet =>
    have hentries : ∀ other ∈ (Board.land (.push entry) b.transcript).entries,
        other ∈ b.transcript.entries ∨ other = entry := by
      intro other ho
      obtain hgrown | hsame := land_push entry b.transcript
      · obtain ho | ho := List.mem_append.mp (hgrown ▸ ho)
        · exact .inl ho
        · exact .inr (List.mem_singleton.mp ho)
      · exact .inl (hsame ▸ ho)
    refine ⟨h.formed.apply _, h.started, ?_, ?_, ?_, .quiet quiet⟩
    · intro other ho
      obtain ho | rfl := hentries other ho
      · exact h.made other ho
      · exact made
    · intro c i hl
      refine ⟨(h.table c i hl).1, fun other ho heq => ?_⟩
      obtain ho | rfl := hentries other ho
      · exact (h.table c i hl).2 other ho heq
      · exact (table c).mp (heq ▸ hl)
    · intro other ho hlater c hcall
      obtain ho | rfl := hentries other ho
      · exact h.shown other ho hlater c hcall
      · exact (table c).mpr hcall

lemma cut (h : Kept start b) {before : EntryId}
    (spares : ∀ card rest, b.due = .push card :: rest → (Entry.call card).isSome = true →
      before ≤ card.id) : Kept start (b.cut before) := by
  have hentries : ∀ entry ∈ (Board.land (.truncate before) b.transcript).entries,
      entry ∈ b.transcript.entries ∧ before ≤ entry.id := by
    intro entry he
    rw [Board.land, h.formed.truncate_entries, List.mem_filter, decide_eq_true_eq] at he
    exact he
  have hlookup : ∀ c i, (b.projector.forgetBefore before).tools.lookup c = some i →
      b.projector.tools.lookup c = some i := fun c i hl => (Dict.of_lookup_filter hl).1
  have hkept : ∀ c i, b.projector.tools.lookup c = some i → before ≤ i →
      (b.projector.forgetBefore before).tools.lookup c = some i :=
    fun c i hl hle => Dict.lookup_filter hl (decide_eq_true hle)
  refine ⟨h.formed.apply _, h.started, fun entry he => h.made entry (hentries entry he).1, ?_, ?_, ?_⟩
  · intro c i hl
    obtain ⟨hi, hothers⟩ := h.table c i (hlookup c i hl)
    exact ⟨hi, fun entry he => hothers entry (hentries entry he).1⟩
  · intro entry he hlater c hcall
    obtain ⟨hm, hle⟩ := hentries entry he
    exact hkept c _ (h.shown entry hm hlater c hcall) hle
  · have hw := h.waits
    change Waits start (b.cut before) b.due
    generalize hdue : b.due = due at hw ⊢
    cases hw with
    | quiet quiet => exact .quiet quiet
    | replace same quiet => exact .replace (fun known hk => same known (hentries known hk).1) quiet
    | push later made absent table quiet =>
      refine .push later made (fun known hk => absent known (hentries known hk).1) ?_ quiet
      intro c
      constructor
      · exact fun hl => (table c).mp (hlookup c _ hl)
      · intro hcall
        have hle := spares _ _ hdue (hcall ▸ rfl)
        exact hkept c _ ((table c).mpr hcall) hle

lemma withImages_call (images : List ToolContent) (entry : Entry) :
    (Entry.withImages images entry).id = entry.id ∧
      Entry.call (Entry.withImages images entry) = Entry.call entry := by
  rw [Entry.withImages, Entry.call, Entry.call]
  cases hk : entry.kind <;> simp [hk]

lemma enrich (h : Kept start b) {id : EntryId} {entry : Entry}
    (hfound : b.transcript.entry id = some entry) (images : List ToolContent) :
    Kept start { b with
      transcript := Board.land (.replace (Entry.withImages images entry)) b.transcript } := by
  obtain ⟨hid, hcall⟩ := withImages_call images entry
  obtain ⟨hm, -⟩ := h.formed.entry_iff.mp hfound
  refine h.land_comes (Board.land_comes b.transcript (fun _ h => nomatch h) ?_)
  intro other heq known hk hsame
  cases heq
  have hentry : b.transcript.entry entry.id = some entry := h.formed.entry_iff.mpr ⟨hm, rfl⟩
  have hknown : b.transcript.entry entry.id = some known :=
    h.formed.entry_iff.mpr ⟨hk, hsame.trans hid⟩
  rw [hcall, Option.some.inj (hknown.symm.trans hentry)]

lemma step {decode : Wire.Decoders} {a : BoardAct} (h : Kept start b) (hs : b.Spares a)
    (ha : b.step decode a = some b') : Kept start b' := by
  cases a with
  | update update now =>
    rw [Board.step] at ha
    split at ha
    · obtain rfl := Option.some.inj ha
      exact h.deals (Projector.update_deals decode _ update now _)
    · cases ha
  | ask callId fields =>
    rw [Board.step] at ha
    split at ha
    · obtain rfl := Option.some.inj ha
      have hu : ∀ tool, (applyFields fields tool).callId = tool.callId := fun _ => rfl
      exact h.deals (Projector.tool_deals b.transcript callId hu b.projector)
    · cases ha
  | say kind =>
    rw [Board.step] at ha
    split at ha
    · rename_i hsay
      obtain rfl := Option.some.inj ha
      refine h.deals (Projector.push_deals kind ?_ _ _)
      rintro tool rfl
      simp [Entry.call] at hsay
    · cases ha
  | tell change =>
    rw [Board.step] at ha
    split at ha
    · rename_i hquiet
      obtain rfl := Option.some.inj ha
      exact h.land_comes (land_quiet _ hquiet)
    · cases ha
  | picture image =>
    rw [Board.step] at ha
    split at ha
    · rename_i entry rest hdue
      obtain rfl := Option.some.inj ha
      exact h.picture hdue image
    · cases ha
  | renumber =>
    rw [Board.step] at ha
    split at ha
    · rename_i entry rest hdue
      obtain rfl := Option.some.inj ha
      exact h.renumber hdue
    · cases ha
  | land =>
    rw [Board.step] at ha
    split at ha
    · rename_i change rest hdue
      obtain rfl := Option.some.inj ha
      exact h.land hdue
    · cases ha
  | bound =>
    rw [Board.step] at ha
    split at ha
    · rename_i first hfirst
      split at ha
      · obtain rfl := Option.some.inj ha
        exact h.cut fun card rest hdue hcard => hs card rest first hdue hcard hfirst
      · exact Option.some.inj ha ▸ h
    · exact Option.some.inj ha ▸ h
  | enrich id images =>
    rw [Board.step] at ha
    split at ha
    · rename_i entry hfound
      obtain rfl := Option.some.inj ha
      exact h.enrich hfound images
    · exact Option.some.inj ha ▸ h

end Kept

structure Opens (b : Board) : Prop where
  formed : b.transcript.WellFormed
  made : ∀ entry ∈ b.transcript.entries, entry.id ≤ b.projector.next
  tools : b.projector.tools = ∅
  due : b.due = []

lemma Opens.kept (h : b.Opens) : Kept b.projector.next b := by
  refine ⟨h.formed, le_rfl, h.made, ?_, ?_, ?_⟩
  · intro c i hl
    rw [h.tools] at hl
    cases hl
  · intro entry he hlater
    exact absurd (h.made entry he) (Nat.not_le_of_lt hlater)
  · rw [h.due]
    exact .quiet (List.forall_mem_nil _)

structure Carded (start : EntryId) (b : Board) : Prop where
  single : ∀ entry ∈ b.transcript.entries, ∀ other ∈ b.transcript.entries, start < entry.id →
    start < other.id → Entry.call entry ≠ none → Entry.call entry = Entry.call other → entry = other
  table : ∀ callId id, b.projector.tools.lookup callId = some id →
    (∃ entry ∈ b.transcript.entries, entry.id = id ∧ Entry.call entry = some callId) ∨
      ∀ entry ∈ b.transcript.entries, entry.id ≠ id
  same : ∀ card, .replace card ∈ b.due → ∀ entry ∈ b.transcript.entries, entry.id = card.id →
    Entry.call entry = Entry.call card

lemma Kept.carded (h : Kept start b) : Carded start b := by
  refine ⟨?_, ?_, ?_⟩
  · intro entry he other ho hlater hlater' hcall hsame
    obtain ⟨c, hc⟩ := Option.ne_none_iff_exists'.mp hcall
    have hid : entry.id = other.id := Option.some.inj
      ((h.shown entry he hlater c hc).symm.trans (h.shown other ho hlater' c (hsame ▸ hc)))
    have hfound : b.transcript.entry entry.id = some entry := h.formed.entry_iff.mpr ⟨he, rfl⟩
    have hother : b.transcript.entry entry.id = some other := h.formed.entry_iff.mpr ⟨ho, hid.symm⟩
    exact Option.some.inj (hfound.symm.trans hother)
  · intro c i hl
    by_cases hleft : ∃ entry ∈ b.transcript.entries, entry.id = i
    · obtain ⟨entry, he, hid⟩ := hleft
      exact .inl ⟨entry, he, hid, (h.table c i hl).2 entry he hid⟩
    · exact .inr fun entry he hid => hleft ⟨entry, he, hid⟩
  · intro card hm entry he hid
    have hw := h.waits
    generalize b.due = due at hw hm
    cases hw with
    | quiet quiet => exact absurd (quiet _ hm) Bool.false_ne_true
    | push later made absent table quiet =>
      obtain heq | hm := List.mem_cons.mp hm
      · cases heq
      · exact absurd (quiet _ hm) Bool.false_ne_true
    | replace same quiet =>
      obtain heq | hm := List.mem_cons.mp hm
      · cases heq
        exact same entry he hid
      · exact absurd (quiet _ hm) Bool.false_ne_true

theorem calls_carded (decode : Wire.Decoders) {b b' : Board} {acts : List BoardAct} (h : b.Opens)
    (hr : Run (fun b a b' => b.Spares a ∧ b.step decode a = some b') b acts b') :
    Carded b.projector.next b' := by
  have hkept : Kept b.projector.next b' := by
    refine hr.invariant h.kept ?_
    intro t a u ht ha
    exact ht.step ha.1 ha.2
  exact hkept.carded

section Sample

def shownEntries (entries : List Entry) (truncated : Bool) : Transcript :=
  { Transcript.new "agent" with entries, truncated }

def madeSo (next : ℕ) (streaming : Option Streaming) (tools : Dict String EntryId) : Projector :=
  { Projector.default with next, streaming, tools }

def readCall : Wire.ToolCall :=
  ⟨"call", none, "Read", .read, .pending, [], [], none, none⟩

def readDone : Wire.ToolCallUpdate :=
  ⟨"call", ⟨none, none, some .failed, none, none, none⟩, none⟩

def firstBoard : Board := ⟨shownEntries [] false, madeSo 0 none ∅, []⟩

def callActs : List BoardAct := [.update (.toolCall readCall) 0, .land, .update (.toolCallUpdate readDone) 1,
  .land]

theorem calls_carded_read : ∃ b, Run (fun b a b' => b.step garbled a = some b') firstBoard callActs b ∧
    Carded 0 b ∧ b.transcript.entries.length = 1 := by
  have hrun : ∃ b, Run.exec (fun _ _ => true) (Board.step garbled) firstBoard callActs = some b ∧
      b.transcript.entries.length = 1 := ⟨_, rfl, rfl⟩
  obtain ⟨b, hb, hlength⟩ := hrun
  have h : Run (fun b a b' => b.step garbled a = some b') firstBoard callActs b :=
    (Run.of_exec hb).mono fun _ _ _ ha => ha.2
  have hopens : firstBoard.Opens :=
    ⟨Transcript.wellFormed_new "agent", fun entry he => absurd he List.not_mem_nil, rfl, rfl⟩
  have hspares : ∀ a ∈ callActs, ∀ b : Board, b.Spares a := by
    simp [callActs, Spares]
  have hmet : Run (fun b a b' => b.Spares a ∧ b.step garbled a = some b') firstBoard callActs b :=
    (h.restrict hspares).mono fun b _ _ ha => ⟨ha.1 b, ha.2⟩
  exact ⟨b, h, calls_carded garbled hopens hmet, hlength⟩

def widePicture : Image := ⟨String.ofList (List.replicate 4718592 'a'), .png⟩

def linking : Entry := ⟨1, .agent "![a](a.png) ![b](b.png)"⟩

def pictureEntry (id : EntryId) (image : Image) : Entry := ⟨id, .image .agent image⟩

def readCard (id : EntryId) : Entry := ⟨id, .tool (Projector.begun 0 (applyCall readCall (blankTool "call")))⟩

def doneCard (id : EntryId) : Entry :=
  ⟨id, .tool (Projector.begun 1 (applyFields readDone.fields (blankTool "call")))⟩

lemma message_made : firstBoard.step garbled (.update (.agentMessageChunk
    ⟨.text "![a](a.png) ![b](b.png)", none⟩) 0) =
      some ⟨shownEntries [] false, madeSo 1 (some ⟨1, none, .agent⟩) ∅, [.push linking]⟩ := rfl

lemma message_landed (p : Projector) : (⟨shownEntries [] false, p, [.push linking]⟩ : Board).step
    garbled .land = some ⟨shownEntries [linking] false, p, []⟩ := rfl

lemma card_made (streaming : Option Streaming) :
    (⟨shownEntries [linking] false, madeSo 1 streaming ∅, []⟩ : Board).step garbled
      (.update (.toolCall readCall) 0) =
      some ⟨shownEntries [linking] false, madeSo 2 none ((∅ : Dict String EntryId).insert "call" 2),
        [.push (readCard 2)]⟩ := rfl

lemma keepFrom_short {entries : List Entry} {text media : ℕ} (h : entries.length ≤ maxEntries)
    (ht : sumOf entrySize entries = text) (hm : sumOf entryMedia entries = media) :
    keepFrom entries = dropWhileOver entries text media 0 := by
  rw [keepFrom, Nat.sub_eq_zero_of_le h, List.drop_zero, ht, hm]

lemma keepFrom_one (image : Image) (h : image.data.utf8ByteSize = 4718592) :
    keepFrom [linking, pictureEntry 3 image] = 0 := by
  have hmedia : sumOf entryMedia [linking, pictureEntry 3 image] = 4718592 := by
    simp [sumOf, entryMedia, linking, pictureEntry, h]
  have htext : sumOf entrySize [linking, pictureEntry 3 image] = 23 := rfl
  rw [keepFrom_short (Nat.le_of_ble_eq_true rfl) htext hmedia, dropWhileOver]
  exact if_neg (by decide)

lemma keepFrom_two (image : Image) (h : image.data.utf8ByteSize = 4718592) :
    keepFrom [linking, pictureEntry 3 image, pictureEntry 4 image] = 2 := by
  have hone : ∀ id, entryMedia (pictureEntry id image) = 4718592 := fun _ => h
  have hnone : entryMedia linking = 0 := rfl
  have hmedia : sumOf entryMedia [linking, pictureEntry 3 image, pictureEntry 4 image] = 9437184 := by
    simp only [sumOf, List.map_cons, List.map_nil, List.sum_cons, List.sum_nil, hone, hnone]
    rfl
  have htext : sumOf entrySize [linking, pictureEntry 3 image, pictureEntry 4 image] = 23 := rfl
  rw [keepFrom_short (Nat.le_of_ble_eq_true rfl) htext hmedia, dropWhileOver, if_pos (by decide),
    dropWhileOver, hone, hnone]
  exact if_pos (by decide)

lemma keepFrom_card (image : Image) (h : image.data.utf8ByteSize = 4718592) :
    keepFrom [pictureEntry 4 image, readCard 5] = 0 := by
  have hone : entryMedia (pictureEntry 4 image) = 4718592 := h
  have hmedia : sumOf entryMedia [pictureEntry 4 image, readCard 5] = 4718592 :=
    congrArg (· + 0) hone
  have htext : sumOf entrySize [pictureEntry 4 image, readCard 5] = 4 := rfl
  rw [keepFrom_short (Nat.le_of_ble_eq_true rfl) htext hmedia, dropWhileOver]
  exact if_neg (by decide)

lemma picture_shown (entries : List Entry) (n : ℕ) (tools : Dict String EntryId) (card : Entry) (image : Image)
    (h : ∀ known ∈ entries, known.id < n + 1) :
    (⟨shownEntries entries false, madeSo n none tools, [.push card]⟩ : Board).step garbled (.picture image) =
      some ⟨shownEntries (entries ++ [pictureEntry (n + 1) image]) false, madeSo (n + 1) none tools,
        [.push card]⟩ := by
  have hpush := @Transcript.exec_push (shownEntries entries false) (pictureEntry (n + 1) image) rfl h
  have hland : land (.push (pictureEntry (n + 1) image)) (shownEntries entries false) =
      shownEntries (entries ++ [pictureEntry (n + 1) image]) false := by
    rw [land, hpush]
    rfl
  exact congrArg (fun t => some (⟨t, madeSo (n + 1) none tools, [.push card]⟩ : Board)) hland

lemma bound_kept {t : Transcript} (p : Projector) (due : List Change) (h : keepFrom t.entries = 0) :
    (⟨t, p, due⟩ : Board).step garbled .bound = some ⟨t, p, due⟩ := by
  rw [Board.step]
  simp only [h]
  split
  · rw [if_neg (Nat.lt_irrefl 0)]
  · rfl

def dropped (image : Image) : Board :=
  ⟨shownEntries [pictureEntry 4 image] true, madeSo 4 none ∅, [.push (readCard 2)]⟩

lemma land_truncate {before : EntryId} {t : Transcript} {keep : ℕ} (hpos : 0 < keep)
    (h : partitionPoint (fun entry : Entry => decide (entry.id < before)) t.entries = keep) :
    land (.truncate before) t = { t with entries := t.entries.drop keep, truncated := true } := by
  have ht : wp (Transcript.truncateBefore before)
      (fun _ t' => t' = { t with entries := t.entries.drop keep, truncated := true }) t := by
    rw [Transcript.truncateBefore, wp_bind, wp_get, andThen_ok, wp_when, h]
    exact ⟨fun _ => rfl, fun hzero => absurd (decide_eq_true hpos) hzero⟩
  exact ht

lemma bound_drops (image : Image) (h : image.data.utf8ByteSize = 4718592) :
    (⟨shownEntries [linking, pictureEntry 3 image, pictureEntry 4 image] false,
      madeSo 4 none ((∅ : Dict String EntryId).insert "call" 2), [.push (readCard 2)]⟩ : Board).step
      garbled .bound = some (dropped image) := by
  have hkeep : keepFrom (shownEntries [linking, pictureEntry 3 image, pictureEntry 4 image] false).entries =
    2 := keepFrom_two image h
  have hpoint : partitionPoint (fun entry : Entry => decide (entry.id < 4))
      [linking, pictureEntry 3 image, pictureEntry 4 image] = 2 := by
    simp [partitionPoint, binarySearchBy, Search.narrow, linking, pictureEntry]
  have hcut : land (.truncate 4) (shownEntries [linking, pictureEntry 3 image, pictureEntry 4 image] false) =
      shownEntries [pictureEntry 4 image] true := land_truncate (Nat.zero_lt_two) hpoint
  have htable : (madeSo 4 none ((∅ : Dict String EntryId).insert "call" 2)).forgetBefore 4 = madeSo 4 none ∅ :=
    rfl
  rw [Board.step]
  simp only [hkeep]
  exact congrArg some (Board.mk.injEq _ _ _ _ _ _ ▸ ⟨hcut, htable, rfl⟩)

lemma card_renumbered (image : Image) : (dropped image).step garbled .renumber =
    some ⟨shownEntries [pictureEntry 4 image] true, madeSo 5 none ∅, [.push (readCard 5)]⟩ := rfl

lemma card_landed (image : Image) :
    (⟨shownEntries [pictureEntry 4 image] true, madeSo 5 none ∅, [.push (readCard 5)]⟩ : Board).step
      garbled .land = some ⟨shownEntries [pictureEntry 4 image, readCard 5] true, madeSo 5 none ∅, []⟩ := rfl

lemma card_missed (image : Image) :
    (⟨shownEntries [pictureEntry 4 image, readCard 5] true, madeSo 5 none ∅, []⟩ : Board).step garbled
      (.update (.toolCallUpdate readDone) 1) =
      some ⟨shownEntries [pictureEntry 4 image, readCard 5] true,
        madeSo 6 none ((∅ : Dict String EntryId).insert "call" 6), [.push (doneCard 6)]⟩ := rfl

lemma card_again (image : Image) :
    (⟨shownEntries [pictureEntry 4 image, readCard 5] true,
      madeSo 6 none ((∅ : Dict String EntryId).insert "call" 6), [.push (doneCard 6)]⟩ : Board).step
      garbled .land = some ⟨shownEntries [pictureEntry 4 image, readCard 5, doneCard 6] true,
        madeSo 6 none ((∅ : Dict String EntryId).insert "call" 6), []⟩ := rfl

def hidingActs (image : Image) : List BoardAct :=
  [.update (.agentMessageChunk ⟨.text "![a](a.png) ![b](b.png)", none⟩) 0, .land,
    .update (.toolCall readCall) 0, .picture image, .bound, .picture image, .bound, .renumber, .land,
    .bound, .update (.toolCallUpdate readDone) 1, .land]

theorem pictures_hide_card : ∃ acts b, firstBoard.Opens ∧
    Run (fun b a b' => b.step garbled a = some b') firstBoard acts b ∧ ¬Carded 0 b := by
  have hsize : widePicture.data.utf8ByteSize = 4718592 := Text.size_replicate (by decide) _
  generalize widePicture = image at hsize
  have hrun : Run (fun b a b' => b.step garbled a = some b') firstBoard (hidingActs image)
      ⟨shownEntries [pictureEntry 4 image, readCard 5, doneCard 6] true,
        madeSo 6 none ((∅ : Dict String EntryId).insert "call" 6), []⟩ := by
    refine Run.cons message_made (Run.cons (message_landed _) (Run.cons (card_made _) ?_))
    refine Run.cons (picture_shown [linking] 2 _ _ image ?_) ?_
    · simp [linking]
    refine Run.cons (bound_kept _ _ (keepFrom_one image hsize)) ?_
    refine Run.cons (picture_shown [linking, pictureEntry 3 image] 3 _ _ image ?_) ?_
    · simp [linking, pictureEntry]
    refine Run.cons (bound_drops image hsize) ?_
    refine Run.cons (card_renumbered image) (Run.cons (card_landed image) ?_)
    refine Run.cons (bound_kept _ _ (keepFrom_card image hsize)) ?_
    exact Run.cons (card_missed image) (Run.cons (card_again image) .nil)
  refine ⟨_, _, ?_, hrun, fun h => ?_⟩
  · exact ⟨Transcript.wellFormed_new "agent", fun entry he => absurd he List.not_mem_nil, rfl, rfl⟩
  · have hsame := h.single (readCard 5) (by simp [shownEntries]) (doneCard 6) (by simp [shownEntries])
      (by decide) (by decide) nofun rfl
    cases congrArg Entry.id hsame

end Sample

end Board

end Sheprd.Acp
