import Sheprd.Mirror.Codex

namespace Sheprd.Mirror

open Sheprd.Lib Sheprd.Lib.Exec Sheprd.Chat

def Kept (old new : Entry) : Prop :=
  new = old ∨ ∃ tool status content, old.kind = .tool tool ∧
    new = { old with kind := .tool { tool with status, content } }

def Grown (old new : List Entry) : Prop :=
  ∃ kept added, new = kept ++ added ∧ List.Forall₂ Kept old kept

def Indexed (p : Projection) : Prop :=
  ∀ call index, p.tools.lookup call = some index →
    index < p.transcript.entries.length ∧ call ≠ "" ∧ call.utf8ByteSize ≤ maxId

def Adds (lo hi : ℕ) (p q : Projection) : Prop :=
  Indexed q ∧ ∃ kept added, q.transcript.entries = kept ++ added ∧
    List.Forall₂ Kept p.transcript.entries kept ∧
    (added.map Entry.id).Pairwise (· < ·) ∧ ∀ entry ∈ added, lo ≤ entry.id ∧ entry.id < hi

section Keeping

variable {old new newer : List Entry}

lemma Kept.refl (entry : Entry) : Kept entry entry := .inl rfl

lemma Kept.trans {a b c : Entry} (h : Kept a b) (h' : Kept b c) : Kept a c := by
  rcases h with rfl | ⟨tool, status, content, hold, rfl⟩
  · exact h'
  · rcases h' with rfl | ⟨tool', status', content', hold', rfl⟩
    · exact .inr ⟨tool, status, content, hold, rfl⟩
    · refine .inr ⟨tool, status', content', hold, ?_⟩
      cases hold'
      rfl

lemma Kept.id_eq {a b : Entry} (h : Kept a b) : b.id = a.id := by
  rcases h with rfl | ⟨_, _, _, _, rfl⟩ <;> rfl

lemma kept_refl (old : List Entry) : List.Forall₂ Kept old old := by
  rw [List.forall₂_same]
  exact fun entry _ => Kept.refl entry

lemma kept_trans {a b c : List Entry} (h : List.Forall₂ Kept a b) (h' : List.Forall₂ Kept b c) :
    List.Forall₂ Kept a c := by
  induction h generalizing c with
  | nil => exact h'
  | cons hab _ ih =>
    cases h' with
    | cons hbc h' => exact .cons (hab.trans hbc) (ih h')

lemma kept_ids {a b : List Entry} (h : List.Forall₂ Kept a b) : b.map Entry.id = a.map Entry.id := by
  induction h with
  | nil => rfl
  | cons hab _ ih => rw [List.map_cons, List.map_cons, hab.id_eq, ih]

end Keeping

namespace Adds

variable {lo mid hi : ℕ} {p q r : Projection}

lemma refl (h : Indexed p) : Adds lo hi p p :=
  ⟨h, p.transcript.entries, [], (List.append_nil _).symm, kept_refl _, .nil, List.forall_mem_nil _⟩

lemma mono {lo' hi' : ℕ} (h : Adds lo hi p q) (hlo : lo' ≤ lo) (hhi : hi ≤ hi') :
    Adds lo' hi' p q := by
  obtain ⟨hq, kept, added, hentries, hkept, hless, hin⟩ := h
  refine ⟨hq, kept, added, hentries, hkept, hless, fun entry hentry => ?_⟩
  exact ⟨hlo.trans (hin entry hentry).1, (hin entry hentry).2.trans_le hhi⟩

lemma trans (h : Adds lo mid p q) (h' : Adds mid hi q r) (hlo : lo ≤ mid) (hhi : mid ≤ hi) :
    Adds lo hi p r := by
  obtain ⟨-, kept, added, hentries, hkept, hless, hin⟩ := h
  obtain ⟨hr, kept', added', hentries', hkept', hless', hin'⟩ := h'
  rw [hentries] at hkept'
  obtain ⟨front, back, hfront, hback, rfl⟩ : ∃ front back, List.Forall₂ Kept kept front ∧
      List.Forall₂ Kept added back ∧ kept' = front ++ back := by
    refine ⟨_, _, ?_, ?_, (List.take_append_drop kept.length kept').symm⟩
    · simpa using List.forall₂_take kept.length hkept'
    · simpa using List.forall₂_drop kept.length hkept'
  have hids := kept_ids hback
  have hback' : ∀ entry ∈ back, lo ≤ entry.id ∧ entry.id < mid := by
    intro entry hentry
    have hid : entry.id ∈ added.map Entry.id := hids ▸ List.mem_map_of_mem hentry
    obtain ⟨old, hold, heq⟩ := List.mem_map.mp hid
    exact heq ▸ hin old hold
  refine ⟨hr, front, back ++ added', ?_, kept_trans hkept hfront, ?_, ?_⟩
  · rw [hentries', List.append_assoc]
  · rw [List.map_append, hids]
    refine List.pairwise_append.mpr ⟨hless, hless', ?_⟩
    intro a ha b hb
    obtain ⟨old, hold, rfl⟩ := List.mem_map.mp ha
    obtain ⟨new, hnew, rfl⟩ := List.mem_map.mp hb
    exact (hin old hold).2.trans_le (hin' new hnew).1
  · intro entry hentry
    rcases List.mem_append.mp hentry with hentry | hentry
    · exact ⟨(hback' entry hentry).1, (hback' entry hentry).2.trans_le hhi⟩
    · exact ⟨hlo.trans (hin' entry hentry).1, (hin' entry hentry).2⟩

lemma grown (h : Adds lo hi p q) : Grown p.transcript.entries q.transcript.entries := by
  obtain ⟨-, kept, added, hentries, hkept, -⟩ := h
  exact ⟨kept, added, hentries, hkept⟩

lemma push (hp : Indexed p) {id : EntryId} (hlo : lo ≤ id) (hhi : id < hi) (kind : EntryKind) :
    Adds lo hi p (p.pushed id kind) := by
  refine ⟨fun call index hlookup => ?_, p.transcript.entries, [⟨id, kind⟩], rfl, kept_refl _, ?_, ?_⟩
  · obtain ⟨hindex, hcall⟩ := hp call index hlookup
    refine ⟨?_, hcall⟩
    rw [Projection.pushed, List.length_append]
    exact Nat.lt_add_right _ hindex
  · simp
  · simpa using ⟨hlo, hhi⟩

end Adds

def Quiet (p q : Projection) : Prop :=
  q.transcript.entries = p.transcript.entries ∧ q.tools = p.tools

def Still {α : Type} (m : Projecting α) : Prop := ∀ p, Gives (fun _ q => Quiet p q) m p

def Writes {α : Type} (lo hi : ℕ) (m : Projecting α) : Prop :=
  ∀ p, Indexed p → Gives (fun _ q => Adds lo hi p q) m p

section Still

variable {α β : Type}

lemma Quiet.refl (p : Projection) : Quiet p p := ⟨rfl, rfl⟩

lemma Quiet.trans {p q r : Projection} (h : Quiet p q) (h' : Quiet q r) : Quiet p r :=
  ⟨h'.1.trans h.1, h'.2.trans h.2⟩

lemma Quiet.indexed {p q : Projection} (h : Quiet p q) (hp : Indexed p) : Indexed q := by
  rw [Indexed, h.1, h.2]
  exact hp

lemma Adds.after {lo hi : ℕ} {p q r : Projection} (h : Adds lo hi q r) (hq : Quiet p q) :
    Adds lo hi p r := by
  obtain ⟨hr, kept, added, hentries, hkept, h⟩ := h
  exact ⟨hr, kept, added, hentries, hq.1 ▸ hkept, h⟩

lemma Adds.then {lo hi : ℕ} {p q r : Projection} (h : Adds lo hi p q) (hr : Quiet q r) :
    Adds lo hi p r := by
  obtain ⟨hq, kept, added, hentries, h⟩ := h
  exact ⟨hr.indexed hq, kept, added, hr.1.trans hentries, h⟩

lemma still_pure (a : α) : Still (pure a : Projecting α) := fun p => .pure (Quiet.refl p)

lemma Still.bind {m : Projecting α} {f : α → Projecting β} (hm : Still m) (hf : ∀ a, Still (f a)) :
    Still (m >>= f) :=
  fun p => (hm p).bind fun a q hq => (hf a q).mono fun _ _ hr => hq.trans hr

lemma still_get {f : Projection → Projecting α} (h : ∀ p, Still (f p)) : Still (get >>= f) :=
  fun p => h p p

lemma still_modify {g : Projection → Projection} (h : ∀ p, Quiet p (g p)) :
    Still (modify g : Projecting PUnit) := fun p => .modify (h p)

lemma still_when (b : Bool) {m : Projecting Unit} (h : Still m) : Still (when b m) :=
  fun p => .when b (fun _ => h p) fun _ => Quiet.refl p

lemma still_forM (o : Option α) {f : α → Projecting PUnit} (h : ∀ a, Still (f a)) :
    Still (o.forM f) := fun p => .forM o (fun a _ => h a p) fun _ => Quiet.refl p

end Still

namespace Writes

variable {α β : Type} {lo mid hi : ℕ}

lemma still {m : Projecting α} (h : Still m) : Writes lo hi m :=
  fun p hp => (h p).mono fun _ _ hq => (Adds.refl hp).then hq

lemma after {m : Projecting α} {f : α → Projecting β} (hm : Still m)
    (hf : ∀ a, Writes lo hi (f a)) : Writes lo hi (m >>= f) := by
  refine fun p hp => (hm p).bind fun a q hq => ?_
  exact (hf a q (hq.indexed hp)).mono fun _ _ hr => hr.after hq

lemma bind {m : Projecting α} {f : α → Projecting β} (hm : Writes lo mid m)
    (hf : ∀ a, Writes mid hi (f a)) (hlo : lo ≤ mid) (hhi : mid ≤ hi) : Writes lo hi (m >>= f) :=
  fun p hp => (hm p hp).bind fun a q hq =>
    (hf a q hq.1).mono fun _ _ hr => hq.trans hr hlo hhi

lemma mono {lo' hi' : ℕ} {m : Projecting α} (h : Writes lo hi m) (hlo : lo' ≤ lo)
    (hhi : hi ≤ hi') : Writes lo' hi' m :=
  fun p hp => (h p hp).mono fun _ _ hq => hq.mono hlo hhi

lemma get_bind {f : Projection → Projecting α} (h : ∀ p, Writes lo hi (f p)) :
    Writes lo hi (get >>= f) := fun p hp => h p p hp

lemma push {id : EntryId} (hlo : lo ≤ id) (hhi : id < hi) (kind : EntryKind) :
    Writes lo hi (Projection.push id kind) := fun _ hp => .modify (Adds.push hp hlo hhi kind)

end Writes

lemma entryId_bind {α : Type} {base offset : ℕ} (h : base + offset ≤ u64Max)
    (f : EntryId → Projecting α) : (entryId base offset >>= f) = f (base + offset) := by
  rw [entryId, if_pos h]
  rfl

namespace Projection

lemma still_note (b : Bool) : Still (note b) := still_modify fun _ => ⟨rfl, rfl⟩

lemma still_clip (text : String) (limit : ℕ) : Still (clip text limit) :=
  (still_note _).bind fun _ => still_pure _

lemma still_textOf (out : String) (blocks : List Value) : Still (textOf out blocks) := by
  induction blocks generalizing out with
  | nil => exact still_pure out
  | cons block blocks ih =>
    rw [textOf]
    split
    · exact (still_note true).bind fun _ => still_pure out
    · exact (still_clip _ _).bind fun more => ih _

lemma still_text (value : Value) : Still (text value) := by
  cases value with
  | string content => exact still_clip content maxText
  | array blocks => exact (still_note _).bind fun _ => still_textOf _ _
  | _ => exact still_pure ""

lemma still_session (id cwd : String) : Still (session id cwd) := by
  rw [session]
  split
  · exact still_pure ()
  · exact still_modify fun _ => ⟨rfl, rfl⟩

lemma still_reportedOption (category : OptionCategory) (id value : String) :
    Still (reportedOption category id value) := by
  rw [reportedOption]
  split
  · exact still_pure ()
  · exact still_modify fun _ => ⟨rfl, rfl⟩

lemma still_tokenCount (payload : Value) : Still (tokenCount payload) := by
  simp only [tokenCount]
  split
  · exact still_modify fun _ => ⟨rfl, rfl⟩
  · exact still_pure ()

def SameEntries (t t' : Transcript) : Prop := t'.entries = t.entries

instance : Std.Refl SameEntries := ⟨fun _ => rfl⟩

instance : IsTrans Transcript SameEntries := ⟨fun _ _ _ h h' => Eq.trans h' h⟩

lemma record_entries (activity : Activity) : Keeps SameEntries (Transcript.record activity) := by
  refine (Keeps.refuse _ _).bind fun _ => Keeps.get.bind fun t => ?_
  split
  · exact Keeps.modify fun _ => rfl
  · refine Keeps.bind (Keeps.when _ ?_) fun _ => Keeps.modify fun _ => rfl
    exact (Keeps.require _ _).bind fun ended => Keeps.modify fun _ => rfl

lemma reportedAt_quiet (call : String) (report : Acp.Report) (now : ℕ) (p : Projection) :
    Quiet p (p.reportedAt call report now) := by
  rw [reportedAt]
  cases hchange : Acp.recordActivity p.transcript call ((p.toolTitled call).getD "") report now with
  | none => exact Quiet.refl p
  | some change =>
    refine ⟨?_, rfl⟩
    obtain ⟨activity, rfl⟩ : ∃ activity, change = .activity activity := by
      simp only [Acp.recordActivity, ite_eq_iff, reduceCtorEq, and_false, false_or,
        Option.some.injEq] at hchange
      obtain ⟨-, -, -, -, -, h⟩ := hchange
      exact ⟨_, h.symm⟩
    exact record_entries activity p.transcript

lemma still_report (readers : Readers) (call : String) (report : Acp.Report) (record : Value) :
    Still (Projection.report readers call report record) := by
  rw [Projection.report]
  split
  · exact still_pure ()
  · exact still_modify fun p => reportedAt_quiet _ _ _ p

lemma still_activityResult (readers : Readers) (call : String) (failed : Bool) (output : Value)
    (results : ℕ) (record : Value) :
    Still (activityResult readers call failed output results record) := by
  refine still_get fun p => ?_
  split
  · exact still_pure _
  · refine Still.bind (still_modify ?_) fun _ => still_get fun p => ?_
    · exact fun _ => ⟨rfl, rfl⟩
    split
    refine Still.bind (still_modify fun _ => ⟨rfl, rfl⟩) fun _ => ?_
    refine (still_forM _ fun _ => still_report _ _ _ _).bind fun _ => ?_
    exact still_forM _ fun _ => still_report _ _ _ _

lemma still_activityNotified (readers : Readers) (record : Value) (content : String) :
    Still (activityNotified readers record content) := by
  rw [activityNotified]
  split
  · exact still_pure ()
  · split
    · exact still_pure ()
    · refine still_get fun p => ?_
      split
      refine Still.bind (still_modify fun _ => ⟨rfl, rfl⟩) fun _ => ?_
      exact still_forM _ fun _ => still_report _ _ _ _

lemma still_rememberAnswers (pending : List (QuestionKey × QuestionAnswer)) :
    Still (rememberAnswers pending) := by
  refine still_get fun p => ?_
  dsimp only
  split
  · exact still_pure _
  · exact (still_modify fun _ => ⟨rfl, rfl⟩).bind fun _ => still_pure _

lemma still_retainedAnswer (readers : Readers) (value : Value) (order : String) :
    Still (retainedAnswer readers value order) := by
  refine (still_note _).bind fun _ => ?_
  split
  · exact still_pure _
  · refine still_get fun p => ?_
    dsimp only
    split
    · exact still_pure _
    · refine (still_rememberAnswers _).bind fun remembered => ?_
      cases remembered <;> exact still_pure _

lemma still_questionReply (readers : Readers) (record : Value) (content : String) :
    Still (questionReply readers record content) := by
  refine still_get fun p => ?_
  split
  · exact still_pure _
  · split
    · exact still_pure _
    · refine (still_rememberAnswers _).bind fun remembered => ?_
      cases remembered <;> exact still_pure _

section Entries

variable {lo hi : ℕ}

lemma writes_message {id : EntryId} (hlo : lo ≤ id) (hhi : id < hi) (role : Role)
    (text : String) : Writes lo hi (message id role text) := by
  rw [message.eq_def]
  split
  · exact .still (still_pure ())
  · exact .push hlo hhi _

lemma modifyEntry_adds {index : ℕ} {f : Tool → Tool} {p : Projection} (hp : Indexed p)
    (hf : ∀ tool, ∃ status content, f tool = { tool with status, content }) :
    Adds lo hi p (p.modifyEntry index f) := by
  refine ⟨?_, (p.modifyEntry index f).transcript.entries, [], (List.append_nil _).symm, ?_, .nil,
    List.forall_mem_nil _⟩
  · intro call i hlookup
    simpa [modifyEntry] using hp call i hlookup
  · rw [modifyEntry]
    refine List.forall₂_iff_get.mpr ⟨by simp, fun i hi hi' => ?_⟩
    simp only [List.get_eq_getElem, List.getElem_modify]
    split
    · split
      · rename_i tool htool
        obtain ⟨status, content, heq⟩ := hf tool
        exact .inr ⟨tool, status, content, htool, by rw [heq]⟩
      · exact Kept.refl _
    · exact Kept.refl _

lemma writes_output (call : String) (result : Value) (status : ToolStatus) :
    Writes lo hi (output call result status) := by
  intro p hp
  refine Gives.get_bind ?_
  cases hlookup : p.tools.lookup call with
  | none => exact .pure (.refl hp)
  | some index =>
    refine (still_text result p).bind fun words q hq => Gives.get_bind ?_
    have hindex : index < q.transcript.entries.length := hq.1 ▸ (hp call index hlookup).1
    refine Gives.bind (Q := fun _ r => r = q)
      (.require ⟨_, List.getElem?_eq_getElem hindex, rfl⟩) fun _ r hr => ?_
    subst hr
    exact .modify ((modifyEntry_adds (hq.indexed hp) fun tool => ⟨_, _, rfl⟩).after hq)

def Called (p : Projection) (id : EntryId) (call : String) (q : Projection) : Prop :=
  q.tools = p.tools.insert call p.transcript.entries.length ∧
    ∃ tool, q.transcript.entries = p.transcript.entries ++ [⟨id, .tool tool⟩]

lemma Called.adds {p q : Projection} {id : EntryId} {call : String} (h : Called p id call q)
    (hp : Indexed p) (hcall : call ≠ "" ∧ call.utf8ByteSize ≤ maxId) (hlo : lo ≤ id)
    (hhi : id < hi) : Adds lo hi p q := by
  obtain ⟨htools, tool, hentries⟩ := h
  refine ⟨?_, p.transcript.entries, [⟨id, .tool tool⟩], hentries, kept_refl _, by simp, ?_⟩
  · intro called index hlookup
    rw [htools] at hlookup
    rw [hentries, List.length_append, List.length_singleton]
    rcases Dict.of_lookup_insert hlookup with ⟨rfl, hindex⟩ | hlookup
    · rw [hindex]
      exact ⟨Nat.lt_add_one _, hcall⟩
    · exact ⟨Nat.lt_add_right 1 (hp called index hlookup).1, (hp called index hlookup).2⟩
  · simpa using ⟨hlo, hhi⟩

lemma Called.quiet {p q r : Projection} {id : EntryId} {call : String} (h : Called p id call q)
    (hr : Quiet q r) : Called p id call r := by
  rw [Called, hr.1, hr.2]
  exact h

lemma Called.modifyEntry {p q : Projection} {id : EntryId} {call : String}
    (h : Called p id call q) (f : Tool → Tool) :
    Called p id call (q.modifyEntry p.transcript.entries.length f) := by
  obtain ⟨htools, tool, hentries⟩ := h
  refine ⟨htools, f tool, ?_⟩
  rw [Projection.modifyEntry, hentries, List.modify_eq_take_cons_drop (by simp)]
  simp

lemma tool_cases (readers : Readers) (id : EntryId) (call name : String) (input : Value)
    (p : Projection) :
    ((call = "" ∨ name = "" ∨ maxId < call.utf8ByteSize) ∧
      tool readers id call name input = pure ()) ∨
    ((call ≠ "" ∧ call.utf8ByteSize ≤ maxId) ∧
      Gives (fun _ q => Called p id call q) (tool readers id call name input) p) := by
  rw [tool]
  split
  · rename_i h
    simp only [Bool.or_eq_true, String.isEmpty_iff, decide_eq_true_eq, or_assoc] at h
    exact .inl ⟨h, rfl⟩
  · rename_i h
    simp only [Bool.or_eq_true, String.isEmpty_iff, decide_eq_true_eq, not_or, not_lt] at h
    refine .inr ⟨⟨h.1.1, h.2⟩, ?_⟩
    refine (still_clip _ _ p).bind fun text q hq => ?_
    refine Gives.modify_bind (.modify ⟨?_, ?_⟩)
    · simp only [pushed, hq.1, hq.2]
    · simp only [pushed, hq.1]
      exact ⟨_, rfl⟩

lemma writes_tool (readers : Readers) {id : EntryId} (hlo : lo ≤ id) (hhi : id < hi)
    (call name : String) (input : Value) : Writes lo hi (tool readers id call name input) := by
  intro p hp
  rcases tool_cases readers id call name input p with ⟨-, h⟩ | ⟨hcall, h⟩
  · rw [h]
    exact .pure (.refl hp)
  · exact h.mono fun _ q hq => hq.adds hp hcall hlo hhi

lemma activityStarted_absent (readers : Readers) (call name : String) (input record : Value)
    {p : Projection} (h : p.tools.lookup call = none) :
    Gives (fun _ q => q = p) (activityStarted readers call name input record) p := by
  refine Gives.get_bind ?_
  rw [h]
  exact .pure rfl

lemma activityStarted_gives (readers : Readers) (call name : String) (input record : Value)
    {p : Projection} {index : ℕ} (h : p.tools.lookup call = some index) :
    Gives (fun _ q => ∃ p', Quiet p p' ∧ Quiet
        (p'.modifyEntry index (p.background.started call name input none).1.mark) q)
      (activityStarted readers call name input record) p := by
  refine Gives.get_bind ?_
  rw [h]
  refine Gives.bind (Q := fun _ q => Quiet p q ∧ q.background = p.background) ?_ ?_
  · exact .when _ (fun _ => .modify ⟨⟨rfl, rfl⟩, rfl⟩) fun _ => ⟨Quiet.refl p, rfl⟩
  · rintro - q ⟨hq, hbackground⟩
    refine Gives.get_bind ?_
    rw [hbackground]
    split
    rename_i tag background hstarted
    refine Gives.modify_bind (Gives.modify_bind ?_)
    refine (still_forM tag.activity (fun _ => still_report _ _ _ _) _).mono fun _ r hr => ?_
    exact ⟨_, hq.trans ⟨rfl, rfl⟩, by rw [hstarted]; exact hr⟩

lemma writes_call (readers : Readers) {id : EntryId} (hlo : lo ≤ id) (hhi : id < hi)
    (call name : String) (input record : Value) :
    Writes lo hi (do
      tool readers id call name input
      activityStarted readers call name input record) := by
  intro p hp
  rcases tool_cases readers id call name input p with ⟨hnot, h⟩ | ⟨hcall, h⟩
  · rw [h]
    cases hlookup : p.tools.lookup call with
    | none =>
      refine (activityStarted_absent readers call name input record hlookup).mono ?_
      rintro - q rfl
      exact Adds.refl hp
    | some index =>
      obtain ⟨-, hcall, hsize⟩ := hp call index hlookup
      obtain rfl : name = "" := by
        rcases hnot with hnot | hnot | hnot
        · exact absurd hnot hcall
        · exact hnot
        · omega
      refine (activityStarted_gives readers call "" input record hlookup).mono ?_
      rintro - q ⟨p', hp', hq⟩
      have hsame : (p.background.started call "" input none).1 = ⟨none, none⟩ := by
        simp [Background.started, Background.startKind]
      rw [hsame] at hq
      refine (Adds.then ?_ hq).after hp'
      exact modifyEntry_adds (hp'.indexed hp) fun tool => ⟨tool.status, tool.content, rfl⟩
  · refine h.bind fun _ q hq => ?_
    have hlookup : q.tools.lookup call = some p.transcript.entries.length := by
      rw [hq.1, AList.lookup_insert]
    refine (activityStarted_gives readers call name input record hlookup).mono ?_
    rintro - r ⟨q', hq', hr⟩
    exact (((hq.quiet hq').modifyEntry _).quiet hr).adds hp hcall hlo hhi

end Entries

section Claude

variable (readers : Readers) {lo hi : ℕ}

lemma writes_claudeMessage {id : EntryId} (hlo : lo ≤ id) (hhi : id < hi) (role : Role)
    (record : Value) (content : String) :
    Writes lo hi (claudeMessage readers id role record content) := by
  refine .after (still_when _ (still_activityNotified _ _ _)) fun _ => ?_
  split
  · exact .after (still_note _) fun _ => .push hlo hhi _
  · exact .after (still_clip _ _) fun content => writes_message hlo hhi role content

lemma writes_claudeBlock {id : EntryId} (hlo : lo ≤ id) (hhi : id < hi) (role : Role)
    (record : Value) (results : ℕ) (block : Value) :
    Writes lo hi (claudeBlock readers id role record results block) := by
  unfold claudeBlock
  split
  · exact writes_claudeMessage readers hlo hhi _ _ _
  · exact .after (still_clip _ _) fun thought => writes_message hlo hhi _ thought
  · exact writes_call readers hlo hhi _ _ _ _
  · exact (writes_output _ _ _).bind (fun _ => .still (still_activityResult _ _ _ _ _ _))
      (hlo.trans hhi.le) le_rfl
  · exact .still (still_pure ())

lemma writes_claudeBlocks {base : ℕ} (role : Role) (record : Value) (results index : ℕ)
    (blocks : List Value) (h : base + (index + blocks.length) ≤ u64Max + 1) :
    Writes (base + index) (base + (index + blocks.length))
      (claudeBlocks readers base role record results index blocks) := by
  induction blocks generalizing index with
  | nil => exact .still (still_pure ())
  | cons block blocks ih =>
    rw [List.length_cons] at h ⊢
    rw [claudeBlocks, entryId_bind (by omega)]
    have hlo : base + index ≤ base + (index + 1) := by omega
    refine Writes.bind ?_ (fun _ => ?_) hlo (by omega)
    · exact writes_claudeBlock readers le_rfl (Nat.lt_succ_self _) role record results block
    · rw [show index + (blocks.length + 1) = index + 1 + blocks.length by omega] at h ⊢
      exact ih (index + 1) h

lemma writes_claude {base : ℕ} (h : base + maxBlocks ≤ u64Max + 1) (record : Value) :
    Writes base (base + maxBlocks) (claude readers base record) := by
  rw [claude]
  split
  · exact .still (still_pure ())
  · rename_i role _
    split
    · exact .still (still_pure ())
    · refine .after (still_session _ _) fun _ => .after (still_when _ ?_) fun _ => ?_
      · exact still_reportedOption _ _ _
      · rw [claudeContent.eq_def]
        split
        · exact writes_claudeMessage readers le_rfl (Nat.lt_add_of_pos_right (by decide)) _ _ _
        · rename_i blocks _
          refine .after (still_note _) fun _ => ?_
          have hlength := List.length_take_le maxBlocks blocks
          have hle : base + (0 + (blocks.take maxBlocks).length) ≤ u64Max + 1 := by omega
          have hblocks := writes_claudeBlocks readers role record blocks.length 0 _ hle
          exact hblocks.mono le_rfl (by omega)
        · exact .still (still_pure ())

end Claude

section Codex

variable (readers : Readers) {lo hi : ℕ}

def lowest (held : Held) (next : ℕ) : ℕ := held.elim next Prod.fst

def Below (held : Held) (next : ℕ) : Prop := ∀ words, held = some words → words.1 < next

lemma lowest_le {held : Held} {next next' : ℕ} (h : Below held next) (hle : next ≤ next') :
    lowest held next ≤ lowest held next' ∧ lowest held next ≤ next := by
  cases held with
  | none => exact ⟨hle, le_rfl⟩
  | some words => exact ⟨le_rfl, (h words rfl).le⟩

lemma Below.mono {held : Held} {next next' : ℕ} (h : Below held next) (hle : next ≤ next') :
    Below held next' := fun words hwords => (h words hwords).trans_le hle

lemma writes_flush (role : Role) {held : Held} {next : ℕ} (h : Below held next) :
    Writes (lowest held next) next (flush role held) := by
  cases held with
  | none => exact .still (still_pure ())
  | some words => exact writes_message le_rfl (h words rfl) _ _

def Slotted (held : Held) (id : ℕ) (p : Projection) (held' : Held) (q : Projection) : Prop :=
  Adds (lowest held id) (lowest held' (id + 1)) p q ∧ Below held' (id + 1) ∧
    lowest held id ≤ lowest held' (id + 1)

lemma slotted_held {held : Held} {id : ℕ} {p q : Projection} (h : Below held id) (hp : Indexed p)
    (hq : Quiet p q) : Slotted held id p held q :=
  ⟨(Adds.refl hp).then hq, h.mono (Nat.le_succ id), (lowest_le h (Nat.le_succ id)).1⟩

lemma push_slotted {held : Held} {id : ℕ} (h : Below held id) (kind : EntryKind)
    {p q : Projection} (hq : Adds (lowest held id) id p q) :
    Gives (Slotted held id p) (do
      push id kind
      return none) q := by
  have hle := (lowest_le h le_rfl).2
  refine Gives.modify_bind (.pure ⟨?_, nofun, hle.trans (Nat.le_succ id)⟩)
  exact hq.trans (Adds.push hq.1 le_rfl (Nat.lt_succ_self id) kind) hle (Nat.le_succ id)

lemma holdWords_slotted {held : Held} {id : ℕ} (h : Below held id) (content : String)
    {p : Projection} (hp : Indexed p) :
    Gives (Slotted held id p) (holdWords id content held) p := by
  rw [holdWords]
  split
  · exact .pure (slotted_held h hp (Quiet.refl p))
  · refine Gives.bind (still_clip _ _ p) fun more q hq => .pure ⟨(Adds.refl hp).then hq, ?_, ?_⟩
    · rintro words hwords
      cases hwords
      cases held with
      | none => exact Nat.lt_succ_self id
      | some words => exact (h words rfl).trans (Nat.lt_succ_self id)
    · cases held <;> exact le_rfl

lemma textSlot_slotted {held : Held} {id : ℕ} (h : Below held id) (role : Role) (record : Value)
    (index count : ℕ) (content : String) {p : Projection} (hp : Indexed p) :
    Gives (Slotted held id p) (textSlot readers role record index count id content held) p := by
  have hasked : Still (replyTo readers role record content) := by
    rw [replyTo]
    split
    · exact still_questionReply _ _ _
    · exact still_pure none
  refine (hasked p).bind fun reply q hq => ?_
  have hq' := hq.indexed hp
  suffices hslot : Gives (Slotted held id q) _ q from
    hslot.mono fun held' r hr => ⟨hr.1.after hq, hr.2⟩
  cases reply with
  | some reply => exact (writes_flush role h q hq').bind fun _ r hr => push_slotted h reply hr
  | none =>
    dsimp only
    split
    · refine (writes_flush role h q hq').bind fun _ r hr => ?_
      exact (still_note _ r).bind fun _ r' hr' => push_slotted h _ (hr.then hr')
    · exact holdWords_slotted h content hq'

lemma slot_slotted {held : Held} {id : ℕ} (h : Below held id) (role : Role) (record : Value)
    (index count : ℕ) (block : Value) {p : Projection} (hp : Indexed p) :
    Gives (Slotted held id p) (slot readers role record index count id block held) p := by
  rw [slot]
  split
  · exact textSlot_slotted readers h role record index count _ hp
  · split
    · split
      · exact .pure (slotted_held h hp (Quiet.refl p))
      · exact (writes_flush role h p hp).bind fun _ q hq => push_slotted h _ hq
    · exact .pure (slotted_held h hp (Quiet.refl p))

lemma attachment_consumed {payload : Value} {blocks : List Value} {index : ℕ}
    {found : Attachment} (h : attachment payload blocks index = some found) :
    3 ≤ found.consumed ∧ (found.caption ≠ none → found.consumed = 4) := by
  simp only [attachment, Option.bind_eq_bind, Option.bind_eq_some_iff] at h
  obtain ⟨opening, -, image, -, closing, -, h⟩ := h
  split at h
  · cases h
  · simp only [Option.bind_eq_some_iff, Option.pure_def, Option.some.injEq] at h
    obtain ⟨name, -, rfl⟩ := h
    refine ⟨?_, fun hcaption => ?_⟩
    · dsimp only
      split <;> decide
    · dsimp only at hcaption ⊢
      rw [ne_eq, Option.map_eq_none_iff, ← ne_eq, ← Option.isSome_iff_ne_none] at hcaption
      rw [if_pos hcaption]

lemma writes_attached (role : Role) {id : ℕ} {found : Attachment} {held : Held} (h : Below held id)
    (hconsumed : 3 ≤ found.consumed ∧ (found.caption ≠ none → found.consumed = 4))
    (hid : id + found.consumed ≤ u64Max + 1) :
    Writes (lowest held id) (id + found.consumed) (attached role id found held) := by
  have hthree := hconsumed.1
  refine (writes_flush role h).bind (fun _ => .after (still_note _) fun _ => ?_)
    (lowest_le h le_rfl).2 (Nat.le_add_right _ _)
  have hfirst : id < id + 1 := Nat.lt_succ_self id
  refine (Writes.push le_rfl hfirst _).bind (fun _ => ?_) hfirst.le (by omega)
  rw [entryId_bind (by omega)]
  have hsecond : id + 1 < id + 2 := Nat.lt_succ_self (id + 1)
  refine (Writes.push le_rfl hsecond _).bind (fun _ => ?_) hsecond.le (by omega)
  split
  · exact .still (still_pure ())
  · rename_i caption hcaption
    have hfour := hconsumed.2 (by rw [hcaption]; exact Option.some_ne_none caption)
    refine .after (still_clip _ _) fun words => ?_
    rw [entryId_bind (by omega)]
    have hlast : id + 3 < id + found.consumed := by omega
    exact writes_message (Nat.le_succ (id + 2)) hlast role words

lemma writes_slots (role : Role) {base : ℕ} (hbase : base + maxBlocks ≤ u64Max + 1)
    (record : Value) (blocks : List Value) (turns index : ℕ) (held : Held)
    (hindex : index ≤ maxBlocks) (h : Below held (base + index)) :
    Writes (lowest held (base + index)) (base + maxBlocks)
      (slots readers role base record blocks turns index held) := by
  have hflush : Writes (lowest held (base + index)) (base + maxBlocks) (flush role held) :=
    (writes_flush role h).mono le_rfl (Nat.add_le_add_left hindex base)
  induction turns generalizing index held with
  | zero => exact hflush
  | succ turns ih =>
    rw [slots]
    split
    · exact hflush
    · rename_i hleft
      have hleft' : index < blocks.length ∧ index < maxBlocks := by omega
      rw [entryId_bind (by omega)]
      split
      · rename_i found hfound
        simp only [attachmentAt, Option.filter_eq_some_iff, decide_eq_true_eq] at hfound
        obtain ⟨hattached, hfits⟩ := hfound
        have hconsumed : 3 ≤ found.consumed ∧ (found.caption ≠ none → found.consumed = 4) := by
          split at hattached
          · exact attachment_consumed hattached
          · cases hattached
        refine (writes_attached role h hconsumed (by omega)).bind (fun _ => ?_)
          ((lowest_le h le_rfl).2.trans (Nat.le_add_right _ _)) (by omega)
        rw [Nat.add_assoc]
        exact ih _ none hfits nofun (.still (still_pure ()))
      · rw [List.getElem?_eq_getElem hleft'.1]
        intro p hp
        refine (slot_slotted readers h role record index blocks.length _ hp).bind ?_
        rintro held' q ⟨hq, hbelow, hle⟩
        have hnext : Writes (lowest held' (base + index + 1)) (base + maxBlocks)
            (slots readers role base record blocks turns (index + 1) held') := by
          refine ih (index + 1) held' (by omega) hbelow ?_
          exact (writes_flush role hbelow).mono le_rfl (by omega)
        refine (hnext q hq.1).mono fun _ r hr => hq.trans hr hle ?_
        exact (lowest_le hbelow le_rfl).2.trans (by omega)

lemma writes_codexMessage {base : ℕ} (hbase : base + maxBlocks ≤ u64Max + 1) (record : Value) :
    Writes base (base + maxBlocks) (codexMessage readers base record) := by
  have hlt : base < base + maxBlocks := Nat.lt_add_of_pos_right (by decide)
  simp only [codexMessage]
  split
  · exact .still (still_pure ())
  · rename_i role _
    split
    · exact .after (still_text _) fun content => writes_message le_rfl hlt role content
    · rename_i blocks _
      exact .after (still_note _) fun _ =>
        writes_slots readers role hbase record blocks _ 0 none (Nat.zero_le _) nofun

lemma writes_retainedAnswers {base : ℕ} (index : ℕ) (answers : List Value)
    (h : base + (index + answers.length) ≤ u64Max) :
    Writes (base + (index + 1)) (base + (index + 1 + answers.length))
      (retainedAnswers readers base index answers) := by
  induction answers generalizing index with
  | nil => exact .still (still_pure ())
  | cons answer answers ih =>
    rw [List.length_cons] at h ⊢
    refine .after (still_retainedAnswer _ _ _) fun found => ?_
    rw [show index + 1 + (answers.length + 1) = index + 1 + 1 + answers.length by omega]
    have hrest := ih (index + 1) (by omega)
    have hle : base + (index + 1) ≤ base + (index + 1 + 1) := by omega
    cases found with
    | none => exact hrest.mono hle le_rfl
    | some notice =>
      dsimp only
      rw [entryId_bind (by omega)]
      exact (Writes.push le_rfl (Nat.lt_succ_self _) notice).bind (fun _ => hrest) hle (by omega)

lemma writes_compact {base : ℕ} (hbase : base + maxBlocks ≤ u64Max + 1) (payload : Value) :
    Writes base (base + maxBlocks) (Projection.compact readers base payload) := by
  have hlt : base < base + maxBlocks := Nat.lt_add_of_pos_right (by decide)
  refine .after (still_note _) fun _ => ?_
  have hfirst : base < base + 1 := Nat.lt_succ_self base
  refine (Writes.push le_rfl hfirst _).bind (fun _ => ?_) hfirst.le hlt
  split
  · exact .still (still_pure ())
  · rename_i answers _
    have hblocks : 0 < maxBlocks := by decide
    have hlength := List.length_take_le (maxBlocks - 1) answers
    refine .after (still_note _) fun _ => ?_
    exact (writes_retainedAnswers readers 0 (answers.take (maxBlocks - 1)) (by omega)).mono
      le_rfl (by omega)

lemma writes_responseItem {base : ℕ} (hbase : base + maxBlocks ≤ u64Max + 1)
    (record payload : Value) :
    Writes base (base + maxBlocks) (responseItem readers base record payload) := by
  have hlt : base < base + maxBlocks := Nat.lt_add_of_pos_right (by decide)
  unfold responseItem
  split
  · exact writes_codexMessage readers hbase record
  · exact .after (still_text _) fun summary => writes_message le_rfl hlt _ summary
  · exact writes_tool readers le_rfl hlt _ _ _
  · exact writes_tool readers le_rfl hlt _ _ _
  · exact writes_output _ _ _
  · exact writes_output _ _ _
  · exact .still (still_pure ())

lemma writes_codex {base : ℕ} (hbase : base + maxBlocks ≤ u64Max + 1) (record : Value) :
    Writes base (base + maxBlocks) (codex readers base record) := by
  have hlt : base < base + maxBlocks := Nat.lt_add_of_pos_right (by decide)
  unfold codex
  dsimp only
  split
  · exact .still (still_session _ _)
  · exact .still ((still_reportedOption _ _ _).bind fun _ => still_reportedOption _ _ _)
  · exact writes_compact readers hbase _
  · split
    · refine .after (still_retainedAnswer _ _ _) fun found => ?_
      cases found with
      | none => exact .still (still_pure ())
      | some notice => exact .push le_rfl hlt notice
    · exact .still (still_pure ())
  · split
    · exact .still (still_tokenCount _)
    · exact .still (still_pure ())
  · exact writes_responseItem readers hbase record _
  · exact .still (still_pure ())

end Codex

end Projection

section Lines

variable (readers : Readers) (agent : TranscriptAgent)

def unfinished (rest : List UInt8) : List (List UInt8) := if rest = [] then [] else [rest]

lemma splitInclusive_append (bytes : List UInt8) : ∃ full rest, newline ∉ rest ∧
    splitInclusive bytes = full ++ unfinished rest ∧
    ∀ more, splitInclusive (bytes ++ more) = full ++ splitInclusive (rest ++ more) := by
  induction bytes with
  | nil => exact ⟨[], [], nofun, rfl, fun _ => rfl⟩
  | cons byte bytes ih =>
    obtain ⟨full, rest, hrest, hsplit, happend⟩ := ih
    by_cases hnewline : byte = newline
    · refine ⟨[byte] :: full, rest, hrest, ?_, fun more => ?_⟩
      · rw [splitInclusive, if_pos hnewline, hsplit, List.cons_append]
      · rw [List.cons_append, splitInclusive, if_pos hnewline, happend more, List.cons_append]
    · cases full with
      | nil =>
        refine ⟨[], byte :: rest, ?_, ?_, fun more => ?_⟩
        · simpa using ⟨Ne.symm hnewline, hrest⟩
        · rw [splitInclusive, if_neg hnewline, hsplit]
          by_cases hempty : rest = []
          · simp [unfinished, hempty]
          · simp [unfinished, hempty]
        · rw [List.cons_append, splitInclusive, if_neg hnewline, happend more]
          simp only [List.nil_append, List.cons_append]
          rw [splitInclusive, if_neg hnewline]
      | cons line full =>
        refine ⟨(byte :: line) :: full, rest, hrest, ?_, fun more => ?_⟩
        · rw [splitInclusive, if_neg hnewline, hsplit]
          rfl
        · rw [List.cons_append, splitInclusive, if_neg hnewline, happend more]
          rfl

def block (n : ℕ) : ℕ := min (n * maxBlocks) (u64Max + 1)

lemma block_mono {m n : ℕ} (h : m ≤ n) : block m ≤ block n :=
  min_le_min_right _ (Nat.mul_le_mul_right maxBlocks h)

lemma block_next {start length : ℕ} (h : 0 < length) :
    block (start + 2) ≤ block (min (start + length) u64Max + 1) := by
  rcases le_total (start + length) u64Max with hle | hle
  · rw [min_eq_left hle]
    exact block_mono (by omega)
  · rw [min_eq_right hle, block, block]
    refine le_min ?_ (min_le_right _ _)
    exact (min_le_right _ _).trans (Nat.le_mul_of_pos_right _ (by decide))

lemma baseId_eq_some {start base : ℕ} (h : baseId start = some base) :
    base = block (start + 1) ∧ base + maxBlocks = block (start + 2) ∧
      base + maxBlocks ≤ u64Max + 1 := by
  rw [baseId] at h
  split at h
  · rename_i hle
    cases h
    have hwhole : u64Max + 1 = 2 ^ 54 * maxBlocks := by decide
    have hlt : (start + 1) * maxBlocks < 2 ^ 54 * maxBlocks := by
      rw [← hwhole]
      exact Nat.lt_succ_of_le hle
    have hblocks : start + 1 < 2 ^ 54 := Nat.lt_of_mul_lt_mul_right hlt
    have hnext : (start + 1) * maxBlocks + maxBlocks ≤ u64Max + 1 := by
      rw [hwhole, ← Nat.succ_mul]
      exact Nat.mul_le_mul_right maxBlocks hblocks
    refine ⟨?_, ?_, hnext⟩
    · rw [block, min_eq_left (Nat.le_succ_of_le hle)]
    · rw [block, show (start + 2) * maxBlocks = (start + 1) * maxBlocks + maxBlocks by ring,
        min_eq_left hnext]
  · cases h

lemma writes_readRecord {base : ℕ} (hbase : base + maxBlocks ≤ u64Max + 1) (seen : List String)
    (record : Value) :
    Writes base (base + maxBlocks) (readRecord readers agent base seen record) := by
  have hle : base ≤ base + maxBlocks := Nat.le_add_right _ _
  cases agent with
  | codex =>
    exact (Projection.writes_codex readers hbase record).bind (fun _ => .still (still_pure _)) hle
      le_rfl
  | claude =>
    have hclaude (seen : List String) := (Projection.writes_claude readers hbase record).bind
      (fun _ => .still (still_pure seen)) hle le_rfl
    simp only [readRecord]
    split
    · exact hclaude seen
    · split
      · exact .still (still_pure _)
      · exact hclaude _

lemma readLines_cons (start : ℕ) (seen : List String) (line : List UInt8) {p : Projection}
    (hp : Indexed p) :
    (∀ lines, exec (readLines readers agent start seen (line :: lines)) p = (.ok (), p)) ∨
    ∃ seen' q, 0 < line.length ∧ Adds (block (start + 1)) (block (start + 2)) p q ∧
      ∀ lines, exec (readLines readers agent start seen (line :: lines)) p =
        exec (readLines readers agent (min (start + line.length) u64Max) seen' lines) q := by
  by_cases hline : line.getLast? ≠ some newline
  · refine .inl fun lines => ?_
    rw [readLines, if_pos hline]
    rfl
  have hlength : 0 < line.length := by
    cases line with
    | nil => simp at hline
    | cons byte line => exact Nat.succ_pos _
  have hquiet (b : Bool) : Adds (block (start + 1)) (block (start + 2)) p (p.truncated b) :=
    (Adds.refl hp).then ⟨rfl, rfl⟩
  by_cases hlimit : agent.recordLimit < line.length
  · refine .inr ⟨seen, _, hlength, hquiet true, fun lines => ?_⟩
    rw [readLines, if_neg hline, if_pos hlimit]
    rfl
  cases hread : readers.value line with
  | none =>
    refine .inr ⟨seen, _, hlength, hquiet (decide (maxRecord < line.length)), fun lines => ?_⟩
    simp only [readLines, if_neg hline, if_neg hlimit, hread]
    rfl
  | some record =>
    by_cases himage : maxRecord < line.length ∧ ¬Projection.imageRecord record
    · refine .inr ⟨seen, _, hlength, hquiet true, fun lines => ?_⟩
      simp only [readLines, if_neg hline, if_neg hlimit, hread, if_pos himage]
      rfl
    cases hbase : baseId start with
    | none =>
      refine .inl fun lines => ?_
      simp only [readLines, if_neg hline, if_neg hlimit, hread, if_neg himage, hbase]
      rfl
    | some base =>
      obtain ⟨hlo, hhi, hfits⟩ := baseId_eq_some hbase
      obtain ⟨seen', q, hexec, hq⟩ :=
        (writes_readRecord readers agent hfits seen record p hp).exec_eq
      refine .inr ⟨seen', q, hlength, by rwa [← hlo, ← hhi], fun lines => ?_⟩
      simp only [readLines, if_neg hline, if_neg hlimit, hread, if_neg himage, hbase, exec_bind,
        hexec]

lemma writes_readLines (start : ℕ) (seen : List String) (lines : List (List UInt8)) :
    Writes (block (start + 1)) (u64Max + 1) (readLines readers agent start seen lines) := by
  induction lines generalizing start seen with
  | nil => exact .still (still_pure ())
  | cons line lines ih =>
    intro p hp
    rcases readLines_cons readers agent start seen line hp with h | ⟨seen', q, hlength, hq, h⟩
    · rw [Gives, wp, h lines]
      exact ⟨(), rfl, Adds.refl hp⟩
    · rw [Gives, wp, h lines]
      refine (ih _ seen' q hq.1).mono fun _ r hr => ?_
      exact hq.trans (hr.mono (block_next hlength) le_rfl) (block_mono (Nat.le_succ _))
        (min_le_right _ _)

lemma readLines_append (start : ℕ) (seen : List String) (full : List (List UInt8))
    {p : Projection} (hp : Indexed p) : ∃ q, Indexed q ∧
    ((∀ tail, exec (readLines readers agent start seen (full ++ tail)) p = (.ok (), q)) ∨
      ∃ start' seen', ∀ tail, exec (readLines readers agent start seen (full ++ tail)) p =
        exec (readLines readers agent start' seen' tail) q) := by
  induction full generalizing start seen p with
  | nil => exact ⟨p, hp, .inr ⟨start, seen, fun _ => rfl⟩⟩
  | cons line full ih =>
    rcases readLines_cons readers agent start seen line hp with h | ⟨seen', q, -, hq, h⟩
    · exact ⟨p, hp, .inl fun tail => h (full ++ tail)⟩
    · obtain ⟨r, hr, hread⟩ := ih (min (start + line.length) u64Max) seen' hq.1
      refine ⟨r, hr, hread.imp (fun hends tail => ?_) ?_⟩
      · rw [List.cons_append, h, hends]
      · rintro ⟨start', seen'', hgoes⟩
        refine ⟨start', seen'', fun tail => ?_⟩
        rw [List.cons_append, h, hgoes]

lemma readLines_unfinished (start : ℕ) (seen : List String) {rest : List UInt8}
    (h : newline ∉ rest) (p : Projection) :
    exec (readLines readers agent start seen (unfinished rest)) p = (.ok (), p) := by
  rw [unfinished]
  split
  · rfl
  · rw [readLines, if_pos fun hlast => h (List.mem_of_getLast? hlast)]
    rfl

end Lines

section Logs

variable (readers : Readers) (agent : TranscriptAgent) (offset : ℕ) (bytes : List UInt8)

def Whole : Prop := Acp.keepFrom (project readers agent bytes offset).2.transcript.entries = 0

lemma start_indexed : Indexed (.start agent offset) := nofun

lemma project_adds : ∃ q, project readers agent bytes offset = (.ok (), q) ∧
    Adds 0 (u64Max + 1) (.start agent offset) q := by
  obtain ⟨_, q, hexec, hq⟩ := (writes_readLines readers agent offset [] (splitInclusive bytes) _
    (start_indexed agent offset)).exec_eq
  exact ⟨q, hexec, hq.mono (Nat.zero_le _) le_rfl⟩

lemma project_grown (more : List UInt8) :
    Grown (project readers agent bytes offset).2.transcript.entries
      (project readers agent (bytes ++ more) offset).2.transcript.entries := by
  obtain ⟨full, rest, hrest, hsplit, happend⟩ := splitInclusive_append bytes
  obtain ⟨q, hq, hread⟩ :=
    readLines_append readers agent offset [] full (start_indexed agent offset)
  rw [project, project, hsplit, happend more]
  rcases hread with hends | ⟨start', seen', hgoes⟩
  · rw [hends, hends]
    exact ⟨_, [], (List.append_nil _).symm, kept_refl _⟩
  · rw [hgoes, hgoes, readLines_unfinished readers agent start' seen' hrest q]
    obtain ⟨_, r, hexec, hr⟩ :=
      (writes_readLines readers agent start' seen' (splitInclusive (rest ++ more)) q hq).exec_eq
    rw [hexec]
    exact hr.grown

lemma parse_entries : ∃ t, parse readers agent bytes offset = .ok t ∧
    t.entries = (project readers agent bytes offset).2.transcript.entries.drop
      (Acp.keepFrom (project readers agent bytes offset).2.transcript.entries) := by
  obtain ⟨q, hproject, -⟩ := project_adds readers agent offset bytes
  rw [parse, hproject]
  refine ⟨_, rfl, ?_⟩
  dsimp only
  by_cases hkeep : 0 < Acp.keepFrom q.transcript.entries
  · rw [if_pos hkeep]
  · rw [if_neg hkeep, Nat.eq_zero_of_not_pos hkeep, List.drop_zero]

theorem log_grows (more : List UInt8) :
    (∃ t, parse readers agent bytes offset = .ok t ∧ (t.entries.map Entry.id).Pairwise (· < ·) ∧
      ∀ entry ∈ t.entries, entry.id ≤ u64Max) ∧
    Indexed (project readers agent bytes offset).2 ∧
    (Whole readers agent offset bytes → Whole readers agent offset (bytes ++ more) →
      ∃ t t', parse readers agent bytes offset = .ok t ∧
        parse readers agent (bytes ++ more) offset = .ok t' ∧ Grown t.entries t'.entries) := by
  obtain ⟨q, hproject, hindexed, kept, added, hentries, hkept, hless, hin⟩ :=
    project_adds readers agent offset bytes
  obtain ⟨t, hparse, ht⟩ := parse_entries readers agent offset bytes
  refine ⟨⟨t, hparse, ?_, ?_⟩, hproject ▸ hindexed, fun hwhole hwhole' => ?_⟩
  · cases hkept
    rw [ht, hproject, hentries, List.map_drop]
    exact hless.sublist (List.drop_sublist _ _)
  · cases hkept
    intro entry hentry
    rw [ht, hproject, hentries] at hentry
    exact Nat.le_of_lt_succ (hin entry (List.mem_of_mem_drop hentry)).2
  · obtain ⟨t', hparse', ht'⟩ := parse_entries readers agent offset (bytes ++ more)
    refine ⟨t, t', hparse, hparse', ?_⟩
    rw [ht, ht', hwhole, hwhole', List.drop_zero, List.drop_zero]
    exact project_grown readers agent offset bytes more

end Logs

section Searched

def called : String :=
  "\x7b\"type\":\"assistant\",\"message\":\x7b\"content\":[\x7b\"type\":\"tool_use\"," ++
    "\"id\":\"c\",\"name\":\"Grep\"\x7d]\x7d\x7d\n"

def result : String :=
  "\x7b\"type\":\"user\",\"message\":\x7b\"content\":[\x7b\"type\":\"tool_result\"," ++
    "\"tool_use_id\":\"c\",\"content\":\"none\"\x7d]\x7d\x7d\n"

def message (role : String) (block : List (String × Value)) : Value :=
  .object [("type", .string role), ("message", .object [("content", .array [.object block])])]

def searched : Readers where
  value bytes :=
    if bytes = called.toUTF8.toList then
      some (message "assistant" [("type", .string "tool_use"), ("id", .string "c"),
        ("name", .string "Grep")])
    else if bytes = result.toUTF8.toList then
      some (message "user" [("type", .string "tool_result"), ("tool_use_id", .string "c"),
        ("content", .string "none")])
    else none
  replies _ := none
  item _ := none
  answers _ := none
  timestamp _ := none

theorem log_grows_search : ∃ t t',
    parse searched .claude called.toUTF8.toList 0 = .ok t ∧
      parse searched .claude (called.toUTF8.toList ++ result.toUTF8.toList) 0 = .ok t' ∧
      Grown t.entries t'.entries :=
  (log_grows searched .claude 0 called.toUTF8.toList result.toUTF8.toList).2.2
    (by unfold Whole; decide +kernel) (by unfold Whole; decide +kernel)

end Searched

end Sheprd.Mirror
