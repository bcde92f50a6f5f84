import Sheprd.Acp.Session

namespace Sheprd.Acp

open Sheprd.Lib Sheprd.Lib.Exec Sheprd.Chat

structure Feed where
  epoch : Uuid
  seq : ℕ
  transcript : Transcript
  shown : List Transcript
  log : List (ℕ × Change)
  logBytes : ℕ
  clients : List Client
  subscribers : List Subscriber

def Session.feed (s : Session) : Feed where
  epoch := s.epoch
  seq := s.seq
  transcript := s.transcript
  shown := s.shown
  log := s.log
  logBytes := s.logBytes
  clients := s.clients
  subscribers := s.subscribers

namespace Feed

def reachesBack (f : Feed) (since : Cursor) : Bool :=
  let first := f.log.head?.elim (f.seq + 1) Prod.fst
  decide (since.epoch = f.epoch) && decide (since.seq ≤ f.seq) && decide (first ≤ since.seq + 1)

def logMessage (epoch : Uuid) (entry : ℕ × Change) : ServerMessage :=
  .change entry.2 ⟨epoch, entry.1⟩

def catchUp (f : Feed) (since : Cursor) : List ServerMessage :=
  (f.log.filter fun entry => decide (since.seq < entry.1)).map (logMessage f.epoch)

def snapshot (f : Feed) : ServerMessage := .snapshot ⟨f.epoch, f.seq⟩ f.transcript

def opening (f : Feed) (resumed : Option Cursor) : List ServerMessage :=
  resumed.elim [f.snapshot] f.catchUp

def deliver (message : ServerMessage) (subscribers : List Subscriber) (clients : List Client) :
    List Client :=
  subscribers.foldl (fun clients s => clients.modify s.outbox (Client.push message)) clients

def changed (change : Change) (transcript : Transcript) (kept : List Subscriber) (f : Feed) :
    Feed :=
  let size := changeSize change
  let trimmed := trimLog size f.log f.logBytes
  { epoch := f.epoch
    seq := f.seq + 1
    transcript
    shown := f.shown ++ [transcript]
    log := trimmed.1 ++ [(f.seq + 1, change)]
    logBytes := trimmed.2 + size
    clients := deliver (.change change ⟨f.epoch, f.seq + 1⟩) kept f.clients
    subscribers := kept }

inductive Step (f : Feed) : Feed → Prop
  | change {change : Change} {transcript : Transcript} {kept : List Subscriber}
      (fits : exec (Transcript.apply change) f.transcript = (.ok (), transcript))
      (reached : kept.Sublist f.subscribers) : Step f (f.changed change transcript kept)
  | send {outbox : ℕ} {message : ServerMessage} (beside : message.cursor = none) :
      Step f { f with clients := f.clients.modify outbox (Client.push message) }
  | leave {kept : List Subscriber} (left : kept.Sublist f.subscribers) :
      Step f { f with subscribers := kept }
  | attach {since : Option Cursor} {welcome : ServerMessage} {sent : List ServerMessage}
      (beside : welcome.cursor = none)
      (begun : sent <+: welcome :: f.opening (since.filter f.reachesBack)) :
      Step f { f with clients := f.clients ++ [⟨since.filter f.reachesBack, sent⟩] }
  | join {since : Option Cursor} {welcome : ServerMessage} (conn : ℕ) (isLocal : Bool)
      (beside : welcome.cursor = none) :
      Step f { f with
        clients := f.clients ++ [⟨since.filter f.reachesBack,
          welcome :: f.opening (since.filter f.reachesBack)⟩]
        subscribers := f.subscribers ++ [⟨conn, isLocal, f.clients.length⟩] }

def Steps : Feed → Feed → Prop := Relation.ReflTransGen Step

lemma steps_deliver {message : ServerMessage} (beside : message.cursor = none)
    (subscribers : List Subscriber) (f : Feed) :
    Steps f { f with clients := deliver message subscribers f.clients } := by
  induction subscribers generalizing f with
  | nil => exact .refl
  | cons s rest ih => exact .head (Step.send beside) (ih _)

def Takes (shown : List Transcript) (n : ℕ) (change : Change) : Prop :=
  ∃ t t', shown[n]? = some t ∧ exec (Transcript.apply change) t = (.ok (), t') ∧
    shown[n + 1]? = some t'

inductive Logged (shown : List Transcript) : List (ℕ × Change) → ℕ → ℕ → Prop
  | nil (n : ℕ) : Logged shown [] n n
  | cons {change : Change} {log : List (ℕ × Change)} {first last : ℕ}
      (takes : Takes shown first change) (rest : Logged shown log (first + 1) last) :
      Logged shown ((first + 1, change) :: log) first last

inductive Follows (shown : List Transcript) (epoch : Uuid) (resumed : Option Cursor) :
    List ServerMessage → Option ℕ → Prop
  | fresh (nothing : resumed = none) : Follows shown epoch resumed [] none
  | resumed {since : Cursor} (held : resumed = some since) (same : since.epoch = epoch)
      (past : since.seq < shown.length) : Follows shown epoch resumed [] (some since.seq)
  | snapshot {sent : List ServerMessage} {n : ℕ} {t : Transcript}
      (before : Follows shown epoch resumed sent none) (current : shown[n]? = some t) :
      Follows shown epoch resumed (sent ++ [.snapshot ⟨epoch, n⟩ t]) (some n)
  | change {sent : List ServerMessage} {n : ℕ} {change : Change}
      (before : Follows shown epoch resumed sent (some n)) (takes : Takes shown n change) :
      Follows shown epoch resumed (sent ++ [.change change ⟨epoch, n + 1⟩]) (some (n + 1))
  | beside {sent : List ServerMessage} {place : Option ℕ} {message : ServerMessage}
      (before : Follows shown epoch resumed sent place) (nothing : message.cursor = none) :
      Follows shown epoch resumed (sent ++ [message]) place

variable {shown shown' : List Transcript} {epoch : Uuid} {resumed : Option Cursor}

lemma shown_grows (hp : shown <+: shown') {n : ℕ} {t : Transcript} (h : shown[n]? = some t) :
    shown'[n]? = some t := by
  obtain ⟨hn, rfl⟩ := List.getElem?_eq_some_iff.mp h
  exact List.prefix_iff_getElem?.mp hp n hn

lemma Takes.mono {n : ℕ} {change : Change} (h : Takes shown n change) (hp : shown <+: shown') :
    Takes shown' n change := by
  obtain ⟨t, t', ht, happly, ht'⟩ := h
  exact ⟨t, t', shown_grows hp ht, happly, shown_grows hp ht'⟩

namespace Logged

variable {log : List (ℕ × Change)} {first last : ℕ}

lemma mono (h : Logged shown log first last) (hp : shown <+: shown') :
    Logged shown' log first last := by
  induction h with
  | nil n => exact .nil n
  | cons takes _ ih => exact .cons (takes.mono hp) ih

lemma le (h : Logged shown log first last) : first ≤ last := by
  induction h with
  | nil n => exact le_rfl
  | cons _ _ ih => exact Nat.le_of_succ_le ih

lemma concat (h : Logged shown log first last) {change : Change} (hc : Takes shown last change) :
    Logged shown (log ++ [(last + 1, change)]) first (last + 1) := by
  induction h with
  | nil n => exact .cons hc (.nil (n + 1))
  | cons takes _ ih => exact .cons takes (ih hc)

lemma trimLog (h : Logged shown log first last) (size bytes : ℕ) :
    ∃ later, Logged shown (trimLog size log bytes).1 later last := by
  induction h generalizing bytes with
  | nil n => exact ⟨n, .nil n⟩
  | cons takes rest ih =>
    rw [Acp.trimLog]
    split
    · exact ih _
    · exact ⟨_, .cons takes rest⟩

lemma lt (h : Logged shown log first last) : ∀ entry ∈ log, first < entry.1 := by
  induction h with
  | nil n => simp
  | cons _ _ ih =>
    intro entry he
    rcases List.mem_cons.mp he with rfl | he
    · exact Nat.lt_succ_self _
    · exact Nat.lt_of_succ_lt (ih entry he)

lemma filter (h : Logged shown log first last) {n : ℕ} (hn : first ≤ n) (hl : n ≤ last) :
    Logged shown (log.filter fun entry => decide (n < entry.1)) n last := by
  induction h with
  | nil m =>
    obtain rfl : n = m := le_antisymm hl hn
    exact .nil n
  | cons takes rest ih =>
    rcases Nat.eq_or_lt_of_le hn with heq | hlt
    · subst heq
      have hall := (Logged.cons takes rest).lt
      rw [List.filter_eq_self.mpr fun entry he => decide_eq_true (hall entry he)]
      exact .cons takes rest
    · rw [List.filter_cons_of_neg (by simpa using hlt)]
      exact ih hlt hl

lemma mem_iff (h : Logged shown log first last) {n : ℕ} :
    (∃ change, (n, change) ∈ log) ↔ first < n ∧ n ≤ last := by
  induction h with
  | nil m =>
    constructor
    · rintro ⟨_, hm⟩
      cases hm
    · rintro ⟨hlt, hle⟩
      exact absurd hlt (Nat.not_lt.mpr hle)
  | @cons change log first last takes rest ih =>
    have hle := rest.le
    constructor
    · rintro ⟨c, hc⟩
      rcases List.mem_cons.mp hc with heq | hc
      · cases heq
        exact ⟨Nat.lt_succ_self _, hle⟩
      · obtain ⟨hlt, hn⟩ := ih.mp ⟨c, hc⟩
        exact ⟨Nat.lt_of_succ_lt hlt, hn⟩
    · rintro ⟨hlt, hn⟩
      rcases Nat.eq_or_lt_of_le hlt with heq | hlt
      · exact ⟨change, by simp [← heq]⟩
      · obtain ⟨c, hc⟩ := ih.mpr ⟨hlt, hn⟩
        exact ⟨c, List.mem_cons_of_mem _ hc⟩

end Logged

namespace Follows

variable {sent more : List ServerMessage} {place : Option ℕ}

lemma mono (h : Follows shown epoch resumed sent place) (hp : shown <+: shown') :
    Follows shown' epoch resumed sent place := by
  induction h with
  | fresh nothing => exact .fresh nothing
  | resumed held same past => exact .resumed held same (past.trans_le hp.length_le)
  | snapshot _ current ih => exact .snapshot ih (shown_grows hp current)
  | change _ takes ih => exact .change ih (takes.mono hp)
  | beside _ nothing ih => exact .beside ih nothing

lemma of_concat {message : ServerMessage}
    (h : Follows shown epoch resumed (sent ++ [message]) place) :
    ∃ earlier, Follows shown epoch resumed sent earlier := by
  generalize hs : sent ++ [message] = all at h
  cases h with
  | fresh _ => simp at hs
  | resumed _ _ _ => simp at hs
  | snapshot before _ =>
    obtain ⟨rfl, -⟩ := List.append_inj' hs rfl
    exact ⟨_, before⟩
  | change before _ =>
    obtain ⟨rfl, -⟩ := List.append_inj' hs rfl
    exact ⟨_, before⟩
  | beside before _ =>
    obtain ⟨rfl, -⟩ := List.append_inj' hs rfl
    exact ⟨_, before⟩

lemma of_begun (h : Follows shown epoch resumed sent place) {begun : List ServerMessage}
    (hp : begun <+: sent) : ∃ earlier, Follows shown epoch resumed begun earlier := by
  obtain ⟨rest, rfl⟩ := hp
  induction rest using List.reverseRecOn generalizing place with
  | nil => exact ⟨place, by simpa using h⟩
  | append_singleton rest message ih =>
    rw [← List.append_assoc] at h
    obtain ⟨earlier, he⟩ := h.of_concat
    exact ih he

lemma catchUp {log : List (ℕ × Change)} {first last : ℕ}
    (h : Follows shown epoch resumed sent (some first)) (hl : Logged shown log first last) :
    Follows shown epoch resumed (sent ++ log.map (logMessage epoch)) (some last) := by
  induction hl generalizing sent with
  | nil n => simpa using h
  | cons takes _ ih =>
    have := ih (h.change takes)
    simpa [logMessage] using this

end Follows

structure Valid (f : Feed) : Prop where
  count : f.shown.length = f.seq + 1
  current : f.shown[f.seq]? = some f.transcript
  log : ∃ first, Logged f.shown f.log first f.seq
  clients : ∀ client ∈ f.clients, ∃ place,
    Follows f.shown f.epoch client.resumed client.sent place
  distinct : f.subscribers.Pairwise fun a b => a.outbox ≠ b.outbox
  subscribers : ∀ s ∈ f.subscribers, ∃ client, f.clients[s.outbox]? = some client ∧
    Follows f.shown f.epoch client.resumed client.sent (some f.seq)

lemma getElem?_deliver (message : ServerMessage) {subscribers : List Subscriber}
    (hd : subscribers.Pairwise fun a b => a.outbox ≠ b.outbox) (clients : List Client) (i : ℕ) :
    (deliver message subscribers clients)[i]? =
      if ∃ s ∈ subscribers, s.outbox = i then (clients[i]?).map (Client.push message)
      else clients[i]? := by
  induction subscribers generalizing clients with
  | nil => simp [deliver]
  | cons s rest ih =>
    obtain ⟨hs, hrest⟩ := List.pairwise_cons.mp hd
    have hstep : deliver message (s :: rest) clients =
        deliver message rest (clients.modify s.outbox (Client.push message)) := rfl
    rw [hstep, ih hrest, List.getElem?_modify]
    by_cases hi : s.outbox = i
    · subst hi
      have hnot : ¬∃ other ∈ rest, other.outbox = s.outbox := by
        rintro ⟨other, hm, heq⟩
        exact hs other hm heq.symm
      simp [hnot]
    · simp [hi]

lemma reachesBack_iff {f : Feed} {first : ℕ} (hl : Logged f.shown f.log first f.seq)
    {since : Cursor} : f.reachesBack since = true ↔
      since.epoch = f.epoch ∧ first ≤ since.seq ∧ since.seq ≤ f.seq := by
  have hfirst : f.log.head?.elim (f.seq + 1) Prod.fst = first + 1 := by
    generalize f.log = log at hl
    generalize f.seq = last at hl ⊢
    cases hl <;> rfl
  simp only [reachesBack, hfirst, Bool.and_eq_true, decide_eq_true_eq, Nat.add_le_add_iff_right]
  tauto

namespace Valid

variable {f f' : Feed}

lemma changed (h : Valid f) {change : Change} {transcript : Transcript} {kept : List Subscriber}
    (fits : exec (Transcript.apply change) f.transcript = (.ok (), transcript))
    (reached : kept.Sublist f.subscribers) : Valid (f.changed change transcript kept) := by
  have hgrow : f.shown <+: f.shown ++ [transcript] := List.prefix_append _ _
  have hnext : (f.shown ++ [transcript])[f.seq + 1]? = some transcript := by
    rw [← h.count, List.getElem?_concat_length]
  have htakes : Takes (f.shown ++ [transcript]) f.seq change :=
    ⟨_, _, shown_grows hgrow h.current, fits, hnext⟩
  have hkept := h.distinct.sublist reached
  obtain ⟨first, hlog⟩ := h.log
  obtain ⟨later, hlater⟩ := hlog.trimLog (changeSize change) f.logBytes
  refine
    { count := by simp [Feed.changed, h.count]
      current := hnext
      log := ⟨later, (hlater.mono hgrow).concat htakes⟩
      clients := ?_
      distinct := hkept
      subscribers := ?_ }
  · intro client hc
    obtain ⟨i, hi⟩ := List.mem_iff_getElem?.mp hc
    rw [Feed.changed, getElem?_deliver _ hkept] at hi
    split at hi
    · rename_i hs
      obtain ⟨s, hs, rfl⟩ := hs
      obtain ⟨old, hold, hfollows⟩ := h.subscribers s (reached.subset hs)
      rw [hold] at hi
      cases hi
      exact ⟨_, (hfollows.mono hgrow).change htakes⟩
    · obtain ⟨place, hplace⟩ := h.clients client (List.mem_of_getElem? hi)
      exact ⟨place, hplace.mono hgrow⟩
  · intro s hs
    obtain ⟨old, hold, hfollows⟩ := h.subscribers s (reached.subset hs)
    refine ⟨old.push (.change change ⟨f.epoch, f.seq + 1⟩), ?_, (hfollows.mono hgrow).change htakes⟩
    rw [Feed.changed, getElem?_deliver _ hkept, if_pos ⟨s, hs, rfl⟩, hold]
    rfl

lemma send (h : Valid f) (outbox : ℕ) {message : ServerMessage} (beside : message.cursor = none) :
    Valid { f with clients := f.clients.modify outbox (Client.push message) } := by
  refine { h with clients := ?_, subscribers := ?_ }
  · intro client hc
    obtain ⟨i, hi⟩ := List.mem_iff_getElem?.mp hc
    rw [List.getElem?_modify] at hi
    obtain ⟨old, hold, rfl⟩ := Option.map_eq_some_iff.mp hi
    obtain ⟨place, hplace⟩ := h.clients old (List.mem_of_getElem? hold)
    split
    · exact ⟨place, hplace.beside beside⟩
    · exact ⟨place, hplace⟩
  · intro s hs
    obtain ⟨old, hold, hfollows⟩ := h.subscribers s hs
    dsimp only
    rw [List.getElem?_modify, hold]
    by_cases ho : outbox = s.outbox
    · exact ⟨old.push message, by simp [ho], hfollows.beside beside⟩
    · exact ⟨old, by simp [ho], hfollows⟩

lemma leave (h : Valid f) {kept : List Subscriber} (left : kept.Sublist f.subscribers) :
    Valid { f with subscribers := kept } :=
  { h with
    distinct := h.distinct.sublist left
    subscribers := fun s hs => h.subscribers s (left.subset hs) }

lemma opening (h : Valid f) (since : Option Cursor) {welcome : ServerMessage}
    (beside : welcome.cursor = none) :
    Follows f.shown f.epoch (since.filter f.reachesBack)
      (welcome :: f.opening (since.filter f.reachesBack)) (some f.seq) := by
  obtain ⟨first, hlog⟩ := h.log
  cases hs : since.filter f.reachesBack with
  | none =>
    exact ((Follows.fresh rfl).beside beside).snapshot h.current
  | some since =>
    obtain ⟨-, hback⟩ := Option.filter_eq_some_iff.mp hs
    obtain ⟨hepoch, hfirst, hlast⟩ := (reachesBack_iff hlog).mp hback
    have hpast : since.seq < f.shown.length := by
      rw [h.count]
      exact Nat.lt_succ_of_le hlast
    exact ((Follows.resumed rfl hepoch hpast).beside beside).catchUp (hlog.filter hfirst hlast)

lemma attach (h : Valid f) {resumed : Option Cursor} {sent : List ServerMessage} {place : Option ℕ}
    (hf : Follows f.shown f.epoch resumed sent place) :
    Valid { f with clients := f.clients ++ [⟨resumed, sent⟩] } := by
  refine { h with clients := ?_, subscribers := ?_ }
  · intro client hc
    rcases List.mem_append.mp hc with hc | hc
    · exact h.clients client hc
    · rw [List.mem_singleton.mp hc]
      exact ⟨place, hf⟩
  · intro s hs
    obtain ⟨old, hold, hfollows⟩ := h.subscribers s hs
    refine ⟨old, ?_, hfollows⟩
    exact (List.getElem?_append_left (List.getElem?_eq_some_iff.mp hold).1).trans hold

lemma join (h : Valid f) {resumed : Option Cursor} {sent : List ServerMessage}
    (hf : Follows f.shown f.epoch resumed sent (some f.seq)) (conn : ℕ) (isLocal : Bool) :
    Valid { f with
      clients := f.clients ++ [⟨resumed, sent⟩]
      subscribers := f.subscribers ++ [⟨conn, isLocal, f.clients.length⟩] } := by
  refine { h.attach hf with distinct := ?_, subscribers := ?_ }
  · refine List.pairwise_append.mpr ⟨h.distinct, List.pairwise_singleton _ _, ?_⟩
    intro s hs other ho
    obtain ⟨client, hclient, -⟩ := h.subscribers s hs
    rw [List.mem_singleton.mp ho]
    exact Nat.ne_of_lt (List.getElem?_eq_some_iff.mp hclient).1
  · intro s hs
    rcases List.mem_append.mp hs with hs | hs
    · exact (h.attach hf).subscribers s hs
    · rw [List.mem_singleton.mp hs]
      exact ⟨⟨resumed, sent⟩, List.getElem?_concat_length, hf⟩

lemma step (h : Valid f) (hs : Step f f') : Valid f' := by
  cases hs with
  | change fits reached => exact h.changed fits reached
  | send beside => exact h.send _ beside
  | leave left => exact h.leave left
  | attach beside begun =>
    obtain ⟨place, hplace⟩ := (h.opening _ beside).of_begun begun
    exact h.attach hplace
  | join conn isLocal beside => exact h.join (h.opening _ beside) conn isLocal

lemma steps (h : Valid f) (hs : Steps f f') : Valid f' := by
  induction hs with
  | refl => exact h
  | tail _ hstep ih => exact ih.step hstep

end Valid

end Feed

end Sheprd.Acp
