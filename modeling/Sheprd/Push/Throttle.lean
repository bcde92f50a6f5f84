import Sheprd.Lib.Dict
import Sheprd.Lib.Expiry
import Sheprd.Lib.Run

namespace Sheprd.Push

open Lib

def chatIntervalMs : ℕ := 5000

def hourMs : ℕ := 60 * 60 * 1000

def maxPerHour : ℕ := 30

def maxClearsPerHour : ℕ := 60

inductive Kind where
  | error | question | turnEnded
  deriving DecidableEq

inductive Urgency where
  | normal | high

structure Notification where
  body : String
  clear : Bool
  kind : Kind
  pane : String
  tag : String
  title : String
  urgency : Urgency

def Notification.urgent (notification : Notification) : Bool :=
  notification.clear || decide (notification.kind = .question)

structure Recent where
  lastMs : ℕ
  pending : Option Notification

structure Throttle where
  chats : Dict String Recent
  cleared : List ℕ
  sent : List ℕ

namespace Throttle

def default : Throttle := ⟨∅, [], []⟩

def waited (now : ℕ) (recent : Recent) : Bool := decide (chatIntervalMs ≤ now - recent.lastMs)

def prune (now : ℕ) (t : Throttle) : Throttle :=
  { t with chats := Dict.filter (fun _ recent => recent.pending.isSome || !waited now recent) t.chats }

def forget (now : ℕ) (t : Throttle) : Throttle :=
  prune now { t with
    sent := Expiry.expire hourMs now t.sent
    cleared := Expiry.expire hourMs now t.cleared }

def admitOne (notification : Notification) (now : ℕ) (t : Throttle) : Option Notification × Throttle :=
  let chats := t.chats.insert notification.tag ⟨now, none⟩
  if notification.clear then
    if maxClearsPerHour ≤ t.cleared.length then (none, t)
    else (some notification, { t with chats, cleared := t.cleared ++ [now] })
  else
    if maxPerHour ≤ t.sent.length then (none, t)
    else (some notification, { t with chats, sent := t.sent ++ [now] })

def offer (notification : Notification) (now : ℕ) (t : Throttle) : Option Notification × Throttle :=
  let t := t.forget now
  match t.chats.lookup notification.tag with
  | some recent =>
      if !notification.urgent && !waited now recent then
        (none, { t with
          chats := t.chats.insert notification.tag { recent with pending := some notification } })
      else t.admitOne notification now
  | none => t.admitOne notification now

def admitAll (now : ℕ) : List Notification → Throttle → List Notification × Throttle
  | [], t => ([], t)
  | notification :: ready, t =>
      let (passed, t) := t.admitOne notification now
      let (sent, t) := admitAll now ready t
      (passed.toList ++ sent, t)

def taken (now : ℕ) (recent : Recent) : Recent :=
  if waited now recent then { recent with pending := none } else recent

def ready (order : List String) (now : ℕ) (t : Throttle) : List Notification :=
  order.filterMap fun tag => (t.chats.lookup tag).bind fun recent =>
    if waited now recent then recent.pending else none

def due (order : List String) (now : ℕ) (t : Throttle) : List Notification × Throttle :=
  let t := t.forget now
  let (sent, t') := admitAll now (t.ready order now) { t with chats := Dict.mapValues (taken now) t.chats }
  (sent, t'.prune now)

end Throttle

end Sheprd.Push

namespace Sheprd.Push

open Lib

namespace Throttle

abbrev Log := List (ℕ × Notification)

def times (clear : Bool) (log : Log) : List ℕ :=
  (log.filter fun sent => sent.2.clear == clear).map Prod.fst

def sends (tag : String) (log : Log) : List Notification :=
  (log.map Prod.snd).filter fun notification => decide (notification.tag = tag)

def offers (tag : String) (offered : List Notification) : List Notification :=
  offered.filter fun notification => decide (notification.tag = tag)

def pendingOf (tag : String) (t : Throttle) : List Notification :=
  ((t.chats.lookup tag).bind Recent.pending).toList

def Spaced (first second : ℕ × Notification) : Prop :=
  first.2.tag = second.2.tag → second.2.urgent = false → first.1 + chatIntervalMs ≤ second.1

structure Kept (now : ℕ) (log : Log) (offered : List Notification) (t : Throttle) : Prop where
  alerts : Expiry.Tracks hourMs maxPerHour now (times false log) t.sent
  clears : Expiry.Tracks hourMs maxClearsPerHour now (times true log) t.cleared
  last : ∀ tag recent, t.chats.lookup tag = some recent →
    ∀ sent ∈ log, sent.2.tag = tag → sent.1 ≤ recent.lastMs
  gone : ∀ tag, t.chats.lookup tag = none →
    ∀ sent ∈ log, sent.2.tag = tag → sent.1 + chatIntervalMs ≤ now
  held : ∀ tag recent notification, t.chats.lookup tag = some recent →
    recent.pending = some notification → notification.tag = tag ∧ notification.urgent = false
  spaced : log.Pairwise Spaced
  ordered : ∀ tag, (sends tag log ++ pendingOf tag t).Sublist (offers tag offered)

variable {now next : ℕ} {log : Log} {offered : List Notification} {t t' : Throttle}
  {notification : Notification} {tag : String}

lemma waited_iff {recent : Recent} (h : waited now recent = true) : recent.lastMs + chatIntervalMs ≤ now := by
  have hwait := of_decide_eq_true h
  have hpos : 0 < chatIntervalMs := by decide
  omega

lemma lookup_prune (now : ℕ) (t : Throttle) (tag : String) : (t.prune now).chats.lookup tag =
    (t.chats.lookup tag).filter fun recent => recent.pending.isSome || !waited now recent :=
  Dict.lookup_filter_eq _ _ _

lemma pendingOf_prune (now : ℕ) (t : Throttle) (tag : String) :
    pendingOf tag (t.prune now) = pendingOf tag t := by
  rw [pendingOf, pendingOf, lookup_prune]
  cases t.chats.lookup tag with
  | none => rfl
  | some recent =>
    rw [Option.filter_some]
    cases hp : recent.pending with
    | some held => simp [hp]
    | none => split <;> simp [hp]

lemma Kept.prune (h : Kept now log offered t) : Kept now log offered (t.prune now) := by
  refine ⟨h.alerts, h.clears, ?_, ?_, ?_, h.spaced, ?_⟩
  · intro tag recent hl
    rw [lookup_prune] at hl
    exact h.last tag recent (Option.filter_eq_some_iff.mp hl).1
  · intro tag hl sent hm hs
    rw [lookup_prune] at hl
    cases hthere : t.chats.lookup tag with
    | none => exact h.gone tag hthere sent hm hs
    | some recent =>
      rw [hthere, Option.filter_eq_none_iff] at hl
      have hdropped := hl recent rfl
      have hwaited : waited now recent = true := by
        simpa using (not_or.mp (mt Bool.or_eq_true_iff.mpr hdropped)).2
      exact (Nat.add_le_add_right (h.last tag recent hthere sent hm hs) _).trans (waited_iff hwaited)
  · intro tag recent held hl
    rw [lookup_prune] at hl
    exact h.held tag recent held (Option.filter_eq_some_iff.mp hl).1
  · intro tag
    rw [pendingOf_prune]
    exact h.ordered tag

lemma Kept.forget (h : Kept now log offered t) (hle : now ≤ next) : Kept next log offered (t.forget next) := by
  refine Kept.prune ⟨h.alerts.later hle, h.clears.later hle, h.last, ?_, h.held, h.spaced, h.ordered⟩
  intro tag hl sent hm hs
  exact (h.gone tag hl sent hm hs).trans hle

lemma Kept.offer_more (h : Kept now log offered t) (notification : Notification) :
    Kept now log (offered ++ [notification]) t := by
  refine ⟨h.alerts, h.clears, h.last, h.gone, h.held, h.spaced, fun tag => (h.ordered tag).trans ?_⟩
  exact (List.sublist_append_left _ _).filter _

structure Fit (now : ℕ) (log : Log) (offered : List Notification) (notification : Notification) : Prop where
  waited : notification.urgent = false → ∀ sent ∈ log, sent.2.tag = notification.tag →
    sent.1 + chatIntervalMs ≤ now
  newer : (sends notification.tag log ++ [notification]).Sublist (offers notification.tag offered)

inductive Admitted (now : ℕ) (t : Throttle) (notification : Notification) :
    Option Notification × Throttle → Prop where
  | full (full : if notification.clear then maxClearsPerHour ≤ t.cleared.length
      else maxPerHour ≤ t.sent.length) : Admitted now t notification (none, t)
  | clear (clear : notification.clear = true) (room : t.cleared.length < maxClearsPerHour) :
      Admitted now t notification (some notification, { t with
        chats := t.chats.insert notification.tag ⟨now, none⟩, cleared := t.cleared ++ [now] })
  | alert (alert : notification.clear = false) (room : t.sent.length < maxPerHour) :
      Admitted now t notification (some notification, { t with
        chats := t.chats.insert notification.tag ⟨now, none⟩, sent := t.sent ++ [now] })

lemma admitOne_admitted (notification : Notification) (now : ℕ) (t : Throttle) :
    Admitted now t notification (t.admitOne notification now) := by
  rw [admitOne]
  split
  case isTrue hclear =>
    split
    case isTrue hfull => exact .full ((if_pos hclear).mpr hfull)
    case isFalse hroom => exact .clear hclear (Nat.not_le.mp hroom)
  case isFalse halert =>
    split
    case isTrue hfull => exact .full ((if_neg halert).mpr hfull)
    case isFalse hroom => exact .alert (Bool.eq_false_iff.mpr halert) (Nat.not_le.mp hroom)

lemma times_append (clear : Bool) (log : Log) (sent : ℕ × Notification) :
    times clear (log ++ [sent]) = times clear log ++ if sent.2.clear = clear then [sent.1] else [] := by
  rw [times, List.filter_append, List.map_append, List.filter_singleton, times]
  by_cases h : sent.2.clear = clear
  · simp [h]
  · simp [h, beq_eq_false_iff_ne.mpr h]

lemma sends_append (tag : String) (log : Log) (sent : ℕ × Notification) :
    sends tag (log ++ [sent]) = sends tag log ++ if sent.2.tag = tag then [sent.2] else [] := by
  rw [sends, List.map_append, List.filter_append, sends, List.map_singleton, List.filter_singleton]
  by_cases h : sent.2.tag = tag <;> simp [h]

lemma Kept.through (h : Kept now log offered t) (hfit : Fit now log offered notification) {cleared sent : List ℕ}
    (halerts : Expiry.Tracks hourMs maxPerHour now (times false (log ++ [(now, notification)])) sent)
    (hclears : Expiry.Tracks hourMs maxClearsPerHour now (times true (log ++ [(now, notification)])) cleared)
    (hpast : ∀ sent ∈ log, sent.1 ≤ now) :
    Kept now (log ++ [(now, notification)]) offered
      ⟨t.chats.insert notification.tag ⟨now, none⟩, cleared, sent⟩ := by
  have hone : ∀ sent ∈ [(now, notification)], sent = (now, notification) := fun _ hm => List.mem_singleton.mp hm
  refine ⟨halerts, hclears, ?_, ?_, ?_, ?_, ?_⟩
  · intro tag recent hl sent hm hs
    obtain hm | hm := List.mem_append.mp hm
    · obtain ⟨rfl, rfl⟩ | hl := Dict.of_lookup_insert hl
      · exact hpast sent hm
      · exact h.last tag recent hl sent hm hs
    · cases hone sent hm
      cases hs
      rw [AList.lookup_insert] at hl
      cases hl
      exact le_rfl
  · intro tag hl sent hm hs
    have hother : tag ≠ notification.tag := by
      rintro rfl
      rw [AList.lookup_insert] at hl
      cases hl
    obtain hm | hm := List.mem_append.mp hm
    · rw [AList.lookup_insert_ne hother] at hl
      exact h.gone tag hl sent hm hs
    · cases hone sent hm
      exact absurd hs.symm hother
  · intro tag recent held hl hp
    obtain ⟨rfl, rfl⟩ | hl := Dict.of_lookup_insert hl
    · cases hp
    · exact h.held tag recent held hl hp
  · refine List.pairwise_append.mpr ⟨h.spaced, List.pairwise_singleton _ _, fun first hm second hs => ?_⟩
    cases hone second hs
    exact fun htag hcalm => hfit.waited hcalm first hm htag
  · intro tag
    rw [sends_append, pendingOf]
    by_cases hk : notification.tag = tag
    · subst hk
      rw [AList.lookup_insert, if_pos rfl]
      exact (List.append_nil _).symm ▸ hfit.newer
    · rw [AList.lookup_insert_ne (Ne.symm hk), if_neg hk, List.append_nil]
      exact h.ordered tag

lemma Kept.past (h : Kept now log offered t) : ∀ sent ∈ log, sent.1 ≤ now := by
  intro sent hm
  have hone : sent.1 ∈ times sent.2.clear log :=
    List.mem_map.mpr ⟨sent, List.mem_filter.mpr ⟨hm, beq_self_eq_true _⟩, rfl⟩
  cases hclear : sent.2.clear with
  | false => exact h.alerts.past _ (hclear ▸ hone)
  | true => exact h.clears.past _ (hclear ▸ hone)

def logged (now : ℕ) (sent : List Notification) : Log := sent.map fun notification => (now, notification)

lemma Kept.admitOne (h : Kept now log offered t) (hfit : Fit now log offered notification) :
    Kept now (log ++ logged now (t.admitOne notification now).1.toList) offered (t.admitOne notification now).2 := by
  have hspan : 0 < hourMs := by decide
  have hadmitted := admitOne_admitted notification now t
  generalize t.admitOne notification now = outcome at hadmitted ⊢
  cases hadmitted with
  | full full => exact (List.append_nil log).symm ▸ h
  | clear clear room =>
    refine h.through hfit ?_ ?_ h.past
    · rw [times_append, clear]
      exact (List.append_nil _).symm ▸ h.alerts
    · rw [times_append, clear]
      exact h.clears.push hspan room
  | alert alert room =>
    refine h.through hfit ?_ ?_ h.past
    · rw [times_append, alert]
      exact h.alerts.push hspan room
    · rw [times_append, alert]
      exact (List.append_nil _).symm ▸ h.clears

lemma Kept.newest (h : Kept now log offered t) (notification : Notification) :
    (sends notification.tag log ++ [notification]).Sublist
      (offers notification.tag (offered ++ [notification])) := by
  have hsends : (sends notification.tag log).Sublist (offers notification.tag offered) :=
    (List.sublist_append_left _ _).trans (h.ordered notification.tag)
  rw [offers, List.filter_append, List.filter_singleton, decide_eq_true rfl]
  exact hsends.append (.refl _)

lemma Kept.hold (h : Kept now log offered t) {recent : Recent} (hl : t.chats.lookup notification.tag = some recent)
    (hcalm : notification.urgent = false) : Kept now log (offered ++ [notification]) { t with
      chats := t.chats.insert notification.tag { recent with pending := some notification } } := by
  refine ⟨h.alerts, h.clears, ?_, ?_, ?_, h.spaced, ?_⟩
  · intro tag there hthere
    obtain ⟨rfl, rfl⟩ | hthere := Dict.of_lookup_insert hthere
    · exact h.last _ recent hl
    · exact h.last tag there hthere
  · intro tag hthere
    have hother : tag ≠ notification.tag := by
      rintro rfl
      rw [AList.lookup_insert] at hthere
      cases hthere
    rw [AList.lookup_insert_ne hother] at hthere
    exact h.gone tag hthere
  · intro tag there held hthere hp
    obtain ⟨rfl, rfl⟩ | hthere := Dict.of_lookup_insert hthere
    · cases hp
      exact ⟨rfl, hcalm⟩
    · exact h.held tag there held hthere hp
  · intro tag
    rw [pendingOf]
    by_cases hk : tag = notification.tag
    · subst hk
      rw [AList.lookup_insert]
      exact h.newest notification
    · rw [AList.lookup_insert_ne hk]
      exact (h.offer_more notification).ordered tag

lemma Kept.offer (h : Kept now log offered t) (hle : now ≤ next) (notification : Notification) :
    Kept next (log ++ logged next (t.offer notification next).1.toList) (offered ++ [notification])
      (t.offer notification next).2 := by
  have hforgot := h.forget hle
  rw [Throttle.offer]
  generalize t.forget next = t at hforgot
  cases hl : t.chats.lookup notification.tag with
  | none =>
    refine (hforgot.offer_more notification).admitOne ⟨fun _ => ?_, hforgot.newest notification⟩
    exact hforgot.gone _ hl
  | some recent =>
    simp only
    split
    case isTrue hwaits =>
      have hcalm := (Bool.and_eq_true_iff.mp hwaits).1
      rw [Option.toList_none, logged, List.map_nil, List.append_nil]
      exact hforgot.hold hl (Bool.not_eq_true' _ ▸ hcalm)
    case isFalse hgoes =>
      refine (hforgot.offer_more notification).admitOne ⟨fun hcalm sent hm hs => ?_, hforgot.newest notification⟩
      have hwaited : waited next recent = true := by
        simpa [hcalm] using hgoes
      exact (Nat.add_le_add_right (hforgot.last _ recent hl sent hm hs) _).trans (waited_iff hwaited)

lemma Fit.later {other : Notification} (h : Fit now log offered notification) (hother : other.tag ≠ notification.tag)
    {passed : Option Notification} (hp : ∀ sent ∈ passed, sent = other) :
    Fit now (log ++ logged now passed.toList) offered notification := by
  cases passed with
  | none => exact (List.append_nil log).symm ▸ h
  | some sent =>
    obtain rfl := hp sent rfl
    refine ⟨fun hcalm before hm hs => ?_, ?_⟩
    · obtain hm | hm := List.mem_append.mp hm
      · exact h.waited hcalm before hm hs
      · cases List.mem_singleton.mp hm
        exact absurd hs hother
    · have hsame : sends notification.tag (log ++ logged now (some sent).toList) = sends notification.tag log :=
        (sends_append _ _ _).trans (by rw [if_neg hother, List.append_nil])
      rw [hsame]
      exact h.newer

lemma admitOne_passed (notification : Notification) (now : ℕ) (t : Throttle) :
    ∀ sent ∈ (t.admitOne notification now).1, sent = notification := by
  have hadmitted := admitOne_admitted notification now t
  generalize t.admitOne notification now = outcome at hadmitted
  intro sent hm
  cases hadmitted with
  | full full => cases hm
  | clear clear room => exact (Option.some.inj hm).symm
  | alert alert room => exact (Option.some.inj hm).symm

lemma Kept.admitAll {ready : List Notification} (h : Kept now log offered t)
    (hfit : ∀ notification ∈ ready, Fit now log offered notification)
    (hdistinct : ready.Pairwise fun a b => a.tag ≠ b.tag) :
    Kept now (log ++ logged now (Throttle.admitAll now ready t).1) offered
      (Throttle.admitAll now ready t).2 := by
  induction ready generalizing log t with
  | nil => exact (List.append_nil log).symm ▸ h
  | cons notification ready ih =>
    obtain ⟨hfirst, hrest⟩ := List.pairwise_cons.mp hdistinct
    have hadmit := h.admitOne (hfit notification List.mem_cons_self)
    have hpassed := admitOne_passed notification now t
    have hlater := ih hadmit (fun other hm => (hfit other (List.mem_cons_of_mem _ hm)).later
      (hfirst other hm) hpassed) hrest
    rw [List.append_assoc, logged, logged, ← List.map_append] at hlater
    exact hlater

lemma lookup_taken (now : ℕ) (t : Throttle) (tag : String) :
    (Dict.mapValues (taken now) t.chats).lookup tag = (t.chats.lookup tag).map (taken now) :=
  Dict.lookup_mapValues _ _ _

lemma taken_last (now : ℕ) (recent : Recent) : (taken now recent).lastMs = recent.lastMs := by
  rw [taken]
  split <;> rfl

lemma taken_pending {recent : Recent} {held : Notification} (h : (taken now recent).pending = some held) :
    recent.pending = some held ∧ waited now recent = false := by
  rw [taken] at h
  split at h
  case isTrue => cases h
  case isFalse hwaits => exact ⟨h, Bool.eq_false_iff.mpr hwaits⟩

lemma Kept.take (h : Kept now log offered t) :
    Kept now log offered { t with chats := Dict.mapValues (taken now) t.chats } := by
  refine ⟨h.alerts, h.clears, ?_, ?_, ?_, h.spaced, ?_⟩
  · intro tag recent hl
    rw [lookup_taken] at hl
    obtain ⟨before, hbefore, rfl⟩ := Option.map_eq_some_iff.mp hl
    rw [taken_last]
    exact h.last tag before hbefore
  · intro tag hl
    rw [lookup_taken] at hl
    exact h.gone tag (Option.map_eq_none_iff.mp hl)
  · intro tag recent held hl hp
    rw [lookup_taken] at hl
    obtain ⟨before, hbefore, rfl⟩ := Option.map_eq_some_iff.mp hl
    exact h.held tag before held hbefore (taken_pending hp).1
  · intro tag
    refine List.Sublist.trans (List.Sublist.append_left ?_ _) (h.ordered tag)
    rw [pendingOf, pendingOf, lookup_taken]
    cases t.chats.lookup tag with
    | none => exact .slnil
    | some recent =>
      cases hp : (taken now recent).pending with
      | none => simp [hp]
      | some held => simp [hp, (taken_pending hp).1]

lemma ready_of_mem {order : List String} (h : notification ∈ t.ready order now) :
    ∃ tag ∈ order, ∃ recent, t.chats.lookup tag = some recent ∧ waited now recent = true ∧
      recent.pending = some notification := by
  obtain ⟨tag, hm, hready⟩ := List.mem_filterMap.mp h
  obtain ⟨recent, hl, hp⟩ := Option.bind_eq_some_iff.mp hready
  split at hp
  case isTrue hwaited => exact ⟨tag, hm, recent, hl, hwaited, hp⟩
  case isFalse => cases hp

lemma Kept.due (h : Kept now log offered t) (hle : now ≤ next) {order : List String} (horder : order.Nodup) :
    Kept next (log ++ logged next (t.due order next).1) offered (t.due order next).2 := by
  have hforgot := h.forget hle
  rw [Throttle.due]
  generalize t.forget next = t at hforgot
  refine (hforgot.take.admitAll ?_ ?_).prune
  · intro notification hm
    obtain ⟨tag, -, recent, hl, hwaited, hp⟩ := ready_of_mem hm
    obtain ⟨rfl, -⟩ := hforgot.held tag recent notification hl hp
    refine ⟨fun _ sent hs ht => ?_, ?_⟩
    · exact (Nat.add_le_add_right (hforgot.last _ recent hl sent hs ht) _).trans (waited_iff hwaited)
    · have hordered := hforgot.ordered notification.tag
      rw [pendingOf, hl, Option.bind_some, hp] at hordered
      exact hordered
  · have htag : ∀ tag notification, ((t.chats.lookup tag).bind fun recent =>
        if waited next recent then recent.pending else none) = some notification → notification.tag = tag := by
      intro tag notification hready
      obtain ⟨recent, hl, hp⟩ := Option.bind_eq_some_iff.mp hready
      split at hp
      · exact (hforgot.held tag recent notification hl hp).1
      · cases hp
    rw [Throttle.ready, List.pairwise_filterMap]
    refine horder.imp ?_
    intro tag tag' hne first hf second hs htags
    exact hne ((htag tag first hf).symm.trans (htags.trans (htag tag' second hs)))

section Holding

variable {lastMs : ℕ}

lemma forget_holds (h : t.chats.lookup tag = some ⟨lastMs, some notification⟩) (now : ℕ) :
    (t.forget now).chats.lookup tag = some ⟨lastMs, some notification⟩ := by
  rw [Throttle.forget, lookup_prune, h]
  rfl

lemma admitOne_lookup (h : notification.tag ≠ tag) (now : ℕ) (t : Throttle) :
    (t.admitOne notification now).2.chats.lookup tag = t.chats.lookup tag := by
  have hadmitted := admitOne_admitted notification now t
  generalize t.admitOne notification now = outcome at hadmitted ⊢
  cases hadmitted with
  | full full => rfl
  | clear clear room => exact AList.lookup_insert_ne h.symm
  | alert alert room => exact AList.lookup_insert_ne h.symm

lemma admitAll_lookup {ready : List Notification} (h : ∀ notification ∈ ready, notification.tag ≠ tag) :
    (Throttle.admitAll now ready t).2.chats.lookup tag = t.chats.lookup tag := by
  induction ready generalizing t with
  | nil => rfl
  | cons notification ready ih =>
    refine (ih fun other hm => h other (List.mem_cons_of_mem _ hm)).trans ?_
    exact admitOne_lookup (h notification List.mem_cons_self) now t

lemma admitOne_sent_le (notification : Notification) (now : ℕ) (t : Throttle) :
    t.sent.length ≤ (t.admitOne notification now).2.sent.length := by
  have hadmitted := admitOne_admitted notification now t
  generalize t.admitOne notification now = outcome at hadmitted ⊢
  cases hadmitted with
  | full full => exact le_rfl
  | clear clear room => exact le_rfl
  | alert alert room => exact (List.sublist_append_left _ _).length_le

lemma admitAll_sent_le (now : ℕ) (ready : List Notification) (t : Throttle) :
    t.sent.length ≤ (Throttle.admitAll now ready t).2.sent.length := by
  induction ready generalizing t with
  | nil => exact le_rfl
  | cons notification ready ih => exact (admitOne_sent_le notification now t).trans (ih _)

lemma admitAll_mem {ready : List Notification} (h : notification ∈ ready) (halert : notification.clear = false) :
    notification ∈ (Throttle.admitAll now ready t).1 ∨
      maxPerHour ≤ (Throttle.admitAll now ready t).2.sent.length := by
  induction ready generalizing t with
  | nil => exact absurd h List.not_mem_nil
  | cons first ready ih =>
    obtain rfl | hm := List.mem_cons.mp h
    · have hadmitted := admitOne_admitted notification now t
      have hgrows := admitAll_sent_le now ready (t.admitOne notification now).2
      rw [Throttle.admitAll]
      simp only
      generalize t.admitOne notification now = outcome at hadmitted hgrows ⊢
      cases hadmitted with
      | full full =>
        rw [halert] at full
        exact .inr (full.trans hgrows)
      | clear clear room => exact absurd (halert.symm.trans clear) Bool.false_ne_true
      | alert alert room => exact .inl (List.mem_append_left _ List.mem_cons_self)
    · obtain hsent | hfull := @ih (t.admitOne first now).2 hm
      · exact .inl (List.mem_append_right _ hsent)
      · exact .inr hfull

lemma Kept.due_holds (h : Kept now log offered t) (hle : now ≤ next) {order : List String}
    (hl : t.chats.lookup tag = some ⟨lastMs, some notification⟩) (hearly : next < lastMs + chatIntervalMs) :
    (t.due order next).2.chats.lookup tag = some ⟨lastMs, some notification⟩ := by
  have hpos : 0 < chatIntervalMs := by decide
  have hwaits : waited next ⟨lastMs, some notification⟩ = false :=
    decide_eq_false (by dsimp only; omega)
  have hforgot := h.forget hle
  have hl := forget_holds hl next
  rw [Throttle.due]
  generalize t.forget next = t at hforgot hl
  simp only
  have hothers : ∀ other ∈ t.ready order next, other.tag ≠ tag := by
    intro other hm htag
    obtain ⟨tag', -, recent, hl', hwaited, hp⟩ := ready_of_mem hm
    have hown := (hforgot.held tag' recent other hl' hp).1
    rw [← hown, htag, hl] at hl'
    cases hl'
    exact Bool.false_ne_true (hwaits.symm.trans hwaited)
  rw [lookup_prune, admitAll_lookup hothers, lookup_taken, hl, Option.map_some, taken, hwaits,
    if_neg Bool.false_ne_true]
  rfl

lemma Kept.due_sends (h : Kept now log offered t) {order : List String}
    (horder : order.Perm (t.forget next).chats.keys)
    (hl : t.chats.lookup tag = some ⟨lastMs, some notification⟩) (hlate : lastMs + chatIntervalMs ≤ next) :
    notification ∈ (t.due order next).1 ∨ maxPerHour ≤ (t.due order next).2.sent.length := by
  have hcalm := (h.held tag _ notification hl rfl).2
  have halert : notification.clear = false := (Bool.or_eq_false_iff.mp hcalm).1
  have hl := forget_holds hl next
  rw [Throttle.due]
  generalize t.forget next = t at horder hl
  have hready : notification ∈ t.ready order next := by
    refine List.mem_filterMap.mpr ⟨tag, ?_, ?_⟩
    · exact horder.mem_iff.mpr (AList.mem_keys.mp (AList.lookup_isSome.mp (Option.isSome_of_mem hl)))
    · have hwaited : waited next ⟨lastMs, some notification⟩ = true :=
        decide_eq_true (by dsimp only; omega)
      rw [hl, Option.bind_some, hwaited]
      rfl
  exact admitAll_mem hready halert

lemma offer_holds {newer : Notification} (hl : t.chats.lookup tag = some ⟨lastMs, some notification⟩) :
    (t.offer newer next).2.chats.lookup tag = some ⟨lastMs, some notification⟩ ∨
      newer.tag = tag ∧ ((t.offer newer next).2.chats.lookup tag = some ⟨lastMs, some newer⟩ ∨
        (t.offer newer next).1 = some newer) := by
  have hl := forget_holds hl next
  have hadmit : ∀ t : Throttle, t.chats.lookup tag = some ⟨lastMs, some notification⟩ →
      (t.admitOne newer next).2.chats.lookup tag = some ⟨lastMs, some notification⟩ ∨
        newer.tag = tag ∧ ((t.admitOne newer next).2.chats.lookup tag = some ⟨lastMs, some newer⟩ ∨
          (t.admitOne newer next).1 = some newer) := by
    intro t hl
    by_cases hk : newer.tag = tag
    · have hadmitted := admitOne_admitted newer next t
      generalize t.admitOne newer next = outcome at hadmitted ⊢
      cases hadmitted with
      | full full => exact .inl hl
      | clear clear room => exact .inr ⟨hk, .inr rfl⟩
      | alert alert room => exact .inr ⟨hk, .inr rfl⟩
    · rw [admitOne_lookup hk]
      exact .inl hl
  rw [Throttle.offer]
  generalize t.forget next = t at hl
  cases hthere : t.chats.lookup newer.tag with
  | none => exact hadmit t hl
  | some recent =>
    simp only
    split
    case isTrue hwaits =>
      by_cases hk : newer.tag = tag
      · subst hk
        rw [hl] at hthere
        cases hthere
        exact .inr ⟨rfl, .inl (AList.lookup_insert _)⟩
      · exact .inl ((AList.lookup_insert_ne (Ne.symm hk)).trans hl)
    case isFalse => exact hadmit t hl

lemma Kept.full_hour (h : Kept now log offered t) (hfull : maxPerHour ≤ t.sent.length) : maxPerHour ≤
    (log.filter fun sent => !sent.2.clear && decide (now - sent.1 < hourMs)).length := by
  rw [h.alerts.queue, Expiry.recent, times, List.filter_map, List.length_map, List.filter_filter] at hfull
  refine hfull.trans (le_of_eq (congrArg List.length (List.filter_congr fun sent _ => ?_)))
  rw [Bool.and_comm]
  cases sent.2.clear <;> rfl

end Holding

end Throttle

open Throttle

structure Books where
  throttle : Throttle
  now : ℕ
  offered : List Notification
  log : Log

inductive Call where
  | offer (notification : Notification)
  | due (order : List String)

namespace Books

def start : Books := ⟨Throttle.default, 0, [], []⟩

def next (b : Books) : Call × ℕ → Books
  | (.offer notification, now) =>
      let (passed, throttle) := b.throttle.offer notification now
      ⟨throttle, now, b.offered ++ [notification], b.log ++ logged now passed.toList⟩
  | (.due order, now) =>
      let (sent, throttle) := b.throttle.due order now
      ⟨throttle, now, b.offered, b.log ++ logged now sent⟩

inductive Steps (b : Books) : Call × ℕ → Books → Prop where
  | offer {notification : Notification} {now : ℕ} (onward : b.now ≤ now) :
      Steps b (.offer notification, now) (b.next (.offer notification, now))
  | due {order : List String} {now : ℕ} (onward : b.now ≤ now)
      (each : order.Perm (b.throttle.forget now).chats.keys) :
      Steps b (.due order, now) (b.next (.due order, now))

def Holds (tag : String) (lastMs : ℕ) (notification : Notification) (b : Books) : Prop :=
  b.throttle.chats.lookup tag = some ⟨lastMs, some notification⟩

def Replaced (tag : String) (b b' : Books) : Prop :=
  ∃ newer ∈ b'.offered.drop b.offered.length, newer.tag = tag ∧
    ((∃ time, (time, newer) ∈ b'.log.drop b.log.length) ∨ ∃ lastMs, b'.Holds tag lastMs newer)

def Capped (now : ℕ) (b : Books) : Prop :=
  maxPerHour ≤ (b.log.filter fun sent => !sent.2.clear && decide (now - sent.1 < hourMs)).length

abbrev Kept (b : Books) : Prop := Throttle.Kept b.now b.log b.offered b.throttle

variable {b b' : Books} {call : Call} {now : ℕ} {tag : String} {lastMs : ℕ} {notification : Notification}

lemma Kept.step (h : b.Kept) (hs : Steps b (call, now) b') : b'.Kept := by
  cases hs with
  | offer onward => exact Throttle.Kept.offer h onward _
  | due onward each =>
    exact Throttle.Kept.due h onward (each.nodup_iff.mpr (AList.keys_nodup _))

lemma kept_start : start.Kept := by
  refine ⟨Expiry.Tracks.start _ _ _, Expiry.Tracks.start _ _ _, (fun _ _ h => by cases h),
    (fun _ _ => List.forall_mem_nil _), (fun _ _ _ h => by cases h), .nil, fun tag => ?_⟩
  exact .slnil

structure Waiting (tag : String) (lastMs : ℕ) (notification : Notification) (b b' : Books) : Prop where
  kept : b'.Kept
  offered : b.offered <+: b'.offered
  log : b.log <+: b'.log
  held : b'.Holds tag lastMs notification ∨ (∃ newer ∈ b'.offered.drop b.offered.length,
    newer.tag = tag ∧ b'.Holds tag lastMs newer) ∨ ∃ newer ∈ b'.offered.drop b.offered.length,
      newer.tag = tag ∧ ∃ time, (time, newer) ∈ b'.log.drop b.log.length

lemma mem_drop_append {α : Type} {l l' more : List α} {a : α} (h : l <+: l') (hm : a ∈ l'.drop l.length ∨ a ∈ more) :
    a ∈ (l' ++ more).drop l.length := by
  rw [List.drop_append_of_le_length h.length_le]
  exact List.mem_append.mpr hm

lemma Waiting.offer (h : Waiting tag lastMs notification b b') {newer : Notification} (onward : b'.now ≤ now) :
    Waiting tag lastMs notification b (b'.next (.offer newer, now)) := by
  refine ⟨h.kept.offer onward newer, h.offered.trans (List.prefix_append _ _),
    h.log.trans (List.prefix_append _ _), ?_⟩
  have hnewer : newer ∈ (b'.offered ++ [newer]).drop b.offered.length :=
    mem_drop_append h.offered (.inr List.mem_cons_self)
  have hstill : ∀ held, b'.Holds tag lastMs held → (b'.next (.offer newer, now)).Holds tag lastMs held ∨
      newer.tag = tag ∧ ((b'.next (.offer newer, now)).Holds tag lastMs newer ∨
        ∃ time, (time, newer) ∈ (b'.next (.offer newer, now)).log.drop b.log.length) := by
    intro held hheld
    obtain hstays | ⟨htag, hheld | hwent⟩ := @offer_holds now _ _ _ _ newer hheld
    · exact .inl hstays
    · exact .inr ⟨htag, .inl hheld⟩
    · have hm : (now, newer) ∈ logged now (b'.throttle.offer newer now).1.toList := by
        rw [hwent]
        exact List.mem_cons_self
      exact .inr ⟨htag, .inr ⟨now, mem_drop_append h.log (.inr hm)⟩⟩
  obtain hheld | ⟨other, hother, htag, hheld⟩ | ⟨other, hother, htag, time, hsent⟩ := h.held
  · obtain hstays | ⟨htag, hheld | hwent⟩ := hstill _ hheld
    · exact .inl hstays
    · exact .inr (.inl ⟨newer, hnewer, htag, hheld⟩)
    · exact .inr (.inr ⟨newer, hnewer, htag, hwent⟩)
  · obtain hstays | ⟨htag', hheld | hwent⟩ := hstill _ hheld
    · exact .inr (.inl ⟨other, mem_drop_append h.offered (.inl hother), htag, hstays⟩)
    · exact .inr (.inl ⟨newer, hnewer, htag', hheld⟩)
    · exact .inr (.inr ⟨newer, hnewer, htag', hwent⟩)
  · exact .inr (.inr ⟨other, mem_drop_append h.offered (.inl hother), htag, time,
      mem_drop_append h.log (.inl hsent)⟩)

lemma Waiting.due (h : Waiting tag lastMs notification b b') {order : List String} (onward : b'.now ≤ now)
    (each : order.Perm (b'.throttle.forget now).chats.keys) (hearly : now < lastMs + chatIntervalMs) :
    Waiting tag lastMs notification b (b'.next (.due order, now)) := by
  refine ⟨h.kept.due onward (each.nodup_iff.mpr (AList.keys_nodup _)), h.offered,
    h.log.trans (List.prefix_append _ _), ?_⟩
  obtain hheld | ⟨other, hother, htag, hheld⟩ | ⟨other, hother, htag, time, hsent⟩ := h.held
  · exact .inl (Throttle.Kept.due_holds h.kept onward hheld hearly)
  · exact .inr (.inl ⟨other, hother, htag, Throttle.Kept.due_holds h.kept onward hheld hearly⟩)
  · exact .inr (.inr ⟨other, hother, htag, time, mem_drop_append h.log (.inl hsent)⟩)

lemma Kept.waiting (h : b.Kept) (hheld : b.Holds tag lastMs notification) :
    Waiting tag lastMs notification b b :=
  ⟨h, List.prefix_rfl, List.prefix_rfl, .inl hheld⟩

lemma Waiting.replaced (h : Waiting tag lastMs notification b b') :
    b'.Holds tag lastMs notification ∨ Replaced tag b b' := by
  obtain hheld | ⟨newer, hnewer, htag, hheld⟩ | ⟨newer, hnewer, htag, hsent⟩ := h.held
  · exact .inl hheld
  · exact .inr ⟨newer, hnewer, htag, .inr ⟨lastMs, hheld⟩⟩
  · exact .inr ⟨newer, hnewer, htag, .inl hsent⟩

theorem budget_kept {calls : List (Call × ℕ)} (hr : Run Steps start calls b) :
    (∀ first, (Expiry.window hourMs first (times false b.log)).length ≤ maxPerHour ∧
      (Expiry.window hourMs first (times true b.log)).length ≤ maxClearsPerHour) ∧
    b.log.Pairwise Spaced ∧
    (∀ tag, (sends tag b.log).Sublist (offers tag b.offered)) ∧
    ∀ tag lastMs notification, b.Holds tag lastMs notification → ∀ calls' b' order now b'',
      Run Steps b calls' b' → (∀ order' now', (.due order', now') ∈ calls' → now' < lastMs + chatIntervalMs) →
      Steps b' (.due order, now) b'' → lastMs + chatIntervalMs ≤ now →
        (now, notification) ∈ b''.log.drop b'.log.length ∨ Replaced tag b b' ∨ Capped now b'' := by
  have hkept : b.Kept := by
    refine hr.invariant kept_start ?_
    intro t a u ht hu
    exact ht.step hu
  refine ⟨fun first => ⟨hkept.alerts.capped first, hkept.clears.capped first⟩, hkept.spaced,
    fun tag => (List.sublist_append_left _ _).trans (hkept.ordered tag), ?_⟩
  intro tag lastMs notification hheld calls' b' order now b'' hr' hearly hs hlate
  have hwaiting : Waiting tag lastMs notification b b' := by
    refine hr'.among (L := fun call => ∀ order now, call = (.due order, now) → now < lastMs + chatIntervalMs)
      (P := Waiting tag lastMs notification b) (hkept.waiting hheld) ?_ ?_
    · intro t a u hcall ht hu
      cases hu with
      | offer onward => exact ht.offer onward
      | @due order now onward each => exact ht.due onward each (hcall order now rfl)
    · rintro _ hm order now rfl
      exact hearly order now hm
  obtain hheld | hreplaced := hwaiting.replaced
  · cases hs with
    | due onward each =>
      have hafter := hwaiting.kept.due onward (each.nodup_iff.mpr (AList.keys_nodup _))
      obtain hsent | hfull := Throttle.Kept.due_sends hwaiting.kept each hheld hlate
      · refine .inl ?_
        rw [next, List.drop_left]
        exact List.mem_map_of_mem hsent
      · exact .inr (.inr (hafter.full_hour hfull))
  · exact .inr (.inl hreplaced)

section Sample

def turnEnded (body : String) : Notification := ⟨body, false, .turnEnded, "a", "chat-a", "t", .normal⟩

def heldBooks : Books := (start.next (.offer (turnEnded "1"), 0)).next (.offer (turnEnded "2"), 1000)

theorem budget_kept_held : Run Steps start [(.offer (turnEnded "1"), 0), (.offer (turnEnded "2"), 1000)] heldBooks ∧
    heldBooks.log.Pairwise Spaced ∧
    ((5000, turnEnded "2") ∈ (heldBooks.next (.due ["chat-a"], 5000)).log.drop heldBooks.log.length ∨
      Replaced "chat-a" heldBooks heldBooks ∨ Capped 5000 (heldBooks.next (.due ["chat-a"], 5000))) := by
  have hr : Run Steps start [(.offer (turnEnded "1"), 0), (.offer (turnEnded "2"), 1000)] heldBooks :=
    .snoc (.snoc .nil (.offer (Nat.zero_le _))) (.offer (Nat.zero_le _))
  obtain ⟨-, hspaced, -, hheld⟩ := budget_kept hr
  refine ⟨hr, hspaced, hheld "chat-a" 0 (turnEnded "2") rfl [] heldBooks ["chat-a"] 5000 _ .nil ?_ ?_ ?_⟩
  · exact fun _ _ hm => absurd hm List.not_mem_nil
  · exact .due (by decide) (.refl _)
  · decide

end Sample

end Books

end Sheprd.Push
