import Sheprd.Lib.Dict
import Sheprd.Lib.Purse
import Mathlib.Data.List.MinMax
import Sheprd.Lib.Run

namespace Sheprd.Auth.Limits

open Lib

def u32Max : ℕ := 2 ^ 32 - 1

def u64Max : ℕ := 2 ^ 64 - 1

structure Bucket where
  tokens : ℕ
  refilledMs : ℕ
  usedMs : ℕ

structure RateLimiter (K : Type) where
  buckets : Dict K Bucket
  capacity : ℕ
  maxKeys : ℕ
  refillMs : ℕ
  capacity_pos : 0 < capacity
  capacity_fits : capacity ≤ u32Max
  maxKeys_pos : 0 < maxKeys
  refillMs_pos : 0 < refillMs

def refill (capacity refillMs now : ℕ) (bucket : Bucket) : Bucket :=
  let earned := (now - bucket.refilledMs) / refillMs
  if earned = 0 then bucket
  else
    let tokens := min (bucket.tokens + earned) u64Max
    let tokens := min (min tokens u32Max) capacity
    { bucket with
      tokens
      refilledMs := if tokens = capacity then now else bucket.refilledMs + earned * refillMs }

namespace RateLimiter

variable {K : Type} [DecidableEq K]

def new (K : Type) (capacity refillMs maxKeys : ℕ) (fits : capacity ≤ u32Max) : RateLimiter K where
  buckets := ∅
  capacity := max capacity 1
  maxKeys := max maxKeys 1
  refillMs := max refillMs 1
  capacity_pos := by omega
  capacity_fits := Nat.max_le.mpr ⟨fits, by decide⟩
  maxKeys_pos := by omega
  refillMs_pos := by omega

def retained (now : ℕ) (l : RateLimiter K) : Dict K Bucket :=
  Dict.filter (fun _ bucket => decide (bucket.tokens < l.capacity))
    (Dict.mapValues (refill l.capacity l.refillMs now) l.buckets)

def oldest (order : List K) (buckets : Dict K Bucket) : Option K :=
  (order.filter fun key => key ∈ buckets).argmin fun key => (buckets.lookup key).elim 0 Bucket.usedMs

def dropped (order : List K) (now : ℕ) (l : RateLimiter K) : Option K :=
  if (l.retained now).entries.length < l.maxKeys then none else oldest order (l.retained now)

def evict (order : List K) (now : ℕ) (l : RateLimiter K) : RateLimiter K :=
  { l with
    buckets :=
      match l.dropped order now with
      | some key => (l.retained now).erase key
      | none => l.retained now }

def evicts (key : K) (l : RateLimiter K) : Bool :=
  decide (key ∉ l.buckets) && decide (l.maxKeys ≤ l.buckets.entries.length)

def entered (order : List K) (key : K) (now : ℕ) (l : RateLimiter K) : RateLimiter K :=
  if l.evicts key then l.evict order now else l

def allow (order : List K) (key : K) (now : ℕ) (l : RateLimiter K) : Bool × RateLimiter K :=
  let l := l.entered order key now
  let bucket := refill l.capacity l.refillMs now ((l.buckets.lookup key).getD ⟨l.capacity, now, now⟩)
  let bucket := { bucket with usedMs := max bucket.usedMs now }
  if bucket.tokens = 0 then (false, { l with buckets := l.buckets.insert key bucket })
  else (true, { l with buckets := l.buckets.insert key { bucket with tokens := bucket.tokens - 1 } })

end RateLimiter

end Sheprd.Auth.Limits

namespace Sheprd.Auth.Limits

open Lib

variable {K : Type} [DecidableEq K]

section Lookup

def Bucket.purse (bucket : Bucket) : Purse := ⟨bucket.tokens, bucket.refilledMs⟩

variable {capacity refillMs now : ℕ} {bucket : Bucket}

lemma refill_purse (hfits : capacity ≤ u32Max) :
    (refill capacity refillMs now bucket).purse = bucket.purse.refill capacity refillMs now := by
  have hmax : u32Max ≤ u64Max := by decide
  have htokens : ∀ n, min (min (min n u64Max) u32Max) capacity = min n capacity := by
    intro n
    omega
  by_cases hzero : (now - bucket.refilledMs) / refillMs = 0
  · simp only [refill, Purse.refill, Bucket.purse, hzero, if_true]
  · simp only [refill, Purse.refill, Bucket.purse, hzero, if_false, htokens]
    rfl

lemma refill_refills (hfits : capacity ≤ u32Max) (hperiod : 0 < refillMs) (h : bucket.tokens ≤ capacity) :
    Purse.Refills capacity refillMs now bucket.purse (refill capacity refillMs now bucket).purse := by
  rw [refill_purse hfits]
  exact Purse.refill_refills hperiod h

lemma refill_now (usedMs : ℕ) : refill capacity refillMs now ⟨capacity, now, usedMs⟩ =
    ⟨capacity, now, usedMs⟩ := by
  rw [refill]
  simp only [Nat.sub_self, Nat.zero_div, if_true]

namespace RateLimiter

variable {l : RateLimiter K} {order : List K} {key k : K}

lemma lookup_retained (l : RateLimiter K) (now : ℕ) (k : K) : (l.retained now).lookup k =
    ((l.buckets.lookup k).map (refill l.capacity l.refillMs now)).filter
      fun bucket => decide (bucket.tokens < l.capacity) := by
  rw [retained, Dict.lookup_filter_eq, Dict.lookup_mapValues]

lemma lookup_evict (l : RateLimiter K) (order : List K) (now : ℕ) (k : K) :
    (l.evict order now).buckets.lookup k =
      if l.dropped order now = some k then none else (l.retained now).lookup k := by
  rw [evict]
  simp only
  cases l.dropped order now with
  | none => rfl
  | some key =>
    simp only [Option.some.injEq]
    split
    case isTrue h => rw [h, AList.lookup_erase]
    case isFalse h => exact AList.lookup_erase_ne (Ne.symm h)

lemma not_evicts (h : key ∈ l.buckets) : l.evicts key = false := by
  simp [evicts, h]

lemma entered_fields (l : RateLimiter K) (order : List K) (key : K) (now : ℕ) :
    (l.entered order key now).capacity = l.capacity ∧ (l.entered order key now).refillMs = l.refillMs ∧
      (l.entered order key now).maxKeys = l.maxKeys := by
  rw [entered]
  split <;> exact ⟨rfl, rfl, rfl⟩

lemma allow_fields (l : RateLimiter K) (order : List K) (key : K) (now : ℕ) :
    (l.allow order key now).2.capacity = l.capacity ∧ (l.allow order key now).2.refillMs = l.refillMs ∧
      (l.allow order key now).2.maxKeys = l.maxKeys := by
  rw [allow]
  simp only
  split <;> exact l.entered_fields order key now

def asked (order : List K) (key : K) (now : ℕ) (l : RateLimiter K) : Bucket :=
  refill l.capacity l.refillMs now
    (((l.entered order key now).buckets.lookup key).getD ⟨l.capacity, now, now⟩)

lemma allow_ok (l : RateLimiter K) (order : List K) (key : K) (now : ℕ) :
    (l.allow order key now).1 = decide ((l.asked order key now).tokens ≠ 0) := by
  obtain ⟨hcapacity, hrefill, -⟩ := l.entered_fields order key now
  rw [allow, asked]
  simp only [hcapacity, hrefill]
  split
  case isTrue h => rw [h]; rfl
  case isFalse h => exact (decide_eq_true h).symm

lemma allow_buckets (l : RateLimiter K) (order : List K) (key : K) (now : ℕ) :
    ∃ bucket : Bucket, (l.allow order key now).2.buckets =
        (l.entered order key now).buckets.insert key bucket ∧
      bucket.purse = (l.asked order key now).purse.spend (l.allow order key now).1.toNat := by
  obtain ⟨hcapacity, hrefill, -⟩ := l.entered_fields order key now
  rw [allow_ok, allow]
  simp only [hcapacity, hrefill]
  change ∃ bucket : Bucket, (if (l.asked order key now).tokens = 0 then _ else _ :
    Bool × RateLimiter K).2.buckets = _ ∧ _
  split
  case isTrue h =>
    refine ⟨_, rfl, ?_⟩
    rw [decide_eq_false (not_not_intro h)]
    rfl
  case isFalse h =>
    refine ⟨_, rfl, ?_⟩
    rw [decide_eq_true h]
    rfl

omit [DecidableEq K] in
lemma retained_keys (l : RateLimiter K) (now : ℕ) : (l.retained now).keys.Sublist l.buckets.keys := by
  have hsub : (l.retained now).entries.Sublist
      (Dict.mapValues (refill l.capacity l.refillMs now) l.buckets).entries := List.filter_sublist
  have hkeys : (Dict.mapValues (refill l.capacity l.refillMs now) l.buckets).keys = l.buckets.keys :=
    List.map_map ..
  rw [← hkeys]
  exact hsub.map _

lemma evict_room (l : RateLimiter K) (now : ℕ) (horder : order.Perm l.buckets.keys)
    (h : l.buckets.entries.length ≤ l.maxKeys) :
    (l.evict order now).buckets.entries.length < l.maxKeys := by
  have hle : (l.retained now).entries.length ≤ l.maxKeys := by
    rw [← Dict.length_keys]
    exact (l.retained_keys now).length_le.trans ((Dict.length_keys _).trans_le h)
  rw [evict]
  cases hd : l.dropped order now with
  | none =>
    rw [dropped] at hd
    split at hd
    · assumption
    case isFalse hfull =>
      have hpos : 0 < (l.retained now).keys.length :=
        (Dict.length_keys _).symm ▸ l.maxKeys_pos.trans_le (Nat.not_lt.mp hfull)
      obtain ⟨key, hkey⟩ := List.exists_mem_of_length_pos hpos
      have hm : key ∈ order.filter fun key => key ∈ l.retained now :=
        List.mem_filter.mpr ⟨horder.mem_iff.mpr ((l.retained_keys now).subset hkey),
          decide_eq_true (AList.mem_keys.mpr hkey)⟩
      rw [List.argmin_eq_none.mp hd] at hm
      exact absurd hm List.not_mem_nil
  | some key =>
    rw [dropped] at hd
    split at hd
    · cases hd
    · have hm := (List.mem_filter.mp (List.argmin_mem hd)).2
      have herase := Dict.length_erase (of_decide_eq_true hm)
      simp only
      omega

lemma allow_small (l : RateLimiter K) (key : K) (now : ℕ) (horder : order.Perm l.buckets.keys)
    (h : l.buckets.entries.length ≤ l.maxKeys) :
    (l.allow order key now).2.buckets.entries.length ≤ l.maxKeys := by
  obtain ⟨bucket, hbuckets, -⟩ := l.allow_buckets order key now
  have hroom : (l.entered order key now).buckets.entries.length +
      (if key ∈ (l.entered order key now).buckets then 0 else 1) ≤ l.maxKeys := by
    rw [entered]
    split
    case isTrue =>
      have hlt := l.evict_room now horder h
      split <;> omega
    case isFalse hstays =>
      split
      · exact h
      case isFalse hnew =>
        have hshort : ¬l.maxKeys ≤ l.buckets.entries.length := by
          intro hle
          exact hstays (Bool.and_eq_true_iff.mpr ⟨decide_eq_true hnew, decide_eq_true hle⟩)
        omega
  rw [hbuckets]
  exact (Dict.length_insert_le _ _ _).trans hroom

end RateLimiter

end Lookup

structure Watch (K : Type) where
  limiter : RateLimiter K
  kept : Option Bucket
  allowed : ℕ
  evicted : Bool
  bettered : Bool
  worsened : Bool

namespace Watch

open RateLimiter

variable (k : K)

def start (limiter : RateLimiter K) : Watch K := ⟨limiter, none, 0, false, false, false⟩

def drops (order : List K) (request : K × ℕ) (w : Watch K) : Bool :=
  w.limiter.evicts request.1 && decide (w.limiter.dropped order request.2 = some k)

def looked (order : List K) (request : K × ℕ) (w : Watch K) : Option Bucket :=
  if w.drops k order request then none
  else if w.limiter.evicts request.1 then
    w.kept.map (refill w.limiter.capacity w.limiter.refillMs request.2)
  else w.kept

def keptAsked (order : List K) (request : K × ℕ) (w : Watch K) : Bucket :=
  refill w.limiter.capacity w.limiter.refillMs request.2
    ((w.looked k order request).getD ⟨w.limiter.capacity, request.2, request.2⟩)

def step (order : List K) (w : Watch K) (request : K × ℕ) : Watch K :=
  let (ok, limiter) := w.limiter.allow order request.1 request.2
  let bucket := w.keptAsked k order request
  if request.1 = k then
    { limiter
      kept := some { bucket with tokens := bucket.tokens - ok.toNat }
      allowed := w.allowed + ok.toNat
      evicted := w.evicted || w.drops k order request
      bettered := w.bettered || (ok && decide (bucket.tokens = 0))
      worsened := w.worsened || (!ok && decide (bucket.tokens ≠ 0)) }
  else
    { w with
      limiter
      kept := w.looked k order request
      evicted := w.evicted || w.drops k order request }

def Steps (w : Watch K) (request : K × ℕ) (w' : Watch K) : Prop :=
  ∃ order : List K, order.Perm w.limiter.buckets.keys ∧ w' = w.step k order request

def Onward (w : Watch K) (request : K × ℕ) : Prop :=
  request.1 = k → w.limiter.buckets.lookup k = none → ∀ bucket, w.kept = some bucket →
    bucket.refilledMs ≤ request.2

instance (w : Watch K) (request : K × ℕ) : Decidable (Onward k w request) :=
  inferInstanceAs (Decidable (_ → _ → ∀ bucket ∈ w.kept, bucket.refilledMs ≤ request.2))

def InPhase (w : Watch K) (request : K × ℕ) : Prop :=
  request.1 = k → w.limiter.buckets.lookup k = none → ∀ bucket, w.kept = some bucket →
    bucket.refilledMs = request.2 ∨ bucket.refilledMs + w.limiter.refillMs ≤ request.2

inductive Shadows (capacity refillMs : ℕ) : Option Bucket → Option Bucket → Prop where
  | none : Shadows capacity refillMs none none
  | full {kept : Bucket} (full : kept.tokens = capacity) : Shadows capacity refillMs none (some kept)
  | held {bucket kept : Bucket} (room : bucket.tokens < capacity)
      (covers : Purse.Covers capacity refillMs bucket.purse kept.purse) :
      Shadows capacity refillMs (some bucket) (some kept)

variable {k} {w w' : Watch K} {order : List K} {request : K × ℕ}

lemma lookup_entered (w : Watch K) (order : List K) (request : K × ℕ) :
    (w.limiter.entered order request.1 request.2).buckets.lookup k =
      if w.drops k order request then none
      else if w.limiter.evicts request.1 then (w.limiter.retained request.2).lookup k
      else w.limiter.buckets.lookup k := by
  rw [entered, drops]
  cases w.limiter.evicts request.1 with
  | false => rfl
  | true => simp only [if_true, lookup_evict, Bool.true_and, decide_eq_true_eq]

lemma Shadows.looked (h : Shadows w.limiter.capacity w.limiter.refillMs (w.limiter.buckets.lookup k) w.kept) :
    Shadows w.limiter.capacity w.limiter.refillMs
      ((w.limiter.entered order request.1 request.2).buckets.lookup k) (w.looked k order request) := by
  have hfits := w.limiter.capacity_fits
  have hperiod := w.limiter.refillMs_pos
  rw [lookup_entered, Watch.looked]
  split
  · exact .none
  split
  · rw [lookup_retained]
    generalize w.limiter.buckets.lookup k = there at h
    generalize w.kept = kept at h
    cases h with
    | none => exact .none
    | full full =>
      have hrefills := @refill_refills _ _ request.2 _ hfits hperiod full.le
      exact .full (Nat.le_antisymm hrefills.bounded (full ▸ hrefills.more))
    | held room covers =>
      have hcovers := @Purse.Covers.refill _ _ request.2 _ _ covers hperiod room
      rw [← refill_purse hfits, ← refill_purse hfits] at hcovers
      rw [Option.map_some, Option.filter_some]
      split
      case isTrue hroom => exact .held (of_decide_eq_true hroom) hcovers
      case isFalse hroom =>
        have hfull := Nat.not_lt.mp fun hlt => hroom (decide_eq_true hlt)
        exact .full (Nat.le_antisymm hcovers.bounded (hfull.trans hcovers.fewer))
  · exact h

lemma Shadows.bounded {capacity refillMs : ℕ} {there : Option Bucket} {bucket : Bucket}
    (h : Shadows capacity refillMs there (some bucket)) : bucket.tokens ≤ capacity := by
  cases h with
  | full full => exact full.le
  | held room covers => exact covers.bounded

lemma looked_since {bucket : Bucket} (h : w.looked k order request = some bucket)
    (hs : Shadows w.limiter.capacity w.limiter.refillMs (w.limiter.buckets.lookup k) w.kept)
    (hsince : ∀ bucket, w.kept = some bucket → bucket.refilledMs ≤ request.2) :
    bucket.refilledMs ≤ request.2 := by
  rw [Watch.looked] at h
  split at h
  · cases h
  split at h
  · obtain ⟨old, hold, rfl⟩ := Option.map_eq_some_iff.mp h
    rw [hold] at hs
    have hreached := (@refill_refills _ _ request.2 _ w.limiter.capacity_fits w.limiter.refillMs_pos
      hs.bounded).reached
    exact hreached.trans (Nat.max_le.mpr ⟨hsince old hold, le_rfl⟩)
  · exact hsince bucket h

lemma lookup_none (hk : request.1 = k)
    (h : (w.limiter.entered order request.1 request.2).buckets.lookup k = none) :
    w.limiter.buckets.lookup k = none := by
  cases hl : w.limiter.buckets.lookup k with
  | none => rfl
  | some bucket =>
    have hm : request.1 ∈ w.limiter.buckets := by
      rw [hk]
      exact AList.lookup_isSome.mp (Option.isSome_of_mem hl)
    rw [entered, not_evicts hm] at h
    exact absurd (hl.symm.trans h) nofun

lemma Shadows.asked (h : Shadows w.limiter.capacity w.limiter.refillMs (w.limiter.buckets.lookup k) w.kept)
    (hk : request.1 = k) (hon : Onward k w request) :
    Purse.Covers w.limiter.capacity w.limiter.refillMs (w.limiter.asked order request.1 request.2).purse
      (w.keptAsked k order request).purse := by
  have hfits := w.limiter.capacity_fits
  have hperiod := w.limiter.refillMs_pos
  have hlooked := @Shadows.looked _ _ _ _ order request h
  have hsince : (w.limiter.entered order request.1 request.2).buckets.lookup k = Option.none →
      ∀ bucket, w.looked k order request = some bucket → bucket.refilledMs ≤ request.2 :=
    fun hnone bucket hb => looked_since hb h (hon hk (lookup_none hk hnone))
  rw [RateLimiter.asked, Watch.keptAsked, hk]
  rw [hk] at hlooked hsince
  generalize (w.limiter.entered order k request.2).buckets.lookup k = there at hlooked hsince
  generalize w.looked k order request = kept at hlooked hsince
  cases hlooked with
  | none =>
    rw [Option.getD_none, refill_now]
    exact .refl le_rfl hperiod
  | @full kept full =>
    rw [Option.getD_none, Option.getD_some, refill_now]
    have hrefills := @refill_refills _ _ request.2 _ hfits hperiod full.le
    refine .fresh (Nat.le_antisymm hrefills.bounded (full ▸ hrefills.more)) ?_ hrefills.near
    exact hrefills.reached.trans (Nat.max_le.mpr ⟨hsince rfl kept rfl, le_rfl⟩)
  | held room covers =>
    rw [Option.getD_some, Option.getD_some, refill_purse hfits, refill_purse hfits]
    exact covers.refill hperiod room

structure Credit (capacity refillMs earliest latest allowed : ℕ) (bucket : Bucket) : Prop where
  late : bucket.refilledMs ≤ latest
  paid : allowed * refillMs + bucket.tokens * refillMs + earliest ≤ capacity * refillMs + bucket.refilledMs

section Credit

variable {capacity refillMs earliest latest allowed now : ℕ} {bucket : Bucket}

lemma Credit.fresh (he : earliest ≤ now) (hl : now ≤ latest) (usedMs : ℕ) :
    Credit capacity refillMs earliest latest 0 ⟨capacity, now, usedMs⟩ := by
  refine ⟨hl, ?_⟩
  rw [Nat.zero_mul, Nat.zero_add]
  exact Nat.add_le_add_left he _

lemma Credit.refill (h : Credit capacity refillMs earliest latest allowed bucket) (hfits : capacity ≤ u32Max)
    (hperiod : 0 < refillMs) (hb : bucket.tokens ≤ capacity) (hl : now ≤ latest) :
    Credit capacity refillMs earliest latest allowed (Limits.refill capacity refillMs now bucket) := by
  have hrefills := @refill_refills _ _ now _ hfits hperiod hb
  have hpaid := h.paid
  have hcredit := hrefills.credit
  refine ⟨hrefills.reached.trans (Nat.max_le.mpr ⟨h.late, hl⟩), ?_⟩
  simp only [Bucket.purse] at hcredit
  omega

lemma Credit.spend (h : Credit capacity refillMs earliest latest allowed bucket) {count : ℕ}
    (hc : count ≤ bucket.tokens) : Credit capacity refillMs earliest latest (allowed + count)
      { bucket with tokens := bucket.tokens - count } := by
  have hpaid := h.paid
  refine ⟨h.late, ?_⟩
  have hspent : (bucket.tokens - count) * refillMs + count * refillMs = bucket.tokens * refillMs := by
    rw [← Nat.add_mul, Nat.sub_add_cancel hc]
  rw [Nat.add_mul]
  dsimp only
  omega

lemma Credit.bound (h : Credit capacity refillMs earliest latest allowed bucket) (hperiod : 0 < refillMs) :
    allowed ≤ capacity + (latest - earliest) / refillMs := by
  have hpaid := h.paid
  have hlate := h.late
  have hspan : (allowed - capacity) * refillMs ≤ latest - earliest := by
    rw [Nat.sub_mul]
    omega
  have hdiv := (Nat.le_div_iff_mul_le hperiod).mpr hspan
  omega

end Credit

variable (k) in
structure Held (limiter : RateLimiter K) (earliest latest : ℕ) (w : Watch K) : Prop where
  capacity : w.limiter.capacity = limiter.capacity
  refillMs : w.limiter.refillMs = limiter.refillMs
  shadows : Shadows w.limiter.capacity w.limiter.refillMs (w.limiter.buckets.lookup k) w.kept
  unasked : w.evicted = false → w.kept = none → w.allowed = 0
  credit : w.evicted = false → ∀ bucket, w.kept = some bucket →
    Credit w.limiter.capacity w.limiter.refillMs earliest latest w.allowed bucket
  fair : w.bettered = false

variable {limiter : RateLimiter K} {earliest latest : ℕ}

lemma Held.looked (h : Held k limiter earliest latest w) (hl : request.2 ≤ latest)
    (he : w.evicted = false) (hd : w.drops k order request = false) :
    (w.looked k order request = none → w.allowed = 0) ∧ ∀ bucket, w.looked k order request = some bucket →
      Credit w.limiter.capacity w.limiter.refillMs earliest latest w.allowed bucket := by
  rw [Watch.looked, hd, if_neg Bool.false_ne_true]
  split
  · constructor
    · intro hnone
      exact h.unasked he (Option.map_eq_none_iff.mp hnone)
    · intro bucket hb
      obtain ⟨old, hold, rfl⟩ := Option.map_eq_some_iff.mp hb
      have hs := h.shadows
      rw [hold] at hs
      exact (h.credit he old hold).refill w.limiter.capacity_fits w.limiter.refillMs_pos hs.bounded hl
  · exact ⟨h.unasked he, h.credit he⟩

lemma allow_lookup (w : Watch K) (order : List K) (request : K × ℕ) :
    ∃ bucket : Bucket, (w.limiter.allow order request.1 request.2).2.buckets.lookup k =
        (if request.1 = k then some bucket
          else (w.limiter.entered order request.1 request.2).buckets.lookup k) ∧
      bucket.purse = (w.limiter.asked order request.1 request.2).purse.spend
        (w.limiter.allow order request.1 request.2).1.toNat := by
  obtain ⟨bucket, hbuckets, hpurse⟩ := w.limiter.allow_buckets order request.1 request.2
  refine ⟨bucket, ?_, hpurse⟩
  rw [hbuckets]
  split
  case isTrue hk => rw [hk, AList.lookup_insert]
  case isFalse hk => exact AList.lookup_insert_ne (Ne.symm hk)

lemma ok_le (w : Watch K) (order : List K) (request : K × ℕ) :
    (w.limiter.allow order request.1 request.2).1.toNat ≤ (w.limiter.asked order request.1 request.2).tokens := by
  rw [allow_ok]
  by_cases hzero : (w.limiter.asked order request.1 request.2).tokens = 0
  · simp [hzero]
  · rw [decide_eq_true hzero]
    exact Nat.pos_of_ne_zero hzero

lemma Held.asked (h : Held k limiter earliest latest w) (he : earliest ≤ request.2) (hl : request.2 ≤ latest)
    (hevicted : w.evicted = false) (hd : w.drops k order request = false) :
    Credit w.limiter.capacity w.limiter.refillMs earliest latest w.allowed (w.keptAsked k order request) := by
  obtain ⟨hnone, hsome⟩ := h.looked hl hevicted hd
  have hlooked := @Shadows.looked _ _ _ _ order request h.shadows
  rw [Watch.keptAsked]
  cases hkept : w.looked k order request with
  | none =>
    rw [hnone hkept, Option.getD_none, refill_now]
    exact .fresh he hl _
  | some kept =>
    rw [hkept] at hlooked
    exact (hsome kept hkept).refill w.limiter.capacity_fits w.limiter.refillMs_pos hlooked.bounded hl

lemma Held.step (h : Held k limiter earliest latest w) (hon : Onward k w request)
    (he : earliest ≤ request.2) (hl : request.2 ≤ latest) (order : List K) :
    Held k limiter earliest latest (w.step k order request) := by
  obtain ⟨hcapacity, hrefill, -⟩ := w.limiter.allow_fields order request.1 request.2
  obtain ⟨bucket, hlookup, hpurse⟩ := @allow_lookup _ _ k w order request
  have hle := ok_le w order request
  have hlooked := @Shadows.looked _ _ _ _ order request h.shadows
  rw [Watch.step]
  simp only
  by_cases hk : request.1 = k
  · have hasked := @Shadows.asked _ _ _ _ order request h.shadows hk hon
    have hcharged := hle.trans hasked.fewer
    rw [if_pos hk] at hlookup
    rw [if_pos hk]
    refine ⟨hcapacity.trans h.capacity, hrefill.trans h.refillMs, ?_, nofun, ?_, ?_⟩
    · rw [hlookup, hcapacity, hrefill]
      have hspent := hasked.spend hle
      rw [← hpurse] at hspent
      refine .held ?_ hspent
      have htokens : bucket.tokens = (w.limiter.asked order request.1 request.2).tokens -
          (w.limiter.allow order request.1 request.2).1.toNat := congrArg Purse.tokens hpurse
      have hbounded : (w.limiter.asked order request.1 request.2).tokens ≤ w.limiter.capacity :=
        hasked.fewer.trans hasked.bounded
      have hpos := w.limiter.capacity_pos
      rw [htokens, allow_ok]
      by_cases hzero : (w.limiter.asked order request.1 request.2).tokens = 0
      · rw [hzero, Nat.zero_sub]
        exact hpos
      · rw [decide_eq_true hzero, Bool.toNat_true]
        omega
    · intro hevicted spent hspent
      obtain ⟨hbefore, hdrops⟩ := Bool.or_eq_false_iff.mp hevicted
      cases hspent
      rw [hcapacity, hrefill]
      exact (h.asked he hl hbefore hdrops).spend hcharged
    · refine Bool.or_eq_false_iff.mpr ⟨h.fair, ?_⟩
      cases hok : (w.limiter.allow order request.1 request.2).1 with
      | false => rfl
      | true =>
        rw [hok] at hcharged
        exact decide_eq_false (Nat.pos_iff_ne_zero.mp hcharged)
  · rw [if_neg hk] at hlookup
    rw [if_neg hk]
    refine ⟨hcapacity.trans h.capacity, hrefill.trans h.refillMs, ?_, ?_, ?_, h.fair⟩
    · rw [hlookup, hcapacity, hrefill]
      exact hlooked
    · intro hevicted
      obtain ⟨hbefore, hdrops⟩ := Bool.or_eq_false_iff.mp hevicted
      exact (h.looked hl hbefore hdrops).1
    · intro hevicted
      obtain ⟨hbefore, hdrops⟩ := Bool.or_eq_false_iff.mp hevicted
      rw [hcapacity, hrefill]
      exact (h.looked hl hbefore hdrops).2

lemma Held.start (hempty : limiter.buckets = ∅) : Held k limiter earliest latest (start limiter) := by
  refine ⟨rfl, rfl, ?_, fun _ _ => rfl, nofun, rfl⟩
  have hnone : limiter.buckets.lookup k = none := by
    rw [hempty]
    rfl
  rw [Watch.start, hnone]
  exact .none

variable (k) in
structure Same (w : Watch K) : Prop where
  bucket : ∀ bucket, w.limiter.buckets.lookup k = some bucket →
    ∃ kept, w.kept = some kept ∧ kept.purse = bucket.purse
  fair : w.worsened = false

lemma InPhase.onward (h : InPhase k w request) : Onward k w request := by
  intro hk hnone bucket hb
  obtain heq | hlater := h hk hnone bucket hb
  · exact heq.le
  · exact (Nat.le_add_right _ _).trans hlater

lemma Same.looked (h : Same k w) {bucket : Bucket}
    (hb : (w.limiter.entered order request.1 request.2).buckets.lookup k = some bucket) :
    ∃ kept, w.looked k order request = some kept ∧ kept.purse = bucket.purse := by
  have hfits := w.limiter.capacity_fits
  rw [lookup_entered] at hb
  rw [Watch.looked]
  split at hb
  · cases hb
  case isFalse hdrops =>
  rw [if_neg hdrops]
  split at hb
  case isTrue hevicts =>
    rw [lookup_retained] at hb
    obtain ⟨hrefilled, -⟩ := Option.filter_eq_some_iff.mp hb
    obtain ⟨old, hold, rfl⟩ := Option.map_eq_some_iff.mp hrefilled
    obtain ⟨kept, hkept, hpurse⟩ := h.bucket old hold
    refine ⟨refill w.limiter.capacity w.limiter.refillMs request.2 kept, ?_, ?_⟩
    · rw [if_pos hevicts, hkept]
      rfl
    · rw [refill_purse hfits, refill_purse hfits, hpurse]
  case isFalse hevicts =>
    rw [if_neg hevicts]
    exact h.bucket bucket hb

lemma Same.asked (h : Same k w) (hk : request.1 = k) (hin : InPhase k w request)
    (hs : Shadows w.limiter.capacity w.limiter.refillMs (w.limiter.buckets.lookup k) w.kept) :
    (w.keptAsked k order request).purse = (w.limiter.asked order request.1 request.2).purse := by
  have hfits := w.limiter.capacity_fits
  have hperiod := w.limiter.refillMs_pos
  rw [RateLimiter.asked, Watch.keptAsked]
  cases hthere : (w.limiter.entered order request.1 request.2).buckets.lookup k with
  | some bucket =>
    obtain ⟨kept, hkept, hpurse⟩ := h.looked hthere
    rw [hkept, hk]
    rw [hk] at hthere
    rw [hthere, Option.getD_some, Option.getD_some, refill_purse hfits, refill_purse hfits, hpurse]
  | none =>
    have hbefore := lookup_none hk hthere
    rw [hk] at hthere ⊢
    rw [hthere, Option.getD_none, refill_now]
    rw [hbefore] at hs
    cases hkept : w.looked k order request with
    | none => rw [Option.getD_none, refill_now]
    | some kept =>
      rw [Option.getD_some, refill_purse hfits]
      have hphase : ∀ old, w.kept = some old → old.purse.tokens = w.limiter.capacity ∧
          (old.purse.since = request.2 ∨ old.purse.since + w.limiter.refillMs ≤ request.2) := by
        intro old hold
        rw [hold] at hs
        cases hs with
        | full full => exact ⟨full, hin hk hbefore old hold⟩
      rw [Watch.looked] at hkept
      split at hkept
      · cases hkept
      split at hkept
      · obtain ⟨old, hold, rfl⟩ := Option.map_eq_some_iff.mp hkept
        obtain ⟨hfull, hsince⟩ := hphase old hold
        rw [refill_purse hfits, Purse.refill_full hperiod hfull hsince]
        exact Purse.refill_full hperiod rfl (.inl rfl)
      · obtain ⟨hfull, hsince⟩ := hphase kept hkept
        exact Purse.refill_full hperiod hfull hsince

lemma Same.step (h : Same k w) (hin : InPhase k w request)
    (hs : Shadows w.limiter.capacity w.limiter.refillMs (w.limiter.buckets.lookup k) w.kept) (order : List K) :
    Same k (w.step k order request) := by
  obtain ⟨bucket, hlookup, hpurse⟩ := @allow_lookup _ _ k w order request
  rw [Watch.step]
  simp only
  by_cases hk : request.1 = k
  · have hasked := @Same.asked _ _ _ _ order _ h hk hin hs
    rw [if_pos hk] at hlookup
    rw [if_pos hk]
    constructor
    · intro there hthere
      cases hlookup.symm.trans hthere
      refine ⟨_, rfl, ?_⟩
      rw [hpurse, ← hasked]
      rfl
    · refine Bool.or_eq_false_iff.mpr ⟨h.fair, ?_⟩
      have htokens : (w.keptAsked k order request).tokens =
          (w.limiter.asked order request.1 request.2).tokens := congrArg Purse.tokens hasked
      rw [allow_ok, htokens]
      exact Bool.not_and_self _
  · rw [if_neg hk] at hlookup
    rw [if_neg hk]
    refine ⟨fun there hthere => ?_, h.fair⟩
    exact h.looked (hlookup.symm.trans hthere)

lemma Steps.small (h : Steps k w request w')
    (hw : w.limiter.buckets.entries.length ≤ w.limiter.maxKeys) :
    w'.limiter.buckets.entries.length ≤ w'.limiter.maxKeys := by
  obtain ⟨order, horder, rfl⟩ := h
  have hlimiter : (w.step k order request).limiter = (w.limiter.allow order request.1 request.2).2 := by
    rw [Watch.step]
    simp only
    split <;> rfl
  rw [hlimiter, (w.limiter.allow_fields order request.1 request.2).2.2]
  exact w.limiter.allow_small request.1 request.2 horder hw

theorem requests_limited (k : K) {capacity refillMs maxKeys : ℕ} (fits : capacity ≤ u32Max)
    (requests : List (K × ℕ)) (w : Watch K) :
    let first := start (RateLimiter.new K capacity refillMs maxKeys fits)
    (Run (Steps k) first requests w → w.limiter.buckets.entries.length ≤ w.limiter.maxKeys) ∧
    (Run (fun w request w' => Onward k w request ∧ Steps k w request w') first requests w →
      w.bettered = false ∧ (w.evicted = false → ∀ earliest latest,
        (∀ request ∈ requests, earliest ≤ request.2 ∧ request.2 ≤ latest) →
          w.allowed ≤ w.limiter.capacity + (latest - earliest) / w.limiter.refillMs + 1)) ∧
    (Run (fun w request w' => InPhase k w request ∧ Steps k w request w') first requests w →
      w.bettered = false ∧ w.worsened = false) := by
  intro first
  have hheld : ∀ {earliest latest}, (∀ request ∈ requests, earliest ≤ request.2 ∧ request.2 ≤ latest) →
      Run (fun w request w' => Onward k w request ∧ Steps k w request w') first requests w →
        Held k first.limiter earliest latest w := by
    intro earliest latest htimes hr
    refine (hr.restrict htimes).invariant (.start rfl) ?_
    rintro t request u ht ⟨⟨he, hl⟩, hon, order, -, rfl⟩
    exact ht.step hon he hl order
  have hspan : ∀ request ∈ requests, 0 ≤ request.2 ∧ request.2 ≤ (requests.map Prod.snd).sum :=
    fun request hm => ⟨Nat.zero_le _, List.single_le_sum (by simp) _ (List.mem_map_of_mem hm)⟩
  refine ⟨fun hr => ?_, fun hr => ⟨(hheld hspan hr).fair, ?_⟩, fun hr => ?_⟩
  · refine hr.invariant (P := fun w => w.limiter.buckets.entries.length ≤ w.limiter.maxKeys)
      (Nat.zero_le _) ?_
    intro t request u ht hu
    exact hu.small ht
  · intro hevicted earliest latest htimes
    have h := hheld htimes hr
    refine Nat.le_succ_of_le ?_
    cases hkept : w.kept with
    | none =>
      rw [h.unasked hevicted hkept]
      exact Nat.zero_le _
    | some bucket => exact (h.credit hevicted bucket hkept).bound w.limiter.refillMs_pos
  · have hboth : Held k first.limiter 0 (requests.map Prod.snd).sum w ∧ Same k w := by
      refine (hr.restrict hspan).invariant
        (P := fun w => Held k first.limiter 0 (requests.map Prod.snd).sum w ∧ Same k w)
        ⟨.start rfl, nofun, rfl⟩ ?_
      rintro t request u ⟨ht, hsame⟩ ⟨⟨he, hl⟩, hin, order, -, rfl⟩
      exact ⟨ht.step hin.onward he hl order, hsame.step hin ht.shadows order⟩
    exact ⟨hboth.1.fair, hboth.2.fair⟩

section Sample

def sampleStart : Watch ℕ := start (.new ℕ 1 10 1 (by decide))

def sampleStep (w : Watch ℕ) (request : ℕ × ℕ) : Option (Watch ℕ) :=
  some (w.step 0 w.limiter.buckets.keys request)

lemma sampleStep_steps {w w' : Watch ℕ} {request : ℕ × ℕ} (h : sampleStep w request = some w') :
    Steps 0 w request w' :=
  ⟨_, .refl _, (Option.some.inj h).symm⟩

theorem requests_limited_onward : ∃ w : Watch ℕ,
    Run (fun w request w' => Onward 0 w request ∧ Steps 0 w request w') sampleStart
      [(0, 0), (1, 10), (0, 10), (0, 20)] w ∧
    w.allowed = 3 ∧ w.allowed ≤ w.limiter.capacity + (20 - 0) / w.limiter.refillMs + 1 := by
  have hrun : ∃ w, Run.exec (fun w request => decide (Onward 0 w request)) sampleStep sampleStart
      [(0, 0), (1, 10), (0, 10), (0, 20)] = some w ∧ w.allowed = 3 ∧ w.evicted = false :=
    ⟨_, rfl, rfl, rfl⟩
  obtain ⟨w, hw, hallowed, hevicted⟩ := hrun
  have h := (Run.of_exec hw).mono fun _ _ _ ha => And.intro (of_decide_eq_true ha.1) (sampleStep_steps ha.2)
  refine ⟨w, h, hallowed, ?_⟩
  exact ((requests_limited 0 (by decide) _ w).2.1 h).2 hevicted 0 20 (by decide)

theorem clock_back_unlimited : ∃ (requests : List (ℕ × ℕ)) (w : Watch ℕ),
    Run (Steps 0) sampleStart requests w ∧ w.evicted = false ∧
    (∀ request ∈ requests, 0 ≤ request.2 ∧ request.2 ≤ 10) ∧ w.bettered = true ∧
    ¬w.allowed ≤ w.limiter.capacity + (10 - 0) / w.limiter.refillMs + 1 := by
  have hrun : (Run.exec (fun _ _ => true) sampleStep sampleStart
      [(0, 0), (1, 10), (0, 0), (1, 10), (0, 0), (1, 10), (0, 0)]).any (fun w => !w.evicted &&
        w.bettered && decide (w.limiter.capacity + (10 - 0) / w.limiter.refillMs + 1 < w.allowed)) =
        true := by
    decide +kernel
  obtain ⟨w, hw, hend⟩ := (Option.any_eq_true _ _).mp hrun
  obtain ⟨hmarks, hover⟩ := Bool.and_eq_true_iff.mp hend
  obtain ⟨hevicted, hbettered⟩ := Bool.and_eq_true_iff.mp hmarks
  exact ⟨_, w, (Run.of_exec hw).mono fun _ _ _ ha => sampleStep_steps ha.2,
    Bool.not_eq_true' _ ▸ hevicted, by decide, hbettered, Nat.not_le.mpr (of_decide_eq_true hover)⟩

end Sample

end Watch

end Sheprd.Auth.Limits
