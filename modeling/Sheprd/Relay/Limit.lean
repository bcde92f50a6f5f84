import Sheprd.Lib.Dict
import Sheprd.Lib.Run

namespace Sheprd.Relay

open Lib

def u32Max : ℕ := 2 ^ 32 - 1

def u64Max : ℕ := 2 ^ 64 - 1

def minuteMs : ℕ := 60000

def checkedMul (a b : ℕ) : Option ℕ := if a * b ≤ u64Max then some (a * b) else none

structure Rate where
  burst : ℕ
  perMinute : ℕ
  burst_fits : burst ≤ u32Max
  perMinute_fits : perMinute ≤ u32Max

structure Bucket where
  milli : ℕ
  updatedMs : ℕ

structure Limiter (K : Type) where
  buckets : Dict K Bucket
  maxKeys : ℕ
  rate : Rate

def refilled (bucket : Bucket) (rate : Rate) (now : ℕ) : Option ℕ := do
  let elapsed := now - bucket.updatedMs
  let scaled ← checkedMul (min (elapsed * rate.perMinute) u64Max) 1000
  let full ← checkedMul rate.burst 1000
  return min (min (bucket.milli + scaled / minuteMs) u64Max) full

namespace Limiter

variable {K : Type}

def bounded (rate : Rate) (maxKeys : ℕ) : Limiter K := ⟨∅, maxKeys, rate⟩

def unfilled (now full : ℕ) (l : Limiter K) : Option (Dict K Bucket) :=
  if l.buckets.entries.all fun e => (refilled e.2 l.rate now).isSome then
    some (Dict.filter (fun _ bucket => (refilled bucket l.rate now).any (· < full)) l.buckets)
  else none

variable [DecidableEq K]

def spend (key : K) (now full : ℕ) (l : Limiter K) : Option (Bool × Limiter K) := do
  let milli ← refilled ((l.buckets.lookup key).getD ⟨full, now⟩) l.rate now
  if milli < 1000 then
    return (false, { l with buckets := l.buckets.insert key ⟨milli, now⟩ })
  else
    return (true, { l with buckets := l.buckets.insert key ⟨milli - 1000, now⟩ })

def crowded (key : K) (l : Limiter K) : Bool :=
  decide (l.maxKeys ≤ l.buckets.entries.length) && decide (key ∉ l.buckets)

def allow (key : K) (now : ℕ) (l : Limiter K) : Option (Bool × Limiter K) := do
  let full ← checkedMul l.rate.burst 1000
  if l.crowded key then
    let buckets ← l.unfilled now full
    if l.maxKeys ≤ buckets.entries.length then return (false, { l with buckets })
    else spend key now full { l with buckets }
  else spend key now full l

end Limiter

end Sheprd.Relay

namespace Sheprd.Relay

open Lib

section Refilled

variable {rate : Rate} {bucket : Bucket} {now milli : ℕ}

def Rate.full (rate : Rate) : ℕ := rate.burst * 1000

def Rate.gained (rate : Rate) (elapsed : ℕ) : ℕ := elapsed * rate.perMinute * 1000 / minuteMs

def Overlong (rate : Rate) (bucket : Bucket) (now : ℕ) : Prop :=
  u64Max < (now - bucket.updatedMs) * rate.perMinute * 1000

lemma Rate.full_fits (rate : Rate) : rate.full ≤ u64Max := by
  have hb := rate.burst_fits
  have hmax : u32Max * 1000 ≤ u64Max := by decide
  exact (Nat.mul_le_mul_right 1000 hb).trans hmax

lemma checked_full (rate : Rate) : checkedMul rate.burst 1000 = some rate.full := if_pos rate.full_fits

lemma refilled_short (h : ¬Overlong rate bucket now) : refilled bucket rate now =
    some (min (bucket.milli + rate.gained (now - bucket.updatedMs)) rate.full) := by
  have hshort := Nat.not_lt.mp h
  have hscaled : min ((now - bucket.updatedMs) * rate.perMinute) u64Max =
      (now - bucket.updatedMs) * rate.perMinute := by omega
  have hfull := rate.full_fits
  rw [refilled, hscaled, checkedMul, if_pos hshort, checked_full]
  change some _ = some _
  rw [Rate.gained]
  congr 1
  omega

lemma refilled_long (h : Overlong rate bucket now) : refilled bucket rate now = none := by
  have hlong : ¬min ((now - bucket.updatedMs) * rate.perMinute) u64Max * 1000 ≤ u64Max := by
    rw [Overlong] at h
    have hmax : u64Max = 2 ^ 64 - 1 := rfl
    omega
  rw [refilled, checkedMul, if_neg hlong]
  rfl

lemma refilled_eq_some : refilled bucket rate now = some milli ↔
    ¬Overlong rate bucket now ∧ min (bucket.milli + rate.gained (now - bucket.updatedMs)) rate.full = milli := by
  by_cases h : Overlong rate bucket now
  · rw [refilled_long h]
    exact iff_of_false nofun fun hm => hm.1 h
  · rw [refilled_short h, Option.some.injEq]
    exact (and_iff_right h).symm

lemma refilled_eq_none : refilled bucket rate now = none ↔ Overlong rate bucket now := by
  by_cases h : Overlong rate bucket now
  · exact iff_of_true (refilled_long h) h
  · rw [refilled_short h]
    exact iff_of_false nofun h

lemma gained_zero (rate : Rate) : rate.gained 0 = 0 := by
  simp [Rate.gained]

lemma gained_add_le (rate : Rate) (a b : ℕ) : rate.gained a + rate.gained b ≤ rate.gained (a + b) := by
  rw [Rate.gained, Rate.gained, Rate.gained, Nat.add_mul, Nat.add_mul]
  exact Nat.div_add_div_le_add_div

lemma gained_mono (rate : Rate) {a b : ℕ} (h : a ≤ b) : rate.gained a ≤ rate.gained b :=
  Nat.div_le_div_right (Nat.mul_le_mul_right _ (Nat.mul_le_mul_right _ h))

lemma refilled_fresh (rate : Rate) (now : ℕ) : refilled ⟨rate.full, now⟩ rate now = some rate.full := by
  have hshort : ¬Overlong rate ⟨rate.full, now⟩ now := by
    rw [Overlong, Nat.sub_self, Nat.zero_mul, Nat.zero_mul]
    exact Nat.not_lt_zero _
  rw [refilled_short hshort]
  simp only [Nat.sub_self, gained_zero, Nat.add_zero, min_self]

end Refilled

namespace Limiter

variable {K : Type} [DecidableEq K] {l l' : Limiter K} {key k : K} {now : ℕ} {ok : Bool}

def Looks (key : K) (l : Limiter K) (other : K) : Prop := other = key ∨ l.crowded key = true

def TooLate (key : K) (now : ℕ) (l : Limiter K) : Prop :=
  ∃ other bucket, l.buckets.lookup other = some bucket ∧ l.Looks key other ∧ Overlong l.rate bucket now

lemma spend_eq (l : Limiter K) (key : K) (now : ℕ) : l.spend key now l.rate.full =
    (refilled ((l.buckets.lookup key).getD ⟨l.rate.full, now⟩) l.rate now).map fun milli =>
      (decide (1000 ≤ milli), { l with
        buckets := l.buckets.insert key ⟨milli - if 1000 ≤ milli then 1000 else 0, now⟩ }) := by
  rw [spend]
  cases refilled ((l.buckets.lookup key).getD ⟨l.rate.full, now⟩) l.rate now with
  | none => rfl
  | some milli =>
    change (if milli < 1000 then some _ else some _) = some _
    obtain hlow | hhigh := Nat.lt_or_ge milli 1000
    · have hnot := Nat.not_le.mpr hlow
      rw [if_pos hlow]
      simp only [decide_eq_false hnot, if_neg hnot, Nat.sub_zero]
    · have hle : 1000 ≤ milli := hhigh
      rw [if_neg (Nat.not_lt.mpr hhigh)]
      simp only [decide_eq_true hle, if_pos hle]

lemma unfilled_eq_none : l.unfilled now l.rate.full = none ↔
    ∃ other bucket, l.buckets.lookup other = some bucket ∧ Overlong l.rate bucket now := by
  rw [unfilled]
  split
  case isTrue hall =>
    refine iff_of_false nofun ?_
    rintro ⟨other, bucket, hl, hlong⟩
    have hsome := List.all_eq_true.mp hall ⟨other, bucket⟩ (AList.mem_lookup_iff.mp hl)
    rw [refilled_long hlong] at hsome
    cases hsome
  case isFalse hsome =>
    refine iff_of_true rfl ?_
    simp only [List.all_eq_true, not_forall] at hsome
    obtain ⟨⟨other, bucket⟩, hm, hnone⟩ := hsome
    exact ⟨other, bucket, AList.mem_lookup_iff.mpr hm,
      refilled_eq_none.mp (Option.not_isSome_iff_eq_none.mp hnone)⟩

lemma lookup_unfilled {buckets : Dict K Bucket} (h : l.unfilled now l.rate.full = some buckets) (k : K) :
    buckets.lookup k = (l.buckets.lookup k).filter fun bucket =>
      decide (bucket.milli + l.rate.gained (now - bucket.updatedMs) < l.rate.full) := by
  have hshort : ∀ bucket, l.buckets.lookup k = some bucket → ¬Overlong l.rate bucket now := by
    intro bucket hl hlong
    rw [unfilled_eq_none.mpr ⟨k, bucket, hl, hlong⟩] at h
    cases h
  rw [unfilled] at h
  split at h
  case isFalse => cases h
  cases h
  have hkeeps : ∀ bucket, l.buckets.lookup k = some bucket →
      ((refilled bucket l.rate now).any fun milli => decide (milli < l.rate.full)) =
        decide (bucket.milli + l.rate.gained (now - bucket.updatedMs) < l.rate.full) := by
    intro bucket hl
    rw [refilled_short (hshort bucket hl), Option.any_some, decide_eq_decide]
    omega
  apply Option.ext
  intro bucket
  rw [Option.filter_eq_some_iff]
  constructor
  · intro hl
    obtain ⟨hbefore, hkept⟩ := Dict.of_lookup_filter hl
    exact ⟨hbefore, (hkeeps bucket hbefore).symm.trans hkept⟩
  · rintro ⟨hbefore, hkept⟩
    exact Dict.lookup_filter hbefore ((hkeeps bucket hbefore).trans hkept)

lemma allow_eq (l : Limiter K) (key : K) (now : ℕ) : l.allow key now =
    if l.crowded key then
      (l.unfilled now l.rate.full).bind fun buckets =>
        if l.maxKeys ≤ buckets.entries.length then some (false, { l with buckets })
        else spend key now l.rate.full { l with buckets }
    else l.spend key now l.rate.full := by
  rw [allow, checked_full]
  rfl

lemma not_crowded_of_mem (h : l.crowded key = true) : l.buckets.lookup key = none := by
  have hm := of_decide_eq_true (Bool.and_eq_true_iff.mp h).2
  exact AList.lookup_eq_none.mpr hm

lemma allow_eq_none : l.allow key now = none ↔ l.TooLate key now := by
  rw [allow_eq]
  split
  case isTrue hcrowded =>
    have hnew := not_crowded_of_mem hcrowded
    rw [Option.bind_eq_none_iff]
    constructor
    · intro h
      cases hu : l.unfilled now l.rate.full with
      | none =>
        obtain ⟨other, bucket, hl, hlong⟩ := unfilled_eq_none.mp hu
        exact ⟨other, bucket, hl, .inr hcrowded, hlong⟩
      | some buckets =>
        have hnone := h buckets hu
        split at hnone
        · cases hnone
        · have hfresh : buckets.lookup key = none := by
            rw [lookup_unfilled hu, hnew]
            rfl
          rw [spend_eq { l with buckets } key now] at hnone
          simp only [hfresh, Option.getD_none, refilled_fresh] at hnone
          cases hnone
    · rintro ⟨other, bucket, hl, -, hlong⟩ buckets hu
      rw [unfilled_eq_none.mpr ⟨other, bucket, hl, hlong⟩] at hu
      cases hu
  case isFalse hroom =>
    rw [spend_eq, Option.map_eq_none_iff]
    constructor
    · intro h
      cases hl : l.buckets.lookup key with
      | none =>
        rw [hl, Option.getD_none, refilled_fresh] at h
        cases h
      | some bucket =>
        rw [hl] at h
        exact ⟨key, bucket, hl, .inl rfl, refilled_eq_none.mp h⟩
    · rintro ⟨other, bucket, hl, rfl | hcrowded, hlong⟩
      · rw [hl]
        exact refilled_long hlong
      · exact absurd hcrowded hroom

def found (key : K) (now : ℕ) (l : Limiter K) : Option (Dict K Bucket) :=
  if l.crowded key then l.unfilled now l.rate.full else some l.buckets

inductive Allowed (key : K) (now : ℕ) (l : Limiter K) : Bool → Limiter K → Prop where
  | refused {buckets : Dict K Bucket} (found : l.found key now = some buckets)
      (crowded : l.crowded key = true) (full : l.maxKeys ≤ buckets.entries.length) :
      Allowed key now l false { l with buckets }
  | charged {buckets : Dict K Bucket} {milli : ℕ} (found : l.found key now = some buckets)
      (room : l.crowded key = true → buckets.entries.length < l.maxKeys)
      (level : refilled ((buckets.lookup key).getD ⟨l.rate.full, now⟩) l.rate now = some milli) :
      Allowed key now l (decide (1000 ≤ milli)) { l with
        buckets := buckets.insert key ⟨milli - if 1000 ≤ milli then 1000 else 0, now⟩ }

lemma Allowed.of_allow (h : l.allow key now = some (ok, l')) : Allowed key now l ok l' := by
  rw [allow_eq] at h
  split at h
  case isTrue hcrowded =>
    obtain ⟨buckets, hu, h⟩ := Option.bind_eq_some_iff.mp h
    have hfound : l.found key now = some buckets := (if_pos hcrowded).trans hu
    split at h
    case isTrue hfull =>
      cases h
      exact .refused hfound hcrowded hfull
    case isFalse hroom =>
      rw [spend_eq { l with buckets } key now] at h
      obtain ⟨milli, hlevel, hm⟩ := Option.map_eq_some_iff.mp h
      cases hm
      exact .charged hfound (fun _ => Nat.not_le.mp hroom) hlevel
  case isFalse hroom =>
    rw [spend_eq] at h
    obtain ⟨milli, hlevel, hm⟩ := Option.map_eq_some_iff.mp h
    cases hm
    exact .charged (if_neg hroom) (fun hcrowded => absurd hcrowded hroom) hlevel

lemma found_sublist {buckets : Dict K Bucket} (h : l.found key now = some buckets) :
    buckets.entries.length ≤ l.buckets.entries.length := by
  rw [found] at h
  split at h
  · rw [unfilled] at h
    split at h
    · cases h
      exact List.length_filter_le _ _
    · cases h
  · cases h
    exact le_rfl

lemma Allowed.fields (h : Allowed key now l ok l') : l'.rate = l.rate ∧ l'.maxKeys = l.maxKeys := by
  cases h <;> exact ⟨rfl, rfl⟩

lemma Allowed.small (h : Allowed key now l ok l') (hl : l.buckets.entries.length ≤ l.maxKeys) :
    l'.buckets.entries.length ≤ l'.maxKeys := by
  cases h with
  | refused found crowded full => exact (found_sublist found).trans hl
  | @charged buckets milli found room level =>
    refine (Dict.length_insert_le _ _ _).trans ?_
    have hsub := found_sublist found
    dsimp only
    split
    · exact hsub.trans hl
    case isFalse hnew =>
      cases hcrowded : l.crowded key with
      | true => exact room hcrowded
      | false =>
        rw [Limiter.found, hcrowded] at found
        cases found
        rw [crowded, decide_eq_true hnew, Bool.and_true] at hcrowded
        exact Nat.not_le.mp (of_decide_eq_false hcrowded)

end Limiter

structure Watch (K : Type) where
  limiter : Limiter K
  seen : Option ℕ
  allowed : ℕ

namespace Watch

variable {K : Type} [DecidableEq K]

def start (limiter : Limiter K) : Watch K := ⟨limiter, none, 0⟩

def forgets (k : K) (w : Watch K) (request : K × ℕ) : Bool :=
  decide (k ∈ w.limiter.buckets) &&
    (w.limiter.found request.1 request.2).any fun buckets => decide (k ∉ buckets)

def looked (k : K) (w : Watch K) (request : K × ℕ) : Option ℕ :=
  if w.forgets k request then w.seen.map (max request.2) else w.seen

def step (k : K) (w : Watch K) (request : K × ℕ) : Option (Watch K) :=
  (w.limiter.allow request.1 request.2).map fun (ok, limiter) =>
    if request.1 = k then
      ⟨limiter, if k ∈ limiter.buckets then some request.2 else w.looked k request, w.allowed + ok.toNat⟩
    else ⟨limiter, w.looked k request, w.allowed⟩

def Onward (k : K) (w : Watch K) (request : K × ℕ) : Prop :=
  request.1 = k → ∀ last ∈ w.seen, last ≤ request.2

structure Owed (rate : Rate) (earliest latest allowed : ℕ) (bucket : Option Bucket) (seen : Option ℕ) :
    Prop where
  asked : ∀ there, bucket = some there → seen = some there.updatedMs
  unasked : seen = none → allowed = 0
  credit : ∀ last ∈ seen, earliest ≤ last ∧ last ≤ latest ∧
    allowed * 1000 + bucket.elim rate.full Bucket.milli ≤ rate.full + rate.gained (last - earliest)

structure Held (k : K) (limiter : Limiter K) (earliest latest : ℕ) (w : Watch K) : Prop where
  rate : w.limiter.rate = limiter.rate
  owed : Owed w.limiter.rate earliest latest w.allowed (w.limiter.buckets.lookup k) w.seen

variable {k : K} {w w' : Watch K} {request : K × ℕ} {earliest latest : ℕ} {buckets : Dict K Bucket}

lemma Owed.looked (h : Owed w.limiter.rate earliest latest w.allowed (w.limiter.buckets.lookup k) w.seen)
    (he : earliest ≤ request.2) (hl : request.2 ≤ latest)
    (hf : w.limiter.found request.1 request.2 = some buckets) :
    Owed w.limiter.rate earliest latest w.allowed (buckets.lookup k) (w.looked k request) := by
  have hmem : ∀ d : Dict K Bucket, k ∈ d ↔ d.lookup k ≠ none := fun d => by
    rw [← AList.lookup_isSome, Option.isSome_iff_ne_none]
  have hforgets : w.forgets k request =
      (decide (w.limiter.buckets.lookup k ≠ none) && decide (buckets.lookup k = none)) := by
    rw [forgets, hf, Option.any_some, Bool.eq_iff_iff]
    simp only [Bool.and_eq_true, decide_eq_true_eq, hmem, not_not]
  rw [Watch.looked, hforgets]
  rw [Limiter.found] at hf
  split at hf
  case isFalse =>
    cases hf
    generalize w.limiter.buckets.lookup k = there at h ⊢
    cases there with
    | none => exact h
    | some bucket => exact h
  case isTrue =>
    rw [Limiter.lookup_unfilled hf k]
    generalize w.limiter.buckets.lookup k = there at h ⊢
    cases there with
    | none => exact h
    | some bucket =>
      rw [Option.filter_some]
      split
      case isTrue => exact h
      case isFalse hfull =>
        have hfull := Nat.not_lt.mp fun hlt => hfull (decide_eq_true hlt)
        have hseen := h.asked bucket rfl
        obtain ⟨hearly, hlate, hcredit⟩ := h.credit bucket.updatedMs hseen
        refine ⟨nofun, ?_, ?_⟩
        · rw [hseen]
          exact nofun
        · rw [hseen]
          intro last hlast
          cases hlast
          refine ⟨he.trans (Nat.le_max_left _ _), Nat.max_le.mpr ⟨hl, hlate⟩, ?_⟩
          have hsum := gained_add_le w.limiter.rate (bucket.updatedMs - earliest)
            (request.2 - bucket.updatedMs)
          have hspan : bucket.updatedMs - earliest + (request.2 - bucket.updatedMs) =
              max request.2 bucket.updatedMs - earliest := by omega
          rw [hspan] at hsum
          simp only [Option.elim_some, Option.elim_none] at hcredit ⊢
          omega

lemma looked_le (hon : Onward k w request) (hk : request.1 = k) :
    ∀ last ∈ w.looked k request, last ≤ request.2 := by
  intro last hm
  rw [Watch.looked] at hm
  split at hm
  · obtain ⟨before, hbefore, rfl⟩ := Option.map_eq_some_iff.mp hm
    exact Nat.max_le.mpr ⟨le_rfl, hon hk before hbefore⟩
  · exact hon hk last hm

lemma Owed.charge {rate : Rate} {allowed now milli : ℕ} {bucket : Option Bucket} {seen : Option ℕ}
    (h : Owed rate earliest latest allowed bucket seen) (hon : ∀ last ∈ seen, last ≤ now)
    (he : earliest ≤ now) (hl : now ≤ latest)
    (hlevel : refilled (bucket.getD ⟨rate.full, now⟩) rate now = some milli) :
    Owed rate earliest latest (allowed + (decide (1000 ≤ milli)).toNat)
      (some ⟨milli - if 1000 ≤ milli then 1000 else 0, now⟩) (some now) := by
  have hpaid : allowed * 1000 + milli ≤ rate.full + rate.gained (now - earliest) := by
    cases bucket with
    | none =>
      rw [Option.getD_none, refilled_fresh] at hlevel
      cases hlevel
      cases seen with
      | none =>
        rw [h.unasked rfl]
        omega
      | some last =>
        obtain ⟨hearly, -, hcredit⟩ := h.credit last rfl
        have hle := hon last rfl
        have hmono := @gained_mono rate (last - earliest) (now - earliest) (by omega)
        rw [Option.elim_none] at hcredit
        omega
    | some there =>
      obtain ⟨-, hmilli⟩ := refilled_eq_some.mp hlevel
      rw [Option.getD_some] at hmilli
      have hseen := h.asked there rfl
      obtain ⟨hearly, -, hcredit⟩ := h.credit there.updatedMs hseen
      have hle := hon there.updatedMs hseen
      have hsum := gained_add_le rate (there.updatedMs - earliest) (now - there.updatedMs)
      have hspan : there.updatedMs - earliest + (now - there.updatedMs) = now - earliest := by omega
      rw [hspan] at hsum
      rw [Option.elim_some] at hcredit
      omega
  refine ⟨?_, nofun, ?_⟩
  · intro there hthere
    cases hthere
    rfl
  · intro last hlast
    cases hlast
    refine ⟨he, hl, ?_⟩
    have hspent : (decide (1000 ≤ milli)).toNat * 1000 + (milli - if 1000 ≤ milli then 1000 else 0) = milli := by
      by_cases hhigh : 1000 ≤ milli
      · rw [decide_eq_true hhigh, if_pos hhigh, Bool.toNat_true, Nat.one_mul, Nat.add_sub_cancel' hhigh]
      · rw [decide_eq_false hhigh, if_neg hhigh, Bool.toNat_false, Nat.zero_mul, Nat.zero_add, Nat.sub_zero]
    rw [Option.elim_some, Nat.add_mul, Nat.add_assoc]
    exact (congrArg (allowed * 1000 + ·) hspent).trans_le hpaid

lemma Held.step {limiter : Limiter K} (h : Held k limiter earliest latest w) (hon : Onward k w request)
    (he : earliest ≤ request.2) (hl : request.2 ≤ latest) (hs : w.step k request = some w') :
    Held k limiter earliest latest w' := by
  rw [Watch.step] at hs
  obtain ⟨⟨ok, l'⟩, hallow, hw⟩ := Option.map_eq_some_iff.mp hs
  have hallowed := Limiter.Allowed.of_allow hallow
  have hrate := hallowed.fields.1
  cases hallowed with
  | @refused buckets found crowded full =>
    have hlooked := h.owed.looked he hl found
    simp only at hw
    split at hw
    case isTrue hk =>
      have hnone : k ∉ buckets := by
        rw [Limiter.found, crowded, if_pos rfl] at found
        rw [← AList.lookup_eq_none, ← hk, Limiter.lookup_unfilled found, Limiter.not_crowded_of_mem crowded]
        rfl
      rw [if_neg hnone] at hw
      cases hw
      exact ⟨h.rate, hlooked⟩
    case isFalse hk =>
      cases hw
      exact ⟨h.rate, hlooked⟩
  | @charged buckets milli found room level =>
    have hlooked := h.owed.looked he hl found
    simp only at hw
    split at hw
    case isTrue hk =>
      rw [if_pos ((AList.mem_insert _).mpr (.inl hk.symm))] at hw
      cases hw
      rw [hk] at level
      have hcharged := hlooked.charge (looked_le hon hk) he hl level
      refine ⟨h.rate, ?_⟩
      rw [← hk, AList.lookup_insert]
      exact hcharged
    case isFalse hk =>
      cases hw
      refine ⟨h.rate, ?_⟩
      rw [AList.lookup_insert_ne (Ne.symm hk)]
      exact hlooked

lemma Held.bound {limiter : Limiter K} (h : Held k limiter earliest latest w) :
    w.allowed ≤ limiter.rate.burst + limiter.rate.perMinute * (latest - earliest) / minuteMs := by
  have howed := h.rate ▸ h.owed
  cases hseen : w.seen with
  | none =>
    rw [howed.unasked hseen]
    exact Nat.zero_le _
  | some last =>
    obtain ⟨-, hlate, hcredit⟩ := howed.credit last hseen
    have hmono := @gained_mono limiter.rate (last - earliest) (latest - earliest) (by omega)
    have hthousand : limiter.rate.gained (latest - earliest) / 1000 =
        limiter.rate.perMinute * (latest - earliest) / minuteMs := by
      rw [Rate.gained, Nat.div_div_eq_div_mul, Nat.mul_div_mul_right _ _ (by decide : 0 < 1000),
        Nat.mul_comm]
    rw [Rate.full] at hcredit
    rw [← hthousand]
    omega

theorem requests_bounded (k : K) (rate : Rate) (maxKeys : ℕ) (requests : List (K × ℕ)) (w : Watch K) :
    let first := start (Limiter.bounded rate maxKeys)
    (Run (fun w request w' => w.step k request = some w') first requests w →
      w.limiter.buckets.entries.length ≤ w.limiter.maxKeys ∧
        ∀ key now, w.limiter.allow key now = none ↔ w.limiter.TooLate key now) ∧
    (Run (fun w request w' => Onward k w request ∧ w.step k request = some w') first requests w →
      ∀ earliest latest, (∀ request ∈ requests, earliest ≤ request.2 ∧ request.2 ≤ latest) →
        w.allowed ≤ rate.burst + rate.perMinute * (latest - earliest) / minuteMs) := by
  intro first
  refine ⟨fun hr => ⟨?_, fun key now => Limiter.allow_eq_none⟩, fun hr earliest latest htimes => ?_⟩
  · refine hr.invariant (P := fun w => w.limiter.buckets.entries.length ≤ w.limiter.maxKeys)
      (Nat.zero_le _) ?_
    intro t request u ht hu
    obtain ⟨⟨ok, l'⟩, hallow, rfl⟩ := Option.map_eq_some_iff.mp hu
    have hsmall := (Limiter.Allowed.of_allow hallow).small ht
    dsimp only
    split <;> exact hsmall
  · have hheld : Held k first.limiter earliest latest w := by
      refine (hr.restrict htimes).invariant ⟨rfl, nofun, fun _ => rfl, nofun⟩ ?_
      intro t request u ht hu
      exact ht.step hu.2.1 hu.1.1 hu.1.2 hu.2.2
    exact hheld.bound

section Sample

def sampleRate : Rate := ⟨1, 60, by decide, by decide⟩

instance (k : K) (w : Watch K) (request : K × ℕ) : Decidable (Onward k w request) :=
  inferInstanceAs (Decidable (_ → ∀ last ∈ w.seen, last ≤ request.2))

theorem requests_bounded_onward : ∃ w : Watch ℕ,
    Run (fun w request w' => Onward 0 w request ∧ w.step 0 request = some w')
      (start (Limiter.bounded sampleRate 1)) [(0, 0), (0, 500), (1, 700), (0, 1000)] w ∧
    w.allowed = 2 ∧ w.allowed ≤ sampleRate.burst + sampleRate.perMinute * (1000 - 0) / minuteMs := by
  have hrun : (Run.exec (fun w request => decide (Onward 0 w request)) (fun w request => w.step 0 request)
      (start (Limiter.bounded sampleRate 1)) [(0, 0), (0, 500), (1, 700), (0, 1000)]).any
      (fun w => decide (w.allowed = 2)) = true := by
    decide +kernel
  obtain ⟨w, hw, hallowed⟩ := (Option.any_eq_true _ _).mp hrun
  have h := (Run.of_exec hw).mono fun _ _ _ ha => And.intro (of_decide_eq_true ha.1) ha.2
  exact ⟨w, h, of_decide_eq_true hallowed,
    (requests_bounded 0 sampleRate 1 _ w).2 h 0 1000 (by decide)⟩

theorem clock_swings_unbounded : ∃ (requests : List (ℕ × ℕ)) (w : Watch ℕ),
    Run (fun w request w' => w.step 0 request = some w') (start (Limiter.bounded sampleRate 1)) requests w ∧
    (∀ request ∈ requests, 0 ≤ request.2 ∧ request.2 ≤ 1000) ∧
    ¬w.allowed ≤ sampleRate.burst + sampleRate.perMinute * (1000 - 0) / minuteMs ∧
    w.limiter.allow 0 u64Max = none := by
  have hrun : (Run.exec (fun _ _ => true) (fun w request => w.step 0 request)
      (start (Limiter.bounded sampleRate 1)) [(0, 0), (0, 1000), (0, 0), (0, 1000)]).any
      (fun w => decide (sampleRate.burst + sampleRate.perMinute * (1000 - 0) / minuteMs < w.allowed) &&
        (w.limiter.allow 0 u64Max).isNone) = true := by
    decide +kernel
  obtain ⟨w, hw, hend⟩ := (Option.any_eq_true _ _).mp hrun
  obtain ⟨hover, hnone⟩ := Bool.and_eq_true_iff.mp hend
  exact ⟨_, w, (Run.of_exec hw).mono fun _ _ _ ha => ha.2, by decide,
    Nat.not_le.mpr (of_decide_eq_true hover), Option.isNone_iff_eq_none.mp hnone⟩

end Sample

end Watch

end Sheprd.Relay
