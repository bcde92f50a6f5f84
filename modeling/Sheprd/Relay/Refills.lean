import Sheprd.Relay.Limit

namespace Sheprd.Relay

open Lib

namespace Limiter

variable {K : Type} [DecidableEq K] {key : K} {rate : Rate} {l l' : Limiter K} {bucket : Bucket}
  {now milli : ℕ} {ok : Bool}

def Serves (key : K) (l : Limiter K) (served : ℕ × Bool) (l' : Limiter K) : Prop :=
  l.allow key served.1 = some (served.2, l')

def wait (rate : Rate) : ℕ := (minuteMs + rate.perMinute - 1) / rate.perMinute

def pace (rate : Rate) : ℕ := rate.perMinute / 60

def Recovers (key : K) (rate : Rate) (maxKeys : ℕ) : Prop :=
  ∀ (before polls : List (ℕ × Bool)) (last next : ℕ) (ok : Bool) (l : Limiter K),
    Run (Serves key) (bounded rate maxKeys) (before ++ (last, true) :: (polls ++ [(next, ok)])) l →
    ((before ++ (last, true) :: (polls ++ [(next, ok)])).map Prod.fst).Pairwise (· ≤ ·) →
    (∀ poll ∈ polls, poll.2 = false) → last + wait rate ≤ next → ok = true

def Composes (rate : Rate) : Prop :=
  ∀ (bucket : Bucket) (now later half whole once : ℕ), bucket.milli ≤ rate.full →
    bucket.updatedMs ≤ now → now ≤ later → refilled bucket rate now = some half →
    refilled ⟨half, now⟩ rate later = some whole → refilled bucket rate later = some once → whole = once

lemma gained_eq (rate : Rate) (elapsed : ℕ) : rate.gained elapsed = elapsed * rate.perMinute / 60 := by
  rw [Rate.gained]
  exact Nat.mul_div_mul_right _ 60 (by decide : 0 < 1000)

lemma pace_le (rate : Rate) (elapsed : ℕ) : elapsed * pace rate ≤ rate.gained elapsed := by
  rw [gained_eq, pace]
  exact Nat.mul_div_le_mul_div_assoc _ _ _

lemma gained_one (rate : Rate) : rate.gained 1 = pace rate := by
  rw [gained_eq, Nat.one_mul, pace]

lemma short_of_le {elapsed : ℕ} (h : elapsed ≤ 60) (hnow : now ≤ bucket.updatedMs + elapsed) :
    ¬Overlong rate bucket now := by
  have hfits := rate.perMinute_fits
  have hmax : 60 * u32Max * 1000 ≤ u64Max := by decide
  have hle : (now - bucket.updatedMs) * rate.perMinute ≤ 60 * u32Max := Nat.mul_le_mul (by omega) hfits
  exact Nat.not_lt.mpr ((Nat.mul_le_mul_right 1000 hle).trans hmax)

lemma known_not_crowded (h : l.buckets.lookup key = some bucket) : l.crowded key = false := by
  have hm : key ∈ l.buckets := AList.lookup_isSome.mp (Option.isSome_of_mem h)
  rw [crowded, decide_eq_false (not_not_intro hm), Bool.and_false]

lemma allow_known (h : l.buckets.lookup key = some bucket) : l.allow key now =
    (refilled bucket l.rate now).map fun milli => (decide (1000 ≤ milli), { l with
      buckets := l.buckets.insert key ⟨milli - if 1000 ≤ milli then 1000 else 0, now⟩ }) := by
  rw [allow_eq, known_not_crowded h, if_neg Bool.false_ne_true, spend_eq, h]
  rfl

lemma Serves.same_rate (h : Serves key l (now, ok) l') : l'.rate = l.rate := (Allowed.of_allow h).fields.1

lemma Serves.through (h : Serves key l (now, true) l') : ∃ left, l'.buckets.lookup key = some ⟨left, now⟩ ∧
    1000 ≤ l.rate.full := by
  have hallowed := Allowed.of_allow h
  generalize hok : true = ok at hallowed
  cases hallowed with
  | refused found crowded full => cases hok
  | charged found room level =>
    have hmilli := of_decide_eq_true hok.symm
    refine ⟨_, AList.lookup_insert _, hmilli.trans ?_⟩
    rw [← (refilled_eq_some.mp level).2]
    exact Nat.min_le_right _ _

lemma Serves.refused (h : Serves key l (now, false) l') (hb : l.buckets.lookup key = some bucket)
    (hfull : 1000 ≤ l.rate.full) : l'.buckets.lookup key =
      some ⟨bucket.milli + l.rate.gained (now - bucket.updatedMs), now⟩ ∧
        bucket.milli + l.rate.gained (now - bucket.updatedMs) < 1000 := by
  have hallow : l.allow key now = some (false, l') := h
  rw [allow_known hb] at hallow
  obtain ⟨milli, hlevel, hm⟩ := Option.map_eq_some_iff.mp hallow
  obtain ⟨hlow, rfl⟩ := Prod.mk.inj hm
  have hlow := of_decide_eq_false hlow
  have hmilli := (refilled_eq_some.mp hlevel).2
  have hall : milli = bucket.milli + l.rate.gained (now - bucket.updatedMs) := by omega
  rw [AList.lookup_insert, if_neg hlow, Nat.sub_zero, ← hall]
  exact ⟨rfl, Nat.not_le.mp hlow⟩

lemma polled {polls : List (ℕ × Bool)} {last left : ℕ} (hr : Run (Serves key) l polls l')
    (hb : l.buckets.lookup key = some ⟨left, last⟩) (hfull : 1000 ≤ l.rate.full)
    (hsorted : (last :: polls.map Prod.fst).Pairwise (· ≤ ·)) (hrefused : ∀ poll ∈ polls, poll.2 = false) :
    l'.rate = l.rate ∧ ∃ there, l'.buckets.lookup key = some there ∧
      there.updatedMs ∈ last :: polls.map Prod.fst ∧ (there.updatedMs - last) * pace l.rate ≤ there.milli := by
  induction hr with
  | nil =>
    refine ⟨rfl, ⟨left, last⟩, hb, List.mem_cons_self, ?_⟩
    rw [Nat.sub_self, Nat.zero_mul]
    exact Nat.zero_le _
  | @snoc acts t u poll hr hs ih =>
    rw [List.map_append, ← List.cons_append] at hsorted
    obtain ⟨hbefore, -, hlater⟩ := List.pairwise_append.mp hsorted
    obtain ⟨hrate, there, hthere, hm, hpaced⟩ :=
      ih hbefore fun poll hm => hrefused poll (List.mem_append_left _ hm)
    obtain ⟨now, ok⟩ := poll
    obtain rfl : ok = false := hrefused (now, ok) (List.mem_append_right _ List.mem_cons_self)
    have hle : there.updatedMs ≤ now := hlater _ hm now List.mem_cons_self
    have hfirst : last ≤ there.updatedMs := by
      obtain heq | hm := List.mem_cons.mp hm
      · exact heq.ge
      · exact (List.pairwise_cons.mp hbefore).1 _ hm
    refine ⟨hs.same_rate.trans hrate, _, (hs.refused hthere (hrate ▸ hfull)).1, ?_, ?_⟩
    · rw [List.map_append]
      exact List.mem_cons_of_mem _ (List.mem_append_right _ List.mem_cons_self)
    · have hgained := pace_le t.rate (now - there.updatedMs)
      rw [hrate] at hgained ⊢
      have hspan : (now - last) * pace l.rate =
          (there.updatedMs - last) * pace l.rate + (now - there.updatedMs) * pace l.rate := by
        rw [← Nat.add_mul]
        congr 1
        omega
      dsimp only
      omega

lemma recovers_of_pace (key : K) (rate : Rate) (maxKeys : ℕ) (h : 1000 ≤ wait rate * pace rate) :
    Recovers key rate maxKeys := by
  intro before polls last next ok l hr hsorted hrefused hlate
  obtain ⟨l₁, hbefore, hr⟩ := hr.of_append
  obtain ⟨l₂, hlast, hr⟩ := @Run.of_append _ _ _ _ _ [(last, true)] _ hr
  obtain ⟨l₃, hpolls, hnext⟩ := hr.of_append
  have hlast := hlast.of_singleton
  have hnext := hnext.of_singleton
  have hrate₁ : l₁.rate = rate :=
    hbefore.invariant (P := fun l => l.rate = rate) rfl fun _ _ _ ht hs => hs.same_rate.trans ht
  have hrate₂ : l₂.rate = rate := hlast.same_rate.trans hrate₁
  obtain ⟨left, hleft, hfull⟩ := hlast.through
  rw [hrate₁, ← hrate₂] at hfull
  rw [List.map_append, List.map_cons, List.map_append] at hsorted
  have hafter := (List.pairwise_append.mp hsorted).2.1
  rw [← List.cons_append] at hafter
  obtain ⟨hpolled, -, hnextLast⟩ := List.pairwise_append.mp hafter
  obtain ⟨hrate₃, there, hthere, hm, hpaced⟩ := polled hpolls hleft hfull hpolled hrefused
  cases ok with
  | true => rfl
  | false =>
    have hle : there.updatedMs ≤ next := hnextLast _ hm next List.mem_cons_self
    have hfirst : last ≤ there.updatedMs := by
      obtain heq | hm := List.mem_cons.mp hm
      · exact heq.ge
      · exact (List.pairwise_cons.mp hpolled).1 _ hm
    obtain ⟨-, hlow⟩ := hnext.refused hthere (hrate₃ ▸ hfull)
    have hgained := pace_le rate (next - there.updatedMs)
    rw [hrate₃, hrate₂] at hlow
    rw [hrate₂] at hpaced
    have hspan : (next - last) * pace rate =
        (there.updatedMs - last) * pace rate + (next - there.updatedMs) * pace rate := by
      rw [← Nat.add_mul]
      congr 1
      omega
    have hwait : wait rate * pace rate ≤ (next - last) * pace rate :=
      Nat.mul_le_mul_right _ (Nat.le_sub_of_add_le' hlate)
    omega

section Drained

lemma serve (hc : l.crowded key = false)
    (hlevel : refilled ((l.buckets.lookup key).getD ⟨l.rate.full, now⟩) l.rate now = some milli) :
    ∃ l', Serves key l (now, decide (1000 ≤ milli)) l' ∧ l'.rate = l.rate ∧
      l'.buckets.lookup key = some ⟨milli - if 1000 ≤ milli then 1000 else 0, now⟩ := by
  refine ⟨{ l with buckets := l.buckets.insert key ⟨milli - if 1000 ≤ milli then 1000 else 0, now⟩ }, ?_, rfl,
    AList.lookup_insert _⟩
  rw [Serves, allow_eq, hc, if_neg Bool.false_ne_true, spend_eq, hlevel]
  rfl

lemma drained (key : K) {maxKeys : ℕ} (hkeys : 0 < maxKeys) {count : ℕ} (hcount : count ≤ rate.burst) :
    ∃ l, Run (Serves key) (bounded rate maxKeys) (List.replicate count (0, true)) l ∧ l.rate = rate ∧
      l.crowded key = false ∧
        (l.buckets.lookup key).getD ⟨rate.full, 0⟩ = ⟨rate.full - count * 1000, 0⟩ := by
  induction count with
  | zero =>
    refine ⟨_, .nil, rfl, ?_, ?_⟩
    · exact Bool.and_eq_false_imp.mpr fun h => absurd (of_decide_eq_true h) (Nat.not_le.mpr hkeys)
    · rw [Nat.zero_mul, Nat.sub_zero]
      rfl
  | succ count ih =>
    obtain ⟨l, hr, hrate, hc, hb⟩ := ih (Nat.le_of_succ_le hcount)
    have hle : (count + 1) * 1000 ≤ rate.full := Nat.mul_le_mul_right 1000 hcount
    have hlevel : refilled ((l.buckets.lookup key).getD ⟨l.rate.full, 0⟩) l.rate 0 =
        some (rate.full - count * 1000) := by
      rw [hrate, hb, refilled_short (short_of_le (Nat.zero_le 60) (Nat.zero_le _))]
      simp only [Nat.sub_self, gained_zero, Nat.add_zero]
      exact congrArg some (Nat.min_eq_left (Nat.sub_le _ _))
    obtain ⟨l', hs, hrate', hb'⟩ := serve hc hlevel
    have hhigh : 1000 ≤ rate.full - count * 1000 := by omega
    rw [decide_eq_true hhigh] at hs
    rw [if_pos hhigh] at hb'
    refine ⟨l', ?_, hrate'.trans hrate, known_not_crowded hb', ?_⟩
    · rw [List.replicate_succ']
      exact hr.snoc hs
    · rw [hb', Option.getD_some, Nat.sub_sub, ← Nat.succ_mul]

lemma starved (hb : l.buckets.lookup key = some ⟨0, 0⟩) (hfull : 1000 ≤ l.rate.full) {count : ℕ}
    (hlow : count * pace l.rate < 1000) :
    ∃ l', Run (Serves key) l ((List.range count).map fun i => (i + 1, false)) l' ∧ l'.rate = l.rate ∧
      l'.buckets.lookup key = some ⟨count * pace l.rate, count⟩ := by
  induction count with
  | zero =>
    rw [Nat.zero_mul]
    exact ⟨l, .nil, rfl, hb⟩
  | succ count ih =>
    have hprev : count * pace l.rate ≤ (count + 1) * pace l.rate := Nat.mul_le_mul_right _ (Nat.le_succ count)
    obtain ⟨l', hr, hrate, hb'⟩ := ih (hprev.trans_lt hlow)
    have hlevel : refilled ((l'.buckets.lookup key).getD ⟨l'.rate.full, count + 1⟩) l'.rate (count + 1) =
        some ((count + 1) * pace l.rate) := by
      rw [hb', Option.getD_some, refilled_short (short_of_le (by decide : 1 ≤ 60) le_rfl), hrate]
      simp only [Nat.add_sub_cancel_left, gained_one]
      rw [Nat.succ_mul] at hlow ⊢
      congr 1
      omega
    obtain ⟨l'', hs, hrate', hb''⟩ := serve (known_not_crowded hb') hlevel
    rw [decide_eq_false (Nat.not_le.mpr hlow)] at hs
    rw [if_neg (Nat.not_le.mpr hlow), Nat.sub_zero] at hb''
    refine ⟨l'', ?_, hrate'.trans hrate, hb''⟩
    rw [List.range_succ, List.map_append]
    exact hr.snoc hs

lemma pace_of_recovers (key : K) {maxKeys : ℕ} (hrate : 0 < rate.perMinute) (hburst : 0 < rate.burst)
    (hkeys : 0 < maxKeys) (h : Recovers key rate maxKeys) : 1000 ≤ wait rate * pace rate := by
  have hwait : 0 < wait rate := by
    refine Nat.div_pos ?_ hrate
    have hminute : 1 ≤ minuteMs := by decide
    omega
  obtain ⟨burst, hfirst⟩ := Nat.exists_eq_succ_of_ne_zero hburst.ne'
  obtain ⟨polls, hpolls⟩ := Nat.exists_eq_succ_of_ne_zero hwait.ne'
  by_contra hslow
  have hfull : 1000 ≤ rate.full := Nat.le_mul_of_pos_left 1000 hburst
  obtain ⟨l, hr, hl, -, hempty⟩ := drained key hkeys (le_refl rate.burst)
  have hb : l.buckets.lookup key = some ⟨0, 0⟩ := by
    have hzero : rate.full - rate.burst * 1000 = 0 := Nat.sub_self _
    rw [hzero] at hempty
    cases hthere : l.buckets.lookup key with
    | none =>
      rw [hthere, Option.getD_none] at hempty
      rw [(Bucket.mk.inj hempty).1] at hfull
      cases hfull
    | some bucket =>
      rw [hthere, Option.getD_some] at hempty
      rw [hempty]
  have hlow : wait rate * pace l.rate < 1000 := by
    rw [hl]
    exact Nat.not_le.mp hslow
  obtain ⟨l', hr', -, -⟩ := starved hb (hl ▸ hfull) hlow
  have hall := hr.append hr'
  rw [hfirst, List.replicate_succ', hpolls, List.range_succ, List.map_append, List.append_assoc] at hall
  have hsorted : ((List.replicate burst (0, true) ++ ([(0, true)] ++
      ((List.range polls).map (fun i => (i + 1, false)) ++ [(polls + 1, false)]))).map Prod.fst).Pairwise
        (· ≤ ·) := by
    have htimes : (List.replicate burst (0, true) ++ ([(0, true)] ++
        ((List.range polls).map (fun i => (i + 1, false)) ++ [(polls + 1, false)]))).map Prod.fst =
          List.replicate (burst + 1) 0 ++ (List.range (polls + 1)).map (· + 1) := by
      simp [List.replicate_succ', List.range_succ]
    rw [htimes]
    refine List.pairwise_append.mpr ⟨List.pairwise_replicate.mpr (.inr le_rfl), ?_, ?_⟩
    · exact List.pairwise_map.mpr (List.pairwise_lt_range.imp fun hlt => Nat.succ_le_succ hlt.le)
    · intro a ha b hb
      rw [List.eq_of_mem_replicate ha]
      exact Nat.zero_le b
  have hrefused : ∀ poll ∈ (List.range polls).map fun i => (i + 1, false), poll.2 = false := by
    intro poll hm
    obtain ⟨i, -, rfl⟩ := List.mem_map.mp hm
    rfl
  cases h _ _ 0 (polls + 1) false l' hall hsorted hrefused (by omega)

end Drained

lemma never_served (key : K) {polls : List (ℕ × Bool)} (hr : Run (Serves key) (bounded rate 0) polls l) :
    ∀ poll ∈ polls, poll.2 = false := by
  have hboth : l.maxKeys = 0 ∧ (∀ poll ∈ polls, poll.2 = false) ∧ l.buckets.lookup key = none := by
    induction hr with
    | nil => exact ⟨rfl, fun _ hm => absurd hm List.not_mem_nil, rfl⟩
    | @snoc acts t u poll hr hs ih =>
      obtain ⟨hkeys, hbefore, hnone⟩ := ih
      have hallowed := Allowed.of_allow hs
      have hnew : key ∉ t.buckets := AList.lookup_eq_none.mp hnone
      have hcrowded : t.crowded key = true := by
        rw [crowded, hkeys, decide_eq_true (Nat.zero_le _), decide_eq_true hnew]
        rfl
      obtain ⟨now, ok⟩ := poll
      cases hallowed with
      | @refused buckets found crowded full =>
        refine ⟨hkeys, ?_, ?_⟩
        · intro poll hm
          obtain hm | hm := List.mem_append.mp hm
          · exact hbefore poll hm
          · rw [List.mem_singleton.mp hm]
        · rw [Limiter.found, hcrowded, if_pos rfl] at found
          rw [lookup_unfilled found, hnone]
          rfl
      | charged found room level =>
        have hroom := room hcrowded
        rw [hkeys] at hroom
        exact absurd hroom (Nat.not_lt_zero _)
  exact hboth.2.1

lemma recovers_iff (key : K) (rate : Rate) (maxKeys : ℕ) (hrate : 0 < rate.perMinute) :
    Recovers key rate maxKeys ↔ rate.burst = 0 ∨ maxKeys = 0 ∨ 1000 ≤ wait rate * pace rate := by
  constructor
  · intro h
    obtain hburst | hburst := Nat.eq_zero_or_pos rate.burst
    · exact .inl hburst
    obtain hkeys | hkeys := Nat.eq_zero_or_pos maxKeys
    · exact .inr (.inl hkeys)
    · exact .inr (.inr (pace_of_recovers key hrate hburst hkeys h))
  · rintro (hburst | rfl | hpace)
    · intro before polls last next ok l hr _ _ _
      obtain ⟨l₁, hbefore, hr⟩ := hr.of_append
      obtain ⟨l₂, hlast, -⟩ := @Run.of_append _ _ _ _ _ [(last, true)] _ hr
      have hrate₁ : l₁.rate = rate :=
        hbefore.invariant (P := fun l => l.rate = rate) rfl fun _ _ _ ht hs => hs.same_rate.trans ht
      obtain ⟨-, -, hfull⟩ := hlast.of_singleton.through
      rw [hrate₁, Rate.full, hburst, Nat.zero_mul] at hfull
      exact absurd hfull (by decide)
    · intro before polls last next ok l hr _ _ _
      have hnever := never_served key hr (last, true) (List.mem_append_right _ List.mem_cons_self)
      cases hnever
    · exact recovers_of_pace key rate maxKeys hpace

section Composes

def rest (rate : Rate) : ℕ := rate.perMinute % 60

def carry (rate : Rate) : ℕ := (60 + rest rate - 1) / rest rate

lemma gained_split (rate : Rate) (elapsed : ℕ) :
    rate.gained elapsed = elapsed * pace rate + elapsed * rest rate / 60 := by
  have hrate : rate.perMinute = 60 * pace rate + rest rate := (Nat.div_add_mod _ _).symm
  have hall : elapsed * rate.perMinute = elapsed * rest rate + 60 * (elapsed * pace rate) := by
    rw [hrate, Nat.mul_add, Nat.add_comm, Nat.mul_left_comm]
  rw [gained_eq, hall, Nat.add_mul_div_left _ _ (by decide : 0 < 60), Nat.add_comm]

lemma gained_before {elapsed : ℕ} (hrest : 0 < rest rate) (h : elapsed < carry rate) :
    rate.gained elapsed = elapsed * pace rate := by
  have hsmall : elapsed * rest rate < 60 := by
    have hle : (elapsed + 1) * rest rate ≤ 60 + rest rate - 1 :=
      (Nat.mul_le_mul_right _ h).trans (Nat.div_mul_le_self _ _)
    rw [Nat.succ_mul] at hle
    omega
  rw [gained_split, Nat.div_eq_of_lt hsmall, Nat.add_zero]

lemma gained_carry (hrest : 0 < rest rate) : carry rate * pace rate < rate.gained (carry rate) := by
  have hlarge : 60 ≤ carry rate * rest rate := by
    have hmod := Nat.mod_lt (60 + rest rate - 1) hrest
    have hdiv := Nat.div_add_mod (60 + rest rate - 1) (rest rate)
    rw [Nat.mul_comm, ← carry] at hdiv
    omega
  have hpos : 0 < carry rate * rest rate / 60 := Nat.div_pos hlarge (by decide)
  rw [gained_split]
  omega

lemma carry_bounds (hrest : 0 < rest rate) : 0 < carry rate ∧ carry rate ≤ 60 := by
  refine ⟨Nat.div_pos (by omega) hrest, ?_⟩
  refine Nat.div_le_of_le_mul ?_
  have hmul : rest rate + 59 ≤ rest rate * 60 := by omega
  omega

lemma composes_iff (rate : Rate) :
    Composes rate ↔ 60 ∣ rate.perMinute ∨ rate.full ≤ carry rate * pace rate := by
  obtain hrest | hrest := Nat.eq_zero_or_pos (rest rate)
  · refine iff_of_true ?_ (.inl (Nat.dvd_of_mod_eq_zero hrest))
    intro bucket now later half whole once hmilli hnow hlater hhalf hwhole honce
    obtain ⟨-, rfl⟩ := refilled_eq_some.mp hhalf
    obtain ⟨-, rfl⟩ := refilled_eq_some.mp hwhole
    obtain ⟨-, rfl⟩ := refilled_eq_some.mp honce
    have hgained : ∀ elapsed, rate.gained elapsed = elapsed * pace rate := by
      intro elapsed
      rw [gained_split, hrest, Nat.mul_zero, Nat.zero_div, Nat.add_zero]
    have hsum : (later - bucket.updatedMs) * pace rate =
        (now - bucket.updatedMs) * pace rate + (later - now) * pace rate := by
      rw [← Nat.add_mul]
      congr 1
      omega
    simp only [hgained]
    omega
  have hnot : ¬60 ∣ rate.perMinute := fun hdvd => hrest.ne' (Nat.mod_eq_zero_of_dvd hdvd)
  obtain ⟨hpos, hsixty⟩ := carry_bounds hrest
  constructor
  · intro h
    by_contra hcond
    obtain ⟨-, hroom⟩ := not_or.mp hcond
    have hroom := Nat.not_le.mp hroom
    obtain ⟨steps, hsteps⟩ := Nat.exists_eq_succ_of_ne_zero hpos.ne'
    have hsame := h ⟨0, 0⟩ steps (steps + 1) _ _ _ (Nat.zero_le _) (Nat.zero_le _) (Nat.le_succ _)
      (refilled_short (@short_of_le rate _ steps steps (by omega) (by omega)))
      (refilled_short (@short_of_le rate _ (steps + 1) 1 (by omega) le_rfl))
      (refilled_short (@short_of_le rate _ (steps + 1) (steps + 1) (by omega) (by omega)))
    have hbefore := @gained_before rate steps hrest (by omega)
    have hcarry := gained_carry hrest
    rw [hsteps, Nat.succ_eq_add_one] at hcarry
    rw [hsteps, Nat.succ_mul] at hroom
    rw [Nat.succ_mul] at hcarry
    simp only [Nat.zero_add, Nat.sub_zero, Nat.add_sub_cancel_left, gained_one, hbefore] at hsame
    omega
  · rintro (hdvd | hfull)
    · exact absurd hdvd hnot
    intro bucket now later half whole once hmilli hnow hlater hhalf hwhole honce
    obtain ⟨-, rfl⟩ := refilled_eq_some.mp hhalf
    obtain ⟨-, rfl⟩ := refilled_eq_some.mp hwhole
    obtain ⟨-, rfl⟩ := refilled_eq_some.mp honce
    have hsum := gained_add_le rate (now - bucket.updatedMs) (later - now)
    have hspan : now - bucket.updatedMs + (later - now) = later - bucket.updatedMs := by omega
    rw [hspan] at hsum
    obtain hshort | hlong := Nat.lt_or_ge (later - bucket.updatedMs) (carry rate)
    · have hparts : rate.gained (later - bucket.updatedMs) =
          rate.gained (now - bucket.updatedMs) + rate.gained (later - now) := by
        rw [gained_before hrest hshort, gained_before hrest (by omega), gained_before hrest (by omega),
          ← Nat.add_mul, hspan]
      dsimp only
      omega
    · have hleast := pace_le rate (now - bucket.updatedMs)
      have hleast' := pace_le rate (later - now)
      have hmany : carry rate * pace rate ≤
          (now - bucket.updatedMs) * pace rate + (later - now) * pace rate := by
        rw [← Nat.add_mul, hspan]
        exact Nat.mul_le_mul_right _ hlong
      dsimp only
      omega

end Composes

theorem refusals_postpone_iff (key : K) (rate : Rate) (maxKeys : ℕ) (hrate : 0 < rate.perMinute) :
    (Recovers key rate maxKeys ↔ rate.burst = 0 ∨ maxKeys = 0 ∨ 1000 ≤ wait rate * pace rate) ∧
      (Composes rate ↔ 60 ∣ rate.perMinute ∨ rate.full ≤ carry rate * pace rate) :=
  ⟨recovers_iff key rate maxKeys hrate, composes_iff rate⟩

section Sample

def minuteRate : Rate := ⟨30, 60, by decide, Watch.sampleRate.perMinute_fits⟩

theorem refusals_postpone_minute : Recovers () minuteRate 65536 ∧ Composes minuteRate := by
  obtain ⟨hrecovers, hcomposes⟩ := refusals_postpone_iff () minuteRate 65536 (by decide)
  exact ⟨hrecovers.mpr (.inr (.inr (by decide))), hcomposes.mpr (.inl (by decide))⟩

def revokeRate : Rate := ⟨30, 1, by decide, Watch.sampleRate.burst_fits⟩

theorem revocations_starve : ¬Recovers () revokeRate 65536 ∧ ¬Composes revokeRate := by
  constructor
  · rw [recovers_iff () revokeRate 65536 (by decide)]
    decide
  · rw [composes_iff]
    decide

end Sample

end Limiter

end Sheprd.Relay
