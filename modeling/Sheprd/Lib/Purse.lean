import Mathlib.Tactic

namespace Sheprd.Lib

structure Purse where
  tokens : ℕ
  since : ℕ

namespace Purse

def refill (capacity period now : ℕ) (p : Purse) : Purse :=
  let earned := (now - p.since) / period
  if earned = 0 then p
  else
    let tokens := min (p.tokens + earned) capacity
    ⟨tokens, if tokens = capacity then now else p.since + earned * period⟩

def spend (count : ℕ) (p : Purse) : Purse := { p with tokens := p.tokens - count }

structure Refills (capacity period now : ℕ) (p p' : Purse) : Prop where
  more : p.tokens ≤ p'.tokens
  bounded : p'.tokens ≤ capacity
  later : p.since ≤ p'.since
  credit : p'.tokens * period + p.since ≤ p.tokens * period + p'.since
  exact : p'.tokens < capacity → p'.tokens * period + p.since = p.tokens * period + p'.since
  near : now < p'.since + period
  reached : p'.since ≤ max p.since now
  filled : p.tokens < p'.tokens → p'.tokens = capacity → p'.since = now ∧ p.since + period ≤ now
  idle : p'.tokens = p.tokens → p'.tokens < capacity → p'.since = p.since

variable {capacity period now : ℕ} {p q : Purse}

lemma refill_refills (hperiod : 0 < period) (h : p.tokens ≤ capacity) :
    Refills capacity period now p (p.refill capacity period now) := by
  rw [refill]
  have hdiv := Nat.div_add_mod (now - p.since) period
  have hmod := Nat.mod_lt (now - p.since) hperiod
  rw [Nat.mul_comm] at hdiv
  generalize (now - p.since) / period = earned at hdiv
  generalize (now - p.since) % period = rest at hdiv hmod
  simp only
  split
  case isTrue hzero =>
    rw [hzero, Nat.zero_mul] at hdiv
    exact ⟨le_rfl, h, le_rfl, le_rfl, fun _ => rfl, by omega, by omega, by omega, fun _ _ => rfl⟩
  case isFalse hsome =>
    have hperiods : period ≤ earned * period := Nat.le_mul_of_pos_left period (Nat.pos_of_ne_zero hsome)
    split
    case isTrue hfull =>
      have hcredit : (min (p.tokens + earned) capacity) * period ≤ p.tokens * period + earned * period := by
        rw [← Nat.add_mul]
        exact Nat.mul_le_mul_right period (Nat.min_le_left _ _)
      rw [hfull] at hcredit ⊢
      refine ⟨h, le_rfl, ?_, ?_, ?_, ?_, ?_, ?_, ?_⟩ <;> dsimp only <;> omega
    case isFalse hroom =>
      have htokens : min (p.tokens + earned) capacity = p.tokens + earned := by omega
      have hproduct := Nat.add_mul p.tokens earned period
      rw [htokens]
      refine ⟨?_, ?_, ?_, ?_, ?_, ?_, ?_, ?_, ?_⟩ <;> dsimp only <;> omega

lemma refill_full (hperiod : 0 < period) (hp : p.tokens = capacity)
    (hsince : p.since = now ∨ p.since + period ≤ now) : p.refill capacity period now = ⟨capacity, now⟩ := by
  rw [refill]
  simp only
  obtain hnow | hlong := hsince
  · rw [hnow, Nat.sub_self, Nat.zero_div, if_pos rfl, ← hp, ← hnow]
  · have hearned : (now - p.since) / period ≠ 0 :=
      (Nat.div_pos (by omega) hperiod).ne'
    rw [if_neg hearned, hp, Nat.min_eq_right (Nat.le_add_right _ _), if_pos rfl]

structure Covers (capacity period : ℕ) (p q : Purse) : Prop where
  fewer : p.tokens ≤ q.tokens
  bounded : q.tokens ≤ capacity
  credit : p.tokens * period + q.since ≤ q.tokens * period + p.since
  ahead : q.since < p.since + period
  behind : p.since < q.since + period

lemma Covers.refill (h : Covers capacity period p q) (hperiod : 0 < period) (hroom : p.tokens < capacity) :
    Covers capacity period (p.refill capacity period now) (q.refill capacity period now) := by
  have hp : Refills capacity period now p _ := refill_refills hperiod hroom.le
  have hq : Refills capacity period now q _ := refill_refills hperiod h.bounded
  generalize p.refill capacity period now = p' at hp
  generalize q.refill capacity period now = q' at hq
  have hahead := h.ahead
  have hbehind := h.behind
  have hcredit := h.credit
  have hahead' : q'.since < p'.since + period := by
    have := hq.reached
    have := hp.near
    have := hp.later
    omega
  have hbehind' : p'.since < q'.since + period := by
    have := hp.reached
    have := hq.near
    have := hq.later
    omega
  obtain hfull | hroom' := Nat.eq_or_lt_of_le hq.bounded
  · refine ⟨hfull ▸ hp.bounded, hq.bounded, ?_, hahead', hbehind'⟩
    rw [hfull]
    obtain hpfull | hproom := Nat.eq_or_lt_of_le hp.bounded
    · -- Both are full, and `p` only now: what `q` had was filled up to no later.
      obtain ⟨hnow, hlong⟩ := hp.filled (hpfull ▸ hroom) hpfull
      have := hq.reached
      rw [hpfull]
      omega
    · have hstep : p'.tokens * period + period ≤ capacity * period := by
        rw [← Nat.succ_mul]
        exact Nat.mul_le_mul_right period hproom
      omega
  · have hpcredit := hp.credit
    have hqexact := hq.exact hroom'
    have hcredit' : p'.tokens * period + q'.since ≤ q'.tokens * period + p'.since := by omega
    refine ⟨?_, hq.bounded, hcredit', hahead', hbehind'⟩
    have hlt : p'.tokens * period < (q'.tokens + 1) * period := by
      rw [Nat.succ_mul]
      omega
    exact Nat.le_of_lt_succ (Nat.lt_of_mul_lt_mul_right hlt)

lemma Covers.spend (h : Covers capacity period p q) {count : ℕ} (hc : count ≤ p.tokens) :
    Covers capacity period (p.spend count) (q.spend count) := by
  have hfewer := h.fewer
  have hbounded := h.bounded
  have hcredit := h.credit
  have hp : (p.tokens - count) * period + count * period = p.tokens * period := by
    rw [← Nat.add_mul, Nat.sub_add_cancel hc]
  have hq : (q.tokens - count) * period + count * period = q.tokens * period := by
    rw [← Nat.add_mul, Nat.sub_add_cancel (hc.trans hfewer)]
  refine ⟨?_, ?_, ?_, h.ahead, h.behind⟩ <;> dsimp only [Purse.spend] <;> omega

lemma Covers.fresh (hq : q.tokens = capacity) (hsince : q.since ≤ now) (hnear : now < q.since + period) :
    Covers capacity period ⟨capacity, now⟩ q := by
  refine ⟨hq.ge, hq.le, ?_, ?_, hnear⟩ <;> dsimp only
  · rw [hq]
    omega
  · omega

lemma Covers.refl (h : p.tokens ≤ capacity) (hperiod : 0 < period) : Covers capacity period p p :=
  ⟨le_rfl, h, le_rfl, Nat.lt_add_of_pos_right hperiod, Nat.lt_add_of_pos_right hperiod⟩

end Purse

end Sheprd.Lib
