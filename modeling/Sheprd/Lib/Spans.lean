import Sheprd.Lib.Slice

namespace Sheprd.Lib

variable {α : Type}

structure Span (α : Type) where
  start : ℕ
  cells : List α

namespace Span

def stop (s : Span α) : ℕ := s.start + s.cells.length

def Covers (s : Span α) (i : ℕ) : Prop := s.start ≤ i ∧ i < s.stop

instance (s : Span α) (i : ℕ) : Decidable (s.Covers i) := instDecidableAnd

def writeAll (xs : List α) (spans : List (Span α)) : Option (List α) :=
  spans.foldlM (fun xs s => Slice.write xs s.start s.cells) xs

def Apart (spans : List (Span α)) : Prop := spans.Pairwise fun s t => s.stop ≤ t.start

structure Overwritten (xs : List α) (spans : List (Span α)) (zs : List α) : Prop where
  length : zs.length = xs.length
  inside : ∀ s ∈ spans, ∀ k < s.cells.length, zs[s.start + k]? = s.cells[k]?
  outside : ∀ i, (∀ s ∈ spans, ¬ s.Covers i) → zs[i]? = xs[i]?

lemma Overwritten.nil (xs : List α) : Overwritten xs [] xs where
  length := rfl
  inside _ h := absurd h (List.not_mem_nil)
  outside _ _ := rfl

lemma overwritten_nil_iff {xs zs : List α} : Overwritten xs [] zs ↔ zs = xs := by
  constructor
  · intro h
    exact List.ext_getElem? fun i => h.outside i (by simp)
  · rintro rfl
    exact .nil zs

lemma Apart.not_covers {s : Span α} {spans : List (Span α)} (h : Apart (s :: spans)) {k : ℕ}
    (hk : k < s.cells.length) : ∀ t ∈ spans, ¬ t.Covers (s.start + k) := by
  intro t ht covers
  have apart := List.rel_of_pairwise_cons h ht
  unfold Covers at covers
  unfold stop at apart
  omega

lemma Apart.covers_once {spans : List (Span α)} (h : Apart spans) (i : ℕ) :
    spans.Pairwise fun s t => ¬ (s.Covers i ∧ t.Covers i) := by
  refine h.imp fun {s t} apart both => ?_
  unfold Covers at both
  omega

lemma writeAll_apart (xs : List α) {spans : List (Span α)} (apart : Apart spans)
    (within : ∀ s ∈ spans, s.stop ≤ xs.length) :
    ∃ zs, writeAll xs spans = some zs ∧ Overwritten xs spans zs := by
  induction spans generalizing xs with
  | nil => exact ⟨xs, rfl, .nil xs⟩
  | cons s spans ih =>
    obtain ⟨first, later⟩ := List.forall_mem_cons.mp within
    obtain ⟨ys, written⟩ := Slice.write_isSome xs s.cells s.start first
    have same := Slice.write_length written
    obtain ⟨zs, rest, left⟩ := ih ys apart.of_cons (by rw [same]; exact later)
    refine ⟨zs, ?_, left.length.trans same, fun t ht k hk => ?_, fun i free => ?_⟩
    · rw [writeAll, List.foldlM_cons, written]
      exact rest
    · obtain rfl | ht := List.mem_cons.mp ht
      · rw [left.outside _ (apart.not_covers hk), Slice.write_getElem? written,
          if_pos ⟨by omega, by omega⟩, Nat.add_sub_cancel_left]
      · exact left.inside t ht k hk
    · obtain ⟨out, others⟩ := List.forall_mem_cons.mp free
      rw [left.outside i others, Slice.write_getElem? written]
      exact if_neg out

lemma Overwritten.unique {xs : List α} {spans : List (Span α)} {zs zs' : List α}
    (h : Overwritten xs spans zs) (h' : Overwritten xs spans zs') : zs = zs' := by
  refine List.ext_getElem? fun i => ?_
  by_cases covered : ∃ s ∈ spans, s.Covers i
  · obtain ⟨s, hs, low, high⟩ := covered
    have position : s.start + (i - s.start) = i := by omega
    have inside : i - s.start < s.cells.length := by
      unfold stop at high
      omega
    rw [← position, h.inside s hs _ inside, h'.inside s hs _ inside]
  · have free : ∀ s ∈ spans, ¬ s.Covers i := fun s hs c => covered ⟨s, hs, c⟩
    rw [h.outside i free, h'.outside i free]

lemma writeAll_eq_some {xs zs : List α} {spans : List (Span α)} (apart : Apart spans)
    (within : ∀ s ∈ spans, s.stop ≤ xs.length) :
    writeAll xs spans = some zs ↔ Overwritten xs spans zs := by
  obtain ⟨ys, written, left⟩ := writeAll_apart xs apart within
  rw [written, Option.some.injEq]
  exact ⟨fun same => same ▸ left, fun h => left.unique h⟩

end Span

end Sheprd.Lib
