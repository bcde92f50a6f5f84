import Mathlib.Tactic

namespace Sheprd.Lib.Expiry

def expire (span now : ℕ) (queue : List ℕ) : List ℕ :=
  queue.dropWhile fun time => decide (span ≤ now - time)

def recent (span now : ℕ) (log : List ℕ) : List ℕ := log.filter fun time => decide (now - time < span)

def window (span first : ℕ) (log : List ℕ) : List ℕ :=
  log.filter fun time => decide (first ≤ time ∧ time < first + span)

structure Tracks (span cap now : ℕ) (log queue : List ℕ) : Prop where
  sorted : log.Pairwise (· ≤ ·)
  past : ∀ time ∈ log, time ≤ now
  queue : queue = recent span now log
  capped : ∀ first, (window span first log).length ≤ cap

variable {span cap now next : ℕ} {log queue : List ℕ}

lemma expire_sorted (h : queue.Pairwise (· ≤ ·)) (now : ℕ) :
    expire span now queue = recent span now queue := by
  induction queue with
  | nil => rfl
  | cons time queue ih =>
    obtain ⟨hfirst, hrest⟩ := List.pairwise_cons.mp h
    rw [expire, List.dropWhile_cons, recent, List.filter_cons]
    obtain hfresh | hold := Nat.lt_or_ge (now - time) span
    · have hall : queue.filter (fun time => decide (now - time < span)) = queue := by
        refine List.filter_eq_self.mpr fun later hm => decide_eq_true ?_
        have := hfirst later hm
        omega
      rw [if_neg (by simpa using hfresh), if_pos (decide_eq_true hfresh), hall]
    · rw [if_pos (decide_eq_true hold), if_neg (by simpa using hold)]
      exact ih hrest

lemma Tracks.later (h : Tracks span cap now log queue) (hle : now ≤ next) :
    Tracks span cap next log (expire span next queue) := by
  refine ⟨h.sorted, fun time hm => (h.past time hm).trans hle, ?_, h.capped⟩
  have hsorted : (recent span now log).Pairwise (· ≤ ·) := h.sorted.sublist List.filter_sublist
  rw [h.queue, expire_sorted hsorted, recent, recent, List.filter_filter]
  refine List.filter_congr fun time _ => ?_
  rw [← Bool.decide_and, decide_eq_decide]
  omega

lemma Tracks.push (h : Tracks span cap now log queue) (hspan : 0 < span) (hroom : queue.length < cap) :
    Tracks span cap now (log ++ [now]) (queue ++ [now]) := by
  refine ⟨?_, ?_, ?_, fun first => ?_⟩
  · refine List.pairwise_append.mpr ⟨h.sorted, List.pairwise_singleton _ _, fun time hm last hlast => ?_⟩
    rw [List.mem_singleton.mp hlast]
    exact h.past time hm
  · intro time hm
    obtain hm | hm := List.mem_append.mp hm
    · exact h.past time hm
    · exact (List.mem_singleton.mp hm).le
  · rw [recent, List.filter_append, h.queue, recent, List.filter_singleton, Nat.sub_self,
      decide_eq_true hspan]
    rfl
  · rw [window, List.filter_append, List.length_append]
    by_cases hin : first ≤ now ∧ now < first + span
    · -- What else is in the window is recent, and so in the queue.
      have hsub : (window span first log).length ≤ queue.length := by
        rw [h.queue]
        refine (List.monotone_filter_right log fun time hm => ?_).length_le
        have hwindow := of_decide_eq_true hm
        exact decide_eq_true (by omega)
      rw [window] at hsub
      have hone := List.length_filter_le (fun time => decide (first ≤ time ∧ time < first + span)) [now]
      rw [List.length_singleton] at hone
      omega
    · rw [List.filter_singleton, decide_eq_false hin]
      exact h.capped first

lemma Tracks.start (span cap now : ℕ) : Tracks span cap now [] [] :=
  ⟨.nil, nofun, rfl, fun _ => Nat.zero_le _⟩

end Sheprd.Lib.Expiry
