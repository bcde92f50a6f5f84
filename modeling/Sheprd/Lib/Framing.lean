import Mathlib.Tactic

namespace Sheprd.Lib

inductive Head (φ ε : Type) where
  | more
  | whole (frame : φ) (size : ℕ)
  | bad (error : ε)

def Head.answer {φ ε : Type} : Head φ ε → Except ε (Option φ)
  | more => .ok none
  | bad e => .error e
  | whole f _ => .ok (some f)

def Head.left {ι φ ε : Type} : Head φ ε → List ι → List ι
  | whole _ n, is => is.drop n
  | more, is | bad _, is => is

structure Framing (ι φ ε : Type) where
  head : List ι → Head φ ε
  size_pos : ∀ {is f n}, head is = .whole f n → 0 < n
  size_le : ∀ {is f n}, head is = .whole f n → n ≤ is.length
  whole_append : ∀ {is f n} (rest), head is = .whole f n → head (is ++ rest) = .whole f n
  bad_append : ∀ {is e} (rest), head is = .bad e → head (is ++ rest) = .bad e

namespace Framing

variable {ι φ ε : Type} (F : Framing ι φ ε)

def read (is : List ι) : List φ × Option ε :=
  match head : F.head is with
  | .more => ([], none)
  | .bad e => ([], some e)
  | .whole f n =>
      have := F.size_pos head
      have := F.size_le head
      let rest := read (is.drop n)
      (f :: rest.1, rest.2)
termination_by is.length
decreasing_by simp only [List.length_drop]; omega

variable {F}

lemma read_more {is : List ι} (h : F.head is = .more) : F.read is = ([], none) := by
  rw [read]
  split <;> simp_all

lemma read_bad {is : List ι} {e : ε} (h : F.head is = .bad e) : F.read is = ([], some e) := by
  rw [read]
  split <;> simp_all

lemma read_whole {is : List ι} {f : φ} {n : ℕ} (h : F.head is = .whole f n) :
    F.read is = (f :: (F.read (is.drop n)).1, (F.read (is.drop n)).2) := by
  rw [read]
  split <;> simp_all

lemma read_whole_append {is : List ι} {f : φ} {n : ℕ} (h : F.head is = .whole f n) (rest : List ι) :
    F.read (is ++ rest) =
      (f :: (F.read (is.drop n ++ rest)).1, (F.read (is.drop n ++ rest)).2) := by
  rw [read_whole (F.whole_append rest h), List.drop_append_of_le_length (F.size_le h)]

def answer (F : Framing ι φ ε) (is : List ι) : Except ε (Option φ) := (F.head is).answer

def left (F : Framing ι φ ε) (is : List ι) : List ι := (F.head is).left is

end Framing

inductive Ask (ι : Type) where
  | push (is : List ι)
  | next

def Ask.pushed {ι : Type} : List (Ask ι) → List ι
  | [] => []
  | .push is :: asks => is ++ pushed asks
  | .next :: asks => pushed asks

structure StreamReader (σ ι φ ε : Type) where
  push : σ → List ι → σ
  next : σ → Except ε (Option φ) × σ

namespace StreamReader

variable {σ ι φ ε : Type} (r : StreamReader σ ι φ ε)

def run (s : σ) : List (Ask ι) → List (Except ε (Option φ)) × σ
  | [] => ([], s)
  | .push is :: asks => run (r.push s is) asks
  | .next :: asks =>
      let next := r.next s
      let rest := run next.2 asks
      (next.1 :: rest.1, rest.2)

def frames (answers : List (Except ε (Option φ))) : List φ :=
  answers.filterMap fun
    | .ok (some f) => some f
    | _ => none

def errors (answers : List (Except ε (Option φ))) : List ε :=
  answers.filterMap fun
    | .error e => some e
    | _ => none

structure Realises (F : Framing ι φ ε) (unread : σ → List ι) : Prop where
  push : ∀ s is, unread (r.push s is) = unread s ++ is
  answer : ∀ s, (r.next s).1 = F.answer (unread s)
  left : ∀ s, unread (r.next s).2 = F.left (unread s)

variable {r} {F : Framing ι φ ε} {unread : σ → List ι}

@[simp] lemma frames_nil : frames ([] : List (Except ε (Option φ))) = [] := rfl

@[simp] lemma errors_nil : errors ([] : List (Except ε (Option φ))) = [] := rfl

@[simp] lemma frames_frame (f : φ) (answers : List (Except ε (Option φ))) :
    frames (.ok (some f) :: answers) = f :: frames answers := rfl

@[simp] lemma frames_none (answers : List (Except ε (Option φ))) :
    frames (.ok none :: answers) = frames answers := rfl

@[simp] lemma frames_error (e : ε) (answers : List (Except ε (Option φ))) :
    frames (.error e :: answers) = frames answers := rfl

@[simp] lemma errors_frame (f : φ) (answers : List (Except ε (Option φ))) :
    errors (.ok (some f) :: answers) = errors answers := rfl

@[simp] lemma errors_none (answers : List (Except ε (Option φ))) :
    errors (.ok none :: answers) = errors answers := rfl

@[simp] lemma errors_error (e : ε) (answers : List (Except ε (Option φ))) :
    errors (.error e :: answers) = e :: errors answers := rfl

lemma frames_append (answers more : List (Except ε (Option φ))) :
    frames (answers ++ more) = frames answers ++ frames more := List.filterMap_append

lemma errors_append (answers more : List (Except ε (Option φ))) :
    errors (answers ++ more) = errors answers ++ errors more := List.filterMap_append

lemma run_append (s : σ) (asks more : List (Ask ι)) :
    r.run s (asks ++ more) =
      ((r.run s asks).1 ++ (r.run (r.run s asks).2 more).1, (r.run (r.run s asks).2 more).2) := by
  induction asks generalizing s with
  | nil => rfl
  | cons ask asks ih =>
    cases ask with
    | push is => exact ih _
    | next => simp only [List.cons_append, run, ih]

lemma Realises.bad (h : r.Realises F unread) {s : σ} {e : ε} (head : F.head (unread s) = .bad e)
    (asks : List (Ask ι)) : F.head (unread (r.run s asks).2) = .bad e := by
  induction asks generalizing s with
  | nil => exact head
  | cons ask asks ih =>
    cases ask with
    | push is => exact ih (by rw [h.push]; exact F.bad_append is head)
    | next =>
      refine ih ?_
      rw [h.left, Framing.left, head]
      exact head

lemma Realises.read (h : r.Realises F unread) (s : σ) (asks : List (Ask ι)) :
    F.read (unread s ++ Ask.pushed asks) =
        (frames (r.run s asks).1 ++ (F.read (unread (r.run s asks).2)).1,
          (F.read (unread (r.run s asks).2)).2) ∧
      ∀ e ∈ errors (r.run s asks).1, F.head (unread (r.run s asks).2) = .bad e := by
  induction asks generalizing s with
  | nil => simp [run, Ask.pushed]
  | cons ask asks ih =>
    cases ask with
    | push is =>
      have rest := ih (r.push s is)
      rw [h.push, List.append_assoc] at rest
      exact rest
    | next =>
      obtain ⟨same, sticks⟩ := ih (r.next s).2
      rw [h.left] at same
      have answered := h.answer s
      unfold Framing.left at same
      unfold Framing.answer at answered
      simp only [run, Ask.pushed]
      cases head : F.head (unread s) with
      | more =>
        rw [head] at same answered
        dsimp only [Head.answer, Head.left] at same answered
        simp only [answered, frames_none, errors_none]
        exact ⟨same, sticks⟩
      | whole f n =>
        rw [head] at same answered
        dsimp only [Head.answer, Head.left] at same answered
        simp only [answered, frames_frame, errors_frame]
        exact ⟨by rw [Framing.read_whole_append head, same]; rfl, sticks⟩
      | bad e =>
        rw [head] at same answered
        dsimp only [Head.answer, Head.left] at same answered
        simp only [answered, frames_error, errors_error]
        refine ⟨same, fun e' held => ?_⟩
        obtain rfl | held := List.mem_cons.mp held
        · exact h.bad (by rw [h.left, Framing.left, head]; exact head) asks
        · exact sticks e' held

lemma Realises.drained (h : r.Realises F unread) {s : σ} {n : ℕ}
    (enough : (F.read (unread s)).1.length < n) :
    frames (r.run s (List.replicate n .next)).1 = (F.read (unread s)).1 ∧
      (errors (r.run s (List.replicate n .next)).1).head? = (F.read (unread s)).2 := by
  induction n generalizing s with
  | zero => cases enough
  | succ n ih =>
    have answered := h.answer s
    have left := h.left s
    unfold Framing.answer at answered
    unfold Framing.left at left
    simp only [List.replicate_succ, run]
    cases head : F.head (unread s) with
    | more =>
      rw [head] at answered left
      dsimp only [Head.answer, Head.left] at answered left
      rw [Framing.read_more head] at enough ⊢
      simp only [answered, frames_none, errors_none]
      cases n with
      | zero => exact ⟨rfl, rfl⟩
      | succ n =>
        have rest := ih (s := (r.next s).2) (by rw [left, Framing.read_more head]; simp)
        rwa [left, Framing.read_more head] at rest
    | whole f m =>
      rw [head] at answered left
      dsimp only [Head.answer, Head.left] at answered left
      rw [Framing.read_whole head] at enough ⊢
      simp only [answered, frames_frame, errors_frame]
      have rest := ih (s := (r.next s).2) (by rw [left]; simpa using enough)
      rw [left] at rest
      exact ⟨by rw [rest.1], rest.2⟩
    | bad e =>
      rw [head] at answered left
      dsimp only [Head.answer, Head.left] at answered left
      rw [Framing.read_bad head]
      simp only [answered, frames_error, errors_error, List.head?_cons, and_true]
      cases n with
      | zero => rfl
      | succ n =>
        have rest := ih (s := (r.next s).2) (by rw [left, Framing.read_bad head]; simp)
        rw [left, Framing.read_bad head] at rest
        exact rest.1

lemma Realises.cut (h : r.Realises F unread) (s : σ) (asks : List (Ask ι)) {n : ℕ}
    (enough : (F.read (unread s ++ Ask.pushed asks)).1.length < n) :
    frames (r.run s (asks ++ List.replicate n .next)).1 = (F.read (unread s ++ Ask.pushed asks)).1 ∧
      (errors (r.run s (asks ++ List.replicate n .next)).1).head? =
        (F.read (unread s ++ Ask.pushed asks)).2 := by
  obtain ⟨same, sticks⟩ := h.read s asks
  rw [same] at enough ⊢
  simp only [List.length_append] at enough
  obtain ⟨yielded, error⟩ := h.drained (s := (r.run s asks).2) (n := n) (by omega)
  rw [run_append]
  refine ⟨by rw [frames_append, yielded], ?_⟩
  rw [errors_append, List.head?_append, error]
  cases held : errors (r.run s asks).1 with
  | nil => rfl
  | cons e more =>
    have head := sticks e (by rw [held]; exact List.mem_cons_self ..)
    rw [Framing.read_bad head]
    rfl

end StreamReader

end Sheprd.Lib
