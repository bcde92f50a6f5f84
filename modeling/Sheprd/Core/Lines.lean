import Sheprd.Core.Frame

namespace Sheprd.Core.Framed

open Sheprd.Lib

def MAX_LINE : ℕ := MAX_PAYLOAD

def LF : UInt8 := 10

inductive Violation where
  | longLine (limit : ℕ)

def isAsciiWhitespace (b : UInt8) : Bool := b = 32 || b = 9 || b = 10 || b = 12 || b = 13

def blank (line : List UInt8) : Bool := line.all isAsciiWhitespace

def splitInclusive : List UInt8 → List (List UInt8)
  | [] => []
  | b :: bytes =>
      if b = LF then [b] :: splitInclusive bytes
      else
        match splitInclusive bytes with
        | [] => [[b]]
        | piece :: pieces => (b :: piece) :: pieces

structure Lines where
  unfinished : List UInt8

namespace Lines

def new : Lines := ⟨[]⟩

def takePieces (lines : List (List UInt8)) :
    List (List UInt8) → Lines → Except Violation (List (List UInt8)) × Lines
  | [], l => (.ok lines, l)
  | piece :: pieces, l =>
      let unfinished := l.unfinished ++ piece
      if unfinished.length > MAX_LINE + 1 then (.error (.longLine MAX_LINE), ⟨unfinished⟩)
      else if unfinished.getLast? = some LF then
        let line := unfinished.dropLast
        takePieces (if blank line then lines else lines ++ [line]) pieces ⟨[]⟩
      else takePieces lines pieces ⟨unfinished⟩

def push (l : Lines) (bytes : List UInt8) : Except Violation (List (List UInt8)) × Lines :=
  takePieces [] (splitInclusive bytes) l

def feed (l : Lines) : List (List UInt8) → Except Violation (List (List UInt8)) × Lines
  | [] => (.ok [], l)
  | bytes :: more =>
      match l.push bytes with
      | (.error e, l') => (.error e, l')
      | (.ok lines, l') =>
          match feed l' more with
          | (.error e, l'') => (.error e, l'')
          | (.ok lines', l'') => (.ok (lines ++ lines'), l'')

def byte (s : List UInt8 × List (List UInt8)) (b : UInt8) :
    Except Violation (List UInt8 × List (List UInt8)) :=
  if (s.1 ++ [b]).length > MAX_LINE + 1 then .error (.longLine MAX_LINE)
  else if b = LF then .ok ([], if blank s.1 then s.2 else s.2 ++ [s.1])
  else .ok (s.1 ++ [b], s.2)

def outcome (r : Except Violation (List (List UInt8)) × Lines) :
    Except Violation (List UInt8 × List (List UInt8)) :=
  r.1.map fun lines => (r.2.unfinished, lines)

inductive Piece : List UInt8 → Prop where
  | ended (line : List UInt8) (h : LF ∉ line) : Piece (line ++ [LF])
  | unended (b : UInt8) (tail : List UInt8) (h : LF ∉ b :: tail) : Piece (b :: tail)

lemma Piece.cons {piece : List UInt8} (h : Piece piece) {b : UInt8} (other : b ≠ LF) :
    Piece (b :: piece) := by
  cases h with
  | ended line h =>
    refine .ended (b :: line) ?_
    simp [h, Ne.symm other]
  | unended c tail h =>
    refine .unended b (c :: tail) ?_
    rw [List.mem_cons]
    exact fun held => held.elim (fun same => other same.symm) h

lemma pieces_splitInclusive (bytes : List UInt8) : ∀ piece ∈ splitInclusive bytes, Piece piece := by
  induction bytes with
  | nil => simp [splitInclusive]
  | cons b bytes ih =>
    unfold splitInclusive
    by_cases line : b = LF
    · rw [if_pos line, line]
      exact List.forall_mem_cons.mpr ⟨.ended [] (by simp), ih⟩
    · rw [if_neg line]
      cases pieces : splitInclusive bytes with
      | nil => simpa using Piece.unended b [] (by simpa using Ne.symm line)
      | cons piece pieces' =>
        rw [pieces] at ih
        obtain ⟨first, rest⟩ := List.forall_mem_cons.mp ih
        exact List.forall_mem_cons.mpr ⟨first.cons line, rest⟩

lemma flatten_splitInclusive (bytes : List UInt8) : (splitInclusive bytes).flatten = bytes := by
  induction bytes with
  | nil => rfl
  | cons b bytes ih =>
    unfold splitInclusive
    by_cases line : b = LF
    · rw [if_pos line, List.flatten_cons, ih]
      rfl
    · rw [if_neg line]
      cases pieces : splitInclusive bytes with
      | nil =>
        rw [pieces] at ih
        rw [← ih]
        rfl
      | cons piece pieces' =>
        rw [pieces] at ih
        rw [← ih]
        rfl

lemma byte_over (unfinished : List UInt8) (lines : List (List UInt8)) (b : UInt8)
    (long : unfinished.length + 1 > MAX_LINE + 1) :
    byte (unfinished, lines) b = .error (.longLine MAX_LINE) := by
  rw [byte, if_pos (by simpa using long)]

lemma byte_within (unfinished : List UInt8) (lines : List (List UInt8)) {b : UInt8}
    (short : unfinished.length + 1 ≤ MAX_LINE + 1) (other : b ≠ LF) :
    byte (unfinished, lines) b = .ok (unfinished ++ [b], lines) := by
  rw [byte, if_neg (by simpa using short), if_neg other]

lemma byte_end (unfinished : List UInt8) (lines : List (List UInt8)) :
    byte (unfinished, lines) LF =
      if unfinished.length + 1 > MAX_LINE + 1 then .error (.longLine MAX_LINE)
      else .ok ([], if blank unfinished then lines else lines ++ [unfinished]) := by
  rw [byte, if_pos rfl, List.length_append, List.length_singleton]

lemma bytes_end (unfinished : List UInt8) (lines : List (List UInt8)) :
    [LF].foldlM byte (unfinished, lines) =
      if unfinished.length + 1 > MAX_LINE + 1 then .error (.longLine MAX_LINE)
      else .ok ([], if blank unfinished then lines else lines ++ [unfinished]) := by
  rw [List.foldlM_cons, byte_end]
  split <;> rfl

lemma bytes_unended (unfinished : List UInt8) (lines : List (List UInt8)) {tail : List UInt8}
    (open_ : LF ∉ tail) (some : tail ≠ []) :
    tail.foldlM byte (unfinished, lines) =
      if (unfinished ++ tail).length > MAX_LINE + 1 then .error (.longLine MAX_LINE)
      else .ok (unfinished ++ tail, lines) := by
  induction tail generalizing unfinished with
  | nil => exact absurd rfl some
  | cons b tail ih =>
    rw [List.mem_cons, not_or] at open_
    rw [List.foldlM_cons]
    by_cases long : unfinished.length + 1 > MAX_LINE + 1
    · rw [byte_over _ _ _ long, if_pos (by simp only [List.length_append, List.length_cons]; omega)]
      rfl
    · rw [byte_within _ _ (not_lt.mp long) (Ne.symm open_.1)]
      by_cases last : tail = []
      · subst last
        rw [if_neg (by simpa using long)]
        rfl
      · have rest := ih (unfinished ++ [b]) open_.2 last
        rw [List.append_assoc, List.singleton_append] at rest
        exact rest

lemma bytes_piece (unfinished : List UInt8) (lines : List (List UInt8)) {piece : List UInt8}
    (h : Piece piece) :
    piece.foldlM byte (unfinished, lines) =
      if (unfinished ++ piece).length > MAX_LINE + 1 then .error (.longLine MAX_LINE)
      else if (unfinished ++ piece).getLast? = some LF then
        .ok ([], if blank (unfinished ++ piece).dropLast then lines
          else lines ++ [(unfinished ++ piece).dropLast])
      else .ok (unfinished ++ piece, lines) := by
  cases h with
  | ended line open_ =>
    have whole : unfinished ++ (line ++ [LF]) = (unfinished ++ line) ++ [LF] := by simp
    rw [whole, List.getLast?_concat, if_pos rfl, List.dropLast_concat, List.length_append,
      List.length_singleton, List.foldlM_append]
    by_cases empty : line = []
    · rw [empty, List.append_nil, List.foldlM_nil, pure_bind, bytes_end]
    · rw [bytes_unended _ _ open_ empty]
      by_cases long : (unfinished ++ line).length > MAX_LINE + 1
      · rw [if_pos long, if_pos (by omega)]
        rfl
      · rw [if_neg long]
        exact bytes_end _ _
  | unended b tail open_ =>
    have last : (unfinished ++ b :: tail).getLast? ≠ some LF := by
      rw [List.getLast?_append_of_ne_nil _ (List.cons_ne_nil b tail)]
      exact fun h => open_ (List.mem_of_getLast? h)
    rw [bytes_unended _ _ open_ (List.cons_ne_nil b tail), if_neg last]

lemma outcome_takePieces (lines : List (List UInt8)) {pieces : List (List UInt8)} (l : Lines)
    (h : ∀ piece ∈ pieces, Piece piece) :
    outcome (takePieces lines pieces l) = pieces.flatten.foldlM byte (l.unfinished, lines) := by
  induction pieces generalizing lines l with
  | nil => rfl
  | cons piece pieces ih =>
    obtain ⟨first, rest⟩ := List.forall_mem_cons.mp h
    rw [List.flatten_cons, List.foldlM_append, bytes_piece _ _ first]
    unfold takePieces
    dsimp only
    split
    · rfl
    · split
      · exact ih _ ⟨[]⟩ rest
      · exact ih _ _ rest

lemma outcome_push (l : Lines) (bytes : List UInt8) :
    outcome (l.push bytes) = bytes.foldlM byte (l.unfinished, []) := by
  rw [push, outcome_takePieces _ _ (pieces_splitInclusive bytes), flatten_splitInclusive]

lemma bytes_after (lines : List (List UInt8)) (unfinished : List UInt8) (found : List (List UInt8))
    (bytes : List UInt8) :
    bytes.foldlM byte (unfinished, lines ++ found) =
      (bytes.foldlM byte (unfinished, found)).map fun s => (s.1, lines ++ s.2) := by
  induction bytes generalizing unfinished found with
  | nil => rfl
  | cons b bytes ih =>
    simp only [List.foldlM_cons, byte]
    split
    · rfl
    · split
      · split
        · exact ih [] found
        · rw [List.append_assoc]
          exact ih [] (found ++ [unfinished])
      · exact ih (unfinished ++ [b]) found

lemma outcome_feed (l : Lines) (pieces : List (List UInt8)) :
    outcome (l.feed pieces) = pieces.flatten.foldlM byte (l.unfinished, []) := by
  induction pieces generalizing l with
  | nil => rfl
  | cons bytes more ih =>
    have first := l.outcome_push bytes
    rw [List.flatten_cons, List.foldlM_append, ← first]
    unfold feed
    cases pushed : l.push bytes with
    | mk result l' =>
      cases result with
      | error e => rfl
      | ok lines =>
        have rest := ih l'
        have after := bytes_after lines l'.unfinished [] more.flatten
        rw [List.append_nil, ← rest] at after
        change _ = more.flatten.foldlM byte (l'.unfinished, lines)
        rw [after]
        dsimp only
        cases l'.feed more with
        | mk result' l'' => cases result' <;> rfl

def segments (bytes : List UInt8) : List (List UInt8) := bytes.splitOn LF

def whole (bytes : List UInt8) : List (List UInt8) := (segments bytes).dropLast

def rest (bytes : List UInt8) : List UInt8 := (segments bytes).getLastD []

def OverLong (segments : List (List UInt8)) : Prop :=
  (∃ line ∈ segments.dropLast, MAX_LINE < line.length) ∨ MAX_LINE + 1 < (segments.getLastD []).length

instance (segments : List (List UInt8)) : Decidable (OverLong segments) := instDecidableOr

lemma overLong_cons {line : List UInt8} {more : List (List UInt8)} (h : more ≠ []) :
    OverLong (line :: more) ↔ MAX_LINE < line.length ∨ OverLong more := by
  obtain ⟨next, others, rfl⟩ := List.exists_cons_of_ne_nil h
  simp [OverLong, or_assoc]

lemma segments_ne_nil (bytes : List UInt8) : segments bytes ≠ [] := List.splitOn_ne_nil LF bytes

lemma segments_end (bytes : List UInt8) : segments (LF :: bytes) = [] :: segments bytes := by
  rw [segments, List.splitOn_cons_eq_if_modifyHead, if_pos (beq_self_eq_true LF)]
  rfl

lemma segments_other {b : UInt8} (h : b ≠ LF) (bytes : List UInt8) :
    segments (b :: bytes) = (segments bytes).modifyHead (List.cons b) := by
  rw [segments, List.splitOn_cons_eq_if_modifyHead, if_neg (by simpa using h)]
  rfl

def joined (unfinished : List UInt8) (bytes : List UInt8) : List (List UInt8) :=
  (segments bytes).modifyHead (unfinished ++ ·)

lemma joined_nil (bytes : List UInt8) : joined [] bytes = segments bytes := by
  obtain ⟨next, others, same⟩ := List.exists_cons_of_ne_nil (segments_ne_nil bytes)
  rw [joined, same]
  rfl

lemma joined_end (unfinished bytes : List UInt8) :
    joined unfinished (LF :: bytes) = unfinished :: segments bytes := by
  rw [joined, segments_end, List.modifyHead_cons, List.append_nil]

lemma joined_other (unfinished : List UInt8) {b : UInt8} (h : b ≠ LF) (bytes : List UInt8) :
    joined unfinished (b :: bytes) = joined (unfinished ++ [b]) bytes := by
  obtain ⟨next, others, same⟩ := List.exists_cons_of_ne_nil (segments_ne_nil bytes)
  simp [joined, segments_other h, same]

lemma overLong_joined {unfinished : List UInt8} (long : MAX_LINE + 1 < unfinished.length)
    (bytes : List UInt8) : OverLong (joined unfinished bytes) := by
  obtain ⟨next, others, same⟩ := List.exists_cons_of_ne_nil (segments_ne_nil bytes)
  rw [joined, same, List.modifyHead_cons]
  cases others with
  | nil =>
    refine .inr ?_
    simp only [List.getLastD_cons, List.getLastD_nil, List.length_append]
    omega
  | cons other others =>
    refine .inl ⟨unfinished ++ next, by simp, ?_⟩
    rw [List.length_append]
    omega

lemma bytes_joined (unfinished : List UInt8) (lines : List (List UInt8)) (bytes : List UInt8)
    (short : unfinished.length ≤ MAX_LINE + 1) :
    bytes.foldlM byte (unfinished, lines) =
      if OverLong (joined unfinished bytes) then .error (.longLine MAX_LINE)
      else .ok ((joined unfinished bytes).getLastD [],
        lines ++ (joined unfinished bytes).dropLast.filter (! blank ·)) := by
  induction bytes generalizing unfinished lines with
  | nil =>
    have one : joined unfinished [] = [unfinished] := by simp [joined, segments]
    rw [one, if_neg (by simpa [OverLong] using short)]
    simp [pure, Except.pure]
  | cons b bytes ih =>
    rw [List.foldlM_cons]
    by_cases line : b = LF
    · have later := ih [] (if blank unfinished then lines else lines ++ [unfinished]) (Nat.zero_le _)
      rw [joined_nil] at later
      rw [line, joined_end, byte_end, List.dropLast_cons_of_ne_nil (segments_ne_nil bytes)]
      by_cases long : unfinished.length + 1 > MAX_LINE + 1
      · rw [if_pos long, if_pos ((overLong_cons (segments_ne_nil bytes)).mpr (.inl (by omega)))]
        rfl
      · rw [if_neg long]
        change bytes.foldlM byte ([], if blank unfinished then lines else lines ++ [unfinished]) = _
        have last : (unfinished :: segments bytes).getLastD [] = (segments bytes).getLastD [] := by
          obtain ⟨next, others, same⟩ := List.exists_cons_of_ne_nil (segments_ne_nil bytes)
          rw [same]
          simp
        have found : (if blank unfinished then lines else lines ++ [unfinished]) ++
              (segments bytes).dropLast.filter (! blank ·) =
            lines ++ (unfinished :: (segments bytes).dropLast).filter (! blank ·) := by
          cases h : blank unfinished <;> simp [h]
        rw [later, last, found]
        refine if_congr ?_ rfl rfl
        rw [overLong_cons (segments_ne_nil bytes)]
        exact (or_iff_right (by omega)).symm
    · rw [joined_other unfinished line]
      by_cases long : unfinished.length + 1 > MAX_LINE + 1
      · rw [byte_over _ _ _ long, if_pos (overLong_joined (by simpa using long) bytes)]
        rfl
      · rw [byte_within _ _ (not_lt.mp long) line]
        exact ih (unfinished ++ [b]) lines (by simpa using not_lt.mp long)

lemma feed_cut (pieces : List (List UInt8)) :
    (new.feed pieces).1 =
      if OverLong (segments pieces.flatten) then .error (.longLine MAX_LINE)
      else .ok ((whole pieces.flatten).filter (! blank ·)) := by
  have bytes := bytes_joined [] [] pieces.flatten (Nat.zero_le _)
  rw [joined_nil, List.nil_append] at bytes
  have fed := (outcome_feed new pieces).trans bytes
  unfold outcome at fed
  split at fed
  · next long =>
    rw [if_pos long]
    cases result : (new.feed pieces).1 with
    | error e => simpa [result, Except.map] using fed
    | ok lines => simp [result, Except.map] at fed
  · next within =>
    rw [if_neg within]
    cases result : (new.feed pieces).1 with
    | error e => simp [result, Except.map] at fed
    | ok lines =>
      simp only [result, Except.map, Except.ok.injEq, Prod.mk.injEq] at fed
      rw [fed.2]
      rfl

end Lines

open Decoder StreamReader in
theorem decoded_cut :
    (∀ asks : List (Ask UInt8),
      (reader.run new asks).2.start ≤ (reader.run new asks).2.buffer.length ∧
      frames (reader.run new asks).1 <+: (framing.read (Ask.pushed asks)).1 ∧
      ∀ n, (framing.read (Ask.pushed asks)).1.length < n →
        frames (reader.run new (asks ++ List.replicate n .next)).1 =
            (framing.read (Ask.pushed asks)).1 ∧
          (errors (reader.run new (asks ++ List.replicate n .next)).1).head? =
            (framing.read (Ask.pushed asks)).2) ∧
    (∀ (sent : List Frame) (codes : List (List UInt8)) (asks : List (Ask UInt8)) (n : ℕ),
      sent.mapM Frame.encode = .ok codes → Ask.pushed asks = codes.flatten → sent.length < n →
        frames (reader.run new (asks ++ List.replicate n .next)).1 = sent ∧
          errors (reader.run new (asks ++ List.replicate n .next)).1 = []) ∧
    ∀ pieces : List (List UInt8),
      (Lines.new.feed pieces).1 =
        if Lines.OverLong (Lines.segments pieces.flatten) then .error (.longLine MAX_LINE)
        else .ok ((Lines.whole pieces.flatten).filter (! blank ·)) := by
  refine ⟨fun asks => ⟨(reader.run new asks).2.start_le, ?_, fun n enough => ?_⟩,
    fun sent codes asks n encoded pushed enough => ?_, Lines.feed_cut⟩
  · obtain ⟨same, -⟩ := realises.read new asks
    exact ⟨_, (congrArg Prod.fst same).symm⟩
  · exact realises.cut new asks enough
  · have reads := read_encoded encoded []
    have nothing : framing.read [] = ([], none) := Framing.read_more rfl
    rw [List.append_nil, ← pushed, nothing, List.append_nil] at reads
    have cut := realises.cut new asks (n := n) (by
      change (framing.read (Ask.pushed asks)).1.length < n
      rw [reads]
      exact enough)
    change _ = (framing.read (Ask.pushed asks)).1 ∧ _ = (framing.read (Ask.pushed asks)).2 at cut
    rw [reads] at cut
    exact ⟨cut.1, List.head?_eq_none_iff.mp cut.2⟩

open Decoder StreamReader in
theorem decoded_cut_data :
    frames (reader.run new
        ([.push [1, 0, 0, 0], .next, .push [0, 1, 0, 0, 0, 7]] ++ List.replicate 2 .next)).1 =
      [{ channel := 1, kind := .data, payload := [7] }] :=
  (decoded_cut.2.1 [{ channel := 1, kind := .data, payload := [7] }] [[1, 0, 0, 0, 0, 1, 0, 0, 0, 7]]
    [.push [1, 0, 0, 0], .next, .push [0, 1, 0, 0, 0, 7]] 2 rfl rfl (by decide)).1

end Sheprd.Core.Framed
