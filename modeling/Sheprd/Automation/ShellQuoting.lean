import Sheprd.Automation.Tokens

namespace Sheprd.Automation

open Sheprd.Lib Sheprd.Lib.Shell

def Digits (number : Chars) : Prop := number ≠ [] ∧ ∀ c ∈ number, c.isDigit = true

structure OutputToken (token name number : Chars) : Prop where
  spelled : token = '{' :: (name ++ ':' :: number ++ ['}'])
  named : name = logTailName ∨ name = runIdName
  numbered : Digits number ∨ ∃ digits, Digits digits ∧ number = '+' :: digits

lemma parseUsize_digits {number : Chars} {n : ℕ} (h : parseUsize number = some n) :
    Digits number ∨ ∃ digits, Digits digits ∧ number = '+' :: digits := by
  simp only [parseUsize] at h
  split at h
  · rename_i digits
    split at h
    · exact absurd h (by simp)
    · rename_i hd
      rw [not_or, not_not, List.all_eq_true] at hd
      exact .inr ⟨digits, hd, rfl⟩
  · split at h
    · exact absurd h (by simp)
    · rename_i hd
      rw [not_or, not_not, List.all_eq_true] at hd
      exact .inl hd

lemma Values.value_output {v : Values} {token value : Chars} (h : v.value token = some value)
    (hd : token ≠ dateToken) (ht : token ≠ timeToken) :
    ∃ name number, OutputToken token name number := by
  rw [Values.value, if_neg hd, if_neg ht] at h
  obtain ⟨inner, hi, h⟩ := Option.bind_eq_some_iff.mp h
  obtain ⟨opened, ho, hi⟩ := Option.bind_eq_some_iff.mp hi
  obtain ⟨⟨name, number⟩, hs, h⟩ := Option.bind_eq_some_iff.mp h
  obtain ⟨index, hx, h⟩ := Option.bind_eq_some_iff.mp h
  obtain ⟨n, hn, -⟩ := Option.bind_eq_some_iff.mp hx
  obtain ⟨list, hl, -⟩ := Option.bind_eq_some_iff.mp h
  refine ⟨name, number, ?_, ?_, parseUsize_digits hn⟩
  · rw [Text.stripPrefix_eq_some ho, Text.stripSuffix_eq_some hi, Text.splitOnce_eq_some hs]
  · rw [Values.list] at hl
    split_ifs at hl with h1 h2
    · exact .inl h1
    · exact .inr h2

namespace OutputToken

variable {token name number : Chars}

lemma number_chars (h : OutputToken token name number) :
    ∀ c ∈ number, c.isDigit = true ∨ c = '+' := by
  intro c hc
  obtain hd | ⟨digits, hd, rfl⟩ := h.numbered
  · exact .inl (hd.2 c hc)
  · obtain rfl | hc := List.mem_cons.mp hc
    · exact .inr rfl
    · exact .inl (hd.2 c hc)

lemma number_last (h : OutputToken token name number) :
    ∃ front c, number = front ++ [c] ∧ c.isDigit = true := by
  obtain hd | ⟨digits, hd, rfl⟩ := h.numbered
  · obtain ⟨front, c, rfl⟩ := (List.eq_nil_or_concat' _).resolve_left hd.1
    exact ⟨front, c, rfl, hd.2 c (by simp)⟩
  · obtain ⟨front, c, rfl⟩ := (List.eq_nil_or_concat' _).resolve_left hd.1
    exact ⟨'+' :: front, c, rfl, hd.2 c (by simp)⟩

lemma plus_iff (h : OutputToken token name number) : '+' ∈ token ↔ '+' ∈ number := by
  rw [h.spelled]
  obtain rfl | rfl := h.named
  · simp [logTailName]
  · simp [runIdName]

lemma toUpper_number {c : Char} (h : c.isDigit = true ∨ c = '+') :
    (if c = ':' then '_' else c.toUpper) = c := by
  obtain hd | rfl := h
  · have hl : ¬('a'.val ≤ c.val ∧ c.val ≤ 'z'.val) := by
      simp only [Char.isDigit, Bool.and_eq_true, decide_eq_true_eq, UInt32.le_iff_toNat_le,
        ge_iff_le] at hd ⊢
      have h9 : '9'.val.toNat = 57 := rfl
      have ha : 'a'.val.toNat = 97 := rfl
      omega
    rw [if_neg (by rintro rfl; exact absurd hd (by decide))]
    exact dif_neg hl
  · rfl

lemma variableName_eq (h : OutputToken token name number) :
    variableName token = variableStart ++ (name.map Char.toUpper ++ '_' :: number) := by
  obtain ⟨front, c, hn, hc⟩ := h.number_last
  have hbrace : c ≠ '}' := by
    rintro rfl
    exact absurd hc (by decide)
  have htrim : ∀ lead, Text.trimEndMatches '}' (lead ++ ':' :: (number ++ ['}'])) =
      lead ++ ':' :: number := by
    intro lead
    have := Text.trimEndMatches_concat hbrace (lead ++ ':' :: front)
    rw [hn]
    simpa using this
  have hmap : number.map (fun c => if c = ':' then '_' else c.toUpper) = number := by
    rw [List.map_congr_left fun c hc => toUpper_number (h.number_chars c hc), List.map_id']
  rw [variableName, h.spelled]
  obtain rfl | rfl := h.named
  · have hd : ('{' :: (logTailName ++ ':' :: number ++ ['}'])).dropWhile (· = '{') =
        logTailName ++ ':' :: (number ++ ['}']) := by simp [logTailName]
    simp only [hd, htrim, List.map_append, List.map_cons, hmap]
    rfl
  · have hd : ('{' :: (runIdName ++ ':' :: number ++ ['}'])).dropWhile (· = '{') =
        runIdName ++ ':' :: (number ++ ['}']) := by simp [runIdName]
    simp only [hd, htrim, List.map_append, List.map_cons, hmap]
    rfl

lemma word (h : OutputToken token name number) : Word token := by
  have hnumber : ∀ c ∈ number, isNameChar c = true ∨ c ∈ ['-', ':', '+', '{', '}'] := by
    intro c hc
    obtain hd | rfl := h.number_chars c hc
    · exact .inl (by simp [isNameChar, Char.isAlphanum, hd])
    · exact .inr (by decide)
  rw [h.spelled]
  refine ⟨?_, .inl ⟨':', by simp, .inr (.inr rfl)⟩⟩
  intro c hc
  simp only [List.mem_cons, List.mem_append, List.not_mem_nil, or_false] at hc
  obtain rfl | (hc | rfl | hc) | rfl := hc
  · exact .inr (by decide)
  · obtain rfl | rfl := h.named
    · exact .inl (List.all_eq_true.mp (by decide : logTailName.all isNameChar = true) c hc)
    · exact .inl (List.all_eq_true.mp (by decide : runIdName.all isNameChar = true) c hc)
  · exact .inr (by decide)
  · exact hnumber c hc
  · exact .inr (by decide)

lemma dollar_not_mem (h : OutputToken token name number) : '$' ∉ variableName token := by
  have hnumber : '$' ∉ number := fun hm => absurd (h.number_chars '$' hm) (by decide)
  have hfixed (fixed : Chars) (hf : '$' ∉ fixed) :
      '$' ∉ variableStart ++ (fixed ++ '_' :: number) := by
    simp [variableStart, hf, hnumber]
  rw [h.variableName_eq]
  obtain rfl | rfl := h.named
  · exact hfixed _ (by decide)
  · exact hfixed _ (by decide)

lemma validName_iff (h : OutputToken token name number) :
    ValidName (variableName token) ↔ '+' ∉ token := by
  rw [h.variableName_eq, h.plus_iff]
  constructor
  · intro hv hp
    refine absurd (hv.all '+' ?_) (by decide)
    simp [hp]
  · intro hp
    refine ⟨by decide, ?_⟩
    have hrest : ∀ fixed : Chars, fixed.all isNameChar = true →
        ∀ c ∈ variableStart.tail ++ (fixed ++ '_' :: number), isNameChar c = true := by
      intro fixed hf c hm
      simp only [List.mem_cons, List.mem_append] at hm
      obtain hm | hm | rfl | hm := hm
      · exact List.all_eq_true.mp (by decide : variableStart.tail.all isNameChar = true) c hm
      · exact List.all_eq_true.mp hf c hm
      · decide
      · obtain hd | rfl := h.number_chars c hm
        · simp [isNameChar, Char.isAlphanum, hd]
        · exact absurd hm hp
    obtain rfl | rfl := h.named
    · exact hrest _ (by decide)
    · exact hrest _ (by decide)

lemma variableName_inj {token' name' number' : Chars} (h : OutputToken token name number)
    (h' : OutputToken token' name' number') (he : variableName token = variableName token') :
    token = token' := by
  rw [h.variableName_eq, h'.variableName_eq, List.append_cancel_left_eq] at he
  have hname : name = name' ∧ number = number' := by
    obtain rfl | rfl := h.named <;> obtain rfl | rfl := h'.named
    · exact ⟨rfl, by simpa using he⟩
    · exact absurd he (by simp [logTailName, runIdName])
    · exact absurd he (by simp [logTailName, runIdName])
    · exact ⟨rfl, by simpa using he⟩
  rw [h.spelled, h'.spelled, hname.1, hname.2]

end OutputToken

def Quoting.form (q : Quoting) : Form :=
  if q.single then .single else if q.top = some .double then .double else .bare

lemma Quoting.reference_eq (q : Quoting) (name : Chars) :
    q.reference name = q.form.reference name := by
  rw [Quoting.reference, Quoting.form]
  split_ifs <;> simp [Form.reference, Form.lead, Form.body, Form.trail]

def Clock (text : Chars) : Prop :=
  text ≠ [] ∧ ∀ c ∈ text, c.isDigit = true ∨ c = '-' ∨ c = ':'

structure Values.Clocked (v : Values) : Prop where
  date : Clock v.date
  time : Clock v.time

lemma Clock.word {text : Chars} (h : Clock text) : Word text := by
  constructor
  · intro c hc
    obtain hd | rfl | rfl := h.2 c hc
    · exact .inl (by simp [isNameChar, Char.isAlphanum, hd])
    · exact .inr (by decide)
    · exact .inr (by decide)
  · obtain ⟨c, hc⟩ := List.exists_mem_of_ne_nil _ h.1
    exact .inl ⟨c, hc, h.2 c hc⟩

inductive Comes (v : Values) (text : Chars) : Chars → Quoting → Chars → Prop where
  | start : Comes v text [] {} text
  | token {seen : Chars} {q : Quoting} {rest token value : Chars} :
      Comes v text seen q rest → v.tokenAt rest = some (token, value) →
      Comes v text (seen ++ token) q (rest.drop token.length)
  | read {seen : Chars} {q : Quoting} {c : Char} {tail : Chars} :
      Comes v text seen q (c :: tail) → v.tokenAt (c :: tail) = none →
      Comes v text (seen ++ (c :: tail).take (q.read (c :: tail)).2) (q.read (c :: tail)).1
        ((c :: tail).drop (q.read (c :: tail)).2)

def Values.Definite (sh : Shell) (v : Values) (text : Chars) : Prop :=
  ∀ seen q rest token value, Comes v text seen q rest → v.tokenAt rest = some (token, value) →
    ∃ p, sh.place (sh.reads sh.start seen) = some p

def Values.Fillable (sh : Shell) (v : Values) (text : Chars) : Prop :=
  ∀ seen q rest token value, Comes v text seen q rest → v.tokenAt rest = some (token, value) →
    token ≠ dateToken → token ≠ timeToken →
    '+' ∉ token ∧ sh.form (sh.reads sh.start seen) = some q.form

structure Filling.Quoted (sh : Shell) (v : Values) (text : Chars) (f : Filling) : Prop where
  spelled : f.filled = outputs f.pieces ∧ sources f.pieces = text
  agrees : ∀ before after, f.pieces = before ++ after →
    sh.Alike (sh.reads sh.start (outputs before)) (sh.reads sh.start (sources before))
  quoted : ∀ before token ref after lead tail, f.pieces = before ++ .reference token ref :: after →
    ref = lead ++ '$' :: tail →
    sh.form (sh.reads sh.start (outputs before ++ lead)) = some .double ∧
      parameter (tail ++ outputs after) = some (variableName token)
  bound : ∀ token ref, Piece.reference token ref ∈ f.pieces →
    ValidName (variableName token) ∧
      ∀ value, (variableName token, value) ∈ f.env ↔ v.value token = some value

lemma outputs_append (a b : List Piece) : outputs (a ++ b) = outputs a ++ outputs b :=
  List.flatMap_append

lemma sources_append (a b : List Piece) : sources (a ++ b) = sources a ++ sources b :=
  List.flatMap_append

lemma outputs_cons (piece : Piece) (pieces : List Piece) :
    outputs (piece :: pieces) = piece.output ++ outputs pieces := List.flatMap_cons

lemma sources_cons (piece : Piece) (pieces : List Piece) :
    sources (piece :: pieces) = piece.source ++ sources pieces := List.flatMap_cons

def Piece.Placed (sh : Shell) (s : sh.State) : Piece → Prop
  | copied _ => True
  | clock token value => Word token ∧ Word value ∧ ∃ p, sh.place s = some p
  | reference token ref => '+' ∉ token ∧ (∃ name number, OutputToken token name number) ∧
      ∃ form : Form, ref = form.reference (variableName token) ∧ sh.form s = some form

def AllPlaced (sh : Shell) : sh.State → List Piece → Prop
  | _, [] => True
  | s, piece :: pieces => piece.Placed sh s ∧ AllPlaced sh (sh.reads s piece.output) pieces

lemma OutputToken.reference_split {token name number lead tail : Chars} {form : Form}
    (h : OutputToken token name number)
    (hr : form.lead ++ '$' :: (form.body (variableName token) ++ form.trail) =
      lead ++ '$' :: tail) :
    lead = form.lead ∧ tail = form.body (variableName token) ++ form.trail := by
  have hname := h.dollar_not_mem
  have hlead : '$' ∉ form.lead := by
    cases form <;> decide
  have htail : '$' ∉ form.body (variableName token) ++ form.trail := by
    cases form <;> simp [Form.body, Form.trail, hname]
  obtain ⟨rfl, -, rfl⟩ := (List.append_cons_inj_of_notMem hlead htail).mp hr
  exact ⟨rfl, rfl⟩

section Placed

variable {sh : Shell} (h : sh.Posix) {s : sh.State}

include h

lemma Piece.Placed.alike {piece : Piece} (hp : piece.Placed sh s) :
    sh.Alike (sh.reads s piece.output) (sh.reads s piece.source) := by
  cases piece with
  | copied text => exact .refl _
  | clock token value =>
    obtain ⟨htoken, hvalue, p, hplace⟩ := hp
    exact h.word s p value token hplace hvalue htoken
  | reference token ref =>
    obtain ⟨hplus, ⟨name, number, ho⟩, form, rfl, hform⟩ := hp
    exact (Form.reads_reference h hform (ho.validName_iff.mpr hplus) ho.word).2

lemma AllPlaced.alike {pieces : List Piece} (hp : AllPlaced sh s pieces) :
    sh.Alike (sh.reads s (outputs pieces)) (sh.reads s (sources pieces)) := by
  induction pieces generalizing s with
  | nil => exact .refl _
  | cons piece pieces ih =>
    rw [outputs_cons, sources_cons, Shell.reads_append, Shell.reads_append]
    exact (ih hp.2).trans ((hp.1.alike h).reads _)

end Placed

lemma allPlaced_append {sh : Shell} {s : sh.State} {a b : List Piece} :
    AllPlaced sh s (a ++ b) ↔ AllPlaced sh s a ∧ AllPlaced sh (sh.reads s (outputs a)) b := by
  induction a generalizing s with
  | nil => exact ⟨fun h => ⟨trivial, h⟩, fun h => h.2⟩
  | cons piece a ih =>
    rw [List.cons_append, AllPlaced, AllPlaced, ih, outputs_cons, Shell.reads_append, and_assoc]

namespace Filling

@[simp]
lemma bind_pieces (f : Filling) (name value : Chars) : (f.bind name value).pieces = f.pieces := by
  rw [bind]
  split <;> rfl

@[simp]
lemma bind_filled (f : Filling) (name value : Chars) : (f.bind name value).filled = f.filled := by
  rw [bind]
  split <;> rfl

@[simp]
lemma bind_quoting (f : Filling) (name value : Chars) :
    (f.bind name value).quoting = f.quoting := by
  rw [bind]
  split <;> rfl

def tokenPiece (f : Filling) (token value : Chars) : Piece :=
  if token = dateToken ∨ token = timeToken then .clock token value
  else .reference token (f.quoting.reference (variableName token))

lemma fillToken_pieces (f : Filling) (token value : Chars) :
    (f.fillToken token value).pieces = f.pieces ++ [f.tokenPiece token value] := by
  rw [fillToken, tokenPiece]
  split
  · rfl
  · exact bind_pieces _ _ _

lemma fillToken_filled (f : Filling) (token value : Chars) :
    (f.fillToken token value).filled = f.filled ++ (f.tokenPiece token value).output := by
  rw [fillToken, tokenPiece]
  split
  · rfl
  · exact bind_filled _ _ _

lemma fillToken_quoting (f : Filling) (token value : Chars) :
    (f.fillToken token value).quoting = f.quoting := by
  rw [fillToken]
  split
  · rfl
  · exact bind_quoting _ _ _

lemma tokenPiece_source (f : Filling) (token value : Chars) :
    (f.tokenPiece token value).source = token := by
  rw [tokenPiece]
  split <;> rfl

structure At (v : Values) (text : Chars) (f : Filling) (rest : Chars) : Prop where
  comes : Comes v text (sources f.pieces) f.quoting rest
  filled : f.filled = outputs f.pieces

end Filling

namespace Values

lemma tokenAt_take {v : Values} {rest token value : Chars}
    (h : v.tokenAt rest = some (token, value)) :
    v.value token = some value ∧ rest.take token.length = token := by
  rw [tokenAt] at h
  split at h
  · obtain ⟨close, hc, h⟩ := Option.bind_eq_some_iff.mp h
    obtain ⟨found, hv, h⟩ := Option.bind_eq_some_iff.mp h
    obtain ⟨rfl, rfl⟩ := Prod.mk.inj (Option.some.inj h)
    have hl := (List.findIdx?_eq_some_iff_findIdx_eq.mp hc).1
    refine ⟨hv, ?_⟩
    rw [List.length_take, Nat.min_eq_left hl]
  · exact absurd h (by simp)

variable {v : Values} {text : Chars}

lemma at_start : Filling.At v text {} text := ⟨.start, rfl⟩

lemma at_token {f : Filling} {rest token value : Chars} (h : f.At v text rest)
    (ht : v.tokenAt rest = some (token, value)) :
    (f.fillToken token value).At v text (rest.drop token.length) := by
  constructor
  · rw [Filling.fillToken_pieces, Filling.fillToken_quoting, sources_append, sources_cons,
      Filling.tokenPiece_source]
    simpa [sources] using h.comes.token ht
  · rw [Filling.fillToken_pieces, Filling.fillToken_filled, h.filled, outputs_append]
    simp [outputs]

lemma at_read {f : Filling} {c : Char} {tail : Chars} (h : f.At v text (c :: tail))
    (ht : v.tokenAt (c :: tail) = none) :
    (f.copy (c :: tail)).At v text ((c :: tail).drop (f.quoting.read (c :: tail)).2) := by
  constructor
  · have hc := h.comes.read ht
    simpa [Filling.copy, Filling.push, sources_append, sources, Piece.source] using hc
  · simp [Filling.copy, Filling.push, outputs, Piece.output, h.filled]

lemma fillFrom_token {f : Filling} {rest token value : Chars}
    (ht : v.tokenAt rest = some (token, value)) :
    v.fillFrom f rest = v.fillFrom (f.fillToken token value) (rest.drop token.length) := by
  cases rest with
  | nil => exact absurd ht (by simp [tokenAt])
  | cons c tail =>
    rw [fillFrom]
    split
    · rename_i token' value' ht'
      obtain ⟨rfl, rfl⟩ := Prod.mk.inj (Option.some.inj (ht.symm.trans ht'))
      rfl
    · rename_i ht'
      exact absurd (ht.symm.trans ht') (by simp)

lemma fillFrom_read {f : Filling} {c : Char} {tail : Chars} (ht : v.tokenAt (c :: tail) = none) :
    v.fillFrom f (c :: tail) =
      v.fillFrom (f.copy (c :: tail)) ((c :: tail).drop (f.quoting.read (c :: tail)).2) := by
  rw [fillFrom]
  split
  · rename_i token value ht'
    exact absurd (ht.symm.trans ht') (by simp)
  · rfl

lemma Comes.fills {seen rest : Chars} {q : Quoting} (h : Comes v text seen q rest) :
    ∃ f : Filling, v.fillShell text = v.fillFrom f rest ∧ f.At v text rest ∧
      f.quoting = q ∧ sources f.pieces = seen := by
  induction h with
  | start => exact ⟨{}, rfl, at_start, rfl, rfl⟩
  | token h ht ih =>
    obtain ⟨f, hf, ha, rfl, rfl⟩ := ih
    refine ⟨_, hf.trans (fillFrom_token ht), at_token ha ht, Filling.fillToken_quoting _ _ _, ?_⟩
    rw [Filling.fillToken_pieces, sources_append, sources_cons, Filling.tokenPiece_source]
    simp [sources]
  | read h ht ih =>
    obtain ⟨f, hf, ha, rfl, rfl⟩ := ih
    refine ⟨_, hf.trans (fillFrom_read ht), at_read ha ht, rfl, ?_⟩
    simp [Filling.copy, Filling.push, sources, Piece.source]

lemma fillFrom_induct {P : Filling → Prop}
    (htoken : ∀ f rest token value, f.At v text rest → v.tokenAt rest = some (token, value) →
      P f → P (f.fillToken token value))
    (hread : ∀ f c tail, f.At v text (c :: tail) → v.tokenAt (c :: tail) = none →
      P f → P (f.copy (c :: tail)))
    (f : Filling) (rest : Chars) (ha : f.At v text rest) (hp : P f) :
    P (v.fillFrom f rest) ∧ (v.fillFrom f rest).At v text [] := by
  fun_induction fillFrom v f rest with
  | case1 f => exact ⟨hp, ha⟩
  | case2 f c tail token value ht ih => exact ih (at_token ha ht) (htoken _ _ _ _ ha ht hp)
  | case3 f c tail ht ih => exact ih (at_read ha ht) (hread _ _ _ ha ht hp)

lemma fillFrom_extends (f : Filling) (rest : Chars) :
    ∃ after, (v.fillFrom f rest).pieces = f.pieces ++ after := by
  fun_induction fillFrom v f rest with
  | case1 f => exact ⟨[], (List.append_nil _).symm⟩
  | case2 f c tail token value ht ih =>
    obtain ⟨after, ih⟩ := ih
    rw [Filling.fillToken_pieces, List.append_assoc] at ih
    exact ⟨_, ih⟩
  | case3 f c tail ht ih =>
    obtain ⟨after, ih⟩ := ih
    rw [Filling.copy, Filling.push, List.append_assoc] at ih
    exact ⟨_, ih⟩

lemma Comes.append_eq {seen rest : Chars} {q : Quoting} (h : Comes v text seen q rest) :
    seen ++ rest = text := by
  induction h with
  | start => rfl
  | token h ht ih =>
    rw [List.append_assoc]
    nth_rewrite 1 [← (tokenAt_take ht).2]
    rw [List.take_append_drop, ih]
  | read h ht ih => rw [List.append_assoc, List.take_append_drop, ih]

lemma sources_eq {f : Filling} (h : f.At v text []) : sources f.pieces = text := by
  simpa using Comes.append_eq h.comes

def Bound (v : Values) (f : Filling) : Prop :=
  (∀ token ref, Piece.reference token ref ∈ f.pieces → ∃ name number, OutputToken token name number) ∧
  ∀ name value, (name, value) ∈ f.env ↔ ∃ token ref, Piece.reference token ref ∈ f.pieces ∧
    variableName token = name ∧ v.value token = some value

lemma Bound.fillToken {f : Filling} {rest token value : Chars} (h : v.Bound f)
    (ht : v.tokenAt rest = some (token, value)) : v.Bound (f.fillToken token value) := by
  have hv := (tokenAt_take ht).1
  by_cases hc : token = dateToken ∨ token = timeToken
  · have hmem : ∀ token' ref, Piece.reference token' ref ∈ (f.fillToken token value).pieces ↔
        Piece.reference token' ref ∈ f.pieces := by
      intro token' ref
      simp [Filling.fillToken_pieces, Filling.tokenPiece, hc]
    have henv : (f.fillToken token value).env = f.env := by
      rw [Filling.fillToken, if_pos hc]
      rfl
    simp only [Bound, hmem, henv]
    exact h
  · obtain ⟨name, number, ho⟩ := value_output hv (fun e => hc (.inl e)) (fun e => hc (.inr e))
    have hmem : ∀ token' ref, Piece.reference token' ref ∈ (f.fillToken token value).pieces ↔
        Piece.reference token' ref ∈ f.pieces ∨
          token' = token ∧ ref = f.quoting.reference (variableName token) := by
      intro token' ref
      simp [Filling.fillToken_pieces, Filling.tokenPiece, hc]
    have hdone : (∃ known ∈ f.env, known.1 = variableName token) →
        (variableName token, value) ∈ f.env := by
      rintro ⟨⟨name', value'⟩, hk, hn⟩
      obtain ⟨token', ref, hr, hn', hv'⟩ := (h.2 name' value').mp hk
      obtain ⟨name'', number'', ho'⟩ := h.1 token' ref hr
      obtain rfl := ho'.variableName_inj ho (hn'.trans hn)
      obtain rfl := Option.some.inj (hv'.symm.trans hv)
      rwa [← hn]
    have henv : ∀ name' value', (name', value') ∈ (f.fillToken token value).env ↔
        (name', value') ∈ f.env ∨ name' = variableName token ∧ value' = value := by
      intro name' value'
      rw [Filling.fillToken, if_neg hc]
      simp only [Filling.bind]
      split
      · rename_i hk
        refine ⟨.inl, ?_⟩
        rintro (hm | ⟨rfl, rfl⟩)
        · exact hm
        · exact hdone (by simpa [Filling.push] using hk)
      · simp [Filling.push]
    refine ⟨?_, ?_⟩
    · intro token' ref hr
      obtain hr | ⟨rfl, -⟩ := (hmem token' ref).mp hr
      · exact h.1 token' ref hr
      · exact ⟨name, number, ho⟩
    · intro name' value'
      rw [henv, h.2]
      constructor
      · rintro (⟨token', ref, hr, hn, hv'⟩ | ⟨rfl, rfl⟩)
        · exact ⟨token', ref, (hmem _ _).mpr (.inl hr), hn, hv'⟩
        · exact ⟨token, _, (hmem _ _).mpr (.inr ⟨rfl, rfl⟩), rfl, hv⟩
      · rintro ⟨token', ref, hr, hn, hv'⟩
        obtain hr | ⟨rfl, rfl⟩ := (hmem _ _).mp hr
        · exact .inl ⟨token', ref, hr, hn, hv'⟩
        · exact .inr ⟨hn.symm, Option.some.inj (hv'.symm.trans hv)⟩

lemma Bound.copy {f : Filling} (h : v.Bound f) (rest : Chars) : v.Bound (f.copy rest) := by
  have hmem : ∀ token ref, Piece.reference token ref ∈ (f.copy rest).pieces ↔
      Piece.reference token ref ∈ f.pieces := by
    intro token ref
    simp [Filling.copy, Filling.push]
  have henv : (f.copy rest).env = f.env := rfl
  simp only [Bound, hmem, henv]
  exact h

lemma bound_start : v.Bound {} := ⟨by simp, by simp⟩

lemma braced_word {name : Chars} (h : name.all isNameChar = true) : Word ('{' :: (name ++ ['}'])) := by
  refine ⟨fun c hc => ?_, .inr ⟨List.mem_cons_self, by simp⟩⟩
  simp only [List.mem_cons, List.mem_append, List.not_mem_nil, or_false] at hc
  obtain rfl | hc | rfl := hc
  · exact .inr (by decide)
  · exact .inl (List.all_eq_true.mp h c hc)
  · exact .inr (by decide)

lemma dateToken_word : Word dateToken :=
  braced_word (by decide : ['d', 'a', 't', 'e'].all isNameChar = true)

lemma timeToken_word : Word timeToken :=
  braced_word (by decide : ['t', 'i', 'm', 'e'].all isNameChar = true)

lemma Clocked.words (h : v.Clocked) {token value : Chars} (hv : v.value token = some value)
    (hc : token = dateToken ∨ token = timeToken) : Word token ∧ Word value := by
  obtain rfl | rfl := hc
  · rw [Values.value, if_pos rfl] at hv
    obtain rfl := Option.some.inj hv
    exact ⟨dateToken_word, h.date.word⟩
  · rw [Values.value, if_neg (by decide), if_pos rfl] at hv
    obtain rfl := Option.some.inj hv
    exact ⟨timeToken_word, h.time.word⟩

lemma value_word {token value : Chars} (h : v.value token = some value) : Word token := by
  by_cases hd : token = dateToken
  · exact hd ▸ dateToken_word
  by_cases hm : token = timeToken
  · exact hm ▸ timeToken_word
  · obtain ⟨name, number, ho⟩ := value_output h hd hm
    exact ho.word

section Shell

variable {sh : Shell} (h : sh.Posix)

include h

lemma Fillable.placed (hv : v.Clocked) (hdefinite : v.Definite sh text)
    (hf : v.Fillable sh text) : AllPlaced sh sh.start (v.fillShell text).pieces := by
  refine (fillFrom_induct (P := fun f => AllPlaced sh sh.start f.pieces) ?_ ?_ {} text at_start
    trivial).1
  · intro f rest token value ha ht hp
    rw [Filling.fillToken_pieces, allPlaced_append]
    refine ⟨hp, ?_, trivial⟩
    have halike := hp.alike h
    have hvalue := (tokenAt_take ht).1
    rw [Filling.tokenPiece]
    split
    · rename_i hc
      obtain ⟨p, hplace⟩ := hdefinite _ _ _ _ _ ha.comes ht
      obtain ⟨htoken, hword⟩ := hv.words hvalue hc
      exact ⟨htoken, hword, p, halike.place.trans hplace⟩
    · rename_i hc
      have hd : token ≠ dateToken := fun e => hc (.inl e)
      have hm : token ≠ timeToken := fun e => hc (.inr e)
      obtain ⟨hplus, hform⟩ := hf _ _ _ _ _ ha.comes ht hd hm
      exact ⟨hplus, value_output hvalue hd hm, _, f.quoting.reference_eq _,
        halike.form.trans hform⟩
  · intro f c tail ha ht hp
    rw [Filling.copy, Filling.push, allPlaced_append]
    exact ⟨hp, trivial, trivial⟩

lemma Fillable.quoted (hv : v.Clocked) (hdefinite : v.Definite sh text)
    (hf : v.Fillable sh text) : (v.fillShell text).Quoted sh v text := by
  have hp := hf.placed h hv hdefinite
  obtain ⟨hb, ha⟩ := fillFrom_induct (P := v.Bound) (fun f rest token value _ ht hb => hb.fillToken ht)
    (fun f c tail _ _ hb => hb.copy _) {} text at_start bound_start
  refine ⟨⟨ha.filled, sources_eq ha⟩, ?_, ?_, ?_⟩
  · intro before after hsplit
    rw [hsplit, allPlaced_append] at hp
    exact hp.1.alike h
  · intro before token ref after lead tail hsplit href
    rw [hsplit, allPlaced_append] at hp
    obtain ⟨hplus, ⟨name, number, ho⟩, form, hwritten, hform⟩ := hp.2.1
    rw [hwritten, Form.reference] at href
    obtain ⟨rfl, rfl⟩ := ho.reference_split href
    have hname := ho.validName_iff.mpr hplus
    rw [Shell.reads_append]
    exact ⟨(Form.reads_reference h hform hname ho.word).1, Form.parameter_reference form hname _⟩
  · intro token ref hr
    obtain ⟨name, number, ho⟩ := hb.1 token ref hr
    have hplus : '+' ∉ token := by
      obtain ⟨before, after, hsplit⟩ := List.append_of_mem hr
      rw [hsplit, allPlaced_append] at hp
      exact hp.2.1.1
    refine ⟨ho.validName_iff.mpr hplus, ?_⟩
    intro value
    refine (hb.2 (variableName token) value).trans ⟨?_, fun hvalue => ⟨token, ref, hr, rfl, hvalue⟩⟩
    rintro ⟨token', ref', hr', hn, hvalue⟩
    obtain ⟨name', number', ho'⟩ := hb.1 token' ref' hr'
    rwa [← ho'.variableName_inj ho hn]

end Shell

lemma comes_reference {seen rest token value : Chars} {q : Quoting}
    (hcomes : Comes v text seen q rest) (ht : v.tokenAt rest = some (token, value))
    (hd : token ≠ dateToken) (hm : token ≠ timeToken) :
    ∃ before after, sources before = seen ∧ (v.fillShell text).pieces =
      before ++ .reference token (q.form.reference (variableName token)) :: after := by
  obtain ⟨f, hf, ha, rfl, rfl⟩ := Comes.fills hcomes
  have hpiece : f.tokenPiece token value =
      .reference token (f.quoting.form.reference (variableName token)) := by
    rw [Filling.tokenPiece, if_neg (not_or.mpr ⟨hd, hm⟩), f.quoting.reference_eq]
  obtain ⟨after, hafter⟩ := fillFrom_extends (v := v) (f.fillToken token value)
    (rest.drop token.length)
  rw [← fillFrom_token ht, ← hf, Filling.fillToken_pieces, hpiece, List.append_assoc] at hafter
  exact ⟨f.pieces, after, rfl, hafter⟩

def PlusFree (v : Values) (text : Chars) : Prop :=
  ∀ seen q rest token value, Comes v text seen q rest → v.tokenAt rest = some (token, value) →
    token ≠ dateToken → token ≠ timeToken → '+' ∉ token

lemma plusFree_of_quoted {sh : Shell} (hq : (v.fillShell text).Quoted sh v text) :
    v.PlusFree text := by
  intro seen q rest token value hcomes ht hd hm
  obtain ⟨name, number, ho⟩ := value_output (tokenAt_take ht).1 hd hm
  obtain ⟨before, after, -, hpieces⟩ := comes_reference hcomes ht hd hm
  have hmem : Piece.reference token (q.form.reference (variableName token)) ∈
      (v.fillShell text).pieces := by
    rw [hpieces]
    simp
  exact ho.validName_iff.mp (hq.bound _ _ hmem).1

lemma fillable_of_quoted {sh : Shell} (h : sh.Posix) (hdefinite : v.Definite sh text)
    (hq : (v.fillShell text).Quoted sh v text) : v.Fillable sh text := by
  intro seen q rest token value hcomes ht hd hm
  refine ⟨plusFree_of_quoted hq _ _ _ _ _ hcomes ht hd hm, ?_⟩
  obtain ⟨p, hplace⟩ := hdefinite _ _ _ _ _ hcomes ht
  obtain ⟨before, after, rfl, hpieces⟩ := comes_reference hcomes ht hd hm
  have hbefore := hq.agrees _ _ hpieces
  have hlead := (hq.quoted _ _ _ _ _ _ hpieces rfl).1
  rw [Shell.reads_append] at hlead
  have hform := Form.form_of_lead h (hbefore.place.trans hplace) hlead
  rw [Shell.form, hplace, Option.map_some, hform]

end Values

inductive Sure (sh : Shell) (v : Values) : sh.State → Quoting → Chars → Prop where
  | done (s : sh.State) (q : Quoting) : Sure sh v s q []
  | token {s : sh.State} {q : Quoting} {rest token value : Chars}
      (ht : v.tokenAt rest = some (token, value)) (hform : sh.form s = some q.form)
      (hrest : Sure sh v (sh.reads s token) q (rest.drop token.length)) : Sure sh v s q rest
  | read {s : sh.State} {q : Quoting} {c : Char} {tail : Chars}
      (ht : v.tokenAt (c :: tail) = none)
      (hrest : Sure sh v (sh.reads s ((c :: tail).take (q.read (c :: tail)).2))
        (q.read (c :: tail)).1 ((c :: tail).drop (q.read (c :: tail)).2)) :
      Sure sh v s q (c :: tail)

namespace Sure

variable {sh : Shell} {v : Values} {s : sh.State} {q : Quoting}

lemma comes {text seen rest : Chars} (hc : Comes v text seen q rest)
    (h : Sure sh v sh.start {} text) : Sure sh v (sh.reads sh.start seen) q rest := by
  induction hc with
  | start => exact h
  | token hc ht ih =>
    rw [Shell.reads_append]
    cases ih with
    | done => simp [Values.tokenAt] at ht
    | token ht' hform hrest =>
      obtain ⟨rfl, rfl⟩ := Prod.mk.inj (Option.some.inj (ht.symm.trans ht'))
      exact hrest
    | read ht' => cases ht.symm.trans ht'
  | read hc ht ih =>
    rw [Shell.reads_append]
    cases ih with
    | token ht' => cases ht.symm.trans ht'
    | read ht' hrest => exact hrest

lemma at_token {rest token value : Chars} (h : Sure sh v s q rest)
    (ht : v.tokenAt rest = some (token, value)) : sh.form s = some q.form := by
  cases h with
  | done => simp [Values.tokenAt] at ht
  | token _ hform _ => exact hform
  | read ht' => cases ht.symm.trans ht'

lemma step (front : Chars) {rest : Chars} {q' : Quoting}
    (hread : q.read (front ++ rest) = (q', front.length)) (hne : front ≠ [])
    (hopen : front.head? ≠ some '{') (h : Sure sh v (sh.reads s front) q' rest) :
    Sure sh v s q (front ++ rest) := by
  obtain ⟨c, front, rfl⟩ := List.exists_cons_of_ne_nil hne
  refine .read ?_ ?_
  · rw [Values.tokenAt, if_neg]
    simpa using hopen
  · have hread' : q.read (c :: (front ++ rest)) = (q', (c :: front).length) := hread
    have hdrop : (c :: (front ++ rest)).drop (c :: front).length = rest := List.drop_left
    have htake : (c :: (front ++ rest)).take (c :: front).length = c :: front := List.take_left
    change Sure sh v (sh.reads s ((c :: (front ++ rest)).take (q.read (c :: (front ++ rest))).2))
      (q.read (c :: (front ++ rest))).1
      ((c :: (front ++ rest)).drop (q.read (c :: (front ++ rest))).2)
    rw [hread', hdrop, htake]
    exact h

end Sure

namespace Quoting

variable {q : Quoting}

lemma form_bare (h : q.form = .bare) : q.single = false ∧ q.top ≠ some .double := by
  rw [form] at h
  split at h
  · cases h
  · rename_i hs
    split at h
    · cases h
    · exact ⟨by simpa using hs, ‹_›⟩

lemma form_double (h : q.form = .double) : q.single = false ∧ q.top = some .double := by
  rw [form] at h
  split at h
  · cases h
  · rename_i hs
    split at h
    · exact ⟨by simpa using hs, ‹_›⟩
    · cases h

lemma form_single (h : q.form = .single) : q.single = true := by
  rw [form] at h
  split at h
  · assumption
  · split at h <;> cases h

lemma single_false (h : q.form ≠ .single) : q.single = false := by
  cases hs : q.single with
  | false => rfl
  | true => exact absurd (by simp [form, hs]) h

lemma read_plain {c : Char} (hc : plain q.form c = true) (rest : Chars) :
    q.read (c :: rest) = (q, 1) := by
  cases hform : q.form with
  | single =>
    have hs := form_single hform
    have hq : c ≠ '\'' := by
      rintro rfl
      rw [hform] at hc
      exact absurd hc (by decide)
    obtain ⟨contexts, single⟩ := q
    simp_all [read]
  | double =>
    obtain ⟨hs, ht⟩ := form_double hform
    simp only [hform, plain, List.mem_cons, List.not_mem_nil, or_false, not_or,
      decide_eq_true_eq] at hc
    obtain ⟨hb, hd, hm, hk, -⟩ := hc
    simp [read, hs, ht, hb, hd, hm, hk]
  | bare =>
    obtain ⟨hs, ht⟩ := form_bare hform
    simp only [hform, plain, List.mem_cons, List.not_mem_nil, or_false, not_or,
      decide_eq_true_eq] at hc
    obtain ⟨hb, hd, hq, hm, hk, ho, hp, -⟩ := hc
    simp [read, hs, hb, hd, hq, hm, hk, ho, hp]

lemma read_single (h : q.form = .bare) (rest : Chars) :
    q.read ('\'' :: rest) = ({ q with single := true }, 1) := by
  obtain ⟨hs, ht⟩ := form_bare h
  simp [read, hs, ht]

lemma form_opened (q : Quoting) : form { q with single := true } = .single := rfl

lemma read_unsingle (h : q.form = .bare) (rest : Chars) :
    read { q with single := true } ('\'' :: rest) = (q, 1) := by
  obtain ⟨hs, -⟩ := form_bare h
  obtain ⟨contexts, single⟩ := q
  simp_all [read]

lemma read_double (h : q.form = .bare) (rest : Chars) :
    q.read ('"' :: rest) = (q.push .double, 1) := by
  obtain ⟨hs, ht⟩ := form_bare h
  simp [read, hs, ht]

lemma form_push_double (h : q.form = .bare) : (q.push .double).form = .double := by
  obtain ⟨hs, -⟩ := form_bare h
  simp [form, push, top, hs]

lemma read_undouble (h : q.form = .bare) (rest : Chars) :
    (q.push .double).read ('"' :: rest) = (q, 1) := by
  obtain ⟨hs, -⟩ := form_bare h
  obtain ⟨contexts, single⟩ := q
  obtain rfl : single = false := hs
  simp [read, push, pop, top]

lemma read_opened (h : q.form ≠ .single) (rest : Chars) :
    q.read ('$' :: '(' :: rest) = (q.push .paren, 2) := by
  simp [read, single_false h]

lemma form_push_paren (h : q.form ≠ .single) : (q.push .paren).form = .bare := by
  simp [form, push, top, single_false h]

lemma read_closed (h : q.form ≠ .single) (rest : Chars) :
    (q.push .paren).read (')' :: rest) = (q, 1) := by
  have hs := single_false h
  obtain ⟨contexts, single⟩ := q
  obtain rfl : single = false := hs
  simp [read, push, pop, top]

end Quoting

def Values.Known (v : Values) (token : Chars) : Prop := ∃ value, v.value token = some value

lemma plain_ne {c : Char} {form : Form} (hc : plain form c = true) : c ≠ '{' := by
  rintro rfl
  cases form <;> exact absurd hc (by decide)

namespace Values

variable {v : Values}

lemma Known.shape {token : Chars} (h : v.Known token) :
    ∃ front, token = '{' :: (front ++ ['}']) ∧ '}' ∉ front := by
  obtain ⟨value, hv⟩ := h
  by_cases hd : token = dateToken
  · exact ⟨['d', 'a', 't', 'e'], hd, by decide⟩
  by_cases hm : token = timeToken
  · exact ⟨['t', 'i', 'm', 'e'], hm, by decide⟩
  · obtain ⟨name, number, ho⟩ := value_output hv hd hm
    refine ⟨name ++ ':' :: number, by rw [ho.spelled], ?_⟩
    have hnumber : '}' ∉ number := fun hmem =>
      absurd (ho.number_chars _ hmem) (by decide)
    obtain rfl | rfl := ho.named
    · simp [logTailName, hnumber]
    · simp [runIdName, hnumber]

lemma tokenAt_append {token value : Chars} (hv : v.value token = some value) (rest : Chars) :
    v.tokenAt (token ++ rest) = some (token, value) := by
  obtain ⟨front, rfl, hfront⟩ := Known.shape ⟨value, hv⟩
  have hindex : ('{' :: (front ++ ['}']) ++ rest).findIdx? (· = '}') = some (front.length + 1) := by
    have hfront : front.findIdx? (· = '}') = none := by
      rw [List.findIdx?_eq_none_iff]
      rintro c hc
      rw [decide_eq_false_iff_not]
      rintro rfl
      exact hfront hc
    simp [List.findIdx?_cons, List.findIdx?_append, hfront]
  have htake : ('{' :: (front ++ ['}']) ++ rest).take (front.length + 1 + 1) =
      '{' :: (front ++ ['}']) := by
    simp [List.take_append]
  have hhead : ('{' :: (front ++ ['}']) ++ rest).head? = some '{' := rfl
  rw [tokenAt, if_pos hhead, hindex]
  simp only [Option.bind_eq_bind, Option.bind_some, htake, hv]

end Values

lemma Sure.whole {sh : Shell} (h : sh.Posix) {v : Values} {form : Form} {text : Chars}
    (hw : Whole v.Known form text)
    {s : sh.State} {q : Quoting} {rest : Chars} (hplace : sh.place s = some ⟨form, false⟩)
    (hform : q.form = form) (hrest : Sure sh v (sh.reads s text) q rest) :
    Sure sh v s q (text ++ rest) := by
  have hwords (token : Chars) (hk : v.Known token) : Word token := Values.value_word hk.choose_spec
  induction hw generalizing s q rest with
  | nil => exact hrest
  | @plain form c text hc htext ih =>
    have hread := Quoting.read_plain (hform.symm ▸ hc : plain q.form c = true) (text ++ rest)
    refine Sure.step [c] hread (List.cons_ne_nil _ _) (by simpa using plain_ne hc) ?_
    exact ih (h.kept s _ c hplace hc fun hb => absurd hb Bool.false_ne_true) hform hrest
  | @escape form c text hne hc htext ih =>
    have hread : q.read ('\\' :: c :: (text ++ rest)) = (q, 2) := by
      simp [Quoting.read, Quoting.single_false (hform.symm ▸ hne : q.form ≠ .single)]
    refine Sure.step ['\\', c] hread (List.cons_ne_nil _ _) (by simp) ?_
    exact ih (h.escape s form c hplace hne hc) hform hrest
  | @parameter form c text hne hc htext ih =>
    have hopen : c ≠ '(' := by
      rintro rfl
      exact absurd hc (by decide)
    have hdollar : q.read ('$' :: c :: (text ++ rest)) = (q, 1) := by
      simp [Quoting.read, Quoting.single_false (hform.symm ▸ hne : q.form ≠ .single), hopen]
    have hread := Quoting.read_plain (plain_nameChar hc q.form) (text ++ rest)
    refine Sure.step ['$'] hdollar (List.cons_ne_nil _ _) (by decide) ?_
    refine Sure.step [c] hread (List.cons_ne_nil _ _)
      (by simpa using plain_ne (plain_nameChar hc .bare)) ?_
    exact ih (h.parameter s ⟨form, false⟩ c hplace hne hc) hform hrest
  | @single body text hbody htext ihbody ih =>
    have hopen := h.single s false hplace
    have hinner := place_whole h (hbody.mono hwords) hopen
    have hsplit : '\'' :: (body ++ '\'' :: text) ++ rest =
        ['\''] ++ (body ++ (['\''] ++ (text ++ rest))) := by simp
    rw [reads_cons, Shell.reads_append, reads_cons] at hrest
    rw [hsplit]
    refine Sure.step ['\''] (Quoting.read_single hform _) (List.cons_ne_nil _ _) (by decide) ?_
    refine ihbody hopen (Quoting.form_opened q) ?_
    refine Sure.step ['\''] (Quoting.read_unsingle hform _) (List.cons_ne_nil _ _) (by decide) ?_
    exact ih (h.unsingle _ _ hinner) hform hrest
  | @double body text hbody htext ihbody ih =>
    have hopen := h.double s false hplace
    have hinner := place_whole h (hbody.mono hwords) hopen
    have hsplit : '"' :: (body ++ '"' :: text) ++ rest =
        ['"'] ++ (body ++ (['"'] ++ (text ++ rest))) := by simp
    rw [reads_cons, Shell.reads_append, reads_cons] at hrest
    rw [hsplit]
    refine Sure.step ['"'] (Quoting.read_double hform _) (List.cons_ne_nil _ _) (by decide) ?_
    refine ihbody hopen (Quoting.form_push_double hform) ?_
    refine Sure.step ['"'] (Quoting.read_undouble hform _) (List.cons_ne_nil _ _) (by decide) ?_
    exact ih (h.undouble _ _ hinner) hform hrest
  | @substitution form body text hne hbody hcase htext ihbody ih =>
    have hopen := h.opened s _ hplace hne
    have hbody' := hbody.mono hwords
    have hclose := h.substituted s form body hplace hne hbody' hcase
    have hsplit : '$' :: '(' :: (body ++ ')' :: text) ++ rest =
        ['$', '('] ++ (body ++ ([')'] ++ (text ++ rest))) := by simp
    have hreads : sh.reads s ('$' :: '(' :: (body ++ ')' :: text)) =
        sh.reads (sh.reads s ('$' :: '(' :: (body ++ [')']))) text := by
      rw [← Shell.reads_append]
      simp
    rw [hreads] at hrest
    rw [hsplit]
    have hq := hform.symm ▸ hne
    refine Sure.step ['$', '('] (Quoting.read_opened hq _) (List.cons_ne_nil _ _) (by decide) ?_
    refine ihbody hopen (Quoting.form_push_paren hq) ?_
    refine Sure.step [')'] (Quoting.read_closed hq _) (List.cons_ne_nil _ _) (by decide) ?_
    rw [← Shell.reads_append, ← Shell.reads_append]
    exact ih hclose hform hrest
  | @part form token text hk htext ih =>
    obtain ⟨value, hv⟩ := hk
    rw [List.append_assoc]
    refine .token (Values.tokenAt_append hv _) (form_some.mpr ⟨false, by rw [hplace, hform]⟩) ?_
    rw [List.drop_left]
    rw [Shell.reads_append] at hrest
    exact ih (h.worded s _ token hplace (Values.value_word hv)) hform hrest

namespace Values

variable {v : Values} {text : Chars}

lemma plusFree_of_not_mem (h : '+' ∉ text) : v.PlusFree text := by
  intro seen q rest token value hc ht _ _ hp
  apply h
  rw [← Comes.append_eq hc]
  exact List.mem_append_right _ (List.mem_of_mem_take ((tokenAt_take ht).2.symm ▸ hp))

def afterFirst : Values where
  date := ['2', '0', '2', '6', '-', '1', '0', '-', '2', '2']
  time := ['0', '9', ':', '3', '0']
  logTails := [some ['a', ' ', 'b', ' ', '*']]
  runIds := []

lemma clock_of_all {text : Chars} (hne : text ≠ [])
    (h : text.all (fun c => c.isDigit || c = '-' || c = ':') = true) : Clock text := by
  refine ⟨hne, fun c hc => ?_⟩
  simpa [or_assoc] using List.all_eq_true.mp h c hc

lemma afterFirst_clocked : afterFirst.Clocked :=
  ⟨clock_of_all (by decide) (by decide), clock_of_all (by decide) (by decide)⟩

def firstTail : Chars := '{' :: (logTailName ++ [':', '1', '}'])

def saidTail : Chars :=
  '"' :: ('$' :: '(' :: ('e' :: ' ' :: '\'' :: (firstTail ++ ['\'']) ++ [')']) ++ ['"'])

def plusTail : Chars := '{' :: logTailName ++ [':', '+', '1', '}']

end Values

end Sheprd.Automation
