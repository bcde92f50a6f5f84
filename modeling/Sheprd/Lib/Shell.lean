import Mathlib.Tactic

/-! A POSIX shell by what it does with the text of a command, one character after the other: the
quotes each character stands in, and what is known of how they open, close and nest. -/

namespace Sheprd.Lib

inductive Shell.Form where
  | bare
  | double
  | single
  deriving DecidableEq

structure Shell.Place where
  form : Shell.Form
  backquoted : Bool
  deriving DecidableEq

/-- No `place` where a character is not read for itself: after a backslash or a `$`, in a comment,
a `${...}` or a `$'...'`, from the `<<` of a here-document to its end. Aliases are left aside. -/
structure Shell where
  State : Type
  start : State
  step : State → Char → State
  place : State → Option Shell.Place

namespace Shell

def isNameStart (c : Char) : Bool := c.isAlpha || c = '_'

def isNameChar (c : Char) : Bool := c.isAlphanum || c = '_'

def ValidName : List Char → Prop
  | [] => False
  | c :: rest => isNameStart c = true ∧ ∀ d ∈ rest, isNameChar d = true

/-- Part of a word of which nothing is special to the shell, and which no reserved word holds. -/
structure Word (text : List Char) : Prop where
  chars : ∀ c ∈ text, isNameChar c = true ∨ c ∈ ['-', ':', '+', '{', '}']
  free : (∃ c ∈ text, c.isDigit = true ∨ c = '-' ∨ c = ':') ∨ '{' ∈ text ∧ 2 ≤ text.length

def plain : Form → Char → Bool
  | .bare, c => c ∉ ['\\', '"', '\'', '$', '`', '(', ')', '#', '<', '{']
  | .double, c => c ∉ ['\\', '"', '$', '`', '{']
  | .single, c => c ∉ ['\'', '{']

lemma plain_nameChar {c : Char} (hc : isNameChar c = true) (form : Form) :
    plain form c = true := by
  cases form <;> simp only [plain, List.mem_cons, List.not_mem_nil, or_false, decide_eq_true_eq] <;>
    (intro hmem
     rcases hmem with rfl | rfl | rfl | rfl | rfl | rfl | rfl | rfl | rfl | rfl <;>
       exact absurd hc (by decide))

/-- Text that is whole in these quotes: what it opens it closes. -/
inductive Whole (part : List Char → Prop) : Form → List Char → Prop where
  | nil (form : Form) : Whole part form []
  | plain {form : Form} {c : Char} {rest : List Char} (hc : Shell.plain form c = true)
      (hrest : Whole part form rest) : Whole part form (c :: rest)
  | escape {form : Form} {c : Char} {rest : List Char} (hform : form ≠ .single) (hc : c ≠ '\n')
      (hrest : Whole part form rest) : Whole part form ('\\' :: c :: rest)
  | parameter {form : Form} {c : Char} {rest : List Char} (hform : form ≠ .single)
      (hc : isNameChar c = true) (hrest : Whole part form rest) :
      Whole part form ('$' :: c :: rest)
  | single {body rest : List Char} (hbody : Whole part .single body)
      (hrest : Whole part .bare rest) : Whole part .bare ('\'' :: (body ++ '\'' :: rest))
  | double {body rest : List Char} (hbody : Whole part .double body)
      (hrest : Whole part .bare rest) : Whole part .bare ('"' :: (body ++ '"' :: rest))
  | substitution {form : Form} {body rest : List Char} (hform : form ≠ .single)
      (hbody : Whole part .bare body) (hcase : ¬['c', 'a', 's', 'e'] <:+: body)
      (hrest : Whole part form rest) :
      Whole part form ('$' :: '(' :: (body ++ ')' :: rest))
  | part {form : Form} {word rest : List Char} (hword : part word)
      (hrest : Whole part form rest) : Whole part form (word ++ rest)

lemma Whole.mono {part part' : List Char → Prop} {form : Form} {text : List Char}
    (h : Whole part form text) (himp : ∀ word, part word → part' word) :
    Whole part' form text := by
  induction h with
  | nil form => exact .nil form
  | plain hc _ ih => exact .plain hc ih
  | escape hform hc _ ih => exact .escape hform hc ih
  | parameter hform hc _ ih => exact .parameter hform hc ih
  | single _ _ ihbody ih => exact .single ihbody ih
  | double _ _ ihbody ih => exact .double ihbody ih
  | substitution hform _ hcase _ ihbody ih => exact .substitution hform ihbody hcase ih
  | part hword _ ih => exact .part (himp _ hword) ih

variable (sh : Shell)

def reads (s : sh.State) (text : List Char) : sh.State := text.foldl sh.step s

def form (s : sh.State) : Option Form := (sh.place s).map Place.form

def Alike (s t : sh.State) : Prop :=
  ∀ more, sh.place (sh.reads s more) = sh.place (sh.reads t more)

/-- What the POSIX shell language says of quotes, parameters and command substitutions. Within
backquotes a backslash may be taken off before the command there is read. -/
structure Posix : Prop where
  start : sh.place sh.start = some ⟨.bare, false⟩
  kept : ∀ s p c, sh.place s = some p → plain p.form c = true →
    (p.backquoted = true → c ≠ '\\' ∧ c ≠ '`') → sh.place (sh.step s c) = some p
  escape : ∀ s form c, sh.place s = some ⟨form, false⟩ → form ≠ .single → c ≠ '\n' →
    sh.place (sh.reads s ['\\', c]) = some ⟨form, false⟩
  parameter : ∀ s p c, sh.place s = some p → p.form ≠ .single → isNameChar c = true →
    sh.place (sh.reads s ['$', c]) = some p
  single : ∀ s b, sh.place s = some ⟨.bare, b⟩ → sh.place (sh.step s '\'') = some ⟨.single, b⟩
  unsingle : ∀ s b, sh.place s = some ⟨.single, b⟩ → sh.place (sh.step s '\'') = some ⟨.bare, b⟩
  double : ∀ s b, sh.place s = some ⟨.bare, b⟩ → sh.place (sh.step s '"') = some ⟨.double, b⟩
  undouble : ∀ s b, sh.place s = some ⟨.double, b⟩ → sh.place (sh.step s '"') = some ⟨.bare, b⟩
  opened : ∀ s p, sh.place s = some p → p.form ≠ .single →
    sh.place (sh.reads s ['$', '(']) = some ⟨.bare, p.backquoted⟩
  substituted : ∀ s form body, sh.place s = some ⟨form, false⟩ → form ≠ .single →
    Whole Word .bare body → ¬['c', 'a', 's', 'e'] <:+: body →
    sh.place (sh.reads s ('$' :: '(' :: (body ++ [')']))) = some ⟨form, false⟩
  worded : ∀ s p word, sh.place s = some p → Word word → sh.place (sh.reads s word) = some p
  word : ∀ s p word word', sh.place s = some p → Word word → Word word' →
    sh.Alike (sh.reads s word) (sh.reads s word')
  expanded : ∀ s name word, sh.form s = some .bare → ValidName name → Word word →
    sh.Alike (sh.reads s ('"' :: '$' :: (name ++ ['"']))) (sh.reads s word)
  braced : ∀ s name word, sh.form s = some .double → ValidName name → Word word →
    sh.Alike (sh.reads s ('$' :: '{' :: (name ++ ['}']))) (sh.reads s word)
  reopened : ∀ s word, sh.form s = some .single → Word word →
    sh.Alike (sh.reads s ('\'' :: (word ++ ['\'']))) (sh.reads s word)

def parameter (text : List Char) : Option (List Char) :=
  if text.head? = some '{' then
    let name := text.tail.takeWhile (· ≠ '}')
    if name.all isNameChar then some name else none
  else some (text.takeWhile isNameChar)

variable {sh} {s t u : sh.State}

lemma reads_append (s : sh.State) (a b : List Char) :
    sh.reads s (a ++ b) = sh.reads (sh.reads s a) b :=
  List.foldl_append

lemma reads_cons (s : sh.State) (c : Char) (text : List Char) :
    sh.reads s (c :: text) = sh.reads (sh.step s c) text := rfl

lemma Alike.refl (s : sh.State) : sh.Alike s s := fun _ => rfl

lemma Alike.symm (h : sh.Alike s t) : sh.Alike t s := fun more => (h more).symm

lemma Alike.trans (h : sh.Alike s t) (h' : sh.Alike t u) : sh.Alike s u :=
  fun more => (h more).trans (h' more)

lemma Alike.place (h : sh.Alike s t) : sh.place s = sh.place t := h []

lemma Alike.form (h : sh.Alike s t) : sh.form s = sh.form t := by
  rw [Shell.form, Shell.form, h.place]

lemma form_some {form : Form} : sh.form s = some form ↔ ∃ b, sh.place s = some ⟨form, b⟩ := by
  rw [Shell.form, Option.map_eq_some_iff]
  constructor
  · rintro ⟨⟨form, b⟩, hplace, rfl⟩
    exact ⟨b, hplace⟩
  · rintro ⟨b, hplace⟩
    exact ⟨_, hplace, rfl⟩

lemma Alike.reads (h : sh.Alike s t) (text : List Char) :
    sh.Alike (sh.reads s text) (sh.reads t text) := by
  intro more
  rw [← reads_append, ← reads_append]
  exact h (text ++ more)

lemma place_whole (h : sh.Posix) {form : Form} {text : List Char} (hw : Whole Word form text)
    (hplace : sh.place s = some ⟨form, false⟩) :
    sh.place (sh.reads s text) = some ⟨form, false⟩ := by
  induction hw generalizing s with
  | nil form => exact hplace
  | plain hc _ ih => exact ih (h.kept s _ _ hplace hc fun hb => absurd hb Bool.false_ne_true)
  | @escape form c rest hform hc _ ih =>
    have hsplit : '\\' :: c :: rest = ['\\', c] ++ rest := rfl
    rw [hsplit, reads_append]
    exact ih (h.escape s form c hplace hform hc)
  | @parameter form c rest hform hc _ ih =>
    have hsplit : '$' :: c :: rest = ['$', c] ++ rest := rfl
    rw [hsplit, reads_append]
    exact ih (h.parameter s _ c hplace hform hc)
  | single _ _ ihbody ih =>
    rw [reads_cons, reads_append, reads_cons]
    exact ih (h.unsingle _ _ (ihbody (h.single s _ hplace)))
  | double _ _ ihbody ih =>
    rw [reads_cons, reads_append, reads_cons]
    exact ih (h.undouble _ _ (ihbody (h.double s _ hplace)))
  | @substitution form body rest hform hbody hcase _ _ ih =>
    have hsplit : '$' :: '(' :: (body ++ ')' :: rest) =
        '$' :: '(' :: (body ++ [')']) ++ rest := by simp
    rw [hsplit, reads_append]
    exact ih (h.substituted s form body hplace hform hbody hcase)
  | part hword _ ih =>
    rw [reads_append]
    exact ih (h.worded s _ _ hplace hword)

lemma ValidName.all {name : List Char} (h : ValidName name) : ∀ c ∈ name, isNameChar c = true := by
  cases name with
  | nil => exact fun c hc => absurd hc List.not_mem_nil
  | cons c name =>
    intro d hd
    obtain rfl | hd := List.mem_cons.mp hd
    · have hs := h.1
      simp only [isNameStart, isNameChar, Char.isAlphanum, Bool.or_eq_true] at hs ⊢
      tauto
    · exact h.2 d hd

lemma parameter_quoted {name : List Char} (h : ValidName name) (rest : List Char) :
    parameter (name ++ '"' :: rest) = some name := by
  have hstop : (name ++ '"' :: rest).takeWhile isNameChar = name := by
    rw [List.takeWhile_append_of_pos h.all, List.takeWhile_cons_of_neg (by decide), List.append_nil]
  cases name with
  | nil => exact absurd h id
  | cons c name =>
    have hc : c ≠ '{' := fun hb => absurd (h.all c List.mem_cons_self) (by rw [hb]; decide)
    rw [parameter, if_neg (by simpa using hc), hstop]

lemma parameter_braced {name : List Char} (h : ValidName name) (rest : List Char) :
    parameter ('{' :: (name ++ '}' :: rest)) = some name := by
  have hne : ∀ c ∈ name, decide (c ≠ '}') = true := by
    intro c hc
    have hn := h.all c hc
    rw [decide_eq_true_eq]
    rintro rfl
    exact absurd hn (by decide)
  have hstop : (name ++ '}' :: rest).takeWhile (· ≠ '}') = name := by
    rw [List.takeWhile_append_of_pos hne, List.takeWhile_cons_of_neg (by decide), List.append_nil]
  simp only [parameter, List.head?_cons, List.tail_cons, hstop, List.all_eq_true.mpr h.all, if_true]

namespace Form

def lead : Form → List Char
  | .bare => ['"']
  | .double => []
  | .single => ['\'', '"']

def body : Form → List Char → List Char
  | .double, name => '{' :: name ++ ['}']
  | _, name => name

def trail : Form → List Char
  | .bare => ['"']
  | .double => []
  | .single => ['"', '\'']

def reference (form : Form) (name : List Char) : List Char :=
  form.lead ++ '$' :: (form.body name ++ form.trail)

lemma reads_reference (h : sh.Posix) {form : Form} (hs : sh.form s = some form)
    {name word : List Char} (hname : ValidName name) (hword : Word word) :
    sh.form (sh.reads s form.lead) = some .double ∧
      sh.Alike (sh.reads s (form.reference name)) (sh.reads s word) := by
  obtain ⟨b, hplace⟩ := form_some.mp hs
  cases form with
  | bare => exact ⟨form_some.mpr ⟨b, h.double s b hplace⟩, h.expanded s name word hs hname hword⟩
  | double =>
    refine ⟨hs, ?_⟩
    have heq : Form.double.reference name = '$' :: '{' :: (name ++ ['}']) := by
      simp [reference, lead, body, trail]
    rw [heq]
    exact h.braced s name word hs hname hword
  | single =>
    have hbare := h.unsingle s b hplace
    refine ⟨form_some.mpr ⟨b, h.double _ b hbare⟩, ?_⟩
    have heq : Form.single.reference name =
        '\'' :: ('"' :: '$' :: (name ++ ['"']) ++ ['\'']) := by
      simp [reference, lead, body, trail]
    rw [heq, reads_cons, reads_append]
    have hinner := h.expanded _ name word (form_some.mpr ⟨b, hbare⟩) hname hword
    refine (hinner.reads ['\'']).trans ?_
    rw [← reads_append, ← reads_cons]
    exact h.reopened s word hs hword

lemma form_of_lead (h : sh.Posix) {form : Form} {p : Place} (hs : sh.place s = some p)
    (hlead : sh.form (sh.reads s form.lead) = some .double) : p.form = form := by
  obtain ⟨b, hdouble⟩ := form_some.mp hlead
  obtain ⟨form', b'⟩ := p
  cases form with
  | bare =>
    cases form' with
    | bare => rfl
    | double => cases (h.undouble s b' hs).symm.trans hdouble
    | single => cases (h.kept s _ '"' hs rfl fun _ => by decide).symm.trans hdouble
  | double => cases hs.symm.trans hdouble; rfl
  | single =>
    cases form' with
    | bare => cases (h.kept _ _ '"' (h.single s b' hs) rfl fun _ => by decide).symm.trans hdouble
    | double => cases (h.undouble _ b' (h.kept s _ '\'' hs rfl fun _ => by decide)).symm.trans hdouble
    | single => rfl

lemma parameter_reference (form : Form) {name : List Char} (hv : ValidName name)
    (rest : List Char) : parameter (form.body name ++ form.trail ++ rest) = some name := by
  cases form with
  | bare => simpa [body, trail] using parameter_quoted hv rest
  | double => simpa [body, trail] using parameter_braced hv rest
  | single => simpa [body, trail] using parameter_quoted hv ('\'' :: rest)

end Form

inductive Mode where
  | plain
  | dollar
  | braced
  | escaped
  | lost
  deriving DecidableEq

/-- Reads quotes, backslashes, parameters and `$(...)` without `case`; anything else it loses. -/
structure Reader where
  form : Form := .bare
  outer : List Form := []
  mode : Mode := .plain

namespace Reader

def readBare (s : Reader) (c : Char) : Reader :=
  if c = '\\' then { s with mode := .escaped }
  else if c = '$' then { s with mode := .dollar }
  else if c = '\'' then { s with form := .single, mode := .plain }
  else if c = '"' then { s with form := .double, mode := .plain }
  else if c = ')' ∧ s.outer ≠ [] then ⟨s.outer.headD .bare, s.outer.tail, .plain⟩
  else if c ∈ ['`', '(', ')', '#', '<'] then { s with mode := .lost }
  else { s with mode := .plain }

def readDouble (s : Reader) (c : Char) : Reader :=
  if c = '\\' then { s with mode := .escaped }
  else if c = '$' then { s with mode := .dollar }
  else if c = '"' then { s with form := .bare, mode := .plain }
  else if c = '`' then { s with mode := .lost }
  else { s with mode := .plain }

def readSingle (s : Reader) (c : Char) : Reader :=
  if c = '\'' then { s with form := .bare } else s

def read (s : Reader) (c : Char) : Reader :=
  match s.form with
  | .bare => s.readBare c
  | .double => s.readDouble c
  | .single => s.readSingle c

def step (s : Reader) (c : Char) : Reader :=
  match s.mode with
  | .plain => s.read c
  | .dollar =>
      if c = '(' then ⟨.bare, s.form :: s.outer, .plain⟩
      else if c = '{' then { s with mode := .braced }
      else if c = '$' then { s with mode := .plain }
      else if c ∈ ['\'', '"'] ∧ s.form = .bare then { s with mode := .lost }
      else s.read c
  | .braced => if c = '}' then { s with mode := .plain } else s
  | .escaped => { s with mode := .plain }
  | .lost => s

abbrev shell : Shell where
  State := Reader
  start := {}
  step := step
  place s := if s.mode = .plain then some ⟨s.form, false⟩ else none

abbrev within (form : Form) (outer : List Form) : shell.State :=
  Reader.mk form outer .plain

lemma place_within {s : Reader} {p : Place} (h : shell.place s = some p) :
    s = within p.form s.outer ∧ p.backquoted = false := by
  obtain ⟨form, outer, mode⟩ := s
  cases mode with
  | plain =>
    obtain rfl := Option.some.inj h
    exact ⟨rfl, rfl⟩
  | _ => cases h

variable {form : Form} {outer : List Form}

lemma step_plain {c : Char} (hc : plain form c = true) : shell.step (within form outer) c = within form outer := by
  cases form <;> simp_all [plain, step, read, readBare, readDouble, readSingle]

lemma step_word {word : List Char} (h : Word word) {c : Char} (hc : c ∈ word) :
    shell.step (within form outer) c = within form outer := by
  rcases h.chars c hc with hn | hn
  · exact step_plain (plain_nameChar hn form)
  · simp only [List.mem_cons, List.not_mem_nil, or_false] at hn
    obtain rfl | rfl | rfl | rfl | rfl := hn <;> cases form <;> rfl

lemma reads_word {word : List Char} (h : Word word) :
    shell.reads (within form outer) word = within form outer := by
  have hall : ∀ text : List Char, (∀ c ∈ text, c ∈ word) →
      shell.reads (within form outer) text = within form outer := by
    intro text htext
    induction text with
    | nil => rfl
    | cons c text ih =>
      have hstep : shell.step (within form outer) c = within form outer :=
        step_word h (htext c List.mem_cons_self)
      rw [reads_cons, hstep]
      exact ih fun d hd => htext d (List.mem_cons_of_mem c hd)
  exact hall word fun c hc => hc

lemma reads_escape (hform : form ≠ .single) (c : Char) :
    shell.reads (within form outer) ['\\', c] = within form outer := by
  cases form with
  | single => exact absurd rfl hform
  | _ => rfl

lemma reads_parameter (hform : form ≠ .single) {c : Char} (hc : isNameChar c = true) :
    shell.reads (within form outer) ['$', c] = within form outer := by
  have hbare := plain_nameChar hc .bare
  have hread : (⟨form, outer, .dollar⟩ : Reader).read c = within form outer := by
    have hplain := plain_nameChar hc form
    cases form <;> simp_all [plain, read, readBare, readDouble]
  have hopen : c ∉ ['(', '{', '$', '\'', '"'] := by
    simp_all [plain]
  have hdollar : shell.step (within form outer) '$' = (⟨form, outer, .dollar⟩ : Reader) := by
    cases form with
    | single => exact absurd rfl hform
    | _ => rfl
  have hstep : (⟨form, outer, .dollar⟩ : Reader).step c = within form outer := by
    simp_all [step]
  rw [reads_cons, hdollar]
  exact hstep

lemma reads_whole {text : List Char} (h : Whole Word form text) :
    shell.reads (within form outer) text = within form outer := by
  induction h generalizing outer with
  | nil form => rfl
  | @plain form c rest hc hrest ih =>
    have hstep : shell.step (within form outer) c = within form outer := step_plain hc
    rw [reads_cons, hstep]
    exact ih
  | @escape form c rest hform hc hrest ih =>
    have hsplit : '\\' :: c :: rest = ['\\', c] ++ rest := rfl
    rw [hsplit, reads_append, reads_escape hform]
    exact ih
  | @parameter form c rest hform hc hrest ih =>
    have hsplit : '$' :: c :: rest = ['$', c] ++ rest := rfl
    rw [hsplit, reads_append, reads_parameter hform hc]
    exact ih
  | single hbody hrest ihbody ih =>
    have hopen : shell.step (within .bare outer) '\'' = within .single outer := rfl
    have hclose : shell.step (within .single outer) '\'' = within .bare outer := rfl
    rw [reads_cons, hopen, reads_append, ihbody, reads_cons, hclose]
    exact ih
  | double hbody hrest ihbody ih =>
    have hopen : shell.step (within .bare outer) '"' = within .double outer := rfl
    have hclose : shell.step (within .double outer) '"' = within .bare outer := rfl
    rw [reads_cons, hopen, reads_append, ihbody, reads_cons, hclose]
    exact ih
  | @substitution form body rest hform hbody hcase hrest ihbody ih =>
    have hopen : shell.reads (within form outer) ['$', '('] = within .bare (form :: outer) := by
      cases form with
      | single => exact absurd rfl hform
      | _ => rfl
    have hclose : shell.step (within .bare (form :: outer)) ')' = within form outer := rfl
    have hsplit : '$' :: '(' :: (body ++ ')' :: rest) = ['$', '('] ++ (body ++ ')' :: rest) := rfl
    rw [hsplit, reads_append, hopen, reads_append, ihbody, reads_cons, hclose]
    exact ih
  | part hword hrest ih =>
    rw [reads_append, reads_word hword]
    exact ih

lemma reads_place {s : Reader} {p : Place} {text : List Char} (hs : shell.place s = some p)
    (h : Whole Word p.form text) : shell.reads s text = s := by
  obtain ⟨hat, -⟩ := place_within hs
  rw [hat]
  exact reads_whole h

lemma reads_form {s : Reader} {form : Form} {text : List Char} (hs : shell.form s = some form)
    (h : Whole Word form text) : shell.reads s text = s := by
  obtain ⟨b, hplace⟩ := form_some.mp hs
  exact reads_place hplace h

lemma whole_word {word : List Char} (h : Word word) : Whole Word form word := by
  have hword : Whole Word form (word ++ []) := .part h (.nil form)
  rwa [List.append_nil] at hword

lemma whole_name {name : List Char} (h : ∀ c ∈ name, isNameChar c = true) :
    Whole Word .double name := by
  induction name with
  | nil => exact .nil _
  | cons c name ih =>
    exact .plain (plain_nameChar (h c List.mem_cons_self) _)
      (ih fun d hd => h d (List.mem_cons_of_mem c hd))

lemma whole_expansion {name : List Char} (h : ValidName name) :
    Whole Word .bare ('"' :: '$' :: (name ++ ['"'])) := by
  cases name with
  | nil => exact absurd h id
  | cons c name =>
    have hrest := whole_name fun d hd => h.all d (List.mem_cons_of_mem c hd)
    have hbody : Whole Word .double ('$' :: c :: name) :=
      .parameter (by decide) (h.all c List.mem_cons_self) hrest
    exact .double hbody (.nil _)

lemma reads_braced {name : List Char} (h : ∀ c ∈ name, isNameChar c = true) :
    shell.reads (⟨form, outer, .braced⟩ : Reader) (name ++ ['}']) = within form outer := by
  induction name with
  | nil => rfl
  | cons c name ih =>
    have hc : c ≠ '}' := by
      rintro rfl
      exact absurd (h _ List.mem_cons_self) (by decide)
    have hstep : shell.step (⟨form, outer, .braced⟩ : Reader) c = (⟨form, outer, .braced⟩ : Reader) :=
      if_neg hc
    rw [List.cons_append, reads_cons, hstep]
    exact ih fun d hd => h d (List.mem_cons_of_mem c hd)

theorem shell_posix : shell.Posix where
  start := rfl
  kept s p c h hc _ := by
    have hstep : shell.reads s [c] = s := reads_place h (.plain hc (.nil _))
    exact (congrArg shell.place hstep).trans h
  escape s form c h hform hc := by
    rw [reads_place h (.escape hform hc (.nil _)), h]
  parameter s p c h hform hc := by
    rw [reads_place h (.parameter hform hc (.nil _)), h]
  single s b h := by
    obtain ⟨hat, rfl⟩ := place_within h
    rw [hat]
    rfl
  unsingle s b h := by
    obtain ⟨hat, rfl⟩ := place_within h
    rw [hat]
    rfl
  double s b h := by
    obtain ⟨hat, rfl⟩ := place_within h
    rw [hat]
    rfl
  undouble s b h := by
    obtain ⟨hat, rfl⟩ := place_within h
    rw [hat]
    rfl
  opened s p h hform := by
    obtain ⟨form, b⟩ := p
    obtain ⟨hat, rfl⟩ := place_within h
    rw [hat]
    cases form with
    | single => exact absurd rfl hform
    | _ => rfl
  substituted s form body h hform hbody hcase := by
    rw [reads_place h (.substitution hform hbody hcase (.nil form)), h]
  worded s p word h hword := by
    rw [reads_place h (whole_word hword), h]
  word s p word word' h hword hword' := by
    rw [reads_place h (whole_word hword), reads_place h (whole_word hword')]
    exact .refl s
  expanded s name word h hname hword := by
    rw [reads_form h (whole_expansion hname), reads_form h (whole_word hword)]
    exact .refl s
  braced s name word h hname hword := by
    rw [reads_form h (whole_word hword)]
    obtain ⟨b, hplace⟩ := form_some.mp h
    obtain ⟨hat, -⟩ := place_within hplace
    have hbraced : shell.reads s ('$' :: '{' :: (name ++ ['}'])) = s := by
      rw [hat]
      exact reads_braced hname.all
    rw [hbraced]
    exact .refl s
  reopened s word h hword := by
    rw [reads_form h (whole_word hword)]
    obtain ⟨b, hplace⟩ := form_some.mp h
    obtain ⟨hat, -⟩ := place_within hplace
    have hquoted : shell.reads s ('\'' :: (word ++ ['\''])) = s := by
      have hclose : shell.step (within .single s.outer) '\'' = within .bare s.outer := rfl
      rw [hat, reads_cons, hclose, reads_append, reads_word hword]
      rfl
    rw [hquoted]
    exact .refl s

end Reader

end Shell

end Sheprd.Lib
