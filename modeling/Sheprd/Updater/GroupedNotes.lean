import Sheprd.Updater.Release

namespace Sheprd.Updater.Releases

open Sheprd.Lib

abbrev Note := (ℕ × ℕ) × String × String

def textOf (note : Note) : String := noteSection note.2.1 note.2.2

def Brings (channel : UpdateChannel) (current target : ℕ × ℕ) (release : Release) (note : Note) :
    Prop :=
  release.draft = false ∧ (channel = .beta ∨ release.prerelease = false) ∧
    (stripFront "v" release.version).bind parseVersion = some note.1 ∧
    Newer note.1 current ∧ Newer target note.1 ∧
    note.2.1 = .ofList (release.version.toList.dropWhile (· = 'v')) ∧
    note.2.2 = trimmed (release.body.getD "") ∧ note.2.2 ≠ ""

def listed (channel : UpdateChannel) (current target : ℕ × ℕ) (releases : List Release) :
    List Note :=
  ((releases.filter fun release => !release.draft &&
    (decide (channel = .beta) || !release.prerelease)).filterMap (noteOf current target)).mergeSort
      fun a b => !decide (Newer b.1 a.1)

def targetNote (target : String) (version : ℕ × ℕ) (body : Option String) : Option Note :=
  ((body.map trimmed).filter (· ≠ "")).map fun body => (version, target, body)

def noted (channel : UpdateChannel) (current version : ℕ × ℕ) (target : String)
    (body : Option String) (releases : List Release) : List Note :=
  (targetNote target version body).toList ++ listed channel current version releases

def joined : List String → String
  | [] => ""
  | text :: texts => texts.foldl (fun notes text => notes ++ "\n\n" ++ text) text

def Beside (notes text : String) : Prop :=
  (Text.lines notes).length + (Text.lines text).length + 2 ≤ MAX_GROUPED_LINES ∧
    utf8Length notes.toList + utf8Length text.toList + 2 ≤ MAX_GROUPED_BYTES

def Taken (texts : List String) (k : ℕ) : Prop :=
  k ≤ 1 ∨ k ≤ MAX_GROUPED_RELEASES ∧
    ∀ text, texts[k - 1]? = some text → Beside (joined (texts.take (k - 1))) text

def Within (texts : List String) (k : ℕ) : Prop :=
  k ≤ 1 ∨ k ≤ MAX_GROUPED_RELEASES ∧
    (Text.lines (joined (texts.take k))).length ≤ MAX_GROUPED_LINES ∧
    utf8Length (joined (texts.take k)).toList ≤ MAX_GROUPED_BYTES

def shownOf (texts : List String) (k : ℕ) : String :=
  let notes := joined (texts.take k)
  if k < texts.length then
    notes ++ "\n\n> Showing the newest " ++ toString k ++ " releases. [All releases](" ++
      RELEASES_PAGE ++ ")"
  else notes

def Grouped (noted : List Note) (result : Option String) : Prop :=
  (result = none ↔ noted.length < 2) ∧
    (2 ≤ noted.length → ∃ k,
      IsGreatest {k | k ≤ noted.length ∧ Within (noted.map textOf) k} k ∧
      result = some (shownOf (noted.map textOf) k))

lemma length_linesFrom_nil (line : List Char) : (Text.linesFrom line []).length ≤ 1 := by
  cases line <;> simp [Text.linesFrom]

lemma length_linesFrom_newline (line rest : List Char) :
    (Text.linesFrom line ('\n' :: rest)).length = (Text.linesFrom [] rest).length + 1 := by
  cases line with
  | nil => simp [Text.linesFrom]
  | cons c line => by_cases hc : c = '\r' <;> simp [Text.linesFrom, hc]

lemma length_linesFrom (line front back : List Char) :
    (Text.linesFrom line front).length + (Text.linesFrom [] back).length ≤
      (Text.linesFrom line (front ++ '\n' :: back)).length := by
  induction front generalizing line with
  | nil =>
    have h := length_linesFrom_nil line
    rw [List.nil_append, length_linesFrom_newline]
    omega
  | cons c front ih =>
    by_cases hc : c = '\n'
    · subst hc
      have h := ih []
      rw [List.cons_append, length_linesFrom_newline, length_linesFrom_newline]
      omega
    · have hmore (rest : List Char) :
          Text.linesFrom line (c :: rest) = Text.linesFrom (c :: line) rest := by
        simp [Text.linesFrom]
      rw [List.cons_append, hmore, hmore]
      exact ih (c :: line)

lemma length_lines (notes text : String) : (Text.lines notes).length + (Text.lines text).length ≤
    (Text.lines (notes ++ "\n\n" ++ text)).length := by
  simp only [Text.lines, List.length_map, String.toList_append]
  have hblank : (Text.linesFrom [] text.toList).length ≤
      (Text.linesFrom [] ('\n' :: text.toList)).length := by
    simp [Text.linesFrom]
  have h := length_linesFrom [] notes.toList ('\n' :: text.toList)
  have hsame : notes.toList ++ "\n\n".toList ++ text.toList =
      notes.toList ++ '\n' :: '\n' :: text.toList := by simp
  rw [hsame]
  omega

lemma joined_concat {texts : List String} (h : texts ≠ []) (text : String) :
    joined (texts ++ [text]) = joined texts ++ "\n\n" ++ text := by
  cases texts with
  | nil => exact absurd rfl h
  | cons first texts => simp [joined, List.foldl_append]

lemma taken_pred {texts : List String} {k : ℕ} (hk : k + 1 ≤ texts.length)
    (h : Taken texts (k + 1)) : Taken texts k := by
  rcases Nat.lt_or_ge 1 k with hone | hone
  · rcases h with hle | ⟨hcount, hbeside⟩
    · exact .inl (by omega)
    · obtain ⟨j, rfl⟩ : ∃ j, k = j + 2 := ⟨k - 2, by omega⟩
      refine .inr ⟨by omega, fun text htext => ?_⟩
      have hlast := hbeside _ (List.getElem?_eq_getElem (by omega))
      have htake : texts.take (j + 2) = texts.take (j + 1) ++ [text] := by
        rw [List.take_add_one, show texts[j + 1]? = some text from htext]
        rfl
      have hne : texts.take (j + 1) ≠ [] := by
        intro hnil
        have hlength := congrArg List.length hnil
        rw [List.length_take, List.length_nil] at hlength
        omega
      simp only [Nat.add_one_sub_one, htake, joined_concat hne] at hlast
      obtain ⟨hlines, hbytes⟩ := hlast
      have hsum := length_lines (joined (texts.take (j + 1))) text
      refine ⟨?_, ?_⟩
      · simp only [show j + 2 - 1 = j + 1 from rfl]
        omega
      · simp only [show j + 2 - 1 = j + 1 from rfl]
        simp only [utf8Length, String.toList_append, List.map_append, List.sum_append] at hbytes ⊢
        omega
  · exact .inl hone

lemma taken_mono {texts : List String} {j k : ℕ} (hjk : j ≤ k) (hk : k ≤ texts.length)
    (h : Taken texts k) : Taken texts j := by
  induction k, hjk using Nat.le_induction with
  | base => exact h
  | succ k _ ih => exact ih (by omega) (taken_pred hk h)

lemma taken_succ {done : List String} {text : String} {rest : List String} (hdone : done ≠ [])
    (hcount : done.length ≤ MAX_GROUPED_RELEASES) :
    Taken (done ++ text :: rest) (done.length + 1) ↔
      ¬(done.length = MAX_GROUPED_RELEASES ∨
        (Text.lines (joined done)).length + (Text.lines text).length + 2 > MAX_GROUPED_LINES ∨
        utf8Length (joined done).toList + utf8Length text.toList + 2 > MAX_GROUPED_BYTES) := by
  have hpos := List.length_pos_iff.mpr hdone
  have hlast : (done ++ text :: rest)[done.length + 1 - 1]? = some text := by simp
  have htake : (done ++ text :: rest).take (done.length + 1 - 1) = done := by simp
  simp only [Taken, hlast, htake, Option.some.injEq, forall_eq', Beside, not_or]
  omega

lemma joinNotes_taken (shown done : List Note) (hcount : done.length ≤ MAX_GROUPED_RELEASES)
    (hwithin : Taken ((done ++ shown).map textOf) done.length) :
    ∃ k, IsGreatest {k | k ≤ (done ++ shown).length ∧ Taken ((done ++ shown).map textOf) k} k ∧
      joinNotes shown (joined (done.map textOf)) done.length =
        (joined (((done ++ shown).map textOf).take k), k) := by
  induction shown generalizing done with
  | nil =>
    refine ⟨done.length, ⟨⟨by simp, hwithin⟩, fun k hk => by simpa using hk.1⟩, ?_⟩
    rw [joinNotes, List.append_nil, ← List.length_map (f := textOf), List.take_length]
  | cons note shown ih =>
    obtain ⟨version, tag, body⟩ := note
    have hnext : done ++ (version, tag, body) :: shown = done ++ [(version, tag, body)] ++ shown := by
      simp
    rw [joinNotes]
    split
    · rename_i hfull
      obtain ⟨hpos, hfull⟩ := hfull
      have hdone : done.map textOf ≠ [] := by
        simpa using List.length_pos_iff.mp hpos
      refine ⟨done.length, ⟨⟨by simp, hwithin⟩, ?_⟩, by simp⟩
      intro k hk
      by_contra hlt
      have hone := taken_mono (show done.length + 1 ≤ k by omega) (by simpa using hk.1) hk.2
      rw [List.map_append, List.map_cons, ← List.length_map (f := textOf)] at hone
      refine (taken_succ hdone (by simpa using hcount)).mp hone ?_
      simpa only [List.length_map, textOf] using hfull
    · rename_i hroom
      have hsections : (if done.length > 0 then joined (done.map textOf) ++ "\n\n"
          else joined (done.map textOf)) ++ noteSection tag body =
            joined ((done ++ [(version, tag, body)]).map textOf) := by
        rw [List.map_append]
        split
        · rename_i hpos
          exact (joined_concat (by simpa using List.length_pos_iff.mp hpos) _).symm
        · rename_i hpos
          obtain rfl : done = [] := List.length_eq_zero_iff.mp (by omega)
          simp [joined, textOf]
      have hone : Taken ((done ++ [(version, tag, body)] ++ shown).map textOf)
          (done ++ [(version, tag, body)]).length := by
        rcases Nat.eq_zero_or_pos done.length with hzero | hpos
        · exact .inl (by simp [hzero])
        · have hdone : done.map textOf ≠ [] := by simpa using List.length_pos_iff.mp hpos
          rw [← hnext, List.map_append, List.map_cons, List.length_append, List.length_singleton,
            ← List.length_map (f := textOf)]
          refine (taken_succ hdone (by simpa using hcount)).mpr fun hfull => hroom ⟨hpos, ?_⟩
          simpa only [List.length_map, textOf] using hfull
      have hcount' : (done ++ [(version, tag, body)]).length ≤ MAX_GROUPED_RELEASES := by
        rcases hone with hle | ⟨hle, -⟩
        · exact hle.trans (by decide)
        · exact hle
      obtain ⟨k, hk, hjoin⟩ := ih (done ++ [(version, tag, body)]) hcount' hone
      rw [hnext, hsections]
      rw [List.length_append, List.length_singleton] at hjoin
      exact ⟨k, hk, hjoin⟩

lemma listed_perm (channel : UpdateChannel) (current target : ℕ × ℕ) (releases : List Release) :
    (listed channel current target releases).Perm
      ((releases.filter fun release => !release.draft &&
        (decide (channel = .beta) || !release.prerelease)).filterMap (noteOf current target)) :=
  List.mergeSort_perm _ _

lemma noteOf_eq_some {current target : ℕ × ℕ} {release : Release} {note : Note} :
    noteOf current target release = some note ↔
      (stripFront "v" release.version).bind parseVersion = some note.1 ∧
      Newer note.1 current ∧ Newer target note.1 ∧
      note.2.1 = .ofList (release.version.toList.dropWhile (· = 'v')) ∧
      note.2.2 = trimmed (release.body.getD "") ∧ note.2.2 ≠ "" := by
  obtain ⟨version, tag, body⟩ := note
  simp only [noteOf, Option.bind_eq_bind, Option.bind_eq_some_iff]
  constructor
  · rintro ⟨parsed, hparsed, hnote⟩
    split at hnote
    · rename_i hbrings
      cases hnote
      exact ⟨hparsed, hbrings.1, hbrings.2.1, rfl, rfl, hbrings.2.2⟩
    · cases hnote
  · rintro ⟨hparsed, hcurrent, htarget, rfl, rfl, hbody⟩
    refine ⟨version, hparsed, ?_⟩
    rw [if_pos ⟨hcurrent, htarget, hbody⟩]
    rfl

lemma mem_listed {channel : UpdateChannel} {current target : ℕ × ℕ} {releases : List Release}
    {note : Note} : note ∈ listed channel current target releases ↔
      ∃ release ∈ releases, Brings channel current target release note := by
  rw [(listed_perm channel current target releases).mem_iff, List.mem_filterMap]
  constructor
  · rintro ⟨release, hrelease, hnote⟩
    obtain ⟨hrelease, hchannel⟩ := List.mem_filter.mp hrelease
    obtain ⟨hdraft, hchannel⟩ : release.draft = false ∧
        (channel = .beta ∨ release.prerelease = false) := by simpa using hchannel
    exact ⟨release, hrelease, hdraft, hchannel, noteOf_eq_some.mp hnote⟩
  · rintro ⟨release, hrelease, hdraft, hchannel, hnote⟩
    refine ⟨release, List.mem_filter.mpr ⟨hrelease, ?_⟩, noteOf_eq_some.mpr hnote⟩
    simpa using ⟨hdraft, hchannel⟩

lemma newer_total (a b : ℕ × ℕ) : ¬Newer a b ∨ ¬Newer b a := by
  simp only [Newer]
  omega

lemma listed_pairwise (channel : UpdateChannel) (current target : ℕ × ℕ)
    (releases : List Release) :
    (listed channel current target releases).Pairwise fun a b => ¬Newer b.1 a.1 := by
  have h : (listed channel current target releases).Pairwise
      fun a b => (!decide (Newer b.1 a.1)) = true := by
    refine List.pairwise_mergeSort ?_ ?_ _
    · intro a b c hab hbc
      simp only [Bool.not_eq_true', decide_eq_false_iff_not] at *
      simp only [Newer] at *
      omega
    · intro a b
      simpa using newer_total b.1 a.1
  exact h.imp fun hab => by simpa using hab

def Whole (text : String) : Prop :=
  ∃ front c, text.toList = front ++ [c] ∧ c ≠ '\n'

structure Sections (texts : List String) : Prop where
  headed : ∀ text ∈ texts, ∃ rest, text = "## " ++ rest
  whole : ∀ text ∈ texts, Whole text

lemma length_linesFrom_whole (line front back : List Char) {c : Char} (hc : c ≠ '\n') :
    (Text.linesFrom line (front ++ c :: '\n' :: back)).length =
      (Text.linesFrom line (front ++ [c])).length + (Text.linesFrom [] back).length := by
  have hmore {d : Char} (hd : d ≠ '\n') (line rest : List Char) :
      Text.linesFrom line (d :: rest) = Text.linesFrom (d :: line) rest := by
    simp [Text.linesFrom]
  induction front generalizing line with
  | nil =>
    rw [List.nil_append, List.nil_append, hmore hc, hmore hc, length_linesFrom_newline]
    simp only [Text.linesFrom, List.length_singleton]
    omega
  | cons d front ih =>
    by_cases hd : d = '\n'
    · subst hd
      rw [List.cons_append, List.cons_append, length_linesFrom_newline, length_linesFrom_newline,
        ih]
      omega
    · rw [List.cons_append, List.cons_append, hmore hd, hmore hd, ih]

lemma Whole.length_lines {notes : String} (h : Whole notes) (text : String) :
    (Text.lines (notes ++ "\n\n" ++ text)).length =
      (Text.lines notes).length + 1 + (Text.lines text).length := by
  obtain ⟨front, c, hnotes, hc⟩ := h
  have hsame : (notes ++ "\n\n" ++ text).toList =
      front ++ c :: '\n' :: '\n' :: text.toList := by
    simp [String.toList_append, hnotes]
  simp only [Text.lines, List.length_map]
  rw [hsame, length_linesFrom_whole _ _ _ hc, ← hnotes, length_linesFrom_newline]
  omega

lemma Whole.append {text : String} (h : Whole text) (front : String) : Whole (front ++ text) := by
  obtain ⟨middle, c, htext, hc⟩ := h
  exact ⟨front.toList ++ middle, c, by rw [String.toList_append, htext, List.append_assoc], hc⟩

lemma whole_trimmed {text : String} (h : trimmed text ≠ "") : Whole (trimmed text) := by
  have hlist : (trimmed text).toList =
      ((Text.trimStart text.toList).reverse.dropWhile Text.isWhitespace).reverse := by
    rw [trimmed, Text.trim, String.toList_ofList, Text.trimEnd]
  cases hdrop : (Text.trimStart text.toList).reverse.dropWhile Text.isWhitespace with
  | nil =>
    rw [hdrop] at hlist
    exact absurd (String.toList_injective hlist) h
  | cons c rest =>
    refine ⟨rest.reverse, c, by rw [hlist, hdrop, List.reverse_cons], ?_⟩
    rintro rfl
    have hhead := List.head?_dropWhile_not Text.isWhitespace (Text.trimStart text.toList).reverse
    rw [hdrop, List.head?_cons] at hhead
    exact absurd hhead (by decide)

section

variable {texts : List String}

lemma take_ne_nil {k : ℕ} (hpos : 1 ≤ k) (hk : k ≤ texts.length) : texts.take k ≠ [] := by
  intro hnil
  have hlength := congrArg List.length hnil
  rw [List.length_take, List.length_nil] at hlength
  omega

lemma joined_succ {k : ℕ} {text : String} (hpos : 1 ≤ k) (hlast : texts[k]? = some text) :
    joined (texts.take (k + 1)) = joined (texts.take k) ++ "\n\n" ++ text := by
  obtain ⟨hk, -⟩ := List.getElem?_eq_some_iff.mp hlast
  rw [List.take_add_one, hlast, Option.toList_some,
    joined_concat (take_ne_nil hpos (by omega))]

lemma bytes_joined {k : ℕ} {text : String} (hpos : 1 ≤ k) (hlast : texts[k]? = some text) :
    utf8Length (joined (texts.take (k + 1))).toList =
      utf8Length (joined (texts.take k)).toList + 2 + utf8Length text.toList := by
  rw [joined_succ hpos hlast]
  simp only [utf8Length, String.toList_append, List.map_append, List.sum_append]
  rfl

namespace Sections

lemma whole_joined (h : Sections texts) {k : ℕ} (hpos : 1 ≤ k) (hk : k ≤ texts.length) :
    Whole (joined (texts.take k)) := by
  obtain ⟨j, rfl⟩ : ∃ j, k = j + 1 := ⟨k - 1, by omega⟩
  have hlast := List.getElem?_eq_getElem (show j < texts.length by omega)
  have hwhole := h.whole _ (List.getElem_mem (show j < texts.length by omega))
  rcases Nat.eq_zero_or_pos j with rfl | hj
  · cases texts with
    | nil => simp at hk
    | cons text texts => exact hwhole
  · rw [joined_succ hj hlast]
    exact hwhole.append _

lemma lines_joined (h : Sections texts) {k : ℕ} {text : String} (hpos : 1 ≤ k)
    (hlast : texts[k]? = some text) : (Text.lines (joined (texts.take (k + 1)))).length =
      (Text.lines (joined (texts.take k))).length + 1 + (Text.lines text).length := by
  obtain ⟨hk, -⟩ := List.getElem?_eq_some_iff.mp hlast
  rw [joined_succ hpos hlast, (h.whole_joined hpos (by omega)).length_lines]

lemma joined_lt (h : Sections texts) {j k : ℕ} (hpos : 1 ≤ j) (hjk : j < k)
    (hk : k ≤ texts.length) :
    ∃ rest, joined (texts.take k) = joined (texts.take j) ++ "\n\n## " ++ rest := by
  induction k, hjk using Nat.le_induction with
  | base =>
    obtain ⟨rest, hrest⟩ := h.headed _ (List.getElem_mem (show j < texts.length by omega))
    refine ⟨rest, ?_⟩
    rw [joined_succ hpos (List.getElem?_eq_getElem (by omega)), hrest]
    simp only [String.append_assoc]
    rfl
  | succ k hjk ih =>
    obtain ⟨rest, hrest⟩ := ih (by omega)
    have hlast := List.getElem?_eq_getElem (show k < texts.length by omega)
    exact ⟨_, by rw [joined_succ (by omega) hlast, hrest]; simp only [String.append_assoc]; rfl⟩

lemma taken_iff (h : Sections texts) {k : ℕ} (htwo : 2 ≤ k) (hk : k ≤ texts.length) :
    Taken texts k ↔ Within texts k ∧
      (Text.lines (joined (texts.take k))).length ≠ MAX_GROUPED_LINES := by
  obtain ⟨j, rfl⟩ : ∃ j, k = j + 2 := ⟨k - 2, by omega⟩
  have hlast := List.getElem?_eq_getElem (show j + 1 < texts.length by omega)
  have hlines := h.lines_joined (show 1 ≤ j + 1 by omega) hlast
  have hbytes := bytes_joined (show 1 ≤ j + 1 by omega) hlast
  simp only [Taken, Within, show j + 2 - 1 = j + 1 from rfl, hlast, Option.some.injEq, forall_eq',
    Beside]
  rw [show j + 1 + 1 = j + 2 from rfl] at hlines hbytes
  omega

lemma shownOf_inj (h : Sections texts) {j k : ℕ} (hpos : 1 ≤ j) (hjk : j ≤ k)
    (hk : k ≤ texts.length) (hshown : shownOf texts j = shownOf texts k) : j = k := by
  rcases Nat.eq_or_lt_of_le hjk with heq | hlt
  · exact heq
  · obtain ⟨rest, hrest⟩ := h.joined_lt hpos hlt hk
    have hcut : ∃ more, shownOf texts k = joined (texts.take j) ++ "\n\n## " ++ more := by
      rw [shownOf, hrest]
      split
      · exact ⟨_, by simp only [String.append_assoc]; rfl⟩
      · exact ⟨rest, rfl⟩
    obtain ⟨more, hmore⟩ := hcut
    have hsame := congrArg String.toList (hshown.trans hmore)
    rw [shownOf, if_pos (by omega)] at hsame
    simp [String.toList_append] at hsame

end Sections

end

lemma textOf_sections {notes : List Note}
    (h : ∀ note ∈ notes, ∃ body, note.2.2 = trimmed body ∧ note.2.2 ≠ "") :
    Sections (notes.map textOf) := by
  refine ⟨?_, ?_⟩ <;> simp only [List.forall_mem_map]
  · intro note _
    exact ⟨_, by rw [textOf, noteSection, String.append_assoc, String.append_assoc]⟩
  · intro note hnote
    obtain ⟨body, hbody, hblank⟩ := h note hnote
    rw [hbody] at hblank
    rw [textOf, noteSection, hbody]
    exact (whole_trimmed hblank).append _

section

variable {Key : Type} (out : Outside Key) {metadata : Bytes} (current : ℕ × ℕ) {version : ℕ × ℕ}
  {target : String} (body : Option String) (channel : UpdateChannel) {releases : List Release}

lemma noted_sections :
    Sections ((noted channel current version target body releases).map textOf) := by
  refine textOf_sections fun note hnote => ?_
  rcases List.mem_append.mp hnote with htarget | hlisted
  · simp only [targetNote, Option.mem_toList, Option.map_eq_some_iff, Option.filter_eq_some_iff]
      at htarget
    obtain ⟨text, ⟨⟨body, -, rfl⟩, hblank⟩, rfl⟩ := htarget
    exact ⟨body, rfl, by simpa using hblank⟩
  · obtain ⟨release, -, -, -, -, -, -, -, hbody, hblank⟩ := mem_listed.mp hlisted
    exact ⟨_, hbody, hblank⟩

lemma historyNotes_eq (hlimit : metadata.length ≤ HISTORY_LIMIT)
    (htarget : parseVersion target = some version)
    (hparses : out.releasesFromSlice metadata = some releases) :
    ∃ k, IsGreatest {k | k ≤ (noted channel current version target body releases).length ∧
        Taken ((noted channel current version target body releases).map textOf) k} k ∧
      historyNotes out metadata current target body channel =
        if k < 2 then none
        else some (shownOf ((noted channel current version target body releases).map textOf) k) := by
  have hcut (notes : List Note) : ∃ k,
      IsGreatest {k | k ≤ notes.length ∧ Taken (notes.map textOf) k} k ∧
      (if (joinNotes notes "" 0).2 < 2 then none
      else if (joinNotes notes "" 0).2 < notes.length then
        some ((joinNotes notes "" 0).1 ++ "\n\n> Showing the newest " ++
          toString (joinNotes notes "" 0).2 ++ " releases. [All releases](" ++ RELEASES_PAGE ++ ")")
      else some (joinNotes notes "" 0).1) =
        if k < 2 then none else some (shownOf (notes.map textOf) k) := by
    obtain ⟨k, hk, hjoin⟩ := joinNotes_taken notes [] (Nat.zero_le _) (.inl (Nat.zero_le _))
    change joinNotes notes "" 0 = (joined ((notes.map textOf).take k), k) at hjoin
    refine ⟨k, hk, ?_⟩
    rw [hjoin, shownOf, List.length_map]
    by_cases htwo : k < 2
    · rw [if_pos htwo, if_pos htwo]
    · rw [if_neg htwo, if_neg htwo]
      by_cases hmore : k < notes.length
      · rw [if_pos hmore, if_pos hmore]
      · rw [if_neg hmore, if_neg hmore]
  have hnoted : noted channel current version target body releases =
      (targetNote target version body).toList ++ listed channel current version releases := rfl
  rw [historyNotes, if_neg (Nat.not_lt.mpr hlimit), htarget, hparses, Option.bind_eq_bind,
    Option.bind_some, Option.bind_eq_bind, Option.bind_some]
  simp only [← listed.eq_def]
  cases hbody : (body.map trimmed).filter (· ≠ "") with
  | none =>
    rw [targetNote, hbody, Option.map_none, Option.toList_none, List.nil_append] at hnoted
    rw [hnoted]
    exact hcut _
  | some body =>
    rw [targetNote, hbody, Option.map_some, Option.toList_some, List.singleton_append] at hnoted
    rw [hnoted]
    exact hcut _

def Unfilled (texts : List String) : Prop :=
  ∀ k, 2 ≤ k → k ≤ texts.length → Within texts k →
    (Text.lines (joined (texts.take k))).length ≠ MAX_GROUPED_LINES

theorem grouped_iff (hlimit : metadata.length ≤ HISTORY_LIMIT)
    (htarget : parseVersion target = some version)
    (hparses : out.releasesFromSlice metadata = some releases) :
    (∀ note, note ∈ listed channel current version releases ↔
      ∃ release ∈ releases, Brings channel current version release note) ∧
    (listed channel current version releases).Pairwise (fun a b => ¬Newer b.1 a.1) ∧
    (Grouped (noted channel current version target body releases)
        (historyNotes out metadata current target body channel) ↔
      (noted channel current version target body releases).length < 2 ∨
        Within ((noted channel current version target body releases).map textOf) 2 ∧
          Unfilled ((noted channel current version target body releases).map textOf)) := by
  refine ⟨fun note => mem_listed, listed_pairwise _ _ _ _, ?_⟩
  obtain ⟨k, hk, hnotes⟩ := historyNotes_eq out current body channel hlimit htarget hparses
  have hsections : Sections ((noted channel current version target body releases).map textOf) :=
    noted_sections current body channel
  rw [hnotes]
  generalize noted channel current version target body releases = notes at hk hsections
  have hlength : (notes.map textOf).length = notes.length := List.length_map _
  have hle : k ≤ notes.length := hk.1.1
  constructor
  · rintro ⟨hnone, hsome⟩
    rcases Nat.lt_or_ge notes.length 2 with hfew | hmany
    · exact .inl hfew
    · obtain ⟨j, hj, hresult⟩ := hsome hmany
      have htwo : 2 ≤ k := by
        by_contra htwo
        simp [show k < 2 by omega] at hresult
      have hkj : k ≤ j :=
        hj.2 ⟨hle, ((hsections.taken_iff htwo (hlength ▸ hle)).mp hk.1.2).1⟩
      rw [if_neg (by omega)] at hresult
      obtain rfl := hsections.shownOf_inj (by omega) hkj (hlength ▸ hj.1.1)
        (Option.some.inj hresult)
      have htaken {i : ℕ} (hi : 2 ≤ i) (hik : i ≤ k) :=
        (hsections.taken_iff hi (hlength ▸ hik.trans hle)).mp
          (taken_mono hik (hlength ▸ hle) hk.1.2)
      refine .inr ⟨(htaken le_rfl htwo).1, fun i hi hin hwithin => (htaken hi ?_).2⟩
      exact hj.2 ⟨hlength ▸ hin, hwithin⟩
  · intro hfits
    rcases Nat.lt_or_ge notes.length 2 with hfew | hmany
    · rw [if_pos (by omega)]
      exact ⟨⟨fun _ => hfew, fun _ => rfl⟩, fun hmany => by omega⟩
    · obtain ⟨hsecond, hunfilled⟩ := hfits.resolve_left (by omega)
      have htaken {i : ℕ} (hi : 2 ≤ i) (hin : i ≤ notes.length)
          (hwithin : Within (notes.map textOf) i) : Taken (notes.map textOf) i :=
        (hsections.taken_iff hi (hlength ▸ hin)).mpr
          ⟨hwithin, hunfilled i hi (hlength ▸ hin) hwithin⟩
      have htwo : 2 ≤ k := hk.2 ⟨hmany, htaken le_rfl hmany hsecond⟩
      rw [if_neg (by omega)]
      refine ⟨⟨fun hnone => by simp at hnone, fun hfew => by omega⟩, fun _ => ⟨k, ⟨⟨hle, ?_⟩, ?_⟩, rfl⟩⟩
      · exact ((hsections.taken_iff htwo (hlength ▸ hle)).mp hk.1.2).1
      · intro i hi
        rcases Nat.lt_or_ge i 2 with hone | hi'
        · omega
        · exact hk.2 ⟨hi.1, htaken hi' hi.1 hi.2⟩

end

lemma trimmed_replicate {n : ℕ} (h : n ≠ 0) :
    trimmed (.ofList (List.replicate n 'a')) = .ofList (List.replicate n 'a') := by
  obtain ⟨n, rfl⟩ := Nat.exists_eq_succ_of_ne_zero h
  have hspace : Text.isWhitespace 'a' = false := by decide
  rw [trimmed, Text.trim, String.toList_ofList, Text.trimStart, Text.trimEnd, List.replicate_succ,
    List.dropWhile_cons_of_neg (by simp [hspace]), ← List.replicate_succ, List.reverse_replicate,
    List.replicate_succ, List.dropWhile_cons_of_neg (by simp [hspace]), ← List.replicate_succ,
    List.reverse_replicate]

lemma long_apart {first second : String} (h : MAX_GROUPED_BYTES < utf8Length first.toList) :
    ¬Taken [first, second] 2 := by
  rintro (hone | ⟨-, hbeside⟩)
  · omega
  · have hbytes := (hbeside second rfl).2
    change utf8Length first.toList + _ + 2 ≤ _ at hbytes
    omega

def brought : Release where
  version := "v20260902.1"
  draft := false
  prerelease := false
  assets := []
  body := some "- fixed"

def listing : Outside Unit where
  keyFromBytes _ := none
  verifyStrict _ _ _ := false
  manifestFromSlice _ := none
  releaseFromSlice _ := none
  releasesFromSlice _ := some [brought]
  parseUri _ := none

lemma listing_short : ([] : Bytes).length ≤ HISTORY_LIMIT := Nat.zero_le _

lemma target_version : parseVersion "20260903.1" = some (20260903, 1) := by decide

lemma listing_parses : listing.releasesFromSlice [] = some [brought] := rfl

def longBody : String := .ofList (List.replicate (MAX_GROUPED_BYTES + 1) 'a')

lemma noted_brought (body : Option String) :
    noted .stable (20260901, 1) (20260903, 1) "20260903.1" body [brought] =
      (targetNote "20260903.1" (20260903, 1) body).toList ++
        [((20260902, 1), "20260902.1", "- fixed")] := by
  rw [noted]
  congr 1
  rw [listed]
  have hone : (([brought].filter fun release => !release.draft &&
      (decide (UpdateChannel.stable = .beta) || !release.prerelease)).filterMap
        (noteOf (20260901, 1) (20260903, 1))) = [((20260902, 1), "20260902.1", "- fixed")] := by
    decide
  rw [hone, List.mergeSort_singleton]

lemma targetNote_long : targetNote "20260903.1" (20260903, 1) (some longBody) =
    some ((20260903, 1), "20260903.1", longBody) := by
  have hne : longBody ≠ "" := by
    rw [longBody, List.replicate_succ]
    exact fun h => absurd (congrArg String.toList h) (by simp)
  rw [targetNote, Option.map_some, longBody, trimmed_replicate (by decide), ← longBody,
    Option.filter_some_pos (by simpa using hne), Option.map_some]

theorem long_notes_unannounced :
    (noted .stable (20260901, 1) (20260903, 1) "20260903.1" (some longBody) [brought]).length = 2 ∧
      historyNotes listing [] (20260901, 1) "20260903.1" (some longBody) .stable = none := by
  have hnoted := noted_brought (some longBody)
  rw [targetNote_long, Option.toList_some, List.singleton_append] at hnoted
  refine ⟨by rw [hnoted]; rfl, ?_⟩
  obtain ⟨k, hk, hnotes⟩ := historyNotes_eq listing (20260901, 1) (some longBody) .stable
    listing_short target_version listing_parses
  rw [hnotes, if_pos]
  by_contra htwo
  have hwithin := taken_mono (Nat.not_lt.mp htwo) (by simpa using hk.1.1) hk.1.2
  rw [hnoted] at hwithin
  refine long_apart ?_ hwithin
  simp only [textOf, noteSection, longBody, utf8Length, String.toList_append, String.toList_ofList,
    List.map_append, List.sum_append, List.map_replicate, List.sum_replicate, smul_eq_mul]
  have hone : Char.utf8Size 'a' = 1 := by decide
  rw [hone]
  omega

theorem grouped_iff_brought : Grouped
    (noted .stable (20260901, 1) (20260903, 1) "20260903.1" (some "- new") [brought])
    (historyNotes listing [] (20260901, 1) "20260903.1" (some "- new") .stable) := by
  obtain ⟨-, -, hgrouped⟩ := grouped_iff listing (20260901, 1) (some "- new") .stable
    listing_short target_version listing_parses
  refine hgrouped.mpr (.inr ?_)
  rw [noted_brought]
  have htarget : targetNote "20260903.1" (20260903, 1) (some "- new") =
      some ((20260903, 1), "20260903.1", "- new") := by decide
  rw [htarget]
  refine ⟨.inr ⟨by decide, by decide, by decide⟩, fun k htwo hk _ => ?_⟩
  obtain rfl : k = 2 := Nat.le_antisymm hk htwo
  decide

end Sheprd.Updater.Releases
