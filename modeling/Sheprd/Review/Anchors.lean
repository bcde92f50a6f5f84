import Sheprd.Review.Hunks

namespace Sheprd.Review

variable {repair : List UInt8 → Chars}

namespace Hunk

def olds (hunk : Hunk) : ℕ := hunk.body.countP onOld

def news (hunk : Hunk) : ℕ := hunk.body.countP onNew

def Apart (hunk next : Hunk) : Prop :=
  ∀ old new old' new', hunkStarts hunk.header = some (old, new) → hunkStarts next.header = some (old', new') →
    old + hunk.olds ≤ old' ∧ new + hunk.news ≤ new'

def Fits (hunk : Hunk) : Prop :=
  ∀ old new, hunkStarts hunk.header = some (old, new) → old + hunk.olds ≤ 2 ^ 32 ∧ new + hunk.news ≤ 2 ^ 32

end Hunk

def Ascending (hunks : List Hunk) : Prop := hunks.Pairwise Hunk.Apart

def Precedes (line next : Line) : Prop :=
  (∀ x, line.old = some x → ∀ y, next.old = some y → x < y) ∧
    ∀ x, line.new = some x → ∀ y, next.new = some y → x < y

lemma content_numbers {old new : ℕ} {raw text : Chars} {kind : Kind} {oldNumber newNumber : Option ℕ}
    (h : content old new raw = some (kind, oldNumber, newNumber, text)) :
    oldNumber = (if onOld raw then some old else none) ∧ newNumber = if onNew raw then some new else none := by
  unfold content at h
  split at h <;> cases h <;> simp [onOld, onNew]

lemma numberAt_eq {start bound : ℕ} {side : Chars → Bool} {seen : List Chars}
    (hle : seen.countP side + 1 ≤ bound) (hfits : start + bound ≤ 2 ^ 32) :
    numberAt start side seen = start + seen.countP side := by
  rw [numberAt, saturatingAdd, u32Max]
  omega

section Numbered

variable {old new : ℕ} {seen body : List Chars} {line : Line}

structure Within (old new : ℕ) (seen all : List Chars) (line : Line) : Prop where
  old : ∀ x, line.old = some x → old + seen.countP onOld ≤ x ∧ x < old + all.countP onOld
  new : ∀ x, line.new = some x → new + seen.countP onNew ≤ x ∧ x < new + all.countP onNew

lemma first_within {raw : Chars} {kind : Kind} {oldNumber newNumber : Option ℕ} {text : Chars}
    (hold : old + (seen ++ raw :: body).countP onOld ≤ 2 ^ 32)
    (hnew : new + (seen ++ raw :: body).countP onNew ≤ 2 ^ 32)
    (h : content (numberAt old onOld seen) (numberAt new onNew seen) raw = some (kind, oldNumber, newNumber, text)) :
    (∀ x, oldNumber = some x → x = old + seen.countP onOld ∧ onOld raw = true) ∧
      ∀ x, newNumber = some x → x = new + seen.countP onNew ∧ onNew raw = true := by
  obtain ⟨rfl, rfl⟩ := content_numbers h
  refine ⟨fun x hx => ?_, fun x hx => ?_⟩
  · split at hx
    · rename_i hraw
      rw [List.countP_append, List.countP_cons_of_pos hraw] at hold
      rw [← Option.some.inj hx, numberAt_eq le_rfl (by omega)]
      exact ⟨rfl, hraw⟩
    · exact absurd hx (by simp)
  · split at hx
    · rename_i hraw
      rw [List.countP_append, List.countP_cons_of_pos hraw] at hnew
      rw [← Option.some.inj hx, numberAt_eq le_rfl (by omega)]
      exact ⟨rfl, hraw⟩
    · exact absurd hx (by simp)

lemma numbered_ascend (hold : old + (seen ++ body).countP onOld ≤ 2 ^ 32)
    (hnew : new + (seen ++ body).countP onNew ≤ 2 ^ 32) :
    (∀ line ∈ numbered old new seen body, Within old new seen (seen ++ body) line) ∧
      (numbered old new seen body).Pairwise Precedes := by
  induction body generalizing seen with
  | nil => exact ⟨fun line hline => absurd hline List.not_mem_nil, List.Pairwise.nil⟩
  | cons raw body ih =>
    have happend : seen ++ raw :: body = seen ++ [raw] ++ body := by simp
    have hold' : old + (seen ++ [raw] ++ body).countP onOld ≤ 2 ^ 32 := happend ▸ hold
    have hnew' : new + (seen ++ [raw] ++ body).countP onNew ≤ 2 ^ 32 := happend ▸ hnew
    obtain ⟨hwithin, hpairwise⟩ := ih hold' hnew'
    have hlater : ∀ line ∈ numbered old new (seen ++ [raw]) body, Within old new seen (seen ++ raw :: body) line := by
      intro line hline
      have hline := hwithin line hline
      refine ⟨fun x hx => ?_, fun x hx => ?_⟩
      · obtain ⟨hle, hlt⟩ := hline.old x hx
        rw [List.countP_append] at hle
        exact ⟨by omega, happend ▸ hlt⟩
      · obtain ⟨hle, hlt⟩ := hline.new x hx
        rw [List.countP_append] at hle
        exact ⟨by omega, happend ▸ hlt⟩
    rw [numbered]
    cases hcontent : content (numberAt old onOld seen) (numberAt new onNew seen) raw with
    | none => exact ⟨hlater, hpairwise⟩
    | some shown =>
      obtain ⟨kind, oldNumber, newNumber, text⟩ := shown
      obtain ⟨hfirstOld, hfirstNew⟩ := first_within hold hnew hcontent
      simp only [Option.map_some, Option.toList_some, List.singleton_append]
      refine ⟨List.forall_mem_cons.mpr ⟨⟨fun x hx => ?_, fun x hx => ?_⟩, hlater⟩,
        List.pairwise_cons.mpr ⟨fun line hline => ⟨fun x hx y hy => ?_, fun x hx y hy => ?_⟩, hpairwise⟩⟩
      · obtain ⟨rfl, hraw⟩ := hfirstOld x hx
        rw [List.countP_append, List.countP_cons_of_pos hraw]
        omega
      · obtain ⟨rfl, hraw⟩ := hfirstNew x hx
        rw [List.countP_append, List.countP_cons_of_pos hraw]
        omega
      · obtain ⟨rfl, hraw⟩ := hfirstOld x hx
        have hbound := ((hwithin line hline).old y hy).1
        rw [List.countP_append, List.countP_cons_of_pos hraw] at hbound
        omega
      · obtain ⟨rfl, hraw⟩ := hfirstNew x hx
        have hbound := ((hwithin line hline).new y hy).1
        rw [List.countP_append, List.countP_cons_of_pos hraw] at hbound
        omega

end Numbered

lemma Hunk.lines_ascend {hunk : Hunk} (h : hunk.Fits) :
    (∀ line ∈ hunk.lines, ∀ old new, hunkStarts hunk.header = some (old, new) →
      Within old new [] hunk.body line) ∧
      (∀ line ∈ hunk.lines, hunkStarts hunk.header = none → line.old = none ∧ line.new = none) ∧
      hunk.lines.Pairwise Precedes := by
  have hhead : ∀ line, Precedes (shownLine .hunk none none hunk.header) line := fun line =>
    ⟨fun x hx => absurd hx (by simp [shownLine]), fun x hx => absurd hx (by simp [shownLine])⟩
  rw [Hunk.lines]
  cases hstarts : hunkStarts hunk.header with
  | none =>
    exact ⟨fun _ _ _ _ hsome => absurd hsome (by simp),
      fun line hline _ => List.mem_singleton.mp hline ▸ ⟨rfl, rfl⟩, List.pairwise_singleton _ _⟩
  | some starts =>
    obtain ⟨old, new⟩ := starts
    obtain ⟨hold, hnew⟩ := h old new hstarts
    have hold' : old + ([] ++ hunk.body).countP onOld ≤ 2 ^ 32 := hold
    have hnew' : new + ([] ++ hunk.body).countP onNew ≤ 2 ^ 32 := hnew
    obtain ⟨hwithin, hpairwise⟩ := numbered_ascend hold' hnew'
    refine ⟨fun line hline old' new' hsame => ?_, fun _ _ hnone => absurd hnone (by simp),
      List.pairwise_cons.mpr ⟨fun line _ => hhead line, hpairwise⟩⟩
    obtain ⟨rfl, rfl⟩ := Prod.mk.inj (Option.some.inj hsame)
    obtain rfl | hline := List.mem_cons.mp hline
    · exact ⟨fun x hx => absurd hx (by simp [shownLine]), fun x hx => absurd hx (by simp [shownLine])⟩
    · exact hwithin line hline

lemma hunks_ascend {hunks : List Hunk} (h : Ascending hunks) (hfits : ∀ hunk ∈ hunks, hunk.Fits) :
    (hunks.flatMap Hunk.lines).Pairwise Precedes := by
  refine List.pairwise_flatMap.mpr ⟨fun hunk hhunk => (Hunk.lines_ascend (hfits hunk hhunk)).2.2, ?_⟩
  refine List.Pairwise.imp_of_mem (fun {hunk next} hhunk hnext hapart line hline line' hline' => ?_) h
  obtain ⟨hwithin, hnone, -⟩ := Hunk.lines_ascend (hfits hunk hhunk)
  obtain ⟨hwithin', hnone', -⟩ := Hunk.lines_ascend (hfits next hnext)
  cases hstarts : hunkStarts hunk.header with
  | none =>
    obtain ⟨hold, hnew⟩ := hnone line hline hstarts
    exact ⟨fun x hx => absurd (hold.symm.trans hx) (by simp), fun x hx => absurd (hnew.symm.trans hx) (by simp)⟩
  | some starts =>
    obtain ⟨old, new⟩ := starts
    cases hstarts' : hunkStarts next.header with
    | none =>
      obtain ⟨hold, hnew⟩ := hnone' line' hline' hstarts'
      exact ⟨fun _ _ y hy => absurd (hold.symm.trans hy) (by simp),
        fun _ _ y hy => absurd (hnew.symm.trans hy) (by simp)⟩
    | some starts' =>
      obtain ⟨old', new'⟩ := starts'
      obtain ⟨hold, hnew⟩ := hapart old new old' new' hstarts hstarts'
      have hfirst := hwithin line hline old new hstarts
      have hsecond := hwithin' line' hline' old' new' hstarts'
      rw [Hunk.olds] at hold
      rw [Hunk.news] at hnew
      refine ⟨fun x hx y hy => ?_, fun x hx y hy => ?_⟩
      · have hlt := (hfirst.old x hx).2
        have hle := (hsecond.old y hy).1
        rw [List.countP_nil] at hle
        omega
      · have hlt := (hfirst.new x hx).2
        have hle := (hsecond.new y hy).1
        rw [List.countP_nil] at hle
        omega

section Rows

variable {diff : Diff}

lemma onSide_of_sideOf {line : Line} {side : Side} {number : ℕ} (h : Diff.sideOf line = some (side, number)) :
    Diff.onSide side number line = true := by
  rw [Diff.sideOf] at h
  split at h
  · rename_i hkind
    obtain ⟨_, hnew, he⟩ := Option.map_eq_some_iff.mp h
    obtain ⟨rfl, rfl⟩ := Prod.mk.inj he
    simp [Diff.onSide, hkind, hnew]
  · rename_i hkind
    obtain ⟨_, hold, he⟩ := Option.map_eq_some_iff.mp h
    obtain ⟨rfl, rfl⟩ := Prod.mk.inj he
    simp [Diff.onSide, hkind, hold]
  · rename_i hkind
    obtain ⟨_, hnew, he⟩ := Option.map_eq_some_iff.mp h
    obtain ⟨rfl, rfl⟩ := Prod.mk.inj he
    simp [Diff.onSide, hkind, hnew]
  · exact absurd h (by simp)

lemma not_precedes {line next : Line} {side : Side} {number : ℕ} (h : Diff.onSide side number line = true)
    (h' : Diff.onSide side number next = true) : ¬ Precedes line next := by
  intro hprecedes
  cases side with
  | added =>
    simp only [Diff.onSide, Bool.and_eq_true, decide_eq_true_eq] at h h'
    exact absurd (hprecedes.2 number h.2 number h'.2) (lt_irrefl number)
  | removed =>
    simp only [Diff.onSide, Bool.and_eq_true, decide_eq_true_eq] at h h'
    exact absurd (hprecedes.1 number h.2 number h'.2) (lt_irrefl number)
  | unchanged =>
    simp only [Diff.onSide, Bool.and_eq_true, decide_eq_true_eq] at h h'
    exact absurd (hprecedes.2 number h.2 number h'.2) (lt_irrefl number)

lemma findIdx_line {lines : List Line} (h : lines.Pairwise Precedes) {line : ℕ} {found : Line}
    (hfound : lines[line]? = some found) {side : Side} {number : ℕ} (hside : Diff.sideOf found = some (side, number)) :
    lines.findIdx? (Diff.onSide side number) = some line := by
  have hon := onSide_of_sideOf hside
  obtain ⟨hlt, rfl⟩ := List.getElem?_eq_some_iff.mp hfound
  rw [List.findIdx?_eq_some_iff_getElem]
  refine ⟨hlt, hon, fun earlier hearlier hmatch => ?_⟩
  exact not_precedes hmatch hon (List.pairwise_iff_getElem.mp h earlier line (hearlier.trans hlt) hlt hearlier)

lemma paths_concat (files : List FileDiff) (file : FileDiff) (before : String) (path : String) :
    Diff.paths ⟨files ++ [file], before⟩ path =
      if path = file.path then (Diff.paths ⟨files, before⟩ path).or (some files.length)
      else Diff.paths ⟨files, before⟩ path := by
  simp [Diff.paths, List.zipIdx_append, List.foldl_append]

lemma paths_of_distinct {files : List FileDiff} (h : (files.map FileDiff.path).Nodup) {before : String} {index : ℕ}
    {file : FileDiff} (hfile : files[index]? = some file) : Diff.paths ⟨files, before⟩ file.path = some index := by
  have hnone : ∀ (files : List FileDiff) path, path ∉ files.map FileDiff.path →
      Diff.paths ⟨files, before⟩ path = none := by
    intro files path
    induction files using List.reverseRecOn with
    | nil => exact fun _ => rfl
    | append_singleton files last ih =>
      intro hpath
      rw [List.map_append, List.mem_append, not_or] at hpath
      rw [paths_concat, if_neg fun heq => hpath.2 (List.mem_singleton.mpr heq), ih hpath.1]
  induction files using List.reverseRecOn with
  | nil => exact absurd hfile (by simp)
  | append_singleton files last ih =>
    rw [List.map_append, List.nodup_append] at h
    obtain ⟨hfiles, -, hapart⟩ := h
    rw [paths_concat]
    obtain hlt | hge := Nat.lt_or_ge index files.length
    · rw [List.getElem?_append_left hlt] at hfile
      have hmem : file.path ∈ files.map FileDiff.path :=
        List.mem_map_of_mem (List.mem_of_getElem? hfile)
      rw [if_neg (hapart _ hmem _ List.mem_cons_self), ih hfiles hfile]
    · rw [List.getElem?_append_right hge] at hfile
      have hlast : index - files.length = 0 := by
        have hlt := (List.getElem?_eq_some_iff.mp hfile).1
        rw [List.length_singleton] at hlt
        omega
      rw [hlast] at hfile
      obtain rfl := Option.some.inj hfile
      have hfresh : last.path ∉ files.map FileDiff.path := fun hmem =>
        hapart _ hmem _ List.mem_cons_self rfl
      rw [if_pos rfl, hnone files _ hfresh, show index = files.length by omega]
      rfl

lemma anchor_path {row : RowId} {anchor : Anchor} (h : diff.anchor row = some anchor) :
    ∃ file, diff.files[row.file]? = some file ∧ anchor.path = file.path := by
  obtain ⟨file, hfile, h⟩ := Option.bind_eq_some_iff.mp h
  refine ⟨file, hfile, ?_⟩
  cases row with
  | header index =>
    obtain rfl := Option.some.inj h
    rfl
  | line index line =>
    obtain ⟨lines, -, h⟩ := Option.bind_eq_some_iff.mp h
    obtain ⟨found, -, h⟩ := Option.bind_eq_some_iff.mp h
    obtain ⟨⟨side, number⟩, -, h⟩ := Option.bind_eq_some_iff.mp h
    obtain rfl := Option.some.inj h
    rfl

lemma rowOf_anchor (hpaths : (diff.files.map FileDiff.path).Nodup)
    (hlines : ∀ file ∈ diff.files, ∀ lines, file.lines = some lines → lines.lines.Pairwise Precedes)
    {row : RowId} {anchor : Anchor} (h : diff.anchor row = some anchor) :
    diff.rowOf diff.paths anchor = some row := by
  obtain ⟨file, hfile, hpath⟩ := anchor_path h
  have hindex : diff.paths anchor.path = some row.file := by
    rw [hpath]
    exact paths_of_distinct hpaths hfile
  have hanchor := h
  obtain ⟨file', hfile', h⟩ := Option.bind_eq_some_iff.mp h
  obtain rfl := Option.some.inj (hfile.symm.trans hfile')
  rw [Diff.rowOf, hindex]
  cases row with
  | header index =>
    obtain rfl := Option.some.inj h
    rfl
  | line index line =>
    obtain ⟨lines, hloaded, h⟩ := Option.bind_eq_some_iff.mp h
    obtain ⟨found, hfound, h⟩ := Option.bind_eq_some_iff.mp h
    obtain ⟨⟨side, number⟩, hside, h⟩ := Option.bind_eq_some_iff.mp h
    obtain rfl := Option.some.inj h
    have hascend := hlines file (List.mem_of_getElem? hfile) lines hloaded
    have hfile'' : diff.files[index]? = some file := hfile
    simp only [Option.bind_eq_bind, Option.bind_some, RowId.file, hfile'', hloaded, findIdx_line hascend hfound hside]
    exact if_pos hanchor

end Rows

lemma parsed_lines {text : Chars} {index : ℕ} {file : FileDiff} {lines : Lines}
    (hfile : (Diff.parse repair text).files[index]? = some file) (hlines : file.lines = some lines) :
    ∃ part, (sections (rawLines text))[index]? = some part ∧ lines.lines <+: (hunks part.2).flatMap Hunk.lines := by
  rw [Diff.parse, List.getElem?_map, parse_eq, List.getElem?_map] at hfile
  obtain ⟨parsed, hparsed, rfl⟩ := Option.map_eq_some_iff.mp hfile
  obtain ⟨part, hpart, rfl⟩ := Option.map_eq_some_iff.mp hparsed
  refine ⟨part, hpart, ?_⟩
  have hbody : (readSection repair part).body = .loaded lines := by
    unfold FileDiff.lines at hlines
    dsimp only at hlines
    split at hlines
    · rename_i heq
      rw [heq, Option.some.inj hlines]
    · exact absurd hlines (by simp)
  rw [readSection, Open.close] at hbody
  split at hbody
  · exact absurd hbody (by simp)
  · have hwritten : (readLines repair { path := headerName repair part.1 } part.2).lines.lines <+: _ :=
      readLines_written part.2 { path := headerName repair part.1 }
    rw [(written_hunks part.2).2] at hwritten
    obtain rfl := Body.loaded.inj hbody
    exact hwritten

def Anchored (diff : Diff) : Prop :=
  (∀ row anchor, diff.anchor row = some anchor → diff.rowOf diff.paths anchor = some row) ∧
    ∀ row row' anchor, diff.anchor row = some anchor → diff.anchor row' = some anchor → row = row'

theorem anchors_lead_back (repair : List UInt8 → Chars) (text : Chars) (before : String) :
    (∀ (index : ℕ) (file : FileDiff) (lines : Lines), (Diff.parse repair text).files[index]? = some file →
      file.lines = some lines → ∃ part : Chars × List Chars, (sections (rawLines text))[index]? = some part ∧
        lines.lines <+: (hunks part.2).flatMap Hunk.lines) ∧
    (((Diff.parse repair text).files.map FileDiff.path).Nodup →
      (∀ part ∈ sections (rawLines text), Ascending (hunks part.2) ∧ ∀ hunk ∈ hunks part.2, hunk.Fits) →
      Anchored { Diff.parse repair text with before }) := by
  refine ⟨fun index file lines => parsed_lines, fun hpaths hhunks => ?_⟩
  have hlines : ∀ file ∈ (Diff.parse repair text).files, ∀ lines, file.lines = some lines →
      lines.lines.Pairwise Precedes := by
    intro file hfile lines hloaded
    obtain ⟨index, hindex⟩ := List.getElem?_of_mem hfile
    obtain ⟨part, hpart, hprefix'⟩ := parsed_lines hindex hloaded
    obtain ⟨hascend, hfits⟩ := hhunks part (List.mem_of_getElem? hpart)
    exact (hunks_ascend hascend hfits).sublist hprefix'.sublist
  have hback : ∀ row anchor, Diff.anchor { Diff.parse repair text with before } row = some anchor →
      Diff.rowOf { Diff.parse repair text with before } (Diff.paths { Diff.parse repair text with before }) anchor =
        some row := by
    intro row anchor hrow
    refine rowOf_anchor ?_ ?_ hrow
    · exact hpaths
    · exact hlines
  refine ⟨hback, fun row row' anchor hrow hrow' => ?_⟩
  exact Option.some.inj ((hback row anchor hrow).symm.trans (hback row' anchor hrow'))

def lastNumber : Chars :=
  "diff --git a/f b/f\n@@ -4294967295,2 +4294967295,2 @@\n x\n x".toList

theorem anchors_clash :
    ((Diff.parse (fun _ => []) lastNumber).files.map FileDiff.path).Nodup ∧
      (∀ part ∈ sections (rawLines lastNumber), Ascending (hunks part.2)) ∧
      ¬ Anchored (Diff.parse (fun _ => []) lastNumber) := by
  refine ⟨by decide +kernel, ?_, fun h => ?_⟩
  · have hsections : sections (rawLines lastNumber) =
        [("a/f b/f".toList, ["@@ -4294967295,2 +4294967295,2 @@".toList, " x".toList, " x".toList])] := by
      decide +kernel
    intro part hpart
    rw [hsections] at hpart
    obtain rfl := List.mem_singleton.mp hpart
    exact List.pairwise_singleton _ _
  · have hfirst : (Diff.parse (fun _ => []) lastNumber).anchor (.line 0 1) =
        some (.line "f" .unchanged 4294967295 "x" none) := by decide +kernel
    have hsecond : (Diff.parse (fun _ => []) lastNumber).anchor (.line 0 2) =
        some (.line "f" .unchanged 4294967295 "x" none) := by decide +kernel
    exact absurd (h.2 _ _ _ hfirst hsecond) (by simp)

end Sheprd.Review
