import Sheprd.Review.Lines

namespace Sheprd.Review

open Lib

def maxFiles : ℕ := 50000

structure Counted where
  path : List Char
  oldPath : Option (List Char)
  added : Option ℕ
  deleted : Option ℕ

def parseU64 (text : List Char) : Option ℕ := (Text.decimal text).filter fun n => decide (n < 2 ^ 64)

def columns (record : List Char) : Option (List Char × List Char × List Char) := do
  let (added, rest) ← Text.splitOnce '\t' record
  let (deleted, path) ← Text.splitOnce '\t' rest
  return (added, deleted, path)

def numstatFrom (counted : List Counted) : List (List Char) → List Counted
  | [] => counted
  | record :: fields =>
      match columns record with
      | none => numstatFrom counted fields
      | some (added, deleted, path) =>
          if path = [] then
            match fields with
            | old :: new :: fields =>
                let counted := counted ++
                  [{ path := new, oldPath := some old, added := parseU64 added, deleted := parseU64 deleted }]
                if counted.length = maxFiles then counted else numstatFrom counted fields
            | _ => counted
          else
            let counted := counted ++
              [{ path, oldPath := none, added := parseU64 added, deleted := parseU64 deleted }]
            if counted.length = maxFiles then counted else numstatFrom counted fields

def parseNumstat (text : List Char) : List Counted := numstatFrom [] (Text.splitOn ['\x00'] text)

def codeStatus : List Char → Option Status
  | [] => none
  | 'A' :: _ => some .added
  | 'D' :: _ => some .deleted
  | 'R' :: _ => some .renamed
  | 'C' :: _ => some .added
  | _ => some .modified

def namesTwo : List Char → Bool
  | 'R' :: _ => true
  | 'C' :: _ => true
  | _ => false

def nameStatusFrom (statuses : List (List Char × Status)) : List (List Char) → List (List Char × Status)
  | [] => statuses
  | code :: fields =>
      match codeStatus code with
      | none => nameStatusFrom statuses fields
      | some status =>
          if namesTwo code then
            match fields with
            | _ :: path :: fields =>
                let statuses := statuses ++ [(path, status)]
                if statuses.length = maxFiles then statuses else nameStatusFrom statuses fields
            | _ => statuses
          else
            match fields with
            | path :: fields =>
                let statuses := statuses ++ [(path, status)]
                if statuses.length = maxFiles then statuses else nameStatusFrom statuses fields
            | [] => statuses

def parseNameStatus (text : List Char) : List (List Char × Status) :=
  nameStatusFrom [] (Text.splitOn ['\x00'] text)

structure FileName where
  text : List Char
  nonempty : text ≠ []
  noNul : '\x00' ∉ text

inductive Change where
  | added (path : FileName)
  | modified (path : FileName)
  | deleted (path : FileName)
  | typeChanged (path : FileName)
  | renamed (score : ℕ) (old path : FileName)
  | copied (score : ℕ) (old path : FileName)

structure Entry where
  change : Change
  lines : Option (UInt64 × UInt64)

def scoreText (score : ℕ) : List Char :=
  List.replicate (3 - score.repr.length) '0' ++ score.repr.toList

namespace Entry

def path (entry : Entry) : List Char :=
  match entry.change with
  | .added path | .modified path | .deleted path | .typeChanged path | .renamed _ _ path | .copied _ _ path =>
      path.text

def oldPath (entry : Entry) : Option (List Char) :=
  match entry.change with
  | .renamed _ old _ | .copied _ old _ => some old.text
  | _ => none

def status (entry : Entry) : Status :=
  match entry.change with
  | .added _ | .copied _ _ _ => .added
  | .modified _ | .typeChanged _ => .modified
  | .deleted _ => .deleted
  | .renamed _ _ _ => .renamed

def counted (entry : Entry) : Counted where
  path := entry.path
  oldPath := entry.oldPath
  added := entry.lines.map fun lines => lines.1.toNat
  deleted := entry.lines.map fun lines => lines.2.toNat

def counts (entry : Entry) : List Char :=
  match entry.lines with
  | none => ['-', '\t', '-', '\t']
  | some (added, deleted) => added.toNat.repr.toList ++ '\t' :: (deleted.toNat.repr.toList ++ ['\t'])

def code (entry : Entry) : List Char :=
  match entry.change with
  | .added _ => ['A']
  | .modified _ => ['M']
  | .deleted _ => ['D']
  | .typeChanged _ => ['T']
  | .renamed score _ _ => 'R' :: scoreText score
  | .copied score _ _ => 'C' :: scoreText score

def numstatFields (entry : Entry) : List (List Char) :=
  match entry.oldPath with
  | some old => [entry.counts, old, entry.path]
  | none => [entry.counts ++ entry.path]

def nameStatusFields (entry : Entry) : List (List Char) :=
  match entry.oldPath with
  | some old => [entry.code, old, entry.path]
  | none => [entry.code, entry.path]

end Entry

def ended (fields : List (List Char)) : List Char := fields.flatMap fun field => field ++ ['\x00']

def numstatText (entries : List Entry) : List Char := ended (entries.flatMap Entry.numstatFields)

def nameStatusText (entries : List Entry) : List Char := ended (entries.flatMap Entry.nameStatusFields)

lemma not_mem_repr {c : Char} (h : c.isDigit = false) (n : ℕ) : c ∉ n.repr.toList := by
  intro hc
  exact absurd (Text.isDigit_of_repr hc) (by simp [h])

namespace Entry

variable (entry : Entry)

lemma path_ne : entry.path ≠ [] := by
  rw [path]
  cases entry.change with
  | added path | modified path | deleted path | typeChanged path => exact path.nonempty
  | renamed _ _ path | copied _ _ path => exact path.nonempty

lemma path_noNul : '\x00' ∉ entry.path := by
  rw [path]
  cases entry.change with
  | added path | modified path | deleted path | typeChanged path => exact path.noNul
  | renamed _ _ path | copied _ _ path => exact path.noNul

lemma old_noNul {old : List Char} (h : entry.oldPath = some old) : '\x00' ∉ old := by
  unfold oldPath at h
  split at h
  · exact Option.some.inj h ▸ FileName.noNul _
  · exact Option.some.inj h ▸ FileName.noNul _
  · exact absurd h (by simp)

lemma counts_noNul : '\x00' ∉ entry.counts := by
  unfold counts
  split
  · simp
  · simp [not_mem_repr (show ('\x00').isDigit = false from rfl), -Nat.toList_repr]

lemma scoreText_noNul (score : ℕ) : '\x00' ∉ scoreText score := by
  simp [scoreText, not_mem_repr (show ('\x00').isDigit = false from rfl), -Nat.toList_repr]

lemma code_noNul : '\x00' ∉ entry.code := by
  unfold code
  split <;> simp [scoreText_noNul]

lemma numstatFields_noNul : ∀ field ∈ entry.numstatFields, '\x00' ∉ field := by
  unfold numstatFields
  split
  · rename_i hold
    simp [counts_noNul, path_noNul, entry.old_noNul hold]
  · simp [counts_noNul, path_noNul]

lemma nameStatusFields_noNul : ∀ field ∈ entry.nameStatusFields, '\x00' ∉ field := by
  unfold nameStatusFields
  split
  · rename_i hold
    simp [code_noNul, path_noNul, entry.old_noNul hold]
  · simp [code_noNul, path_noNul]

lemma parse_counts (back : List Char) :
    ∃ added deleted, columns (entry.counts ++ back) = some (added, deleted, back) ∧
      parseU64 added = entry.counted.added ∧ parseU64 deleted = entry.counted.deleted := by
  have hparse : ∀ n : UInt64, parseU64 n.toNat.repr.toList = some n.toNat := by
    intro n
    rw [parseU64, Text.decimal_repr, Option.filter_some, if_pos (decide_eq_true n.toNat_lt)]
  have htab : ∀ n : ℕ, '\t' ∉ n.repr.toList := not_mem_repr rfl
  unfold counts counted
  split
  · rename_i hlines
    exact ⟨['-'], ['-'], rfl, by simp [hlines]; rfl, by simp [hlines]; rfl⟩
  · rename_i added deleted hlines
    refine ⟨added.toNat.repr.toList, deleted.toNat.repr.toList, ?_, by simp [hlines, hparse, -Nat.toList_repr],
      by simp [hlines, hparse, -Nat.toList_repr]⟩
    simp only [columns, List.append_assoc, List.cons_append, List.nil_append,
      Text.splitOnce_append (htab _), Option.bind_eq_bind, Option.bind_some, Option.pure_def]

lemma numstatFrom_fields (counted : List Counted) (fields : List (List Char)) :
    numstatFrom counted (entry.numstatFields ++ fields) =
      if (counted ++ [entry.counted]).length = maxFiles then counted ++ [entry.counted]
      else numstatFrom (counted ++ [entry.counted]) fields := by
  unfold numstatFields
  split
  · rename_i old hold
    obtain ⟨added, deleted, hcolumns, hadded, hdeleted⟩ := entry.parse_counts []
    rw [List.append_nil] at hcolumns
    have hentry : entry.counted = ⟨entry.path, some old, parseU64 added, parseU64 deleted⟩ := by
      rw [hadded, hdeleted, ← hold]
      rfl
    simp only [List.cons_append, List.nil_append, numstatFrom, hcolumns, if_true, hentry]
  · rename_i hold
    obtain ⟨added, deleted, hcolumns, hadded, hdeleted⟩ := entry.parse_counts entry.path
    have hentry : entry.counted = ⟨entry.path, none, parseU64 added, parseU64 deleted⟩ := by
      rw [hadded, hdeleted, ← hold]
      rfl
    simp only [List.cons_append, List.nil_append, numstatFrom, hcolumns, if_neg entry.path_ne, hentry]

lemma codeStatus_code : codeStatus entry.code = some entry.status := by
  unfold code status
  split <;> rename_i h <;> rw [h] <;> rfl

lemma namesTwo_code : namesTwo entry.code = entry.oldPath.isSome := by
  unfold code oldPath
  split <;> rename_i h <;> rw [h] <;> rfl

lemma nameStatusFrom_fields (statuses : List (List Char × Status)) (fields : List (List Char)) :
    nameStatusFrom statuses (entry.nameStatusFields ++ fields) =
      if (statuses ++ [(entry.path, entry.status)]).length = maxFiles then
        statuses ++ [(entry.path, entry.status)]
      else nameStatusFrom (statuses ++ [(entry.path, entry.status)]) fields := by
  have htwo := entry.namesTwo_code
  unfold nameStatusFields
  split
  · rename_i old hold
    rw [hold, Option.isSome_some] at htwo
    simp only [List.cons_append, List.nil_append, nameStatusFrom, entry.codeStatus_code, htwo, if_true]
  · rename_i hold
    rw [hold, Option.isSome_none] at htwo
    simp only [List.cons_append, List.nil_append, nameStatusFrom, entry.codeStatus_code, htwo,
      Bool.false_eq_true, if_false]

end Entry

section Listed

variable {α : Type} {read : List α → List (List Char) → List α} {fields : Entry → List (List Char)}
  {shown : Entry → α}

lemma listed (hend : ∀ items, read items [[]] = items)
    (hstep : ∀ (entry : Entry) items rest, read items (fields entry ++ rest) =
      if (items ++ [shown entry]).length = maxFiles then items ++ [shown entry]
      else read (items ++ [shown entry]) rest)
    (entries : List Entry) {items : List α} (hroom : items.length < maxFiles) :
    read items (entries.flatMap fields ++ [[]]) =
      items ++ (entries.take (maxFiles - items.length)).map shown := by
  induction entries generalizing items with
  | nil => rw [List.flatMap_nil, List.nil_append, hend, List.take_nil, List.map_nil, List.append_nil]
  | cons entry entries ih =>
    obtain ⟨room, hmax⟩ := Nat.exists_eq_add_of_lt hroom
    have htake : maxFiles - items.length = room + 1 := by omega
    rw [List.flatMap_cons, List.append_assoc, hstep, htake, List.take_succ_cons, List.map_cons,
      List.length_append, List.length_singleton]
    split
    · have hnone : room = 0 := by omega
      rw [hnone, List.take_zero, List.map_nil]
    · have hrest : maxFiles - (items ++ [shown entry]).length = room := by
        rw [List.length_append, List.length_singleton]
        omega
      rw [ih (by rw [List.length_append, List.length_singleton]; omega), hrest, List.append_assoc,
        List.singleton_append]

end Listed

lemma room : ([] : List α).length < maxFiles := by
  rw [maxFiles, List.length_nil]
  norm_num

lemma parseNumstat_text (entries : List Entry) :
    parseNumstat (numstatText entries) = (entries.take maxFiles).map Entry.counted := by
  have hnul : ∀ field ∈ entries.flatMap Entry.numstatFields, '\x00' ∉ field := by
    intro field hfield
    obtain ⟨entry, -, hfield⟩ := List.mem_flatMap.mp hfield
    exact entry.numstatFields_noNul field hfield
  rw [parseNumstat, numstatText, ended, Text.splitOn_ended hnul]
  exact listed (fun _ => rfl) Entry.numstatFrom_fields entries room

lemma parseNameStatus_text (entries : List Entry) :
    parseNameStatus (nameStatusText entries) =
      (entries.take maxFiles).map fun entry => (entry.path, entry.status) := by
  have hnul : ∀ field ∈ entries.flatMap Entry.nameStatusFields, '\x00' ∉ field := by
    intro field hfield
    obtain ⟨entry, -, hfield⟩ := List.mem_flatMap.mp hfield
    exact entry.nameStatusFields_noNul field hfield
  rw [parseNameStatus, nameStatusText, ended, Text.splitOn_ended hnul]
  exact listed (fun _ => rfl) Entry.nameStatusFrom_fields entries room

theorem listings_agree (entries : List Entry) :
    parseNumstat (numstatText entries) = (entries.take maxFiles).map Entry.counted ∧
      parseNameStatus (nameStatusText entries) =
        ((entries.take maxFiles).map fun entry => (entry.path, entry.status)) ∧
      (parseNumstat (numstatText entries)).map Counted.path =
        (parseNameStatus (nameStatusText entries)).map Prod.fst := by
  refine ⟨parseNumstat_text entries, parseNameStatus_text entries, ?_⟩
  rw [parseNumstat_text, parseNameStatus_text, List.map_map, List.map_map]
  rfl

end Sheprd.Review
