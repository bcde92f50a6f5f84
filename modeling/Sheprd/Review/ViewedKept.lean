import Sheprd.Review.Viewed

namespace Sheprd.Review.Viewing

open Lib

/-- One entry for each checkout, within the bounds, each of them valid. -/
structure Kept (checkouts : List Checkout) : Prop where
  distinct : (checkouts.map fun checkout => (checkout.place, checkout.branch)).Nodup
  checkouts_le : checkouts.length ≤ maxCheckouts
  marks_le : total checkouts ≤ maxFiles
  valid : ∀ checkout ∈ checkouts, checkout.valid = true

structure Sound (json : Json) (checkouts : List Checkout) : Prop extends Kept checkouts where
  bytes_le : bytes (savedText json checkouts) ≤ maxFileBytes
  read : parse json (savedText json checkouts) = .ok checkouts

section Sizes

variable {items : List Value}

def listBytes (n : ℕ) : ℕ := max 2 (n + 1)

lemma bytes_print_array (items : List Value) :
    bytes (Value.print (.array items)) = listBytes (items.map fun item => bytes (Value.print item) + 1).sum := by
  have hopen : ('[' : Char).utf8Size = 1 := rfl
  have hclose : (']' : Char).utf8Size = 1 := rfl
  have hcomma : (',' : Char).utf8Size = 1 := rfl
  have hitems : ∀ items : List Value, items ≠ [] → bytes (Value.printItems items) =
      (items.map fun item => bytes (Value.print item) + 1).sum := by
    intro items hne
    induction items with
    | nil => exact absurd rfl hne
    | cons item items ih =>
      cases items with
      | nil => simp [Value.printItems, hclose]
      | cons next items =>
        have hrest := ih (List.cons_ne_nil _ _)
        rw [Value.printItems, bytes_append, bytes_cons, hcomma, hrest]
        simp only [List.map_cons, List.sum_cons]
        omega
  rw [Value.print, bytes_cons, hopen]
  cases items with
  | nil => simp [Value.printItems, hclose, listBytes]
  | cons item items =>
    rw [hitems _ (List.cons_ne_nil _ _), listBytes, List.map_cons, List.sum_cons]
    omega

def markCost (mark : Mark) : ℕ := bytes (Value.print mark.toValue) + 1

def marksCost (marks : List Mark) : ℕ := (marks.map markCost).sum

def checkoutCost (checkout : Checkout) : ℕ := bytes (Value.print checkout.toValue) + 1

def cost (checkouts : List Checkout) : ℕ := (checkouts.map checkoutCost).sum

lemma checkoutCost_eq (checkout : Checkout) :
    checkoutCost checkout =
      checkoutCost ⟨checkout.place, checkout.branch, []⟩ - 2 + listBytes (marksCost checkout.files) := by
  have hfiles : (checkout.files.map Mark.toValue).map (fun item => bytes (Value.print item) + 1) =
      checkout.files.map markCost := by
    rw [List.map_map]
    rfl
  have hobject : ∀ fields, Value.print (.object fields) = '\x7b' :: Value.printFields fields := by
    intro fields
    rw [Value.print]
  simp only [checkoutCost, Checkout.toValue, hobject, Value.printFields, bytes_cons, bytes_append, bytes_nil,
    bytes_print_array, hfiles, marksCost, listBytes, List.map_nil, List.sum_nil]
  omega

lemma bytes_savedText (json : Compact) (checkouts : List Checkout) :
    bytes (savedText json.toJson checkouts) = listBytes (cost checkouts) + 15 := by
  have hcheckouts : (checkouts.map Checkout.toValue).map (fun item => bytes (Value.print item) + 1) =
      checkouts.map checkoutCost := by
    rw [List.map_map]
    rfl
  have hkey : bytes (Value.quote "checkouts") = 11 := by decide
  have hmarks : ('\x7b' : Char).utf8Size = 1 ∧ ('\x7d' : Char).utf8Size = 1 ∧ (':' : Char).utf8Size = 1 ∧
      ('\n' : Char).utf8Size = 1 := ⟨rfl, rfl, rfl, rfl⟩
  rw [savedText, json.print_eq, savedValue, Value.print]
  simp only [Value.printFields, bytes_cons, bytes_append, bytes_nil, bytes_print_array, hcheckouts, hkey, hmarks, cost]
  omega

def roomOf (field : String) : ℕ := bytes (Value.quote field)

/-- JSON writes the string in no more bytes than the file has room for: twice those a field may
have, and the quotation marks. -/
def Room (field : String) : Prop := roomOf field ≤ 2 * maxFieldBytes + 2

instance (field : String) : Decidable (Room field) := Nat.decLe _ _

lemma room_of_fits {field : String} (hfits : fits field = true)
    (h : ∀ c ∈ field.toList, Value.Spelled c) : Room field := by
  rw [fits, Bool.and_eq_true, decide_eq_true_eq, decide_eq_true_eq] at hfits
  exact (Value.bytes_quote_spelled h).trans (Nat.add_le_add_right (Nat.mul_le_mul_left 2 hfits.2) 2)

lemma spelled_of_all {text : List Char} (h : text.all (fun c => decide (Value.Spelled c)) = true) :
    ∀ c ∈ text, Value.Spelled c :=
  fun c hc => of_decide_eq_true (List.all_eq_true.mp h c hc)

lemma bytes_countValue (count : Option UInt32) : bytes (Value.print (countValue count)) ≤ 10 := by
  cases count with
  | none => decide
  | some n => exact Value.bytes_repr (by norm_num) (n.toNat_lt.trans (by norm_num))

lemma markCost_eq (mark : Mark) : markCost mark = roomOf mark.path +
    bytes (Value.print (countValue mark.added)) + bytes (Value.print (countValue mark.removed)) + 30 := by
  have hpath : bytes (Value.quote "path") = 6 := by decide
  have hadded : bytes (Value.quote "added") = 7 := by decide
  have hremoved : bytes (Value.quote "removed") = 9 := by decide
  have hmarks : ('\x7b' : Char).utf8Size = 1 ∧ ('\x7d' : Char).utf8Size = 1 ∧ (':' : Char).utf8Size = 1 ∧
      (',' : Char).utf8Size = 1 := ⟨rfl, rfl, rfl, rfl⟩
  rw [markCost, Mark.toValue, Value.print]
  simp only [Value.printFields, bytes_cons, bytes_append, bytes_nil, hpath, hadded, hremoved, hmarks,
    Value.print, roomOf]
  omega

lemma headCost_eq (place branch : String) :
    checkoutCost ⟨place, branch, []⟩ = roomOf place + roomOf branch + 32 := by
  have hplace : bytes (Value.quote "place") = 7 := by decide
  have hbranch : bytes (Value.quote "branch") = 8 := by decide
  have hfiles : bytes (Value.quote "files") = 7 := by decide
  have hmarks : ('\x7b' : Char).utf8Size = 1 ∧ ('\x7d' : Char).utf8Size = 1 ∧ (':' : Char).utf8Size = 1 ∧
      (',' : Char).utf8Size = 1 ∧ ('[' : Char).utf8Size = 1 ∧ (']' : Char).utf8Size = 1 :=
    ⟨rfl, rfl, rfl, rfl, rfl, rfl⟩
  rw [checkoutCost, Checkout.toValue, Value.print]
  simp only [Value.printFields, bytes_cons, bytes_append, bytes_nil, hplace, hbranch, hfiles, hmarks,
    Value.print, roomOf, List.map_nil, Value.printItems]
  omega

/-- The strings kept, each with room. -/
def Roomy (checkouts : List Checkout) : Prop :=
  ∀ checkout ∈ checkouts, Room checkout.place ∧ Room checkout.branch ∧
    ∀ mark ∈ checkout.files, Room mark.path

lemma cost_le {checkouts : List Checkout} (h : Roomy checkouts) :
    cost checkouts ≤ checkouts.length * (4 * maxFieldBytes + 36) +
      total checkouts * (2 * maxFieldBytes + 52) := by
  induction checkouts with
  | nil => exact Nat.zero_le _
  | cons checkout rest ih =>
    obtain ⟨⟨hplace, hbranch, hpaths⟩, hrest⟩ := List.forall_mem_cons.mp h
    have hmarks : marksCost checkout.files ≤ checkout.files.length * (2 * maxFieldBytes + 52) := by
      rw [marksCost, ← List.length_map (f := markCost), ← smul_eq_mul]
      refine List.sum_le_card_nsmul _ _ ?_
      simp only [List.forall_mem_map]
      intro mark hmark
      have hpath : roomOf mark.path ≤ 2 * maxFieldBytes + 2 := hpaths mark hmark
      have hadded := bytes_countValue mark.added
      have hremoved := bytes_countValue mark.removed
      rw [markCost_eq]
      omega
    have hhead := headCost_eq checkout.place checkout.branch
    have hcheckouts := ih hrest
    have htotal : total (checkout :: rest) = checkout.files.length + total rest := List.sum_cons
    have hcost : cost (checkout :: rest) = checkoutCost checkout + cost rest := List.sum_cons
    rw [hcost, checkoutCost_eq, hhead, listBytes, htotal, List.length_cons, Nat.add_mul, Nat.add_mul]
    simp only [Room] at hplace hbranch
    omega

lemma Kept.bytes_le {checkouts : List Checkout} (h : Kept checkouts) (hroom : Roomy checkouts)
    (json : Compact) : bytes (savedText json.toJson checkouts) ≤ maxFileBytes := by
  have hcost := cost_le hroom
  have hcheckouts := Nat.mul_le_mul_right (4 * maxFieldBytes + 36) h.checkouts_le
  have hmarks := Nat.mul_le_mul_right (2 * maxFieldBytes + 52) h.marks_le
  rw [bytes_savedText, listBytes]
  norm_num only [maxFileBytes, maxFiles, maxCheckouts, maxFieldBytes] at *
  omega

end Sizes

section Marks

def markOf (entry : (_ : String) × Counts) : Mark := ⟨entry.1, entry.2.1, entry.2.2⟩

def kept (files : Dict String Counts) : List Mark := (files.entries.map markOf).filter fun mark => fits mark.path

lemma mem_marksOf {files : Dict String Counts} {mark : Mark} (h : mark ∈ marksOf files) : fits mark.path = true := by
  have hsorted := List.mem_of_mem_take h
  exact (List.mem_filter.mp (List.mem_mergeSort.mp hsorted)).2

end Marks

lemma evict_suffix (checkouts : List Checkout) : evict checkouts <:+ checkouts := by
  induction checkouts with
  | nil => exact List.suffix_refl _
  | cons checkout rest ih =>
    rw [evict]
    split
    · exact ih.trans (List.suffix_cons checkout rest)
    · exact List.suffix_refl _

lemma evict_bounds (checkouts : List Checkout) :
    (evict checkouts).length ≤ maxCheckouts ∧ total (evict checkouts) ≤ maxFiles := by
  induction checkouts with
  | nil => exact ⟨Nat.zero_le _, Nat.zero_le _⟩
  | cons checkout rest ih =>
    rw [evict]
    split
    · exact ih
    · rename_i h
      obtain ⟨hlength, htotal⟩ := not_or.mp h
      exact ⟨not_lt.mp hlength, not_lt.mp htotal⟩

section Step

variable {checkouts : List Checkout} {place branch : String} {files : Dict String Counts}

def key (checkout : Checkout) : String × String := (checkout.place, checkout.branch)

lemma is_iff {checkout : Checkout} : checkout.is place branch = true ↔ key checkout = (place, branch) := by
  simp [Checkout.is, key]

def placed (checkouts : List Checkout) (place branch : String) (files : Dict String Counts) : List Checkout :=
  checkouts.eraseP (·.is place branch) ++
    if marksOf files = [] then [] else [{ place, branch, files := marksOf files }]

lemma set_cases (checkouts : List Checkout) (place branch : String) (files : Dict String Counts) :
    (set checkouts place branch files).1 = checkouts ∨
      fits place = true ∧ fits branch = true ∧
        (set checkouts place branch files).1 = evict (placed checkouts place branch files) := by
  unfold set
  split
  · exact Or.inl rfl
  · rename_i hfits
    simp only [Bool.or_eq_true, Bool.not_eq_true', not_or, Bool.not_eq_false] at hfits
    dsimp only
    split
    · exact Or.inl rfl
    · refine Or.inr ⟨hfits.1, hfits.2, ?_⟩
      rw [placed]
      split
      · rw [List.append_nil]
      · rfl

lemma eraseP_cons (first : Checkout) (rest : List Checkout) :
    (first :: rest).eraseP (·.is place branch) =
      if first.is place branch then rest else first :: rest.eraseP (·.is place branch) := by
  rw [List.eraseP_cons]
  cases first.is place branch <;> rfl

lemma key_distinct (h : (checkouts.map key).Nodup) : ∀ checkout ∈ checkouts.eraseP (·.is place branch),
    key checkout ≠ (place, branch) := by
  induction checkouts with
  | nil => simp
  | cons first rest ih =>
    obtain ⟨hfirst, hrest⟩ := List.nodup_cons.mp h
    by_cases his : first.is place branch = true
    · rw [eraseP_cons, if_pos his]
      intro checkout hmem hkey
      exact hfirst ((is_iff.mp his).trans hkey.symm ▸ List.mem_map_of_mem hmem)
    · rw [eraseP_cons, if_neg his]
      refine List.forall_mem_cons.mpr ⟨fun hkey => his (is_iff.mpr hkey), ih hrest⟩

lemma placed_kept (h : Kept checkouts) (hplace : fits place = true) (hbranch : fits branch = true) :
    Kept (evict (placed checkouts place branch files)) := by
  have hsuffix := evict_suffix (placed checkouts place branch files)
  obtain ⟨hcheckouts, hmarks⟩ := evict_bounds (placed checkouts place branch files)
  have hothers : (checkouts.eraseP (·.is place branch)).Sublist checkouts := List.eraseP_sublist
  refine ⟨List.Nodup.sublist (hsuffix.sublist.map _) ?_, hcheckouts, hmarks, fun checkout hmem => ?_⟩
  · rw [placed, List.map_append]
    refine List.nodup_append.mpr ⟨h.distinct.sublist (hothers.map _), by split <;> simp, ?_⟩
    rintro first hfirst second hsecond rfl
    obtain ⟨checkout, hmem, rfl⟩ := List.mem_map.mp hfirst
    split at hsecond
    · exact absurd hsecond (by simp)
    · exact key_distinct h.distinct checkout hmem (List.mem_singleton.mp hsecond)
  · obtain hmem | hmem := List.mem_append.mp (hsuffix.subset hmem)
    · exact h.valid checkout (hothers.subset hmem)
    · split at hmem
      · exact absurd hmem List.not_mem_nil
      · rename_i hne
        obtain rfl := List.mem_singleton.mp hmem
        have hall : ((marksOf files).all fun mark => fits mark.path) = true :=
          List.all_eq_true.mpr fun mark hmark => mem_marksOf hmark
        simp [Checkout.valid, hplace, hbranch, hne, hall]

lemma set_kept (h : Kept checkouts) : Kept (set checkouts place branch files).1 := by
  obtain heq | ⟨hplace, hbranch, heq⟩ := set_cases checkouts place branch files
  · rw [heq]
    exact h
  · rw [heq]
    exact placed_kept h hplace hbranch

lemma Roomy.get (h : Roomy checkouts) {path : String} (hpath : path ∈ get checkouts place branch) :
    Room place ∧ Room branch ∧ Room path := by
  rw [Viewing.get] at hpath
  split at hpath
  · rename_i checkout hfind
    obtain ⟨hplace, hbranch, hpaths⟩ := h checkout (List.mem_of_find?_eq_some hfind)
    have his := List.find?_some (p := fun checkout : Checkout => checkout.is place branch) hfind
    obtain ⟨rfl, rfl⟩ := Prod.mk.inj (is_iff.mp his)
    obtain ⟨mark, hmark, rfl⟩ := List.mem_map.mp (Dict.mem_collect.mp hpath)
    exact ⟨hplace, hbranch, hpaths mark hmark⟩
  · exact absurd hpath (AList.notMem_empty path)

lemma mem_files {mark : Mark} (h : mark ∈ marksOf files) : mark.path ∈ files := by
  obtain ⟨entry, hentry, rfl⟩ := List.mem_map.mp
    (List.mem_of_mem_filter (List.mem_mergeSort.mp (List.mem_of_mem_take h)))
  exact List.mem_keys_of_mem hentry

lemma set_roomy (h : Roomy checkouts) (hfiles : ∀ path ∈ files, fits path = true →
    fits place = true → fits branch = true → Room place ∧ Room branch ∧ Room path) :
    Roomy (set checkouts place branch files).1 := by
  obtain heq | ⟨hplace, hbranch, heq⟩ := set_cases checkouts place branch files
  · rw [heq]
    exact h
  · rw [heq]
    intro checkout hmem
    have hroom {mark : Mark} (hmark : mark ∈ marksOf files) :=
      hfiles mark.path (mem_files hmark) (mem_marksOf hmark) hplace hbranch
    obtain hmem | hmem := List.mem_append.mp ((evict_suffix _).subset hmem)
    · exact h checkout (List.eraseP_sublist.subset hmem)
    · split at hmem
      · exact absurd hmem List.not_mem_nil
      · rename_i hne
        obtain rfl := List.mem_singleton.mp hmem
        obtain ⟨mark, hmark⟩ := List.exists_mem_of_ne_nil _ hne
        exact ⟨(hroom hmark).1, (hroom hmark).2.1, fun mark hmark => (hroom hmark).2.2⟩

lemma mem_unmarked {marks : List (String × Counts)} {path : String}
    (h : path ∈ marks.foldl (fun files (path, counts) =>
      if files.lookup path = some counts then files.erase path else files) files) : path ∈ files := by
  induction marks generalizing files with
  | nil => exact h
  | cons entry marks ih =>
    have hmem := ih h
    dsimp only at hmem
    split at hmem
    · exact (AList.mem_erase.mp hmem).2
    · exact hmem

end Step

section File

lemma countOf_countValue (count : Option UInt32) : countOf (some (countValue count)) = some count := by
  cases count with
  | none => rfl
  | some n =>
    have hn : n.toNat < 2 ^ 32 := n.toNat_lt
    simp only [countValue, countOf, Value.asNat_repr, Option.bind_some, if_pos hn, UInt32.ofNat_toNat]

lemma Mark.ofValue_toValue (mark : Mark) : Mark.ofValue mark.toValue = some mark := by
  have hadded : countOf (mark.toValue.get "added") = some mark.added := countOf_countValue mark.added
  have hremoved : countOf (mark.toValue.get "removed") = some mark.removed := countOf_countValue mark.removed
  rw [Mark.ofValue, hadded, hremoved]
  rfl

lemma Checkout.ofValue_toValue (checkout : Checkout) : Checkout.ofValue checkout.toValue = some checkout := by
  have hfiles : ((checkout.toValue.get "files").bind Value.asArray).bind (·.mapM Mark.ofValue) =
      some checkout.files := mapM_map_some Mark.ofValue_toValue checkout.files
  obtain ⟨items, hitems, hmarks⟩ := Option.bind_eq_some_iff.mp hfiles
  rw [Checkout.ofValue, hitems]
  simp only [Option.bind_eq_bind, Option.bind_some, hmarks]
  rfl

lemma savedOf_savedValue (checkouts : List Checkout) : savedOf (savedValue checkouts) = some checkouts :=
  mapM_map_some Checkout.ofValue_toValue checkouts

lemma countValue_plain (count : Option UInt32) (depth : ℕ) : (countValue count).Plain depth := by
  cases count with
  | none => exact .null
  | some n => exact .number (n.toNat_lt.trans (by norm_num))

lemma savedValue_plain (checkouts : List Checkout) : (savedValue checkouts).Plain 127 := by
  have hmark : ∀ mark : Mark, mark.toValue.Plain 123 := by
    intro mark
    refine .object (by simp) ?_
    simp [Value.Plain.string, countValue_plain]
  have hcheckout : ∀ checkout : Checkout, checkout.toValue.Plain 125 := by
    intro checkout
    have hfiles : (Value.array (checkout.files.map Mark.toValue)).Plain 124 := by
      refine .array fun item hitem => ?_
      obtain ⟨mark, -, rfl⟩ := List.mem_map.mp hitem
      exact hmark mark
    refine .object (by simp) ?_
    simp [Value.Plain.string, hfiles]
  have hcheckouts : (Value.array (checkouts.map Checkout.toValue)).Plain 126 := by
    refine .array fun item hitem => ?_
    obtain ⟨checkout, -, rfl⟩ := List.mem_map.mp hitem
    exact hcheckout checkout
  refine .object (by simp) ?_
  simp [hcheckouts]

lemma Kept.read {checkouts : List Checkout} (h : Kept checkouts) (json : Json) :
    parse json (savedText json checkouts) = .ok checkouts := by
  have hall : checkouts.all Checkout.valid = true := List.all_eq_true.mpr h.valid
  rw [parse, savedText, json.read_print _ (savedValue_plain checkouts), Option.bind_some, savedOf_savedValue]
  dsimp only
  rw [if_neg]
  simp [hall, h.checkouts_le, h.marks_le]

end File

section Runs

/-- JSON has room for the strings of a mark that is made. -/
def Meets : Op → Prop
  | .mark place branch path _ =>
      fits place = true → fits branch = true → fits path = true → Room place ∧ Room branch ∧ Room path
  | .unmark _ _ _ => True

lemma kept_empty : Kept [] := ⟨List.nodup_nil, Nat.zero_le _, Nat.zero_le _, fun _ h => absurd h List.not_mem_nil⟩

lemma apply_kept {checkouts : List Checkout} (h : Kept checkouts) (op : Op) : Kept (apply checkouts op) := by
  cases op with
  | mark place branch path counts => exact set_kept h
  | unmark place branch marks => exact set_kept h

lemma apply_roomy {checkouts : List Checkout} (h : Roomy checkouts) {op : Op} (hmeets : Meets op) :
    Roomy (apply checkouts op) := by
  cases op with
  | mark place branch path counts =>
    refine set_roomy h fun other hother hfits hplace hbranch => ?_
    obtain rfl | hmem := (AList.mem_insert _).mp hother
    · exact hmeets hplace hbranch hfits
    · exact h.get hmem
  | unmark place branch marks => exact set_roomy h fun other hother _ _ _ => h.get (mem_unmarked hother)

lemma run_keeps {ops : List Op} (h : ∀ op ∈ ops, Meets op) : Kept (run ops) ∧ Roomy (run ops) := by
  induction ops using List.reverseRecOn with
  | nil => exact ⟨kept_empty, fun _ hmem => absurd hmem List.not_mem_nil⟩
  | append_singleton ops op ih =>
    obtain ⟨hkept, hroom⟩ := ih fun op hop => h op (List.mem_append_left _ hop)
    rw [run, List.foldl_append]
    exact ⟨apply_kept hkept op, apply_roomy hroom (h op (by simp))⟩

theorem viewed_sound (json : Compact) (ops : List Op) (h : ∀ op ∈ ops, Meets op) :
    ∀ n ≤ ops.length, Sound json.toJson (run (ops.take n)) := by
  intro n _
  obtain ⟨hkept, hroom⟩ := run_keeps fun op hop => h op (List.mem_of_mem_take hop)
  exact ⟨hkept, hkept.bytes_le hroom json, hkept.read json.toJson⟩

theorem viewed_sound_several : Sound Json.compact (run
    ([.mark "repo" "main" "a.rs" (some 3, none), .mark "repo" "main" "a\"b.rs" (none, some 1),
      .mark "c:\\repo" "a\x01b" "tab\t.rs" (some 2, some 0),
      .unmark "repo" "main" [("a.rs", (some 3, none))]].take 4)) := by
  refine viewed_sound Compact.standard _ (fun op hop => ?_) 4 le_rfl
  simp only [List.mem_cons, List.not_mem_nil, or_false] at hop
  rcases hop with rfl | rfl | rfl | rfl
  · exact fun hplace hbranch hpath => ⟨room_of_fits hplace (spelled_of_all (by decide)),
      room_of_fits hbranch (spelled_of_all (by decide)), room_of_fits hpath (spelled_of_all (by decide))⟩
  · exact fun hplace hbranch hpath => ⟨room_of_fits hplace (spelled_of_all (by decide)),
      room_of_fits hbranch (spelled_of_all (by decide)), room_of_fits hpath (spelled_of_all (by decide))⟩
  · exact fun hplace _ hpath => ⟨room_of_fits hplace (spelled_of_all (by decide)), by decide +kernel,
      room_of_fits hpath (spelled_of_all (by decide))⟩
  · trivial

end Runs

section Overflow

def component (c d : Char) (n : ℕ) : List Char := List.replicate n d ++ List.replicate (255 - n) c

def nested (c d : Char) (n : ℕ) : List Char :=
  component c d 0 ++ '/' :: (component c d 0 ++ '/' :: (component c d 0 ++ '/' :: component c d n))

def placeOf (n : ℕ) : String := .ofList ('/' :: nested '\x01' '\x02' n)

def pathOf (n : ℕ) : String := .ofList (nested '\\' '"' n)

def rowOf (place : ℕ) : List Op :=
  (List.range 64).map fun n => .mark (placeOf place) "main" (pathOf n) (none, none)

def overflow : List Op := (List.range 64).flatMap rowOf

def markAt (n : ℕ) : Mark := ⟨pathOf n, none, none⟩

section Strings

variable {c d : Char} {n : ℕ}

lemma sum_nested (g : Char → ℕ) {w : ℕ} (hc : g c = w) (hd : g d = w) (hn : n ≤ 255) :
    ((nested c d n).map g).sum = 1020 * w + 3 * g '/' := by
  have hcomponent : ∀ n ≤ 255, ((component c d n).map g).sum = 255 * w := by
    intro n hn
    rw [component, List.map_append, List.sum_append, List.map_replicate, List.map_replicate, hc, hd,
      List.sum_replicate, List.sum_replicate, smul_eq_mul, smul_eq_mul, ← Nat.add_mul]
    congr 1
    omega
  simp only [nested, List.map_append, List.map_cons, List.sum_append, List.sum_cons,
    hcomponent 0 (Nat.zero_le _), hcomponent n hn]
  omega

lemma nested_injective (hc : c ≠ d) (hd : d ≠ '/') : Function.Injective (nested c d) := by
  intro m n h
  have hcomponent (n : ℕ) : (component c d n).count d = n := by
    rw [component, List.count_append, List.count_replicate_self, List.count_replicate,
      if_neg (by simpa using hc), Nat.add_zero]
  have hcount (n : ℕ) : (nested c d n).count d = n := by
    simp only [nested, List.count_append, List.count_cons_of_ne (Ne.symm hd), hcomponent, Nat.zero_add]
  rw [← hcount m, h, hcount]

lemma bytes_escaped (text : List Char) :
    bytes (text.flatMap Value.escape) = (text.map fun c => bytes (Value.escape c)).sum := by
  induction text with
  | nil => rfl
  | cons c text ih => rw [List.flatMap_cons, bytes_append, ih, List.map_cons, List.sum_cons]

lemma roomOf_ofList (text : List Char) :
    roomOf (.ofList text) = (text.map fun c => bytes (Value.escape c)).sum + 2 := by
  have hmark : ('"' : Char).utf8Size = 1 := rfl
  rw [roomOf, Value.quote, String.toList_ofList, bytes_append, bytes_cons, bytes_escaped]
  simp only [bytes_cons, bytes_nil, hmark]
  omega

lemma placeOf_injective : Function.Injective placeOf := fun _ _ h =>
  nested_injective (by decide) (by decide) (List.cons.inj (String.ofList_injective h)).2

lemma pathOf_injective : Function.Injective pathOf := fun _ _ h =>
  nested_injective (by decide) (by decide) (String.ofList_injective h)

lemma fits_of_bytes {text : List Char} (hpos : 0 < bytes text) (hle : bytes text ≤ maxFieldBytes) :
    fits (.ofList text) = true := by
  have hbytes := utf8ByteSize_ofList text
  have hne : String.ofList text ≠ "" := by
    intro hempty
    rw [hempty] at hbytes
    simp at hbytes
    omega
  simp [fits, hne, hbytes, hle]

lemma placeOf_fits (hn : n ≤ 255) : fits (placeOf n) = true := by
  have hsum := sum_nested (c := '\x01') (d := '\x02') Char.utf8Size (w := 1) rfl rfl hn
  have hslash : ('/' : Char).utf8Size = 1 := rfl
  refine fits_of_bytes ?_ ?_ <;> rw [bytes_cons, bytes, hsum, hslash]
  · norm_num
  · norm_num [maxFieldBytes]

lemma pathOf_fits (hn : n ≤ 255) : fits (pathOf n) = true := by
  have hsum := sum_nested (c := '\\') (d := '"') Char.utf8Size (w := 1) rfl rfl hn
  have hslash : ('/' : Char).utf8Size = 1 := rfl
  refine fits_of_bytes ?_ ?_ <;> rw [bytes, hsum, hslash]
  · norm_num
  · norm_num [maxFieldBytes]

lemma roomOf_place (hn : n ≤ 255) : roomOf (placeOf n) = 6126 := by
  have hslash : bytes (Value.escape '/') = 1 := by decide
  rw [placeOf, roomOf_ofList, List.map_cons, List.sum_cons,
    sum_nested (fun c => bytes (Value.escape c)) (w := 6) (by decide) (by decide) hn, hslash]

lemma markCost_at (hn : n ≤ 255) : markCost (markAt n) = 2083 := by
  have hslash : bytes (Value.escape '/') = 1 := by decide
  have hpath : roomOf (pathOf n) = 2045 := by
    rw [pathOf, roomOf_ofList,
      sum_nested (fun c => bytes (Value.escape c)) (w := 2) (by decide) (by decide) hn, hslash]
  have hnone : bytes (Value.print (countValue none)) = 4 := by decide
  rw [markCost_eq, markAt, hpath, hnone]

end Strings

lemma kept_insert_fresh {files : Dict String Counts} {path : String} (h : path ∉ files) (hfits : fits path = true)
    (counts : Counts) : kept (files.insert path counts) = ⟨path, counts.1, counts.2⟩ :: kept files := by
  rw [kept, AList.entries_insert_of_notMem h, List.map_cons, List.filter_cons,
    if_pos (show fits (markOf ⟨path, counts⟩).path = true from hfits)]
  rfl

lemma kept_collect_perm {marks : List Mark} (hdistinct : (marks.map Mark.path).Nodup)
    (hfits : ∀ mark ∈ marks, fits mark.path = true) :
    (kept (Dict.collect Mark.path (fun mark => (mark.added, mark.removed)) marks)).Perm marks := by
  induction marks using List.reverseRecOn with
  | nil => exact List.Perm.refl _
  | append_singleton marks mark ih =>
    rw [List.map_append, List.nodup_append] at hdistinct
    obtain ⟨hmarks, -, hapart⟩ := hdistinct
    have hperm := ih hmarks fun other hother => hfits other (List.mem_append_left _ hother)
    have hnew : mark.path ∉ Dict.collect Mark.path (fun mark => (mark.added, mark.removed)) marks :=
      fun hmem => hapart _ (Dict.mem_collect.mp hmem) _ List.mem_cons_self rfl
    rw [Dict.collect_concat, kept_insert_fresh hnew (hfits mark (by simp))]
    exact (hperm.cons mark).trans (List.perm_append_singleton mark marks).symm

lemma marksOf_perm {files : Dict String Counts} (h : (kept files).length ≤ maxFiles) :
    (marksOf files).Perm (kept files) := by
  have hsort : ((kept files).mergeSort fun a b => decide (a.path ≤ b.path)).Perm (kept files) :=
    List.mergeSort_perm _ _
  have hall : marksOf files = (kept files).mergeSort fun a b => decide (a.path ≤ b.path) :=
    List.take_of_length_le (by rw [List.length_mergeSort]; exact h)
  rw [hall]
  exact hsort

lemma evict_within {checkouts : List Checkout} (hlength : checkouts.length ≤ maxCheckouts)
    (htotal : total checkouts ≤ maxFiles) : evict checkouts = checkouts := by
  cases checkouts with
  | nil => rfl
  | cons checkout rest =>
    rw [evict, if_neg]
    exact not_or.mpr ⟨not_lt.mpr hlength, not_lt.mpr htotal⟩

/-- The first so many places are remembered, each with all its marks. -/
structure Full (places : ℕ) (checkouts : List Checkout) : Prop where
  keys : checkouts.map key = (List.range places).map fun n => (placeOf n, "main")
  files : ∀ checkout ∈ checkouts, checkout.files.Perm ((List.range 64).map markAt)

lemma marksCost_full {marks : List Mark} (h : marks.Perm ((List.range 64).map markAt)) :
    marksCost marks = 64 * 2083 := by
  have hmarks : ∀ m ∈ ((List.range 64).map markAt).map markCost, m = 2083 := by
    simp only [List.forall_mem_map]
    exact fun m hm => markCost_at ((List.mem_range.mp hm).le.trans (by norm_num))
  rw [marksCost, (h.map markCost).sum_eq, List.sum_eq_card_nsmul _ _ hmarks, List.length_map,
    List.length_map, List.length_range, smul_eq_mul]

namespace Full

variable {places : ℕ} {checkouts : List Checkout}

lemma length (h : Full places checkouts) : checkouts.length = places := by
  have hlength := congrArg List.length h.keys
  simpa using hlength

lemma apart (h : Full places checkouts) : ∀ checkout ∈ checkouts, ¬checkout.is (placeOf places) "main" := by
  intro checkout hmem his
  have hkey := List.mem_map_of_mem (f := key) hmem
  rw [h.keys, is_iff.mp his] at hkey
  obtain ⟨n, hn, heq⟩ := List.mem_map.mp hkey
  exact absurd (placeOf_injective (Prod.mk.inj heq).1) (List.mem_range.mp hn).ne

lemma total_eq (h : Full places checkouts) : total checkouts = places * 64 := by
  have hfiles : ∀ n ∈ checkouts.map fun checkout => checkout.files.length, n = 64 := by
    simp only [List.forall_mem_map]
    intro checkout hmem
    rw [(h.files checkout hmem).length_eq, List.length_map, List.length_range]
  rw [total, List.sum_eq_card_nsmul _ _ hfiles, List.length_map, h.length, smul_eq_mul]

lemma cost_eq (h : Full places checkouts) (hplaces : places ≤ 64) : cost checkouts = places * 139475 := by
  have hcost : ∀ n ∈ checkouts.map checkoutCost, n = 139475 := by
    simp only [List.forall_mem_map]
    intro checkout hmem
    have hkey := List.mem_map_of_mem (f := key) hmem
    rw [h.keys] at hkey
    obtain ⟨n, hn, heq⟩ := List.mem_map.mp hkey
    obtain ⟨hplace, hbranch⟩ := Prod.mk.inj heq
    have hn := List.mem_range.mp hn
    have hmain : roomOf "main" = 6 := by decide
    have hlist : listBytes (64 * 2083) = 133313 := max_eq_right (by norm_num)
    rw [checkoutCost_eq, headCost_eq, ← hplace, ← hbranch, roomOf_place (by omega), hmain,
      marksCost_full (h.files checkout hmem), hlist]
  rw [cost, List.sum_eq_card_nsmul _ _ hcost, List.length_map, h.length, smul_eq_mul]

end Full

section Filling

variable {places n : ℕ} {others : List Checkout} {marks : List Mark}

def rowed (others : List Checkout) (place : ℕ) (marks : List Mark) : List Checkout :=
  others ++ if marks = [] then [] else [⟨placeOf place, "main", marks⟩]

lemma find_rowed (h : Full places others) :
    (rowed others places marks).find? (·.is (placeOf places) "main") =
      if marks = [] then none else some ⟨placeOf places, "main", marks⟩ := by
  have hothers : others.find? (·.is (placeOf places) "main") = none :=
    List.find?_eq_none.mpr h.apart
  rw [rowed, List.find?_append, hothers, Option.none_or]
  split
  · rfl
  · simp [Checkout.is]

lemma erase_rowed (h : Full places others) :
    (rowed others places marks).eraseP (·.is (placeOf places) "main") = others := by
  rw [rowed, List.eraseP_append_right _ h.apart]
  split
  · simp
  · simp [Checkout.is]

lemma mark_rowed (hplaces : places < 64) (hn : n < 64) (h : Full places others)
    (hperm : marks.Perm ((List.range n).map markAt)) :
    ∃ marks', marks'.Perm ((List.range (n + 1)).map markAt) ∧
      (mark (rowed others places marks) (placeOf places) "main" (pathOf n) (none, none)).1 =
        rowed others places marks' := by
  have hpaths : (marks.map Mark.path).Perm ((List.range n).map pathOf) := by
    have hmap := hperm.map Mark.path
    rw [List.map_map] at hmap
    exact hmap
  have hdistinct : (marks.map Mark.path).Nodup :=
    hpaths.nodup_iff.mpr (List.nodup_range.map pathOf_injective)
  have hfits : ∀ mark ∈ marks, fits mark.path = true := by
    intro mark hmark
    obtain ⟨m, hm, hpath⟩ := List.mem_map.mp (hpaths.subset (List.mem_map_of_mem hmark))
    rw [← hpath]
    exact pathOf_fits (by have := List.mem_range.mp hm; omega)
  have hget : get (rowed others places marks) (placeOf places) "main" =
      Dict.collect Mark.path (fun mark => (mark.added, mark.removed)) marks := by
    rw [get, find_rowed h]
    by_cases hnil : marks = []
    · rw [if_pos hnil, hnil]
      rfl
    · rw [if_neg hnil]
  have hfresh : pathOf n ∉ Dict.collect Mark.path (fun mark => (mark.added, mark.removed)) marks := by
    intro hmem
    obtain ⟨m, hm, hpath⟩ := List.mem_map.mp (hpaths.subset (Dict.mem_collect.mp hmem))
    exact absurd (pathOf_injective hpath) (List.mem_range.mp hm).ne
  have hkept : (kept ((get (rowed others places marks) (placeOf places) "main").insert (pathOf n)
      (none, none))).Perm ((List.range (n + 1)).map markAt) := by
    rw [hget, kept_insert_fresh hfresh (pathOf_fits (by omega)), List.range_succ, List.map_append]
    exact (((kept_collect_perm hdistinct hfits).trans hperm).cons _).trans
      (List.perm_append_singleton (markAt n) _).symm
  have hlength := hkept.length_eq
  rw [List.length_map, List.length_range] at hlength
  have hmarks := (marksOf_perm (by rw [hlength, maxFiles]; omega)).trans hkept
  have hcount := hmarks.length_eq
  rw [List.length_map, List.length_range] at hcount
  have hold : ∀ marks', marks'.length = n + 1 → marks ≠ marks' := by
    rintro marks' hlength rfl
    rw [hperm.length_eq, List.length_map, List.length_range] at hlength
    omega
  refine ⟨_, hmarks, ?_⟩
  have hmain : fits "main" = true := by decide +kernel
  rw [mark]
  unfold set
  rw [placeOf_fits (show places ≤ 255 by omega), hmain, find_rowed h, erase_rowed h]
  generalize marksOf ((get (rowed others places marks) (placeOf places) "main").insert (pathOf n)
    (none, none)) = marks' at hcount ⊢
  have hne : marks' ≠ [] := by
    rintro rfl
    simp at hcount
  have htotal : total (others ++ [⟨placeOf places, "main", marks'⟩]) ≤ maxFiles := by
    have hothers := h.total_eq
    rw [total] at hothers
    rw [total, List.map_append, List.sum_append, hothers, maxFiles]
    simp only [List.map_cons, List.map_nil, List.sum_cons, List.sum_nil]
    omega
  have hevict := evict_within (by simp [h.length, maxCheckouts]; omega) htotal
  by_cases hnil : marks = []
  · simp [hnil, hne, rowed, hevict]
  · simp [hnil, hne, hold marks' hcount, rowed, hevict]

lemma run_row (hplaces : places < 64) (h : Full places others) (hn : n ≤ 64) :
    ∃ marks, marks.Perm ((List.range n).map markAt) ∧
      ((List.range n).map fun n => Op.mark (placeOf places) "main" (pathOf n) (none, none)).foldl
        apply others = rowed others places marks := by
  induction n with
  | zero => exact ⟨[], List.Perm.refl _, by simp [rowed]⟩
  | succ n ih =>
    obtain ⟨marks, hperm, hrun⟩ := ih (by omega)
    obtain ⟨marks', hperm', hmark⟩ := mark_rowed hplaces (by omega) h hperm
    refine ⟨marks', hperm', ?_⟩
    rw [List.range_succ, List.map_append, List.foldl_append, hrun]
    exact hmark

lemma run_rows (hplaces : places ≤ 64) : Full places (run ((List.range places).flatMap rowOf)) := by
  induction places with
  | zero => exact ⟨rfl, fun _ hmem => absurd hmem List.not_mem_nil⟩
  | succ places ih =>
    have hfull := ih (by omega)
    obtain ⟨marks, hperm, hrun⟩ := run_row (by omega) hfull (le_refl 64)
    have hne : marks ≠ [] := by
      rintro rfl
      simpa using hperm.length_eq
    have hstep : run ((List.range (places + 1)).flatMap rowOf) =
        run ((List.range places).flatMap rowOf) ++ [⟨placeOf places, "main", marks⟩] := by
      rw [List.range_succ, List.flatMap_append, List.flatMap_singleton, run, List.foldl_append]
      refine hrun.trans ?_
      rw [rowed, if_neg hne]
    rw [hstep]
    refine ⟨?_, fun checkout hmem => ?_⟩
    · rw [List.map_append, hfull.keys, List.range_succ, List.map_append]
      rfl
    · obtain hmem | hmem := List.mem_append.mp hmem
      · exact hfull.files checkout hmem
      · obtain rfl := List.mem_singleton.mp hmem
        exact hperm

end Filling

theorem viewed_overflow : ¬ Sound Json.compact (run overflow) := by
  intro h
  have hbytes := h.bytes_le
  change bytes (savedText Compact.standard.toJson (run overflow)) ≤ maxFileBytes at hbytes
  have hfull : Full 64 (run overflow) := run_rows le_rfl
  rw [bytes_savedText, hfull.cost_eq le_rfl] at hbytes
  norm_num [listBytes, maxFileBytes, maxFiles, maxCheckouts, maxFieldBytes] at hbytes

end Overflow

end Sheprd.Review.Viewing
