import Sheprd.Review.Lines

namespace Sheprd.Review

def kindAt (lines : List Line) (index : ℕ) : Option Kind := lines[index]?.map Line.kind

namespace SplitRow

def acrossLine : SplitRow → Option ℕ
  | across line => some line
  | sides _ _ => none

def leftLine : SplitRow → Option ℕ
  | across _ => none
  | sides left _ => left

def rightLine : SplitRow → Option ℕ
  | across _ => none
  | sides _ right => right

end SplitRow

open SplitRow

def SameRun (lines : List Line) (left right : ℕ) : Prop :=
  ∃ middle, left < middle ∧ middle ≤ right ∧
    (∀ k, left ≤ k → k < middle → kindAt lines k = some .removed) ∧
    ∀ k, middle ≤ k → k ≤ right → kindAt lines k = some .added

inductive Placed (lines : List Line) : SplitRow → Prop
  | across {line : ℕ} (h : kindAt lines line = some .hunk ∨ kindAt lines line = some .remark) :
      Placed lines (.across line)
  | context {line : ℕ} (h : kindAt lines line = some .context) : Placed lines (.sides (some line) (some line))
  | removed {line : ℕ} (h : kindAt lines line = some .removed) : Placed lines (.sides (some line) none)
  | added {line : ℕ} (h : kindAt lines line = some .added) : Placed lines (.sides none (some line))
  | edit {left right : ℕ} (h : SameRun lines left right) : Placed lines (.sides (some left) (some right))

def indices (shows : Kind → Bool) (lines : List Line) : List ℕ :=
  lines.zipIdx.filterMap fun (line, index) => if shows line.kind then some index else none

def crosses : Kind → Bool
  | .hunk | .remark => true
  | _ => false

def onLeft : Kind → Bool
  | .context | .removed => true
  | _ => false

def onRight : Kind → Bool
  | .context | .added => true
  | _ => false

section Indices

variable (shows : Kind → Bool) (lines : List Line) (line : Line)

lemma indices_concat :
    indices shows (lines ++ [line]) = indices shows lines ++ if shows line.kind then [lines.length] else [] := by
  simp only [indices, List.zipIdx_append, List.filterMap_append]
  by_cases h : shows line.kind <;> simp [h]

lemma kindAt_concat : kindAt (lines ++ [line]) lines.length = some line.kind := by simp [kindAt]

variable {shows lines}

lemma kindAt_lt {index : ℕ} {kind : Kind} (h : kindAt lines index = some kind) : index < lines.length := by
  obtain ⟨line, hline, -⟩ := Option.map_eq_some_iff.mp h
  exact (List.getElem?_eq_some_iff.mp hline).1

lemma kindAt_append {index : ℕ} {kind : Kind} (h : kindAt lines index = some kind) (back : List Line) :
    kindAt (lines ++ back) index = some kind := by
  rw [kindAt, List.getElem?_append_left (kindAt_lt h)]
  exact h

lemma SameRun.append {left right : ℕ} (h : SameRun lines left right) (back : List Line) :
    SameRun (lines ++ back) left right := by
  obtain ⟨middle, hleft, hright, hremoved, hadded⟩ := h
  exact ⟨middle, hleft, hright, fun k hk hk' => kindAt_append (hremoved k hk hk') back,
    fun k hk hk' => kindAt_append (hadded k hk hk') back⟩

lemma SameRun.removed {left right : ℕ} (h : SameRun lines left right) : kindAt lines left = some .removed := by
  obtain ⟨middle, hleft, -, hremoved, -⟩ := h
  exact hremoved left le_rfl hleft

lemma SameRun.added {left right : ℕ} (h : SameRun lines left right) : kindAt lines right = some .added := by
  obtain ⟨middle, -, hright, -, hadded⟩ := h
  exact hadded right hright le_rfl

lemma Placed.append {row : SplitRow} (h : Placed lines row) (back : List Line) : Placed (lines ++ back) row := by
  cases h with
  | across h => exact .across (h.imp (kindAt_append · back) (kindAt_append · back))
  | context h => exact .context (kindAt_append h back)
  | removed h => exact .removed (kindAt_append h back)
  | added h => exact .added (kindAt_append h back)
  | edit h => exact .edit (h.append back)

lemma mem_indices {index : ℕ} :
    index ∈ indices shows lines ↔ ∃ kind, kindAt lines index = some kind ∧ shows kind = true := by
  simp only [indices, List.mem_filterMap, Prod.exists, Option.ite_none_right_eq_some, Option.some.injEq,
    kindAt, Option.map_eq_some_iff]
  constructor
  · rintro ⟨line, at', hline, hshows, rfl⟩
    exact ⟨line.kind, ⟨line, List.mem_zipIdx_iff_getElem?.mp hline, rfl⟩, hshows⟩
  · rintro ⟨kind, ⟨line, hline, rfl⟩, hshows⟩
    exact ⟨line, index, List.mem_zipIdx_iff_getElem?.mpr hline, hshows, rfl⟩

lemma indices_lt {index : ℕ} (h : index ∈ indices shows lines) : index < lines.length := by
  obtain ⟨kind, hkind, -⟩ := mem_indices.mp h
  exact kindAt_lt hkind

lemma pairwise_indices (shows : Kind → Bool) (lines : List Line) : (indices shows lines).Pairwise (· < ·) := by
  induction lines using List.reverseRecOn with
  | nil => exact List.Pairwise.nil
  | append_singleton lines line ih =>
    rw [indices_concat]
    refine List.pairwise_append.mpr ⟨ih, ?_, fun a ha b hb => ?_⟩
    · split <;> simp
    · split at hb
      · exact List.mem_singleton.mp hb ▸ indices_lt ha
      · exact absurd hb List.not_mem_nil

end Indices

structure Run (lines : List Line) (pending : Pending) (start removed added : ℕ) : Prop where
  removed_eq : pending.removed = List.range' start removed
  added_eq : pending.added = List.range' (start + removed) added
  ends : start + removed + added = lines.length
  removes : ∀ k, start ≤ k → k < start + removed → kindAt lines k = some .removed
  adds : ∀ k, start + removed ≤ k → k < lines.length → kindAt lines k = some .added

structure Rows (lines : List Line) (pending : Pending) : Prop where
  across : pending.split.filterMap acrossLine = indices crosses lines
  left : pending.split.filterMap leftLine ++ pending.removed = indices onLeft lines
  right : pending.split.filterMap rightLine ++ pending.added = indices onRight lines
  placed : ∀ row ∈ pending.split, Placed lines row
  run : ∃ start removed added, Run lines pending start removed added

lemma filterMap_range {items : List ℕ} {n : ℕ} (h : items.length ≤ n) :
    (List.range n).filterMap (fun index => items[index]?) = items := by
  induction items generalizing n with
  | nil => simp
  | cons item items ih =>
    obtain ⟨n, rfl⟩ := Nat.exists_eq_add_of_le' (Nat.one_le_of_lt h)
    rw [List.range_succ_eq_map, List.filterMap_cons, List.filterMap_map]
    simp only [List.getElem?_cons_zero, Function.comp_def, Nat.succ_eq_add_one, List.getElem?_cons_succ]
    rw [ih (Nat.le_of_succ_le_succ h)]

section Flush

variable {lines : List Line} {pending : Pending}

lemma flush_across : pending.flush.filterMap acrossLine = pending.split.filterMap acrossLine := by
  simp [Pending.flush, List.filterMap_append, List.filterMap_map, Function.comp_def, acrossLine]

lemma flush_left : pending.flush.filterMap leftLine = pending.split.filterMap leftLine ++ pending.removed := by
  simp only [Pending.flush, List.filterMap_append, List.filterMap_map, Function.comp_def, leftLine]
  rw [filterMap_range (le_max_left _ _)]

lemma flush_right : pending.flush.filterMap rightLine = pending.split.filterMap rightLine ++ pending.added := by
  simp only [Pending.flush, List.filterMap_append, List.filterMap_map, Function.comp_def, rightLine]
  rw [filterMap_range (le_max_right _ _)]

lemma Run.placed {start removed added index : ℕ} (h : Run lines pending start removed added)
    (hindex : index < max pending.removed.length pending.added.length) :
    Placed lines (.sides pending.removed[index]? pending.added[index]?) := by
  have hends := h.ends
  rw [h.removed_eq, h.added_eq, List.length_range', List.length_range'] at hindex
  rw [h.removed_eq, h.added_eq]
  by_cases hremoved : index < removed
  · rw [List.getElem?_range' hremoved]
    by_cases hadded : index < added
    · rw [List.getElem?_range' hadded]
      exact .edit ⟨start + removed, by omega, by omega, fun k hk hk' => h.removes k (by omega) hk',
        fun k hk hk' => h.adds k hk (by omega)⟩
    · rw [List.getElem?_eq_none (by simpa using hadded)]
      exact .removed (h.removes _ (by omega) (by omega))
  · rw [List.getElem?_eq_none (by simpa using hremoved), List.getElem?_range' (by omega)]
    exact .added (h.adds _ (by omega) (by omega))

lemma Rows.flush_placed (h : Rows lines pending) : ∀ row ∈ pending.flush, Placed lines row := by
  intro row hrow
  obtain hrow | hrow := List.mem_append.mp hrow
  · exact h.placed row hrow
  · obtain ⟨index, hindex, rfl⟩ := List.mem_map.mp hrow
    obtain ⟨start, removed, added, hrun⟩ := h.run
    exact hrun.placed (List.mem_range.mp hindex)

lemma Rows.ended (h : Rows lines pending) {line : Line} {row : SplitRow}
    (hacross : row.acrossLine.toList = if crosses line.kind then [lines.length] else [])
    (hleft : row.leftLine.toList = if onLeft line.kind then [lines.length] else [])
    (hright : row.rightLine.toList = if onRight line.kind then [lines.length] else [])
    (hplaced : Placed (lines ++ [line]) row) :
    Rows (lines ++ [line]) { split := pending.flush ++ [row] } where
  across := by
    rw [List.filterMap_append, flush_across, h.across, indices_concat, ← hacross]
    cases hrow : row.acrossLine <;> simp [hrow]
  left := by
    rw [List.append_nil, List.filterMap_append, flush_left, h.left, indices_concat, ← hleft]
    cases hrow : row.leftLine <;> simp [hrow]
  right := by
    rw [List.append_nil, List.filterMap_append, flush_right, h.right, indices_concat, ← hright]
    cases hrow : row.rightLine <;> simp [hrow]
  placed := by
    intro other hother
    obtain hother | hother := List.mem_append.mp hother
    · exact (h.flush_placed other hother).append [line]
    · exact List.mem_singleton.mp hother ▸ hplaced
  run := ⟨(lines ++ [line]).length, 0, 0, rfl, rfl, rfl, fun k hk hk' => by omega, fun k hk hk' => by omega⟩

lemma Rows.added (h : Rows lines pending) {line : Line} (hline : line.kind = .added) :
    Rows (lines ++ [line]) { pending with added := pending.added ++ [lines.length] } where
  across := by rw [indices_concat, h.across, hline]; simp [crosses]
  left := by rw [indices_concat, ← h.left, hline]; simp [onLeft]
  right := by rw [indices_concat, ← h.right, hline]; simp [onRight]
  placed := fun row hrow => (h.placed row hrow).append [line]
  run := by
    obtain ⟨start, removed, added, hrun⟩ := h.run
    have hends := hrun.ends
    refine ⟨start, removed, added + 1, hrun.removed_eq, ?_, by simp; omega, fun k hk hk' =>
      kindAt_append (hrun.removes k hk hk') [line], fun k hk hk' => ?_⟩
    · rw [List.range'_1_concat, ← hrun.added_eq, hends]
    · rw [List.length_append, List.length_singleton] at hk'
      obtain hlt | rfl := Nat.lt_succ_iff_lt_or_eq.mp hk'
      · exact kindAt_append (hrun.adds k hk hlt) [line]
      · rw [kindAt_concat, hline]

lemma Rows.removed (h : Rows lines pending) {line : Line} (hline : line.kind = .removed)
    (hadded : pending.added = []) :
    Rows (lines ++ [line]) { pending with removed := pending.removed ++ [lines.length] } where
  across := by rw [indices_concat, h.across, hline]; simp [crosses]
  left := by rw [indices_concat, ← h.left, hline]; simp [onLeft]
  right := by rw [indices_concat, ← h.right, hline]; simp [onRight]
  placed := fun row hrow => (h.placed row hrow).append [line]
  run := by
    obtain ⟨start, removed, added, hrun⟩ := h.run
    have hends := hrun.ends
    have hzero : added = 0 := by
      have hlength := congrArg List.length hrun.added_eq
      rw [hadded, List.length_range'] at hlength
      exact hlength.symm
    subst hzero
    rw [Nat.add_zero] at hends
    refine ⟨start, removed + 1, 0, ?_, ?_, by simp; omega, fun k hk hk' => ?_, fun k hk hk' => ?_⟩
    · rw [List.range'_1_concat, ← hrun.removed_eq, hends]
    · exact hadded
    · obtain hlt | hlast := Nat.lt_succ_iff_lt_or_eq.mp hk'
      · exact kindAt_append (hrun.removes k hk hlt) [line]
      · rw [show k = lines.length from hlast.trans hends, kindAt_concat, hline]
    · rw [List.length_append, List.length_singleton] at hk'
      omega

lemma Rows.restarted (h : Rows lines pending) {line : Line} (hline : line.kind = .removed) :
    Rows (lines ++ [line]) { split := pending.flush, removed := [lines.length] } where
  across := by rw [indices_concat, flush_across, h.across, hline]; simp [crosses]
  left := by rw [indices_concat, flush_left, h.left, hline]; simp [onLeft]
  right := by rw [indices_concat, flush_right, List.append_nil, h.right, hline]; simp [onRight]
  placed := fun row hrow => (h.flush_placed row hrow).append [line]
  run := by
    refine ⟨lines.length, 1, 0, rfl, rfl, by simp, fun k hk hk' => ?_, fun k hk hk' => ?_⟩
    · obtain rfl : k = lines.length := by omega
      rw [kindAt_concat, hline]
    · rw [List.length_append, List.length_singleton] at hk'
      omega

lemma Rows.line (h : Rows lines pending) (line : Line) :
    Rows (lines ++ [line]) (pending.line line.kind lines.length) := by
  have hlast := kindAt_concat lines line
  cases hline : line.kind with
  | hunk =>
    refine h.ended ?_ ?_ ?_ (.across (.inl (hline ▸ hlast)))
    all_goals simp [hline, acrossLine, leftLine, rightLine, crosses, onLeft, onRight]
  | remark =>
    refine h.ended ?_ ?_ ?_ (.across (.inr (hline ▸ hlast)))
    all_goals simp [hline, acrossLine, leftLine, rightLine, crosses, onLeft, onRight]
  | context =>
    refine h.ended ?_ ?_ ?_ (.context (hline ▸ hlast))
    all_goals simp [hline, acrossLine, leftLine, rightLine, crosses, onLeft, onRight]
  | added => exact h.added hline
  | removed =>
    rw [Pending.line]
    split
    · exact h.restarted hline
    · rename_i hadded
      exact h.removed hline (not_not.mp hadded)

end Flush

lemma pending_rows (lines : List Line) : Rows lines (pending lines) := by
  induction lines using List.reverseRecOn with
  | nil =>
    exact ⟨rfl, rfl, rfl, fun row hrow => absurd hrow List.not_mem_nil,
      ⟨0, 0, 0, rfl, rfl, rfl, fun k _ hk => absurd hk (Nat.not_lt_zero k),
        fun k _ hk => absurd hk (Nat.not_lt_zero k)⟩⟩
  | append_singleton lines line ih =>
    rw [pending, List.zipIdx_append, List.foldl_append, Nat.zero_add]
    exact ih.line line

lemma splitRows_across (lines : List Line) : (splitRows lines).filterMap acrossLine = indices crosses lines :=
  flush_across.trans (pending_rows lines).across

lemma splitRows_left (lines : List Line) : (splitRows lines).filterMap leftLine = indices onLeft lines :=
  flush_left.trans (pending_rows lines).left

lemma splitRows_right (lines : List Line) : (splitRows lines).filterMap rightLine = indices onRight lines :=
  flush_right.trans (pending_rows lines).right

lemma splitRows_placed {lines : List Line} {row : SplitRow} (h : row ∈ splitRows lines) : Placed lines row :=
  (pending_rows lines).flush_placed row h

def Edit (rows : List SplitRow) (line other : ℕ) : Prop :=
  line ≠ other ∧ (.sides (some line) (some other) ∈ rows ∨ .sides (some other) (some line) ∈ rows)

lemma Edit.symm {rows : List SplitRow} {line other : ℕ} (h : Edit rows line other) : Edit rows other line :=
  ⟨h.1.symm, h.2.symm⟩

lemma Edit.sameRun {lines : List Line} {line other : ℕ} (h : Edit (splitRows lines) line other) :
    SameRun lines line other ∨ SameRun lines other line := by
  obtain ⟨hne, hrow | hrow⟩ := h
  · cases splitRows_placed hrow with
    | context _ => exact absurd rfl hne
    | edit hrun => exact Or.inl hrun
  · cases splitRows_placed hrow with
    | context _ => exact absurd rfl hne
    | edit hrun => exact Or.inr hrun

lemma eq_of_shows {rows : List SplitRow} {side : SplitRow → Option ℕ}
    (h : (rows.filterMap side).Pairwise (· < ·)) {row other : SplitRow} (hrow : row ∈ rows) (hother : other ∈ rows)
    {line : ℕ} (hline : side row = some line) (hline' : side other = some line) : row = other := by
  by_contra hne
  have hdistinct : rows.Pairwise fun a b => ∀ i, side a = some i → ∀ j, side b = some j → i ≠ j :=
    List.Pairwise.imp (fun hab i hi j hj => (hab i hi j hj).ne) (List.pairwise_filterMap.mp h)
  have hsymm : Std.Symm fun a b : SplitRow => ∀ i, side a = some i → ∀ j, side b = some j → i ≠ j :=
    ⟨fun a b hab i hi j hj => (hab j hj i hi).symm⟩
  exact hdistinct.forall hrow hother hne line hline line hline' rfl

lemma Edit.unique {lines : List Line} {line other other' : ℕ} (h : Edit (splitRows lines) line other)
    (h' : Edit (splitRows lines) line other') : other = other' := by
  have hleft := splitRows_left lines ▸ pairwise_indices onLeft lines
  have hright := splitRows_right lines ▸ pairwise_indices onRight lines
  have hclash : ∀ {a b}, SplitRow.sides (some line) (some a) ∈ splitRows lines → line ≠ a →
      SplitRow.sides (some b) (some line) ∈ splitRows lines → line ≠ b → False := by
    intro a b ha hnea hb hneb
    cases splitRows_placed ha with
    | context _ => exact hnea rfl
    | edit hrun =>
      cases splitRows_placed hb with
      | context _ => exact hneb rfl
      | edit hrun' => exact absurd (hrun.removed.symm.trans hrun'.added) (by simp)
  obtain ⟨hne, hrow | hrow⟩ := h <;> obtain ⟨hne', hrow' | hrow'⟩ := h'
  · have hsame := eq_of_shows hleft hrow hrow' rfl rfl
    rw [sides.injEq] at hsame
    exact Option.some.inj hsame.2
  · exact (hclash hrow hne hrow' hne').elim
  · exact (hclash hrow' hne' hrow hne).elim
  · have hsame := eq_of_shows hright hrow hrow' rfl rfl
    rw [sides.injEq] at hsame
    exact Option.some.inj hsame.1

lemma length_pairUps (rows : List SplitRow) (partners : List ℕ) :
    (rows.foldl Lines.pairUp partners).length = partners.length := by
  induction rows generalizing partners with
  | nil => rfl
  | cons row rows ih =>
    rw [List.foldl_cons, ih]
    unfold Lines.pairUp
    split
    · split <;> simp
    · rfl

lemma partners_spec (rows : List SplitRow) {n line : ℕ} (hline : line < n) :
    ∃ partner, (rows.foldl Lines.pairUp (List.replicate n u32Max))[line]? = some partner ∧
      ((partner = u32Max ∧ ∀ other, ¬ Edit rows line other) ∨
        ∃ other, Edit rows line other ∧ partner = min other u32Max) := by
  induction rows using List.reverseRecOn with
  | nil => exact ⟨u32Max, by simp [hline], Or.inl ⟨rfl, fun other h => by simp [Edit] at h⟩⟩
  | append_singleton rows row ih =>
    obtain ⟨partner, hpartner, hspec⟩ := ih
    have hlength : (rows.foldl Lines.pairUp (List.replicate n u32Max)).length = n := by
      rw [length_pairUps, List.length_replicate]
    rw [List.foldl_append, List.foldl_cons, List.foldl_nil]
    generalize rows.foldl Lines.pairUp (List.replicate n u32Max) = before at hpartner hlength ⊢
    have hkept : (∀ other, Edit (rows ++ [row]) line other ↔ Edit rows line other) →
        (partner = u32Max ∧ ∀ other, ¬ Edit (rows ++ [row]) line other) ∨
          ∃ other, Edit (rows ++ [row]) line other ∧ partner = min other u32Max := by
      intro hsame
      simpa only [hsame] using hspec
    unfold Lines.pairUp
    split
    · rename_i left right
      split
      · rename_i hne
        by_cases hright : line = right
        · subst hright
          refine ⟨min left u32Max, by simp [hlength, hline], Or.inr ⟨left, ⟨Ne.symm hne, Or.inr ?_⟩, rfl⟩⟩
          exact List.mem_append_right _ (List.mem_singleton.mpr rfl)
        · by_cases hleft : line = left
          · subst hleft
            refine ⟨min right u32Max, ?_, Or.inr ⟨right, ⟨hne, Or.inl ?_⟩, rfl⟩⟩
            · rw [List.getElem?_set_ne (Ne.symm hne), List.getElem?_set_self (by rw [hlength]; exact hline)]
            · exact List.mem_append_right _ (List.mem_singleton.mpr rfl)
          · refine ⟨partner, ?_, hkept fun other => ?_⟩
            · rw [List.getElem?_set_ne (Ne.symm hright), List.getElem?_set_ne (Ne.symm hleft), hpartner]
            · simp [Edit, hleft, hright]
      · rename_i heq
        rw [not_not] at heq
        subst heq
        refine ⟨partner, hpartner, hkept fun other => ?_⟩
        simp only [Edit, List.mem_append, List.mem_singleton, sides.injEq, Option.some.injEq]
        constructor
        · rintro ⟨hne, h⟩
          refine ⟨hne, ?_⟩
          rcases h with (h | ⟨rfl, rfl⟩) | h | ⟨rfl, rfl⟩
          · exact Or.inl h
          · exact absurd rfl hne
          · exact Or.inr h
          · exact absurd rfl hne
        · rintro ⟨hne, h⟩
          exact ⟨hne, h.imp Or.inl Or.inl⟩
    · rename_i hother
      refine ⟨partner, hpartner, hkept fun other => ?_⟩
      have hrow : ∀ a b, SplitRow.sides (some a) (some b) ≠ row := fun a b h => hother a b h.symm
      simp [Edit, hrow]

lemma Edit.lt {lines : List Line} {line other : ℕ} (h : Edit (splitRows lines) line other) : line < lines.length := by
  obtain hrun | hrun := h.sameRun
  · exact kindAt_lt hrun.removed
  · exact kindAt_lt hrun.added

lemma partner_iff (lines : Lines) {line other : ℕ} :
    lines.finish.partner line = some other ↔ Edit (splitRows lines.lines) line other := by
  have hsmall : ∀ {other line}, Edit (splitRows lines.lines) line other → other < u32Max := fun h =>
    (h.symm.lt.trans_le lines.bounded).trans (by norm_num [maxFileLines, u32Max])
  have hvalue : ∀ value, lines.finish.partner line = some value ↔
      ((splitRows lines.lines).foldl Lines.pairUp (List.replicate lines.lines.length u32Max))[line]? = some value ∧
        value ≠ u32Max := by
    intro value
    rw [Lines.partner, Lines.finish, Option.filter_eq_some_iff, decide_eq_true_eq]
  rw [hvalue]
  constructor
  · rintro ⟨hget, hne⟩
    have hline : line < lines.lines.length := by
      by_contra hge
      have hlength := (List.getElem?_eq_some_iff.mp hget).1
      rw [length_pairUps, List.length_replicate] at hlength
      exact hge hlength
    obtain ⟨partner, hpartner, ⟨hmax, -⟩ | ⟨other', hedit, hmin⟩⟩ := partners_spec (splitRows lines.lines) hline
    · exact absurd ((Option.some.inj (hget.symm.trans hpartner)).trans hmax) hne
    · obtain rfl := Option.some.inj (hget.symm.trans hpartner)
      rw [hmin, min_eq_left (hsmall hedit).le]
      exact hedit
  · intro h
    obtain ⟨partner, hpartner, ⟨-, hnone⟩ | ⟨other', hedit, hmin⟩⟩ := partners_spec (splitRows lines.lines) h.lt
    · exact absurd h (hnone other)
    · obtain rfl := h.unique hedit
      rw [hpartner, hmin, min_eq_left (hsmall h).le]
      exact ⟨rfl, (hsmall h).ne⟩

structure Conserved (lines : List Line) (rows : List SplitRow) : Prop where
  acrossAscend : (rows.filterMap acrossLine).Pairwise (· < ·)
  leftAscend : (rows.filterMap leftLine).Pairwise (· < ·)
  rightAscend : (rows.filterMap rightLine).Pairwise (· < ·)
  across : ∀ index, index ∈ rows.filterMap acrossLine ↔
    kindAt lines index = some .hunk ∨ kindAt lines index = some .remark
  left : ∀ index, index ∈ rows.filterMap leftLine ↔
    kindAt lines index = some .context ∨ kindAt lines index = some .removed
  right : ∀ index, index ∈ rows.filterMap rightLine ↔
    kindAt lines index = some .context ∨ kindAt lines index = some .added
  placed : ∀ row ∈ rows, Placed lines row

lemma splitRows_conserved (lines : List Line) : Conserved lines (splitRows lines) where
  acrossAscend := splitRows_across lines ▸ pairwise_indices crosses lines
  leftAscend := splitRows_left lines ▸ pairwise_indices onLeft lines
  rightAscend := splitRows_right lines ▸ pairwise_indices onRight lines
  across := by
    intro index
    rw [splitRows_across, mem_indices]
    cases kindAt lines index with
    | none => simp
    | some kind => cases kind <;> simp [crosses]
  left := by
    intro index
    rw [splitRows_left, mem_indices]
    cases kindAt lines index with
    | none => simp
    | some kind => cases kind <;> simp [onLeft]
  right := by
    intro index
    rw [splitRows_right, mem_indices]
    cases kindAt lines index with
    | none => simp
    | some kind => cases kind <;> simp [onRight]
  placed := fun _ => splitRows_placed

theorem splitRows_pairs :
    (∀ lines, Conserved lines (splitRows lines)) ∧
      ∀ lines : Lines,
        (∀ line other, lines.finish.partner line = some other ↔ lines.finish.partner other = some line) ∧
          ∀ line other, lines.finish.partner line = some other →
            SameRun lines.lines line other ∨ SameRun lines.lines other line := by
  refine ⟨splitRows_conserved, fun lines => ⟨fun line other => ?_, fun line other h => ?_⟩⟩
  · rw [partner_iff, partner_iff]
    exact ⟨Edit.symm, Edit.symm⟩
  · exact ((partner_iff lines).mp h).sameRun

end Sheprd.Review
