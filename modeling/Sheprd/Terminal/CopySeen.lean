import Sheprd.Terminal.CopyMode

namespace Sheprd.Terminal.Copying

open Selecting (Point TextRange u16Max u32Max)

structure Seen where
  paneId : String
  cursor : Point
  mark : Option Mark
  found : Option Found
  ended : Bool
  copied : Option (TextRange × Option ℕ)

def clamp (value : ℤ) (top : ℕ) : ℕ := (max 0 (min value top)).toNat

def lastCol (pane : PaneSurfacePane) : ℕ := min u16Max (pane.innerRect.width - 1)

def pageLines (height : ℕ) (half : Bool) : ℕ :=
  max 1 (if half then height / 2 else height - 2)

def Mark.through (cursor : Point) (lastCol : ℕ) : Mark → TextRange
  | .cell mark => if mark ≤ cursor then ⟨mark, cursor⟩ else ⟨cursor, mark⟩
  | .line row =>
    if row ≤ cursor.row then ⟨⟨row, 0⟩, ⟨cursor.row, lastCol⟩⟩
    else ⟨⟨cursor.row, 0⟩, ⟨row, lastCol⟩⟩

def Found.Lasting (found : Found) (pane : PaneSurfacePane) : Prop :=
  found.contentRevision = pane.contentRevision ∨ found.refreshed = true

namespace Seen

def onMatch (seen : Seen) : Option (TextRange × ℕ) :=
  seen.found.bind fun found => found.currentMatch.map fun range => (range, found.contentRevision)

def copy (seen : Seen) (pane : PaneSurfacePane) : Seen :=
  match seen.mark, seen.onMatch with
  | some mark, _ =>
    { seen with
      ended := true
      copied := some (mark.through seen.cursor (pane.innerRect.width - 1), none) }
  | none, some (range, contentRevision) =>
    { seen with ended := true, copied := some (range, some contentRevision) }
  | none, none => { seen with ended := !(seen.found.map Found.refreshed).getD false }

def run (seen : Seen) (pane : PaneSurfacePane) : Command → Seen
  | .step rows cols =>
    { seen with
      cursor := ⟨clamp (seen.cursor.row + rows) (lastRow pane),
        clamp (seen.cursor.col + cols) (lastCol pane)⟩ }
  | .lineStart => { seen with cursor := ⟨seen.cursor.row, 0⟩ }
  | .history top => { seen with cursor := ⟨if top then 0 else lastRow pane, 0⟩ }
  | .page down half =>
    let lines : ℤ := pageLines pane.innerRect.height half
    let row := if down then seen.cursor.row + lines else seen.cursor.row - lines
    { seen with cursor := ⟨clamp row (lastRow pane), seen.cursor.col⟩ }
  | .mark lines =>
    { seen with mark := some (if lines then .line seen.cursor.row else .cell seen.cursor) }
  | .copy => seen.copy pane
  | .cancel =>
    if seen.mark.isSome ∨ seen.found.isSome then { seen with mark := none, found := none }
    else { seen with ended := true }
  | .exit => { seen with ended := true }
  | .motion _ | .prompt _ | .search _ _ | .repeated _ => seen

/-- The keys that need no answer: a motion and a search are nothing without theirs, and a copy
whose match the pane may have rewritten looks for it again first. -/
def Direct (seen : Seen) (pane : PaneSurfacePane) : Command → Prop
  | .motion _ | .prompt _ => False
  | .search query _ => query = ""
  | .repeated _ => seen.found = none
  | .copy => seen.mark = none → ∀ found, seen.found = some found →
      found.currentMatch.isSome = true → found.Lasting pane
  | _ => True

def keep (seen : Seen) (query : String) (direction : SearchDirection) (refreshed : Bool)
    (result : CopySearchResult) : Seen :=
  let current := result.current.filter (· < result.found.length)
  { seen with
    cursor := ((current.bind (result.found[·]?)).map TextRange.start).getD seen.cursor
    found := some
      { query := query
        direction := direction
        found := result.found
        current := current
        currentGlobal := if current.isSome then result.currentGlobal else none
        total := result.total
        contentRevision := result.contentRevision
        refreshed := refreshed } }

def answered (seen : Seen) : Command → Answer → Seen
  | .motion _, .motion _ cursor => { seen with cursor := cursor }
  | .search query direction, .search result => seen.keep query direction false result
  | .repeated _, .search result =>
    match seen.found with
    | some found => seen.keep found.query found.direction false result
    | none => seen
  | _, _ => seen

def refreshed (seen : Seen) : Answer → Seen
  | .search result =>
    match seen.found with
    | some found =>
      if result.paneId = seen.paneId then seen.keep found.query found.direction true result
      else seen
    | none => seen
  | .stale => { seen with found := seen.found.map fun found => { found with refreshed := true } }
  | _ => seen

end Seen

def Serves (paneId : String) : Command → Answer → Prop
  | .motion _, .motion id _ => id = paneId
  | .search _ _, .search result => result.paneId = paneId
  | .repeated _, .search result => result.paneId = paneId
  | _, _ => False

/-- The answer neither serves the key that asked (a copy's refresh where none is named) nor asks
for another try. -/
def Spoils (paneId : String) : Option Command → Answer → Prop
  | _, .stale => False
  | some command, answer => ¬ Serves paneId command answer
  | none, .search _ => False
  | none, _ => True

/-- What the user sees after these deeds, each taken for what its key means. -/
inductive Shown (first : Seen) : List Deed → Seen → Prop where
  | start : Shown first [] first
  | ran {deeds : List Deed} {seen : Seen} (key : Key) (pane : PaneSurfacePane)
      (h : Shown first deeds seen) (hdirect : seen.Direct pane key.command) :
      Shown first (deeds ++ [.ran key pane]) (seen.run pane key.command)
  | answered {deeds : List Deed} {seen : Seen} (key : Key) (answer : Answer)
      (h : Shown first deeds seen) (hserves : Serves seen.paneId key.command answer) :
      Shown first (deeds ++ [.answered key answer]) (seen.answered key.command answer)
  | refreshed {deeds : List Deed} {seen : Seen} (answer : Answer) (h : Shown first deeds seen) :
      Shown first (deeds ++ [.refreshed answer]) (seen.refreshed answer)
  | dropped {deeds : List Deed} {seen : Seen} (key : Key) (fate : Fate)
      (h : Shown first deeds seen) : Shown first (deeds ++ [.dropped key fate]) seen
  | left {deeds : List Deed} {seen : Seen} (h : Shown first deeds seen) :
      Shown first (deeds ++ [.left]) { seen with ended := true }

lemma Shown.drops {first seen : Seen} {deeds : List Deed} (h : Shown first deeds seen)
    (keys : List Key) (fate : Fate) :
    Shown first (deeds ++ keys.map fun key => .dropped key fate) seen := by
  induction keys generalizing deeds with
  | nil => simpa using h
  | cons key keys ih => simpa using ih (h.dropped key fate)

lemma lastRow_le (pane : PaneSurfacePane) : lastRow pane ≤ u32Max := min_le_right _ _

lemma offset_clamp (value : ℕ) (by' : ℤ) {top : ℕ} (h : top ≤ u32Max) :
    min (offset value by') top = clamp (value + by') top := by
  unfold offset clamp
  split <;> omega

lemma pageLines_eq (height : ℕ) (half : Bool) :
    pageLines height half =
      if height ≤ 2 then 1 else if half then height / 2 else height - 2 := by
  unfold pageLines
  split <;> split <;> omega

namespace CopyMode

variable {mode : CopyMode} {pane : PaneSurfacePane}

def shows (mode : CopyMode) : Seen where
  paneId := mode.paneId
  cursor := mode.cursor
  mark := mode.mark
  found := mode.found
  ended := false
  copied := none

variable (mode) in
lemma selection_through (lastCol : ℕ) :
    mode.selection lastCol = mode.mark.map (Mark.through mode.cursor lastCol) := by
  refine congrArg (Option.map · mode.mark) (funext fun mark => ?_)
  cases mark with
  | cell mark =>
    by_cases h : mark ≤ mode.cursor <;> simp [Mark.through, Min.min, Max.max, h]
  | line row =>
    rcases le_total row mode.cursor.row with h | h
    · simp [Mark.through, h]
    · by_cases heq : row = mode.cursor.row
      · simp [Mark.through, heq]
      · simp [Mark.through, h, Nat.not_le.mpr (lt_of_le_of_ne' h heq)]

/-- The operations that serve a key, or a copy's refresh where none is named. -/
inductive Aims (found : Option Found) : Option Command → Operation → Prop where
  | motion (motion : CopyMotion) : Aims found (some (.motion motion)) (.motion motion)
  | search (query : String) (direction : SearchDirection) :
      Aims found (some (.search query direction)) (.search query direction .new)
  | repeated (reverse : Bool) (old : Found) (direction : SearchDirection)
      (h : found = some old) :
      Aims found (some (.repeated reverse)) (.search old.query direction .repeated)
  | refresh (old : Found) (h : found = some old) :
      Aims found none (.search old.query old.direction .refresh)

def Carries (mode : CopyMode) (range : TextRange) : Option ℕ → Prop
  | none => ∃ lastCol, mode.selection lastCol = some range
  | some contentRevision => ∃ found, mode.found = some found ∧
      found.contentRevision = contentRevision ∧ range ∈ found.found

inductive Ran (mode : CopyMode) (pane : PaneSurfacePane) (command : Command) :
    Outcome × CopyMode → Prop where
  | nothing (hdirect : mode.shows.Direct pane command)
      (h : mode.shows.run pane command = mode.shows) : Ran mode pane command (.nothing, mode)
  | moved (cursor : Point) (mark : Option Mark) (found : Option Found)
      (hfound : found = mode.found ∨ found = none) (hdirect : mode.shows.Direct pane command)
      (h : mode.shows.run pane command =
        { mode with cursor := cursor, mark := mark, found := found }.shows) :
      Ran mode pane command
        (.moved, { mode with cursor := cursor, mark := mark, found := found })
  | send (operation : Operation) (haims : Aims mode.found (some command) operation) :
      Ran mode pane command (.send (mode.request pane.contentRevision operation), mode)
  | refresh (hcopy : command = .copy) (operation : Operation)
      (haims : Aims mode.found none operation) :
      Ran mode pane command (.send (mode.request pane.contentRevision operation),
        { mode with queued := .copy :: mode.queued })
  | copied (range : TextRange) (contentRevision : Option ℕ)
      (hcarries : mode.Carries range contentRevision) (hdirect : mode.shows.Direct pane command)
      (h : mode.shows.run pane command =
        { mode.shows with ended := true, copied := some (range, contentRevision) }) :
      Ran mode pane command (.copy range contentRevision, mode)
  | exit (hdirect : mode.shows.Direct pane command)
      (h : mode.shows.run pane command = { mode.shows with ended := true }) :
      Ran mode pane command (.exit, mode)

lemma mem_of_currentMatch {found : Found} {range : TextRange}
    (h : found.currentMatch = some range) : range ∈ found.found := by
  obtain ⟨index, -, hindex⟩ := Option.bind_eq_some_iff.mp h
  exact List.mem_of_getElem? hindex

lemma copy_ran :
    Ran mode pane .copy (mode.copy (pane.innerRect.width - 1) pane.contentRevision) := by
  have hselection := selection_through mode (pane.innerRect.width - 1)
  cases hmark : mode.mark with
  | some mark =>
    rw [hmark, Option.map_some] at hselection
    simp only [copy, hselection]
    refine .copied _ none ⟨_, hselection⟩ (fun hnone => ?_) ?_
    · cases hmark.symm.trans hnone
    · simp [Seen.run, Seen.copy, shows, hmark]
  | none =>
    rw [hmark, Option.map_none] at hselection
    cases hfound : mode.found with
    | none =>
      simp only [copy, hselection, hfound]
      refine .exit (fun _ found h => ?_) ?_
      · cases hfound.symm.trans h
      · simp [Seen.run, Seen.copy, Seen.onMatch, shows, hmark, hfound]
    | some found =>
      cases hcurrent : found.currentMatch with
      | none =>
        have hdirect : mode.shows.Direct pane .copy := fun _ found' h hsome => by
          obtain rfl := Option.some.inj (hfound.symm.trans h)
          simp [hcurrent] at hsome
        have hrun : mode.shows.run pane .copy =
            { mode.shows with ended := !found.refreshed } := by
          simp [Seen.run, Seen.copy, Seen.onMatch, shows, hmark, hfound, hcurrent]
        simp only [copy, hselection, hfound, hcurrent]
        cases hrefreshed : found.refreshed with
        | true =>
          rw [hrefreshed] at hrun
          exact .moved mode.cursor mode.mark mode.found (.inl rfl) hdirect hrun
        | false =>
          rw [hrefreshed] at hrun
          exact .exit hdirect hrun
      | some range =>
        by_cases hlasting : found.Lasting pane
        · have heq : mode.copy (pane.innerRect.width - 1) pane.contentRevision =
              (.copy range (some found.contentRevision), mode) := by
            simp only [copy, hselection, hfound, hcurrent]
            exact if_pos hlasting
          rw [heq]
          refine .copied range (some found.contentRevision)
            ⟨found, hfound, rfl, mem_of_currentMatch hcurrent⟩ (fun _ found' h _ => ?_) ?_
          · obtain rfl := Option.some.inj (hfound.symm.trans h)
            exact hlasting
          · simp [Seen.run, Seen.copy, Seen.onMatch, shows, hmark, hfound, hcurrent]
        · have heq : mode.copy (pane.innerRect.width - 1) pane.contentRevision =
              (.send (mode.request pane.contentRevision
                (.search found.query found.direction .refresh)),
              { mode with queued := .copy :: mode.queued }) := by
            simp only [copy, hselection, hfound, hcurrent]
            exact if_neg hlasting
          rw [heq]
          exact .refresh rfl _ (.refresh found hfound)

lemma run_ran {command : Command} (h : ∀ direction, command ≠ .prompt direction) :
    Ran mode pane command (mode.run pane command) := by
  cases command with
  | step rows cols =>
    refine .moved _ mode.mark mode.found (.inl rfl) trivial ?_
    have hrow := offset_clamp mode.cursor.row rows (lastRow_le pane)
    have hcol : min (offset mode.cursor.col cols) (lastCol pane) =
        clamp (mode.cursor.col + cols) (lastCol pane) :=
      offset_clamp _ _ ((min_le_left _ _).trans (by decide))
    rw [lastCol, ← min_assoc] at hcol
    simp [Seen.run, shows, hrow, lastCol, hcol]
  | lineStart => exact .moved _ mode.mark mode.found (.inl rfl) trivial rfl
  | history top => exact .moved _ mode.mark mode.found (.inl rfl) trivial rfl
  | page down half =>
    refine .moved _ mode.mark mode.found (.inl rfl) trivial ?_
    simp only [offset_clamp _ _ (lastRow_le pane)]
    cases down <;> simp [Seen.run, shows, pageLines_eq, sub_eq_add_neg]
  | motion motion => exact .send _ (.motion motion)
  | prompt direction => exact absurd rfl (h direction)
  | search query direction =>
    rw [run]
    split
    · rename_i hempty
      exact .nothing (String.isEmpty_iff.mp hempty) rfl
    · exact .send _ (.search query direction)
  | repeated reverse =>
    rw [run]
    split
    · rename_i hfound
      exact .nothing hfound rfl
    · rename_i found hfound
      exact .send _ (.repeated reverse found _ hfound)
  | mark lines => exact .moved mode.cursor _ mode.found (.inl rfl) trivial rfl
  | copy => exact copy_ran
  | cancel =>
    rw [run]
    split
    · rename_i hsome
      exact .moved mode.cursor none none (.inr rfl) trivial (if_pos hsome)
    · rename_i hsome
      exact .exit trivial (if_neg hsome)
  | exit => exact .exit trivial rfl

lemma request_isRefresh {out : Option Command} {operation : Operation}
    (haims : Aims mode.found out operation) (contentRevision : ℕ) :
    (mode.request contentRevision operation).isRefresh = out.isNone := by
  cases haims <;> rfl

lemma sent_request {out : Option Command} {operation : Operation}
    (haims : Aims mode.found out operation) (id : String) (contentRevision : ℕ) :
    mode.sent id (mode.request contentRevision operation) = { mode with
      retry := none, inFlight := some ⟨id, mode.cursor, operation, contentRevision⟩ } := by
  cases haims with
  | motion motion => rfl
  | search query direction => rfl
  | repeated reverse old direction hfound =>
    cases hcurrent : mode.found.bind Found.currentMatch <;> simp [sent, request, hcurrent]
  | refresh old hfound =>
    simp [sent, request, hfound]

/-- The search kept is the one there was, or the one the answer brings. -/
def Grounded (mode : CopyMode) (answer : Answer) (found : Option Found) : Prop :=
  ∀ kept, found = some kept → (∃ old, mode.found = some old ∧
      old.contentRevision = kept.contentRevision ∧ old.found = kept.found) ∨
    ∃ result, answer = .search result ∧ result.contentRevision = kept.contentRevision ∧
      result.found = kept.found

inductive Applied (mode : CopyMode) (sent : InFlight) (out : Option Command) (answer : Answer) :
    Except Error Bool × CopyMode → Prop where
  | served (command : Command) (hout : out = some command)
      (hserves : Serves mode.paneId command answer) (moved : Bool) (cursor : Point)
      (found : Option Found) (hgrounded : mode.Grounded answer found)
      (h : mode.shows.answered command answer =
        { mode with cursor := cursor, found := found }.shows) :
      Applied mode sent out answer (.ok moved, { mode with cursor := cursor, found := found })
  | refreshed (hout : out = none) (moved : Bool) (cursor : Point) (found : Option Found)
      (hgrounded : mode.Grounded answer found)
      (h : mode.shows.refreshed answer = { mode with cursor := cursor, found := found }.shows) :
      Applied mode sent out answer (.ok moved, { mode with cursor := cursor, found := found })
  | missed (command : Command) (hout : out = some command)
      (hpane : answer.paneId ≠ some mode.paneId) (hspoils : Spoils mode.paneId out answer) :
      Applied mode sent out answer (.ok false, mode)
  | again (command : Command) (hout : out = some command) (hstale : answer = .stale) :
      Applied mode sent out answer
        (.ok false, { mode with retry := some (sent.operation, sent.contentRevision) })
  | failed (error : Error) (hspoils : Spoils mode.paneId out answer) :
      Applied mode sent out answer (.error error, { mode with queued := [] })

lemma grounded_same (answer : Answer) : mode.Grounded answer mode.found :=
  fun kept hkept => .inl ⟨kept, hkept, rfl, rfl⟩

lemma filter_const (o : Option ℕ) (keeps : Bool) :
    (o.filter fun _ => keeps) = if keeps then o else none := by
  cases o <;> cases keeps <;> rfl

lemma keepFound_shows (query : String) (direction : SearchDirection) (kind : SearchKind)
    (result : CopySearchResult) : ∃ moved cursor found,
      mode.keepFound query direction kind result =
        (moved, { mode with cursor := cursor, found := some found }) ∧
      mode.Grounded (.search result) (some found) ∧
      { mode with cursor := cursor, found := some found }.shows =
        mode.shows.keep query ((mode.found.map fun old =>
          if kind = .repeated then old.direction else direction).getD direction)
          (kind = .refresh) result := by
  rw [keepFound, filter_const]
  split
  · rename_i target htarget
    refine ⟨true, target.start, _, rfl, ?_, ?_⟩
    · intro kept hkept
      obtain rfl := Option.some.inj hkept
      exact .inr ⟨result, rfl, rfl, rfl⟩
    · simp only [Found.currentMatch] at htarget
      cases hold : mode.found <;> simp [Seen.keep, shows, hold, htarget]
  · rename_i htarget
    refine ⟨false, mode.cursor, _, rfl, ?_, ?_⟩
    · intro kept hkept
      obtain rfl := Option.some.inj hkept
      exact .inr ⟨result, rfl, rfl, rfl⟩
    · simp only [Found.currentMatch] at htarget
      cases hold : mode.found <;> simp [Seen.keep, shows, hold, htarget]

lemma applied_search {sent : InFlight} {query : String} {direction : SearchDirection}
    {kind : SearchKind} (result : CopySearchResult) (horigin : sent.origin = mode.cursor)
    (hsent : sent.operation = .search query direction kind) :
    mode.applied sent (.search result) =
      if result.paneId = mode.paneId then
        (.ok (mode.keepFound query direction kind result).1,
          (mode.keepFound query direction kind result).2)
      else (.ok false, mode) := by
  by_cases hpane : result.paneId = mode.paneId <;> simp [applied, horigin, hsent, hpane]

lemma applied_applied {sent : InFlight} {out : Option Command} (answer : Answer)
    (horigin : sent.origin = mode.cursor) (haims : Aims mode.found out sent.operation) :
    Applied mode sent out answer (mode.applied sent answer) := by
  generalize hsent : sent.operation = operation at haims
  cases answer with
  | motion paneId cursor =>
    cases haims with
    | motion motion =>
      by_cases hpane : paneId = mode.paneId
      · have heq : mode.applied sent (.motion paneId cursor) =
            (.ok (mode.cursor != cursor), { mode with cursor := cursor }) := by
          simp [applied, horigin, hsent, hpane]
        rw [heq]
        have hserves : Serves mode.paneId (.motion motion) (.motion paneId cursor) := hpane
        exact .served _ rfl hserves _ cursor mode.found (grounded_same _) rfl
      · have heq : mode.applied sent (.motion paneId cursor) = (.ok false, mode) := by
          simp [applied, horigin, hsent, hpane]
        rw [heq]
        exact .missed _ rfl (by simpa [Answer.paneId] using hpane) hpane
    | _ =>
      simp only [applied, hsent]
      exact .failed _ (by simp [Spoils, Serves])
  | search result =>
    cases haims with
    | motion motion =>
      simp only [applied, hsent]
      exact .failed _ (by simp [Spoils, Serves])
    | search query direction =>
      rw [applied_search result horigin hsent]
      split
      · rename_i hpane
        obtain ⟨moved, cursor, found, heq, hgrounded, hshows⟩ :=
          mode.keepFound_shows query direction .new result
        rw [heq]
        have hserves : Serves mode.paneId (.search query direction) (.search result) := hpane
        refine .served _ rfl hserves moved cursor (some found) hgrounded ?_
        rw [hshows]
        cases mode.found <;> rfl
      · rename_i hpane
        exact .missed _ rfl (by simpa [Answer.paneId] using hpane) hpane
    | repeated reverse old direction hfound =>
      rw [applied_search result horigin hsent]
      split
      · rename_i hpane
        obtain ⟨moved, cursor, found, heq, hgrounded, hshows⟩ :=
          mode.keepFound_shows old.query direction .repeated result
        rw [heq]
        have hserves : Serves mode.paneId (.repeated reverse) (.search result) := hpane
        refine .served _ rfl hserves moved cursor (some found) hgrounded ?_
        rw [hshows]
        simp [Seen.answered, shows, hfound]
      · rename_i hpane
        exact .missed _ rfl (by simpa [Answer.paneId] using hpane) hpane
    | refresh old hfound =>
      rw [applied_search result horigin hsent]
      split
      · rename_i hpane
        obtain ⟨moved, cursor, found, heq, hgrounded, hshows⟩ :=
          mode.keepFound_shows old.query old.direction .refresh result
        rw [heq]
        refine .refreshed rfl moved cursor (some found) hgrounded ?_
        rw [hshows]
        simp [Seen.refreshed, shows, hfound, hpane]
      · rename_i hpane
        refine .refreshed rfl false mode.cursor mode.found (grounded_same _) ?_
        simp [Seen.refreshed, shows, hfound, hpane]
  | other =>
    cases haims <;> exact .failed _ (by simp [Spoils, Serves])
  | stale =>
    cases haims with
    | refresh old hfound =>
      simp only [applied, hsent]
      refine .refreshed rfl false mode.cursor _ ?_ rfl
      intro kept hkept
      obtain ⟨old, hold, rfl⟩ := Option.map_eq_some_iff.mp hkept
      exact .inl ⟨old, hold, rfl, rfl⟩
    | _ =>
      simp only [applied, hsent]
      rw [← hsent]
      exact .again _ rfl rfl
  | failed error =>
    cases haims <;> exact .failed _ (by simp [Spoils, Serves])

end CopyMode

end Sheprd.Terminal.Copying
