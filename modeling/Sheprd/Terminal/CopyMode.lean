import Sheprd.Terminal.Selection

namespace Sheprd.Terminal.Copying

open Selecting (Point TextRange u16Max u32Max viewportTop)

def maxQueued : ℕ := 32

instance : Min Point := minOfLe

instance : Max Point := maxOfLe

structure PaneSurfacePane extends Selecting.Pane where
  contentRevision : ℕ

inductive CopyMotion where
  | lineEnd
  | firstNonBlank
  | nextWordStart
  | previousWordStart
  | nextWordEnd
  | nextBigWordStart
  | previousBigWordStart
  | nextBigWordEnd
  | previousParagraph
  | nextParagraph

inductive SearchDirection where
  | forward
  | backward

inductive Command where
  | step (rows cols : ℤ)
  | lineStart
  | history (top : Bool)
  | page (down half : Bool)
  | motion (motion : CopyMotion)
  | prompt (direction : SearchDirection)
  | search (query : String) (direction : SearchDirection)
  | repeated (reverse : Bool)
  | mark (lines : Bool)
  | copy
  | cancel
  | exit

inductive Mark where
  | cell (point : Point)
  | line (row : ℕ)

inductive SearchKind where
  | new
  | repeated
  | refresh
  deriving DecidableEq

structure CopyMotionParams where
  paneId : String
  cursor : Point
  motion : CopyMotion
  contentRevision : Option ℕ

structure CopySearchParams where
  paneId : String
  query : String
  direction : SearchDirection
  cursor : Point
  contentRevision : ℕ
  previous : Option TextRange

inductive Request where
  | motion (params : CopyMotionParams)
  | search (params : CopySearchParams) (kind : SearchKind)

def Request.isRefresh : Request → Bool
  | .search _ .refresh => true
  | _ => false

inductive Outcome where
  | nothing
  | moved
  | prompt (direction : SearchDirection)
  | send (request : Request)
  | abandoned (request : Option String)
  | copy (range : TextRange) (contentRevision : Option ℕ)
  | exit

inductive Operation where
  | motion (motion : CopyMotion)
  | search (query : String) (direction : SearchDirection) (kind : SearchKind)

structure InFlight where
  request : String
  origin : Point
  operation : Operation
  contentRevision : ℕ

structure Found where
  query : String
  direction : SearchDirection
  found : List TextRange
  current : Option ℕ
  currentGlobal : Option ℕ
  total : ℕ
  contentRevision : ℕ
  refreshed : Bool

def Found.currentMatch (found : Found) : Option TextRange :=
  found.current.bind fun index => found.found[index]?

structure CopySearchResult where
  paneId : String
  contentRevision : ℕ
  found : List TextRange
  total : ℕ
  current : Option ℕ
  currentGlobal : Option ℕ

inductive Answer where
  | motion (paneId : String) (cursor : Point)
  | search (result : CopySearchResult)
  | other
  | stale
  | failed (error : String)

inductive Error where
  | responseType
  | endpoint (error : String)

def opposite : SearchDirection → SearchDirection
  | .forward => .backward
  | .backward => .forward

def lastRow (pane : PaneSurfacePane) : ℕ :=
  let history := match pane.scroll with
    | none => 0
    | some scroll => min scroll.maxOffsetFromBottom u32Max
  min (history + (pane.innerRect.height - 1)) u32Max

def offset (value : ℕ) (by' : ℤ) : ℕ :=
  if by' < 0 then value - by'.natAbs else min (value + by'.natAbs) u32Max

def refreshFrom (current : TextRange) : SearchDirection × Point :=
  match current.start.row, current.start.col with
  | row, col + 1 => (.forward, ⟨row, col⟩)
  | row + 1, 0 => (.forward, ⟨row, u16Max⟩)
  | 0, 0 =>
    let stop := current.stop
    (.backward, if stop.col < u16Max then ⟨stop.row, stop.col + 1⟩
      else ⟨min (stop.row + 1) u32Max, 0⟩)

structure CopyMode where
  paneId : String
  cursor : Point
  mark : Option Mark
  found : Option Found
  inFlight : Option InFlight
  queued : List Command
  retry : Option (Operation × ℕ)

namespace CopyMode

def new (pane : PaneSurfacePane) (cursor : Option (ℕ × ℕ)) : CopyMode :=
  let inner := pane.innerRect
  let top := viewportTop pane.toPane
  let inside := cursor.filter fun (x, y) =>
    (inner.x ≤ x && x < min (inner.x + inner.width) u16Max) &&
      (inner.y ≤ y && y < min (inner.y + inner.height) u16Max)
  { paneId := pane.paneId
    cursor := match inside with
      | some (x, y) => ⟨min (top + (y - inner.y)) u32Max, x - inner.x⟩
      | none => ⟨min (top + (inner.height - 1)) u32Max, 0⟩
    mark := none
    found := none
    inFlight := none
    queued := []
    retry := none }

def busy (mode : CopyMode) : Bool := mode.inFlight.isSome || mode.retry.isSome

def selection (mode : CopyMode) (lastCol : ℕ) : Option TextRange :=
  mode.mark.map fun
    | .cell mark => ⟨min mark mode.cursor, max mark mode.cursor⟩
    | .line row => ⟨⟨min row mode.cursor.row, 0⟩, ⟨max row mode.cursor.row, lastCol⟩⟩

def request (mode : CopyMode) (contentRevision : ℕ) : Operation → Request
  | .motion motion => .motion ⟨mode.paneId, mode.cursor, motion, some contentRevision⟩
  | .search query direction kind =>
    let (direction, cursor, previous) := match kind, mode.found.bind Found.currentMatch with
      | .refresh, some current =>
        let (direction, cursor) := refreshFrom current
        (direction, cursor, none)
      | .repeated, some current =>
        (direction, mode.cursor, if current.start = mode.cursor then some current else none)
      | _, _ => (direction, mode.cursor, none)
    .search ⟨mode.paneId, query, direction, cursor, contentRevision, previous⟩ kind

def copy (mode : CopyMode) (lastCol contentRevision : ℕ) : Outcome × CopyMode :=
  match mode.selection lastCol with
  | some range => (.copy range none, mode)
  | none =>
    match mode.found with
    | none => (.exit, mode)
    | some found =>
      match found.currentMatch with
      -- A refresh that lost the match keeps copy mode, showing so.
      | none => (if found.refreshed then .moved else .exit, mode)
      | some range =>
        if found.contentRevision = contentRevision ∨ found.refreshed then
          (.copy range (some found.contentRevision), mode)
        else
          let operation := Operation.search found.query found.direction .refresh
          (.send (mode.request contentRevision operation),
            { mode with queued := .copy :: mode.queued })

def wait (mode : CopyMode) : Command → Outcome × CopyMode
  | .cancel => (.abandoned (mode.inFlight.map InFlight.request),
      { mode with inFlight := none, queued := [], retry := none })
  | .exit => (.exit, mode)
  | command => (.nothing, if mode.queued.length < maxQueued then
      { mode with queued := mode.queued ++ [command] } else mode)

def run (mode : CopyMode) (pane : PaneSurfacePane) : Command → Outcome × CopyMode
  | .step rows cols =>
    let row := min (offset mode.cursor.row rows) (lastRow pane)
    let col := min (min (offset mode.cursor.col cols) u16Max) (pane.innerRect.width - 1)
    (.moved, { mode with cursor := ⟨row, col⟩ })
  | .lineStart => (.moved, { mode with cursor := ⟨mode.cursor.row, 0⟩ })
  | .history top => (.moved, { mode with cursor := ⟨if top then 0 else lastRow pane, 0⟩ })
  | .page down half =>
    let height := pane.innerRect.height
    let lines : ℕ := if height ≤ 2 then 1 else if half then height / 2 else height - 2
    let row := offset mode.cursor.row (if down then lines else -lines)
    (.moved, { mode with cursor := ⟨min row (lastRow pane), mode.cursor.col⟩ })
  | .motion motion => (.send (mode.request pane.contentRevision (.motion motion)), mode)
  | .prompt direction => (.prompt direction, mode)
  | .search query direction =>
    if query.isEmpty then (.nothing, mode)
    else (.send (mode.request pane.contentRevision (.search query direction .new)), mode)
  | .repeated reverse =>
    match mode.found with
    | none => (.nothing, mode)
    | some found =>
      let direction := if reverse then opposite found.direction else found.direction
      (.send (mode.request pane.contentRevision (.search found.query direction .repeated)), mode)
  | .mark lines =>
    (.moved, { mode with mark := some (if lines then .line mode.cursor.row else .cell mode.cursor) })
  | .copy => mode.copy (pane.innerRect.width - 1) pane.contentRevision
  | .cancel =>
    if mode.mark.isSome ∨ mode.found.isSome then (.moved, { mode with mark := none, found := none })
    else (.exit, mode)
  | .exit => (.exit, mode)

def command (mode : CopyMode) (command : Command) (pane : PaneSurfacePane) : Outcome × CopyMode :=
  match command with
  | .prompt direction => (.prompt direction, mode)
  | command => if mode.busy then mode.wait command else mode.run pane command

def sent (mode : CopyMode) (id : String) (request : Request) : CopyMode :=
  let (operation, contentRevision) := match request with
    | .motion params => (Operation.motion params.motion, params.contentRevision.getD 0)
    | .search params kind =>
      let direction := match kind, mode.found with
        | .refresh, some found => found.direction
        | _, _ => params.direction
      (.search params.query direction kind, params.contentRevision)
  { mode with
    retry := none
    inFlight := some ⟨id, mode.cursor, operation, contentRevision⟩ }

def sendFailed (mode : CopyMode) : CopyMode :=
  { mode with inFlight := none, retry := none, queued := [] }

def keepFound (mode : CopyMode) (query : String) (direction : SearchDirection) (kind : SearchKind)
    (result : CopySearchResult) : Bool × CopyMode :=
  let current := result.current.filter (· < result.found.length)
  let direction := match mode.found with
    | some found => if kind = .repeated then found.direction else direction
    | none => direction
  let found : Found :=
    { query := query
      direction := direction
      found := result.found
      current := current
      currentGlobal := result.currentGlobal.filter fun _ => current.isSome
      total := result.total
      contentRevision := result.contentRevision
      refreshed := kind = .refresh }
  match found.currentMatch with
  | some target => (true, { mode with found := some found, cursor := target.start })
  | none => (false, { mode with found := some found })

def applied (mode : CopyMode) (sent : InFlight) (answer : Answer) : Except Error Bool × CopyMode :=
  let current : Bool := mode.cursor = sent.origin
  match answer, sent.operation with
  | .motion paneId cursor, .motion _ =>
    if !current || paneId != mode.paneId then (.ok false, mode)
    else (.ok (mode.cursor != cursor), { mode with cursor := cursor })
  | .search result, .search query direction kind =>
    if !current || result.paneId != mode.paneId then (.ok false, mode)
    else
      let (moved, mode) := mode.keepFound query direction kind result
      (.ok moved, mode)
  | .stale, .search _ _ .refresh =>
    (.ok false, { mode with found := mode.found.map fun found => { found with refreshed := true } })
  | .stale, operation => (.ok false, { mode with retry := some (operation, sent.contentRevision) })
  | .failed error, _ => (.error (.endpoint error), { mode with queued := [] })
  | _, _ => (.error .responseType, { mode with queued := [] })

def answer (mode : CopyMode) (request : String) (answer : Answer) :
    Except Error Bool × CopyMode :=
  match mode.inFlight with
  | none => (.ok false, mode)
  | some sent =>
    if sent.request = request then { mode with inFlight := none }.applied sent answer
    else (.ok false, mode)

def dueRetry (mode : CopyMode) (pane : PaneSurfacePane) : Option Request :=
  match mode.retry with
  | none => none
  | some (operation, refused) =>
    if mode.inFlight.isNone ∧ pane.contentRevision ≠ refused ∧ pane.contentRevision % 2 = 0 then
      some (mode.request pane.contentRevision operation)
    else none

def nextQueued (mode : CopyMode) : Option Command × CopyMode :=
  if mode.busy then (none, mode)
  else (mode.queued.head?, { mode with queued := mode.queued.tail })

end CopyMode

structure Key where
  number : ℕ
  command : Command

def Command.waits : Command → Bool
  | .prompt _ | .cancel | .exit => false
  | _ => true

inductive Fate where
  | cancelled
  | unsent
  | failed
  | full
  | unseen
  | unconnected
  deriving DecidableEq

inductive Deed where
  | ran (key : Key) (pane : PaneSurfacePane)
  | answered (key : Key) (answer : Answer)
  | refreshed (answer : Answer)
  | dropped (key : Key) (fate : Fate)
  | left

inductive Sending where
  | sent (id : String)
  | failed
  | unconnected

structure Session where
  mode : CopyMode
  pane : Option PaneSurfacePane
  ended : Bool
  hung : Bool
  copied : Option (TextRange × Option ℕ)
  typed : List Key
  out : Option Key
  waiting : List Key
  deeds : List Deed
  asked : List String
  heard : List CopySearchResult

inductive Event where
  | key (command : Command) (sending : Sending)
  | poll (ready : Bool) (answer : Option (String × Answer)) (sending : Sending)
  | surface (pane : Option PaneSurfacePane)

def Answer.paneId : Answer → Option String
  | .motion paneId _ => some paneId
  | .search result => some result.paneId
  | _ => none

namespace Session

def start (pane : PaneSurfacePane) (cursor : Option (ℕ × ℕ)) : Session where
  mode := .new pane cursor
  pane := some pane
  ended := false
  hung := false
  copied := none
  typed := []
  out := none
  waiting := []
  deeds := []
  asked := []
  heard := []

def log (s : Session) (deed : Deed) : Session := { s with deeds := s.deeds ++ [deed] }

def dropOut (s : Session) (fate : Fate) : Session :=
  { s with out := none, deeds := s.deeds ++ s.out.toList.map fun key => .dropped key fate }

def drop (s : Session) (fate : Fate) : Session :=
  { s with
    out := none
    waiting := []
    deeds := s.deeds ++ (s.out.toList ++ s.waiting).map fun key => .dropped key fate }

def sendCopyRequest (s : Session) (request : Request) : Sending → Session
  | .sent id => { s with mode := s.mode.sent id request, asked := s.asked ++ [id] }
  | .failed => { s with mode := s.mode.sendFailed }.drop .unsent
  | .unconnected => s

def follow (s : Session) (key : Key) (pane : PaneSurfacePane) (sending : Sending)
    (mode : CopyMode) : Outcome → Session
  | .nothing =>
    let next := { s with mode := mode }
    if s.mode.busy then
      if s.mode.queued.length < maxQueued then { next with waiting := s.waiting ++ [key] }
      else next.log (.dropped key .full)
    else next.log (.ran key pane)
  | .moved => { s with mode := mode }.log (.ran key pane)
  | .prompt _ => { s with mode := mode }
  | .send request =>
    -- A copy that refreshes its match first waits in front of the others.
    if request.isRefresh then
      { s with mode := mode, waiting := key :: s.waiting }.sendCopyRequest request sending
    else
      match sending with
      | .unconnected => { s with mode := mode }.log (.dropped key .unconnected)
      | sending => { s with mode := mode, out := some key }.sendCopyRequest request sending
  | .abandoned request =>
    { s with mode := mode, asked := s.asked.filter fun id => some id != request }.drop .cancelled
  | .copy range contentRevision =>
    { s with mode := mode, ended := true, copied := some (range, contentRevision) }.log
      (.ran key pane)
  | .exit => { s with mode := mode, ended := true }.log (.ran key pane)

def copyModeCommand (s : Session) (shown : Option PaneSurfacePane) (key : Key)
    (sending : Sending) : Session :=
  match shown with
  | none => if key.command.waits then s.log (.dropped key .unseen) else s
  | some pane =>
    let (outcome, mode) := s.mode.command key.command pane
    s.follow key pane sending mode outcome

def typeKey (s : Session) (command : Command) (sending : Sending) : Session :=
  let key : Key := ⟨s.typed.length, command⟩
  { s with typed := if command.waits then s.typed ++ [key] else s.typed }.copyModeCommand
    s.pane key sending

def judge (s : Session) : Except Error Bool → Answer → Session
  | .error _, _ => s.drop .failed
  | .ok _, answer =>
    if s.mode.retry.isSome then s
    else
      match s.out with
      | none => s.log (.refreshed answer)
      | some key =>
        if answer.paneId = some s.mode.paneId then
          { s with out := none }.log (.answered key answer)
        else s.dropOut .failed

def record (s : Session) : Answer → List CopySearchResult
  | .search result => s.heard ++ [result]
  | _ => s.heard

def hear (s : Session) (request : String) (answer : Answer) : Session :=
  let (result, mode) := s.mode.answer request answer
  if s.mode.inFlight.map InFlight.request = some request then
    let asked := s.asked.filter fun id => id != request
    { s with mode := mode, asked := asked, heard := s.record answer }.judge result answer
  else { s with mode := mode }

-- Without a connection a copy that must refresh its match goes back to the front each time.
def drain (shown : Option PaneSurfacePane) (sending : Sending) : ℕ → Session → Session
  | 0, s => if s.ended || s.mode.nextQueued.1.isNone then s else { s with hung := true }
  | fuel + 1, s =>
    if s.ended then s
    else
      match s.mode.nextQueued with
      | (none, _) => s
      | (some command, mode) =>
        let number := (s.waiting.head?.map Key.number).getD 0
        drain shown sending fuel ({ s with mode := mode, waiting := s.waiting.tail }.copyModeCommand
          shown ⟨number, command⟩ sending)

def sendDueRetry (s : Session) (shown : Option PaneSurfacePane) (sending : Sending) : Session :=
  match shown.bind s.mode.dueRetry with
  | some request => s.sendCopyRequest request sending
  | none => s

def hearAny (s : Session) : Option (String × Answer) → Session
  | some (request, answer) => s.hear request answer
  | none => s

def pollCopyMode (s : Session) (ready : Bool) (answer : Option (String × Answer))
    (sending : Sending) : Session :=
  if ready && s.pane.isNone then { s with ended := true }.log .left
  else
    let retried := (s.hearAny answer).sendDueRetry s.pane sending
    drain s.pane sending retried.mode.queued.length retried

def step (s : Session) (event : Event) : Session :=
  if s.ended || s.hung then s
  else
    match event with
    | .key command sending => s.typeKey command sending
    | .poll ready answer sending => s.pollCopyMode ready answer sending
    | .surface pane => { s with pane := pane }

def run (s : Session) (events : List Event) : Session := events.foldl step s

end Session

end Sheprd.Terminal.Copying
