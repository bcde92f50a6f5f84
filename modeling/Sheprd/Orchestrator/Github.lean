import Mathlib.Data.Prod.Lex
import Mathlib.Order.WithBot
import Sheprd.Lib.Pages
import Sheprd.Lib.Text

namespace Sheprd.Orchestrator

open Lib

abbrev Instant := ℤ

def minutes (n : ℕ) : Instant := n * 60000000000

def fullPage : ℕ := 100

def maxOpen : ℕ := 2000

def recentlyClosed : ℕ := 50

def fullEvery : Instant := minutes 30

def changedPage : ℕ := 20

def smallestPage : ℕ := 25

def clockMargin : Instant := minutes 5

inductive Provider where
  | azure
  | github
  | gitlab
  | beads
  deriving DecidableEq

structure SourceKey where
  provider : Provider
  host : String
  repository : String
  deriving DecidableEq

structure ItemKey where
  source : SourceKey
  nativeId : String
  deriving DecidableEq

structure PullRequest where
  number : ℕ
  additions : Option ℕ
  deletions : Option ℕ
  baseRef : String
  headRef : String
  baseSha : String
  headSha : String
  headRepository : Option String
  deriving DecidableEq

structure Activity where
  comments : Option ℕ
  reviewComments : Option ℕ
  commits : Option ℕ
  deriving DecidableEq

structure Item where
  key : ItemKey
  identifier : String
  title : String
  description : Option String
  acceptance : Option String
  state : String
  url : Option String
  author : Option String
  assignee : Option String
  labels : List String
  parentId : Option String
  blockedBy : List String
  priority : Option ℤ
  createdAt : Option Instant
  updatedAt : Option Instant
  pullRequest : Option PullRequest
  activity : Option Activity
  deriving DecidableEq

structure Checkpoint where
  updatedAt : Option Instant := none
  etag : Option String := none
  lastFullAt : Option Instant := none
  prDetails : List (String × String) := []
  prCursor : Option ℕ := none
  deriving DecidableEq

structure Resume where
  issues : Instant
  pulls : Instant
  deriving DecidableEq

def Resume.both (instant : Instant) : Resume := ⟨instant, instant⟩

def Resume.oldest (resume : Resume) : Instant := min resume.issues resume.pulls

structure Listing where
  items : List Item
  checkpoint : Checkpoint
  complete : Bool
  full : Bool
  resume : Resume
  deriving DecidableEq

structure IssueNode where
  number : ℕ
  title : String
  body : Option String
  state : String
  url : String
  createdAt : Instant
  updatedAt : Instant
  author : Option String
  labels : Option (List String)
  comments : Option ℕ
  deriving DecidableEq

def IssueNode.intoItem (source : SourceKey) (node : IssueNode) : Item where
  key := { source, nativeId := toString node.number }
  identifier := "#" ++ toString node.number
  title := node.title
  description := node.body.filter fun body => body ≠ ""
  state := .ofList (Text.lowerAscii node.state)
  url := some node.url
  author := node.author
  labels := node.labels.getD []
  parentId := none
  blockedBy := []
  assignee := none
  acceptance := none
  priority := none
  createdAt := some node.createdAt
  updatedAt := some node.updatedAt
  pullRequest := none
  activity := some { comments := node.comments, reviewComments := none, commits := none }

structure PullRequestNode where
  issue : IssueNode
  isDraft : Bool
  commits : Option ℕ
  additions : Option ℕ
  deletions : Option ℕ
  baseRefName : String
  headRefName : String
  baseRefOid : String
  headRefOid : String
  headRepository : Option String
  deriving DecidableEq

def PullRequestNode.state (node : PullRequestNode) : String :=
  if node.issue.state = "MERGED" then "merged"
  else if node.issue.state = "CLOSED" then "closed"
  else if node.isDraft then "draft"
  else "open"

def PullRequestNode.intoItem (source : SourceKey) (node : PullRequestNode) : Item :=
  let item := node.issue.intoItem source
  { item with
    key := { item.key with nativeId := "pr/" ++ toString node.issue.number }
    state := node.state
    activity := item.activity.map fun activity => { activity with commits := node.commits }
    pullRequest := some
      { number := node.issue.number
        additions := node.additions
        deletions := node.deletions
        baseRef := node.baseRefName
        headRef := node.headRefName
        baseSha := node.baseRefOid
        headSha := node.headRefOid
        headRepository := node.headRepository } }

structure World where
  clock : Instant
  issues : List IssueNode
  pulls : List PullRequestNode

inductive PullState where
  | opened
  | closed
  | merged

def PullState.text : PullState → String
  | .opened => "OPEN"
  | .closed => "CLOSED"
  | .merged => "MERGED"

inductive Change where
  | tick (elapsed : ℕ)
  | issue (node : IssueNode) (closed : Bool)
  | pull (node : PullRequestNode) (state : PullState)

def World.changed (world : World) : Change → World
  | .tick elapsed => { world with clock := world.clock + elapsed }
  | .issue node closed =>
      let node :=
        { node with state := if closed then "CLOSED" else "OPEN", updatedAt := world.clock }
      { world with issues := world.issues.filter (fun n => n.number ≠ node.number) ++ [node] }
  | .pull node state =>
      let node :=
        { node with
          issue := { node.issue with state := state.text, updatedAt := world.clock } }
      { world with
        pulls := world.pulls.filter (fun n => n.issue.number ≠ node.issue.number) ++ [node] }

abbrev Cursor := ℤ ×ₗ ℕ ×ₗ ℕ

def IssueNode.place (rank : ℕ → ℕ) (node : IssueNode) : Cursor :=
  toLex (node.updatedAt, toLex (rank node.number, node.number))

def PullRequestNode.place (rank : ℕ → ℕ) (node : PullRequestNode) : Cursor :=
  node.issue.place rank

def World.openIssues (rank : ℕ → ℕ) (world : World) (after : Option Cursor) (count : ℕ) :
    Pages.Page IssueNode Cursor :=
  Pages.page (IssueNode.place rank) (fun node => node.state = "OPEN") after count world.issues

def World.changedIssues (rank : ℕ → ℕ) (world : World) (since : Instant) (after : Option Cursor)
    (count : ℕ) : Pages.Page IssueNode Cursor :=
  Pages.page (IssueNode.place rank) (fun node => since ≤ node.updatedAt) after count world.issues

def World.pullRequests (rank : ℕ → ℕ) (world : World) (states : List String)
    (after : Option Cursor) (count : ℕ) : Pages.Page PullRequestNode Cursor :=
  Pages.page (PullRequestNode.place rank) (fun node => node.issue.state ∈ states) after count
    world.pulls

inductive Reply where
  | ok
  | timedOut
  | failed
  deriving DecidableEq

structure Read where
  changes : List Change
  reply : Reply
  behind : ℕ

structure View where
  world : World
  reply : Reply
  now : Instant

def World.after (world : World) (changes : List Change) : World := changes.foldl changed world

def World.views (world : World) : List Read → List View
  | [] => []
  | read :: reads =>
      let world := world.after read.changes
      { world, reply := read.reply, now := world.clock + clockMargin - read.behind } ::
        world.views reads

def World.through (world : World) (reads : List Read) : World :=
  reads.foldl (fun world read => world.after read.changes) world

def answered : List View → Option (View × List View)
  | [] => none
  | view :: views => if view.reply = .ok then some (view, views) else none

inductive Next where
  | page (cursor : Cursor)
  | done
  | capped

def next {α : Type} (page : Pages.Page α Cursor) (read : ℕ) : Next :=
  match page.endCursor, page.hasNextPage with
  | some cursor, true => if maxOpen ≤ read then .capped else .page cursor
  | _, _ => .done

def listIssues (rank : ℕ → ℕ) (source : SourceKey) (after : Option Cursor) (items : List Item) :
    List View → Option (List Item × Bool × List View)
  | [] => none
  | view :: views =>
      if view.reply ≠ .ok then none
      else
        let page := view.world.openIssues rank after fullPage
        let items := items ++ page.nodes.map (IssueNode.intoItem source)
        match next page items.length with
        | .page cursor => listIssues rank source (some cursor) items views
        | .done => some (items, true, views)
        | .capped => some (items, false, views)

def listOpenPulls (rank : ℕ → ℕ) (source : SourceKey) (count : ℕ) (after : Option Cursor)
    (items : List Item) : List View → Option (List Item × Bool × List View)
  | [] => none
  | view :: views =>
      match view.reply with
      | .failed => none
      | .timedOut =>
          if smallestPage < count then
            listOpenPulls rank source (max (count / 2) smallestPage) after items views
          else none
      | .ok =>
          let page := view.world.pullRequests rank ["OPEN"] after count
          let items := items ++ page.nodes.map (PullRequestNode.intoItem source)
          match next page items.length with
          | .page cursor => listOpenPulls rank source count (some cursor) items views
          | .done => some (items, true, views)
          | .capped => some (items, false, views)

def full (rank : ℕ → ℕ) (source : SourceKey) (previous : Checkpoint) (finished : Instant)
    (views : List View) : Option Listing := do
  let first ← views.head?
  let started := first.now - clockMargin
  let (issues, allIssues, views) ← listIssues rank source none [] views
  let (pulls, allPulls, views) ← listOpenPulls rank source fullPage none [] views
  let (view, _) ← answered views
  let closed := view.world.pullRequests rank ["CLOSED", "MERGED"] none recentlyClosed
  some
    { items := issues ++ pulls ++ closed.nodes.map (PullRequestNode.intoItem source)
      checkpoint :=
        { updatedAt := some started
          etag := none
          lastFullAt := some finished
          prDetails := previous.prDetails
          prCursor := previous.prCursor }
      complete := allIssues && allPulls
      full := true
      resume := .both started }

def changedIssues (rank : ℕ → ℕ) (source : SourceKey) (since : Instant)
    (page : Pages.Page IssueNode Cursor) (changed : List Item) (views : List View) :
    Option (Option (List Item) × List View) :=
  let changed := changed ++ page.nodes.map (IssueNode.intoItem source)
  match next page changed.length with
  | .done => some (some changed, views)
  | .capped => some (none, views)
  | .page cursor =>
      match views with
      | [] => none
      | view :: views =>
          if view.reply ≠ .ok then none
          else
            changedIssues rank source since
              (view.world.changedIssues rank since (some cursor) fullPage) changed views

def allStates : List String := ["OPEN", "CLOSED", "MERGED"]

def changedPulls (rank : ℕ → ℕ) (source : SourceKey) (since : Instant)
    (page : Pages.Page PullRequestNode Cursor) (changed : List Item) (views : List View) :
    Option (Option (List Item) × List View) :=
  let items := page.nodes.map (PullRequestNode.intoItem source)
  let newer := items.takeWhile fun item => !item.updatedAt.any (· < since)
  let changed := changed ++ newer
  if newer.length < items.length then some (some changed, views)
  else
    match next page changed.length with
    | .done => some (some changed, views)
    | .capped => some (none, views)
    | .page cursor =>
        match views with
        | [] => none
        | view :: views =>
            if view.reply ≠ .ok then none
            else
              changedPulls rank source since
                (view.world.pullRequests rank allStates (some cursor) changedPage) changed views

def advance (since : Instant) (listed : List Item) : Instant :=
  (listed.filterMap Item.updatedAt).foldl max since

def settled (item : Item) : Bool :=
  item.pullRequest.isSome && (item.state = "closed" || item.state = "merged")

def firstSeen : List ItemKey → List Item → List Item
  | _, [] => []
  | seen, item :: items =>
      if item.key ∈ seen then firstSeen seen items
      else item :: firstSeen (item.key :: seen) items

def Item.updated (item : Item) : WithBot Instant := item.updatedAt

def dropped (items : List Item) : List ItemKey :=
  let closed := (items.filter settled).map fun item => (item.updated, item.key)
  ((closed.insertionSort fun a b => b.1 ≤ a.1).drop recentlyClosed).map Prod.snd

def merge (items changed : List Item) : List Item :=
  let changed := firstSeen [] changed
  let seen := changed.map Item.key
  let items := items.filter (fun item => item.key ∉ seen) ++
    changed.filter fun item => item.pullRequest.isSome || item.state ≠ "closed"
  items.filter fun item => item.key ∉ dropped items

def openCount (pullRequest : Bool) (items : List Item) : ℕ :=
  (items.filter fun item => item.pullRequest.isSome = pullRequest && !settled item).length

def changes (rank : ℕ → ℕ) (source : SourceKey) (since : Resume) (cached : List Item)
    (previous : Checkpoint) (views : List View) : Option (Option Listing × List View) := do
  let (first, views) ← answered views
  let (issues, views) ← changedIssues rank source since.issues
    (first.world.changedIssues rank since.issues none changedPage) [] views
  match issues with
  | none => some (none, views)
  | some issues =>
      let (pulls, views) ← changedPulls rank source since.pulls
        (first.world.pullRequests rank allStates none changedPage) [] views
      match pulls with
      | none => some (none, views)
      | some pulls =>
          let resume : Resume :=
            { issues := advance since.issues issues, pulls := advance since.pulls pulls }
          let items := merge cached (issues ++ pulls)
          some
            (some
              { items
                checkpoint :=
                  { updatedAt := some resume.oldest
                    etag := none
                    lastFullAt := previous.lastFullAt
                    prDetails := previous.prDetails
                    prCursor := previous.prCursor }
                complete := openCount false items ≤ maxOpen && openCount true items ≤ maxOpen
                full := false
                resume },
              views)

def incremental (previous : Checkpoint) (cached : Option (List Item)) (resume : Option Resume)
    (now : Instant) : Option (Resume × List Item) := do
  let since ← resume.or (previous.updatedAt.map .both)
  let full ← previous.lastFullAt
  if now - full < fullEvery then
    let cached ← cached
    some (since, cached)
  else none

def sync (rank : ℕ → ℕ) (source : SourceKey) (previous : Option Checkpoint)
    (cached : Option (List Item)) (resume : Option Resume) (now finished : Instant)
    (views : List View) : Option Listing :=
  let previous := previous.getD {}
  match incremental previous cached resume now with
  | none => full rank source previous finished views
  | some (since, cached) =>
      match changes rank source since cached previous views with
      | none => none
      | some (some listing, _) => some listing
      | some (none, views) => full rank source previous finished views

structure Remembered where
  checkpoint : Checkpoint
  complete : Bool

structure Worker where
  storedCheckpoint : Option Checkpoint := none
  storedItems : List Item := []
  resume : Option Resume := none
  remembered : Option Remembered := none
  uncached : Option (List Item) := none

def schedule.complete (complete full : Bool) (continuedComplete : Option Bool) : Bool :=
  complete && (full || continuedComplete != some false)

def stored (items : List Item) : List Item :=
  items.foldl (fun rows item => rows.filter (fun row => row.key ≠ item.key) ++ [item]) []

namespace Worker

def memory (w : Worker) : Option (List Item × Remembered) :=
  match w.uncached, w.remembered with
  | some items, some remembered => some (items, remembered)
  | _, _ => none

def continued (w : Worker) (writable : Bool) (order : Item → ℕ) :
    Option Checkpoint × Option (List Item) :=
  match w.memory with
  | some (items, remembered) => (some remembered.checkpoint, some items)
  | none =>
      (w.storedCheckpoint,
        if w.storedCheckpoint.isSome && writable then
          some (w.storedItems.insertionSort fun a b => order a ≤ order b)
        else none)

def keep (w : Worker) (writable : Bool) (listing : Listing) : Worker :=
  let complete := schedule.complete listing.complete listing.full
    (w.memory.map fun memory => memory.2.complete)
  let w := { w with resume := some listing.resume }
  if complete = false ∨ writable = false then
    { w with
      remembered := some { checkpoint := listing.checkpoint, complete }
      uncached := some listing.items }
  else
    { w with
      storedCheckpoint := some listing.checkpoint
      storedItems := stored listing.items
      remembered := none
      uncached := none }

def resumeFor (w : Worker) (previous : Option Checkpoint) : Option Resume :=
  w.resume.filter fun resume =>
    (previous.bind fun checkpoint => checkpoint.updatedAt) = some resume.oldest

def githubListing (rank : ℕ → ℕ) (w : Worker) (source : SourceKey) (writable : Bool)
    (order : Item → ℕ) (now finished : Instant) (cancelled : Bool) (views : List View) :
    Option Listing := do
  let (previous, cached) := w.continued writable order
  let listing ← sync rank source previous cached (w.resumeFor previous) now finished views
  if cancelled then none else some listing

def items (w : Worker) : List Item := w.uncached.getD w.storedItems

end Worker

structure Sync where
  writable : Bool
  order : Item → ℕ
  now : Instant
  finished : Instant
  cancelled : Bool
  reads : List Read

inductive Act where
  | change (change : Change)
  | sync (sync : Sync)

structure System where
  world : World := ⟨0, [], []⟩
  worker : Worker := {}

namespace System

def listing (rank : ℕ → ℕ) (source : SourceKey) (s : System) (sync : Sync) : Option Listing :=
  s.worker.githubListing rank source sync.writable sync.order sync.now sync.finished
    sync.cancelled (s.world.views sync.reads)

def synced (rank : ℕ → ℕ) (source : SourceKey) (s : System) (sync : Sync) : System where
  world := s.world.through sync.reads
  worker :=
    match s.listing rank source sync with
    | some listing => s.worker.keep sync.writable listing
    | none => s.worker

def next (rank : ℕ → ℕ) (source : SourceKey) (s : System) : Act → System
  | .change change => { s with world := s.world.changed change }
  | .sync sync => s.synced rank source sync

end System

end Sheprd.Orchestrator
