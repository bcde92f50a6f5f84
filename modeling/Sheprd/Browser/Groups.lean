import Sheprd.Lib.Register

namespace Sheprd.Browser

open Sheprd.Lib

abbrev TabId := ℕ

abbrev GroupId := ℕ

def MAX_SAVED_GROUPS : ℕ := 32

def MAX_SAVED_TABS : ℕ := 512

def MAX_TAB_ID_BYTES : ℕ := 256

structure Widths (Share : Type) where
  zero : Share
  one : Share
  plus : Share → Share → Share
  half : Share → Share
  ratio : Share → Share → Share
  positive : Share → Bool

structure GroupIds where
  last : ℕ

def GroupIds.next (ids : GroupIds) : GroupId × GroupIds := (ids.last + 1, ⟨ids.last + 1⟩)

inductive Pick where
  | herdr (tab : String)
  | page (tab : TabId)
  deriving DecidableEq

structure Group (Share : Type) where
  id : GroupId
  pick : Option Pick
  share : Share

structure Layout (Share : Type) where
  groups : List (Group Share)
  active : GroupId
  owners : List (Pick × GroupId)

structure SavedGroup (Share : Type) where
  pick : Option Pick
  share : Share
  tabs : List Pick
  hidden : List Pick

structure SavedLayout (Share : Type) where
  groups : List (SavedGroup Share)
  active : ℕ

def validPick : Pick → Bool
  | .herdr tab => !tab.isEmpty && decide (tab.utf8ByteSize ≤ MAX_TAB_ID_BYTES)
  | .page _ => true

namespace SavedLayout

variable {Share : Type}

def valid (w : Widths Share) (s : SavedLayout Share) : Bool :=
  !s.groups.isEmpty && decide (s.groups.length ≤ MAX_SAVED_GROUPS) &&
    decide (s.active < s.groups.length) &&
    s.groups.all fun group =>
      w.positive group.share && group.pick.all validPick &&
        decide (group.tabs.length ≤ MAX_SAVED_TABS) && group.tabs.all validPick &&
        decide (group.hidden.length ≤ MAX_SAVED_TABS) && group.hidden.all validPick

def kept (pick : Pick) (group : SavedGroup Share) : Bool := pick ∉ group.hidden

def shows (pick : Pick) (group : SavedGroup Share) : Bool :=
  decide (group.pick = some pick) && kept pick group

def inUse (s : SavedLayout Share) (wanted : SavedGroup Share → Bool) : Option ℕ :=
  if s.groups[s.active]?.any wanted then some s.active else none

def heir (s : SavedLayout Share) (pick : Pick) : ℕ :=
  (s.inUse (shows pick) <|> s.groups.findIdx? (shows pick) <|> s.inUse (kept pick) <|>
    s.groups.findIdx? (kept pick)).getD s.active

def named (s : SavedLayout Share) : List (Pick × ℕ) :=
  s.groups.zipIdx.foldl (fun owners entry =>
    entry.1.tabs.foldl (fun owners pick => Register.enter owners pick entry.2) owners) []

def shown (s : SavedLayout Share) : List Pick := s.groups.filterMap SavedGroup.pick

def closed (s : SavedLayout Share) : List Pick := s.groups.flatMap SavedGroup.hidden

def owners (s : SavedLayout Share) : List (Pick × ℕ) :=
  (s.shown ++ s.closed).foldl (fun owners pick => Register.enter owners pick (s.heir pick)) s.named

end SavedLayout

def modifyFirst {α : Type} (p : α → Bool) (f : α → α) : List α → List α
  | [] => []
  | a :: as => if p a then f a :: as else a :: modifyFirst p f as

namespace Layout

variable {Share : Type}

def group (l : Layout Share) (id : GroupId) : Option (Group Share) :=
  l.groups.find? fun group => group.id = id

def setPick (l : Layout Share) (id : GroupId) (pick : Option Pick) : Layout Share :=
  { l with groups := modifyFirst (fun group => group.id = id) (fun group => { group with pick }) l.groups }

def saved (l : Layout Share) : Option (SavedLayout Share) :=
  if l.groups.length = 1 ∧ l.groups.all (fun group => group.pick.isNone) then none
  else some
    { groups := l.groups.map fun group =>
        { pick := group.pick
          share := group.share
          tabs := (l.owners.filter fun e => e.2 = group.id).map Prod.fst
          hidden := [] }
      active := (l.groups.findIdx? fun group => group.id = l.active).getD 0 }

def rebuild (w : Widths Share) (total : Share) (ids : GroupIds) :
    List (SavedGroup Share) → List (Group Share) × GroupIds
  | [] => ([], ids)
  | saved :: more =>
      let (id, ids) := ids.next
      let (groups, ids) := rebuild w total ids more
      ({ id, pick := saved.pick, share := w.ratio saved.share total } :: groups, ids)

def ownedIn (owners : List (Pick × GroupId)) (group : Group Share) : Bool :=
  group.pick.any fun pick => owners.any fun e => decide (e.1 = pick) && decide (e.2 = group.id)

def clearUnowned (owners : List (Pick × GroupId)) (groups : List (Group Share)) :
    List (Group Share) :=
  groups.map fun group =>
    if owners.isEmpty || ownedIn owners group then group else { group with pick := none }

def restore (w : Widths Share) (saved : SavedLayout Share) (ids : GroupIds) :
    Option (Layout Share × GroupIds) := do
  let total := (saved.groups.map SavedGroup.share).foldl w.plus w.zero
  let (groups, ids) := rebuild w total ids saved.groups
  let active ← groups[min saved.active (groups.length - 1)]?
  let owners ←
    if groups.length > 1 then
      saved.owners.mapM fun e => groups[e.2]?.map fun group => (e.1, group.id)
    else some []
  some ({ groups := clearUnowned owners groups, active := active.id, owners }, ids)

def new (w : Widths Share) (id : GroupId) : Layout Share where
  groups := [{ id, pick := none, share := w.one }]
  active := id
  owners := []

def claimed (l : Layout Share) (pick : Pick) : Option GroupId := Register.lookup l.owners pick

def owner (l : Layout Share) (pick : Pick) : GroupId :=
  ((l.claimed pick).filter fun _ => l.groups.length > 1).getD l.active

def lists (l : Layout Share) (id : GroupId) (pick : Pick) : Bool :=
  (l.group id).isSome && decide (l.owner pick = id)

def settleOne (groups : List (Group Share)) (owners : List (Pick × GroupId)) (pick : Pick) :
    List (Pick × GroupId) :=
  match groups.find? fun group => group.pick = some pick with
  | some group => Register.enter owners pick group.id
  | none => owners

def settleOwners (l : Layout Share) : Layout Share :=
  { l with owners := (l.groups.filterMap Group.pick).foldl (settleOne l.groups) l.owners }

def activate (l : Layout Share) (id : GroupId) : Bool × Layout Share :=
  if l.active = id ∨ (l.group id).isNone then (false, l)
  else (true, { l.settleOwners with active := id })

def adopt (l : Layout Share) (tabs : List Pick) : Layout Share :=
  if l.groups.length < 2 then l
  else
    { l with owners := tabs.foldl (fun owners pick => Register.enter owners pick l.active) l.owners }

def claim (l : Layout Share) (id : GroupId) (pick : Pick) : Layout Share :=
  let groups := l.groups.map fun group =>
    if group.id ≠ id ∧ group.pick = some pick then { group with pick := none } else group
  if groups.length < 2 then { l with groups }
  else { l with groups, owners := Register.assign pick id l.owners }

def give (l : Layout Share) (id : GroupId) (pick : Pick) : Layout Share :=
  if (l.group id).isSome then l.claim id pick else l

def show_ (l : Layout Share) (id : GroupId) (pick : Pick) : Layout Share :=
  if (l.group id).isNone then l else (l.claim id pick).setPick id (some pick)

def choose (l : Layout Share) (id : GroupId) (pick : Pick) : Layout Share :=
  if (l.group id).isSome then (l.activate id).2.show_ id pick else l

def forget (l : Layout Share) (pick : Pick) : Option GroupId × Layout Share :=
  let l := { l with owners := Register.drop l.owners pick }
  match l.groups.find? fun group => group.pick = some pick with
  | none => (none, l)
  | some group =>
      (some group.id,
        { l with
          groups := modifyFirst (fun group => group.pick = some pick)
            (fun group => { group with pick := none }) l.groups })

def pinLone (groups : List (Group Share)) (focused : Option String) : List (Group Share) :=
  match groups with
  | [lone] => if lone.pick.isNone then [{ lone with pick := focused.map .herdr }] else groups
  | _ => groups

def split (w : Widths Share) (l : Layout Share) (id new : GroupId) (focused : Option String)
    (tabs : List Pick) : Bool × Layout Share :=
  match l.groups.findIdx? fun group => group.id = id with
  | none => (false, l)
  | some index =>
      let groups := (pinLone l.groups focused).modify index fun source =>
        { source with share := w.half source.share }
      let share := (groups[index]?.map Group.share).getD w.zero
      let groups := groups.insertIdx (index + 1) { id := new, pick := none, share }
      (true, { (({ l with groups } : Layout Share).adopt tabs).settleOwners with active := new })

def foldTarget (l : Layout Share) (id : GroupId) : Option (ℕ × Share × GroupId) :=
  if l.groups.length < 2 then none
  else do
    let index ← l.groups.findIdx? fun group => group.id = id
    let into := if index = 0 then 1 else index - 1
    some (index, (← l.groups[index]?).share, (← l.groups[into]?).id)

def close (w : Widths Share) (l : Layout Share) (id : GroupId) : Bool × Layout Share :=
  if l.groups.length < 2 then (false, l)
  else
    match l.groups.findIdx? fun group => group.id = id with
    | none => (false, l)
    | some index =>
        let l := l.settleOwners
        match l.groups[index]?, (l.groups.eraseIdx index)[index - 1]? with
        | some gone, some neighbour =>
            let groups := (l.groups.eraseIdx index).modify (index - 1) fun group =>
              { group with share := w.plus group.share gone.share }
            let owners := Register.relabel (fun owner => if owner = id then neighbour.id else owner) l.owners
            (true,
              { groups
                active := if l.active = id then neighbour.id else l.active
                owners := if groups.length = 1 then [] else owners })
        | _, _ => (false, l)

def focusMoved (l : Layout Share) (id : GroupId) (tab : String) : Layout Share :=
  if (l.group id).any fun group => group.pick.isSome then l.show_ id (.herdr tab) else l

end Layout

end Sheprd.Browser
