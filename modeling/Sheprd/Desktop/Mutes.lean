import Sheprd.Lib.JsonText

namespace Sheprd.Desktop.Muting

open Sheprd.Lib

def maxMutes : ℕ := 512
def maxHosts : ℕ := 512
def maxFieldBytes : ℕ := 1024
def maxFileBytes : ℕ :=
  maxMutes * (2 * 5 * maxFieldBytes + 160) + maxHosts * (2 * maxFieldBytes + 8) + 64
def forgetAfterSeconds : ℕ := 60
def u64Max : ℕ := 2 ^ 64 - 1

inductive Scope where
  | workspace
  | tab
  deriving DecidableEq

structure Daemon where
  endpoint : String
  session : String
  deriving DecidableEq

structure Mute where
  daemon : Daemon
  scope : Scope
  id : String
  boot : String
  label : String
  mutedAt : UInt64
  deriving DecidableEq

structure Workspace where
  workspaceId : String
  label : String
  customLabel : Bool

structure Tab where
  tabId : String
  label : String
  customLabel : Bool

structure Snapshot where
  bootId : String
  workspaces : List Workspace
  tabs : List Tab

structure Target where
  label : String
  named : Bool

def hasControl (text : String) : Bool := text.toList.any Text.isControl

def fits (field : String) : Bool := decide (field.utf8ByteSize ≤ maxFieldBytes) && !hasControl field

namespace Mute

def valid (mute : Mute) : Bool :=
  !mute.daemon.endpoint.isEmpty && !mute.id.isEmpty && !mute.boot.isEmpty &&
    [mute.daemon.endpoint, mute.daemon.session, mute.id, mute.boot, mute.label].all fits

def key (mute : Mute) : Daemon × Scope × String := (mute.daemon, mute.scope, mute.id)

def is (mute : Mute) (daemon : Daemon) (scope : Scope) (id : String) : Bool :=
  decide (mute.key = (daemon, scope, id))

end Mute

def fit (label : String) : String :=
  if fits label then label
  else Text.truncate maxFieldBytes (.ofList (label.toList.filter fun c => !Text.isControl c))

def target (snapshot : Snapshot) (scope : Scope) (id : String) : Option Target :=
  match scope with
  | .workspace =>
    (snapshot.workspaces.find? fun workspace => decide (workspace.workspaceId = id)).map
      fun workspace => ⟨workspace.label, workspace.customLabel⟩
  | .tab =>
    (snapshot.tabs.find? fun tab => decide (tab.tabId = id)).map
      fun tab => ⟨tab.label, tab.customLabel⟩

inductive Verdict where
  | keep
  | relabel (label : String)
  | adopt
  | forget
  deriving DecidableEq

def young (mute : Mute) (now : UInt64) : Bool :=
  decide (now.toNat < min (mute.mutedAt.toNat + forgetAfterSeconds) u64Max)

def verdict (mute : Mute) (snapshot : Snapshot) (now : UInt64) : Verdict :=
  match target snapshot mute.scope mute.id with
  | none => if young mute now then .keep else .forget
  | some target =>
    let label := fit target.label
    if mute.boot = snapshot.bootId then if mute.label = label then .keep else .relabel label
    else if mute.label = label ∧ target.named = true ∧
        snapshot.bootId.utf8ByteSize ≤ maxFieldBytes then .adopt
    else if young mute now then .keep
    else .forget

section Saving

structure Saved where
  mutes : List Mute
  hosts : List String

def Scope.name : Scope → String
  | .workspace => "workspace"
  | .tab => "tab"

def Scope.ofName (name : String) : Option Scope :=
  if name = "workspace" then some .workspace else if name = "tab" then some .tab else none

def textOf (value : Value) (key : String) : Option String := (value.get key).bind Value.asStr

def timeOf : Option Value → Option UInt64
  | none => some 0
  | some value => value.asNat.bind fun n => if n ≤ u64Max then some (.ofNat n) else none

def Mute.toValue (mute : Mute) : Value :=
  .object [("endpoint", .string mute.daemon.endpoint), ("session", .string mute.daemon.session),
    ("scope", .string mute.scope.name), ("id", .string mute.id), ("boot", .string mute.boot),
    ("label", .string mute.label), ("muted_at", .number mute.mutedAt.toNat.repr)]

def Mute.ofValue (value : Value) : Option Mute := do
  let endpoint ← textOf value "endpoint"
  let session ← textOf value "session"
  let scope ← (textOf value "scope").bind Scope.ofName
  let id ← textOf value "id"
  let boot ← textOf value "boot"
  let label ← textOf value "label"
  let mutedAt ← timeOf (value.get "muted_at")
  return { daemon := ⟨endpoint, session⟩, scope, id, boot, label, mutedAt }

def hostsOf : Option Value → Option (List String)
  | none => some []
  | some value => value.asArray.bind (·.mapM Value.asStr)

def Saved.toValue (saved : Saved) : Value :=
  .object [("mutes", .array (saved.mutes.map Mute.toValue)),
    ("hosts", .array (saved.hosts.map Value.string))]

def Saved.ofValue (value : Value) : Option Saved := do
  let mutes ← (value.get "mutes").bind Value.asArray
  let mutes ← mutes.mapM Mute.ofValue
  let hosts ← hostsOf (value.get "hosts")
  return { mutes, hosts }

def validHost (endpoint : String) : Bool := !endpoint.isEmpty && fits endpoint

inductive Error where
  | json
  | invalid

def parse (json : Json) (text : List Char) : Except Error Saved :=
  match (json.read text).bind Saved.ofValue with
  | none => .error .json
  | some saved =>
    if maxMutes < saved.mutes.length ∨ maxHosts < saved.hosts.length ∨
        ¬saved.mutes.all Mute.valid ∨ ¬saved.hosts.all validHost then .error .invalid
    else .ok saved

def Saved.text (json : Json) (saved : Saved) : List Char := json.print saved.toValue ++ ['\n']

end Saving

structure Mutes where
  mutes : List Mute
  hosts : List String
  files : Option (List Saved)
  quitting : Bool
  revision : ℕ

@[irreducible] def newest {α : Type} (bound : ℕ) (items : List α) : List α := items.drop (items.length - bound)

namespace Mutes

def saved (s : Mutes) : Saved := ⟨s.mutes, s.hosts⟩

def load (json : Json) (text : Option (List Char)) (files : Option (List Saved)) : Mutes :=
  let saved := (text.bind fun text =>
    if maxFileBytes < bytes text then none else (parse json text).toOption).getD ⟨[], []⟩
  { mutes := saved.mutes, hosts := saved.hosts, files, quitting := false, revision := 0 }

def changed (s : Mutes) : Mutes :=
  { s with
    revision := s.revision + 1
    files := if s.quitting then s.files else s.files.map (· ++ [s.saved]) }

def setHost (endpoint : String) (muted : Bool) (s : Mutes) : Mutes × Bool :=
  if muted = decide (endpoint ∈ s.hosts) ∨ (muted = true ∧ ¬validHost endpoint) then (s, false)
  else if muted then
    (changed { s with hosts := newest maxHosts (s.hosts ++ [endpoint]) }, true)
  else (changed { s with hosts := s.hosts.filter (· ≠ endpoint) }, true)

def made (daemon : Daemon) (snapshot : Snapshot) (scope : Scope) (id : String) (now : UInt64) :
    Option Mute :=
  ((target snapshot scope id).map fun target =>
    ({ daemon, scope, id, boot := snapshot.bootId, label := fit target.label, mutedAt := now } :
      Mute)).filter Mute.valid

def set (daemon : Daemon) (snapshot : Snapshot) (scope : Scope) (id : String) (muted : Bool)
    (now : UInt64) (s : Mutes) : Mutes × Bool :=
  let old := s.mutes.find? (·.is daemon scope id)
  let others := s.mutes.filter fun mute => !mute.is daemon scope id
  if !muted then if old.isNone then (s, false) else (changed { s with mutes := others }, true)
  else
    match made daemon snapshot scope id now with
    | none => (s, false)
    | some mute =>
      if old.any fun old => decide (old.boot = mute.boot ∧ old.label = mute.label) then (s, false)
      else (changed { s with mutes := newest maxMutes (others ++ [mute]) }, true)

def current (daemon : Daemon) (snapshot : Snapshot) (now : UInt64) (s : Mutes) : Bool :=
  (s.mutes.filter fun mute => decide (mute.daemon = daemon)).all fun mute =>
    decide (verdict mute snapshot now = .keep)

def settled (daemon : Daemon) (snapshot : Snapshot) (now : UInt64) (mute : Mute) :
    Option Mute × Bool :=
  if mute.daemon ≠ daemon then (some mute, false)
  else
    match verdict mute snapshot now with
    | .keep => (some mute, false)
    | .relabel label => (some { mute with label }, true)
    | .adopt => (some { mute with boot := snapshot.bootId }, true)
    | .forget => (none, true)

def reconcile (daemon : Daemon) (snapshot : Snapshot) (now : UInt64) (s : Mutes) : Mutes × Bool :=
  let settled := s.mutes.map (settled daemon snapshot now)
  let kept := { s with mutes := settled.filterMap Prod.fst }
  if settled.any Prod.snd then (changed kept, true) else (kept, false)

end Mutes

inductive Op where
  | set (daemon : Daemon) (snapshot : Snapshot) (scope : Scope) (id : String) (muted : Bool)
      (now : UInt64)
  | setHost (endpoint : String) (muted : Bool)
  | reconcile (daemon : Daemon) (snapshot : Snapshot) (now : UInt64)
  | quit
  | restart

def Mutes.apply (json : Json) (s : Mutes) : Op → Mutes
  | .set daemon snapshot scope id muted now => (s.set daemon snapshot scope id muted now).1
  | .setHost endpoint muted => (s.setHost endpoint muted).1
  | .reconcile daemon snapshot now => (s.reconcile daemon snapshot now).1
  | .quit => { s with quitting := true }
  | .restart =>
    .load json ((s.files.bind List.getLast?).map (Saved.text json)) s.files

def Mutes.first (json : Json) (writes : Bool) : Mutes :=
  .load json none (if writes then some [] else none)

def Mutes.run (json : Json) (writes : Bool) (ops : List Op) : Mutes :=
  ops.foldl (Mutes.apply json) (.first json writes)

end Sheprd.Desktop.Muting
