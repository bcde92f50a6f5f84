import Sheprd.Auth.Crypto
import Sheprd.Lib.Dict

namespace Sheprd.Auth

open Sheprd.Lib

def maxHosts : ℕ := 256

def maxHostText : ℕ := 256

def maxReason : ℕ := 512

def maxOrigins : ℕ := 32

def maxAsks : ℕ := 256

def maxRevokes : ℕ := 1024

def takenTtlMs : ℕ := 10 * 60 * 1000

def queuedTtlMs : ℕ := 24 * 60 * 60 * 1000

structure Host where
  id : HostId
  name : String

def isHostText (value : String) : Bool :=
  value ≠ "" ∧ value.utf8ByteSize ≤ maxHostText ∧ value.toList.any Text.isControl = false

def Host.valid (host : Host) : Bool := isHostText host.id && isHostText host.name

def Enrolled.valid (enrolled : Enrolled) : Bool :=
  isHostText enrolled.device && isHostText enrolled.computer && isHostText enrolled.fingerprint &&
    enrolled.origins.length ≤ maxOrigins && enrolled.origins.all isHostText

inductive HostOutcome where
  | paired (enrolled : Enrolled)
  | failed (reason : String)
  | denied

inductive HostState where
  | offered
  | allowed
  | asking
  | pending
  | paired (enrolled : Enrolled)
  | failed (reason : String)

structure HostRevoke where
  host : HostId
  device : DeviceId
  deriving DecidableEq

structure HostPairing where
  device : DeviceId
  host : HostId
  name : String
  publicKey : PublicKey
  confirm : Bool
  replace : Option DeviceId

inductive AskStage where
  | queued
  | taken
  | failed (reason : String)
  deriving DecidableEq

structure Ask where
  name : String
  publicKey : PublicKey
  confirm : Bool
  replace : Option DeviceId
  stage : AskStage
  sinceMs : ℕ

structure Links where
  hosts : List Host
  asks : Dict (DeviceId × HostId) Ask
  revokes : List HostRevoke

namespace Links

def firsts : List Host → List Host
  | [] => []
  | host :: hosts => host :: (firsts hosts).filter fun other => other.id ≠ host.id

def setHosts (hosts : List Host) (s : Links) : Except Error Unit × Links :=
  if maxHosts < hosts.length ∨ hosts.all Host.valid = false then (.error .invalidHost, s)
  else (.ok (), { s with hosts := firsts hosts })

def allowed (ids : List HostId) (s : Links) : List Link :=
  (s.hosts.filter fun host => host.id ∈ ids).map fun host => ⟨host.id, host.name, none⟩

def linkOf (device : DeviceRecord) (host : HostId) : Option Link :=
  device.links.find? fun link => link.host = host

def state (device : DeviceRecord) (host : HostId) (s : Links) : HostState :=
  match s.asks.lookup (device.id, host) with
  | some ask =>
    match ask.stage with
    | .failed reason => .failed reason
    | _ => if ask.confirm then .asking else .pending
  | none =>
    match linkOf device host with
    | some link => link.paired.elim .allowed HostState.paired
    | none => .offered

def unfinished : String := "Sheprd did not finish pairing this host"

def lapse (nowMs : ℕ) (ask : Ask) : Ask :=
  if ask.stage = .taken ∧ takenTtlMs ≤ nowMs - ask.sinceMs then
    { ask with stage := .failed unfinished, sinceMs := nowMs }
  else ask

def fresh (nowMs : ℕ) (ask : Ask) : Bool :=
  ask.stage = .taken ∨ nowMs - ask.sinceMs < queuedTtlMs

def refresh (nowMs : ℕ) (s : Links) : Links :=
  { s with asks := Dict.mapValues (lapse nowMs) (Dict.filter (fun _ ask => fresh nowMs ask) s.asks) }

def view (device : DeviceRecord) (nowMs : ℕ) (s : Links) : List (HostId × String × HostState) × Links :=
  let s := s.refresh nowMs
  let gone := device.links.filter fun link => s.hosts.all fun host => host.id ≠ link.host
  let named := s.hosts.map (fun host => (host.id, host.name)) ++
    gone.map fun link => (link.host, link.name)
  (named.map fun host => (host.1, host.2, s.state device host.1), s)

def ask (crypto : Crypto) (device : DeviceRecord) (host : HostId) (publicKey : String) (nowMs : ℕ)
    (s : Links) : Except Error HostState × Links :=
  let s := s.refresh nowMs
  match crypto.key publicKey with
  | .error error => (.error error, s)
  | .ok publicKey =>
    let link := linkOf device host
    if link.isNone ∧ s.hosts.all (fun known => known.id ≠ host) then (.error .unknownHost, s)
    else
      let refused : Option Error :=
        match s.asks.lookup (device.id, host) with
        | some ask => if ask.stage = .taken then some .hostBusy else none
        | none => if maxAsks ≤ s.asks.entries.length then some .hostTooMany else none
      match refused with
      | some error => (.error error, s)
      | none =>
        match deviceName device.name with
        | .error error => (.error error, s)
        | .ok name =>
          let replace := (link.bind Link.paired).map Enrolled.device
          let ask : Ask := ⟨name, publicKey, link.isNone, replace, .queued, nowMs⟩
          let s := { s with asks := s.asks.insert (device.id, host) ask }
          (.ok (s.state device host), s)

def taking (nowMs : ℕ) (ask : Ask) : Ask :=
  if ask.stage = .queued then { ask with stage := .taken, sinceMs := nowMs } else ask

def take (nowMs : ℕ) (s : Links) : List HostPairing × Links :=
  let s := s.refresh nowMs
  let queued := s.asks.entries.filter fun e => e.2.stage = .queued
  (queued.map fun e => ⟨e.1.1, e.1.2, e.2.name, e.2.publicKey, e.2.confirm, e.2.replace⟩,
    { s with asks := Dict.mapValues (taking nowMs) s.asks })

def replaceRevokes (fault : Option Fault) (revokes : List HostRevoke) (s : Links) :
    Except Error Unit × Links :=
  match (writePrivate "" fault none).1 with
  | .error error => (.error error, s)
  | .ok () => (.ok (), { s with revokes })

def addRevokes (revokes owed : List HostRevoke) : List HostRevoke :=
  owed.foldl (fun revokes revoke => if revoke ∈ revokes then revokes else revokes ++ [revoke]) revokes

def owe (fault : Option Fault) (owed : List HostRevoke) (s : Links) : Except Error Unit × Links :=
  let revokes := addRevokes s.revokes owed
  if revokes.length = s.revokes.length then (.ok (), s)
  else s.replaceRevokes fault (revokes.drop (revokes.length - maxRevokes))

def revoked (fault : Option Fault) (revoke : HostRevoke) (s : Links) : Except Error Unit × Links :=
  let revokes := s.revokes.filter fun owed => owed ≠ revoke
  if revokes.length = s.revokes.length then (.ok (), s) else s.replaceRevokes fault revokes

def owedBy (device : DeviceRecord) : List HostRevoke :=
  device.links.filterMap fun link => link.paired.map fun paired => ⟨link.host, paired.device⟩

def forget (fault : Option Fault) (device : DeviceRecord) (s : Links) : Except Error Unit × Links :=
  owe fault (owedBy device) { s with asks := Dict.retain (fun key => key.1 ≠ device.id) s.asks }

def answered (key : DeviceId × HostId) (attempt : Option PublicKey) (s : Links) : Option Ask :=
  (s.asks.lookup key).filter fun ask =>
    ask.stage = .taken && attempt.all fun publicKey => publicKey = ask.publicKey

def hostName (s : Links) (devices : Devices) (device : DeviceId) (host : HostId)
    (enrolled : Enrolled) : String :=
  match s.hosts.find? fun known => known.id = host with
  | some known => known.name
  | none =>
    match (devices.get device).bind fun record => linkOf record host with
    | some link => link.name
    | none => enrolled.computer

def finish (crypto : Crypto) (codec : Codec) (fault : Option Fault) (device : DeviceId)
    (host : HostId) (publicKey : Option String) (outcome : HostOutcome) (nowMs : ℕ)
    (s : Links) (devices : Devices) : Except Error Unit × Links × Devices :=
  let s := s.refresh nowMs
  match publicKey.mapM crypto.key with
  | .error error => (.error error, s, devices)
  | .ok attempt =>
    match s.answered (device, host) attempt with
    | none =>
      match outcome with
      | .paired enrolled =>
        if enrolled.valid then
          match s.owe fault [⟨host, enrolled.device⟩] with
          | (.error error, s) => (.error error, s, devices)
          | (.ok (), s) => (.error .notPairing, s, devices)
        else (.error .notPairing, s, devices)
      | _ => (.error .notPairing, s, devices)
    | some ask =>
      match outcome with
      | .paired enrolled =>
        if enrolled.valid then
          let link := ⟨host, s.hostName devices device host enrolled, some enrolled⟩
          match devices.setLink codec fault device link with
          | (.error error, devices) => (.error error, s, devices)
          | (.ok (), devices) => (.ok (), { s with asks := s.asks.erase (device, host) }, devices)
        else (.error .invalidOutcome, s, devices)
      | .failed reason =>
        let stage := .failed (.ofList (reason.toList.take maxReason))
        (.ok (), { s with asks := s.asks.insert (device, host) { ask with stage, sinceMs := nowMs } },
          devices)
      | .denied => (.ok (), { s with asks := s.asks.erase (device, host) }, devices)

end Links

end Sheprd.Auth
