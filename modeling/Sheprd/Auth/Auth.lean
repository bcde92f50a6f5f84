import Sheprd.Auth.Crypto
import Sheprd.Lib.Dict
import Mathlib.Data.List.MinMax
import Sheprd.Auth.Links
import Sheprd.Auth.Pairings
import Sheprd.Lib.Run

namespace Sheprd.Auth

open Sheprd.Lib

def challengeTtlMs : ℕ := 60000

def sessionTtlMs : ℕ := 12 * 60 * 60 * 1000

def maxChallengesPerDevice : ℕ := 8

def maxSessionsPerDevice : ℕ := 16

def handoffTtlMs : ℕ := 24 * 60 * 60000

def signedLead : List UInt8 :=
  [104, 101, 114, 100, 114, 45, 114, 101, 109, 111, 116, 101, 45, 115, 101, 115, 115, 105, 111, 110, 0]

def signedMessage (nonce : Secret) : List UInt8 := signedLead ++ nonce

abbrev ChallengeId := String

structure Pending where
  device : DeviceId
  nonce : Secret
  issuedMs : ℕ
  expiresMs : ℕ

structure Live where
  device : DeviceId
  issuedMs : ℕ
  expiresMs : ℕ

structure Challenge where
  id : ChallengeId
  nonce : Secret
  expiresMs : ℕ

structure Session where
  token : Secret
  device : DeviceId
  expiresMs : ℕ

structure Sessions where
  challenges : Dict ChallengeId Pending
  sessions : Dict Digest Live

namespace Sessions

def oldest {κ ν : Type} (most : ℕ) (owned : ν → Bool) (issued : ν → ℕ) (d : Dict κ ν) : Option κ :=
  let entries := d.entries.filter fun e => owned e.2
  if most ≤ entries.length then (entries.argmin fun e => issued e.2).map Sigma.fst else none

def evict {κ ν : Type} [DecidableEq κ] (most : ℕ) (owned : ν → Bool) (issued : ν → ℕ)
    (d : Dict κ ν) : Dict κ ν :=
  match oldest most owned issued d with
  | some key => d.erase key
  | none => d

def challenge (device : DeviceId) (nowMs : ℕ) (devices : Devices) (nonce : Option Secret)
    (id : Option ChallengeId) (s : Sessions) : Except Error Challenge × Sessions :=
  match devices.get device with
  | none => (.error .unknownDevice, s)
  | some _ =>
    let live := Dict.filter (fun _ pending => nowMs < pending.expiresMs) s.challenges
    let kept := evict maxChallengesPerDevice (fun pending => pending.device = device)
      Pending.issuedMs live
    let s := { s with challenges := kept }
    match nonce, id with
    | some nonce, some id =>
      let expiresMs := saturatingAdd nowMs challengeTtlMs
      (.ok ⟨id, nonce, expiresMs⟩,
        { s with challenges := s.challenges.insert id ⟨device, nonce, nowMs, expiresMs⟩ })
    | _, _ => (.error .random, s)

def start (crypto : Crypto) (device : DeviceId) (nowMs : ℕ) (token : Option Secret) (s : Sessions) :
    Except Error Session × Sessions :=
  let live := Dict.filter (fun _ live => nowMs < live.expiresMs) s.sessions
  let kept := evict maxSessionsPerDevice (fun live => live.device = device) Live.issuedMs live
  let s := { s with sessions := kept }
  match token with
  | none => (.error .random, s)
  | some token =>
    let expiresMs := saturatingAdd nowMs sessionTtlMs
    (.ok ⟨token, device, expiresMs⟩,
      { s with sessions := s.sessions.insert (crypto.sha256 token) ⟨device, nowMs, expiresMs⟩ })

def verify (crypto : Crypto) (challenge : ChallengeId) (signature : String) (nowMs : ℕ)
    (devices : Devices) (token : Option Secret) (s : Sessions) : Except Error Session × Sessions :=
  let pending := (s.challenges.lookup challenge).filter fun pending => nowMs < pending.expiresMs
  let s := { s with challenges := s.challenges.erase challenge }
  match pending with
  | none => (.error .unknownChallenge, s)
  | some pending =>
    match crypto.readSignature signature with
    | none => (.error .invalidSignature, s)
    | some signature =>
      match devices.get pending.device with
      | none => (.error .unknownDevice, s)
      | some record =>
        if crypto.verifies record.publicKey (signedMessage pending.nonce) signature then
          s.start crypto pending.device nowMs token
        else (.error .invalidSignature, s)

def authenticate (crypto : Crypto) (bearer : Option Secret) (nowMs : ℕ) (s : Sessions) :
    Option DeviceId × Sessions :=
  match bearer with
  | none => (none, s)
  | some token =>
    match s.sessions.lookup (crypto.sha256 token) with
    | none => (none, s)
    | some live =>
      if live.expiresMs ≤ nowMs then
        (none, { s with sessions := s.sessions.erase (crypto.sha256 token) })
      else (some live.device, s)

def endDevice (device : DeviceId) (s : Sessions) : Sessions :=
  ⟨Dict.filter (fun _ pending => pending.device ≠ device) s.challenges,
    Dict.filter (fun _ live => live.device ≠ device) s.sessions⟩

end Sessions

structure Handoff where
  token : Secret
  expiresMs : ℕ

structure Handoffs where
  opened : Dict DeviceId (Digest × ℕ)

namespace Handoffs

def saved (fault : Option Fault) : Except Error Unit := (writePrivate "" fault none).1

def mint (crypto : Crypto) (device : DeviceId) (nowMs : ℕ) (secret : Option Secret)
    (fault : Option Fault) (s : Handoffs) : Except Error Handoff × Handoffs :=
  let s : Handoffs := ⟨Dict.filter (fun _ entry => nowMs < entry.2) s.opened⟩
  match secret with
  | none => (.error .random, s)
  | some secret =>
    let expiresMs := nowMs + handoffTtlMs
    let s : Handoffs := ⟨s.opened.insert device (crypto.sha256 secret, expiresMs)⟩
    ((saved fault).map fun _ => ⟨secret, expiresMs⟩, s)

def redeem (crypto : Crypto) (token : Secret) (nowMs : ℕ) (fault : Option Fault) (s : Handoffs) :
    Except Error (Option DeviceId) × Handoffs :=
  match s.opened.entries.find? fun e => nowMs < e.2.2 ∧ e.2.1 = crypto.sha256 token with
  | none => (.ok none, s)
  | some entry =>
    match saved fault with
    | .ok _ => (.ok (some entry.1), ⟨s.opened.erase entry.1⟩)
    | .error error => (.error error, s)

def forget (device : DeviceId) (s : Handoffs) : Handoffs := ⟨s.opened.erase device⟩

end Handoffs

end Sheprd.Auth

set_option linter.dupNamespace false

namespace Sheprd.Auth

open Sheprd.Lib

structure Auth where
  devices : Devices
  handoffs : Handoffs
  links : Links
  nearby : List NearbySession
  pairings : Pairings
  sessions : Sessions

structure Enroll where
  name : String
  publicKey : String
  via : String
  replace : Option DeviceId

inductive AuthOp where
  | mint (nowMs : ℕ) (origins : List String) (fingerprint : String) (token : Option Secret)
      (id : Option PairingId)
  | pairing (id : PairingId) (nowMs : ℕ)
  | cancel (id : PairingId)
  | claim (admitted : Bool) (token : Option Secret) (name key : String) (nowMs : ℕ)
      (nonce : Option Secret) (claim : Option ClaimId) (device : Option DeviceId)
  | pairingOpen (nowMs : ℕ)
  | nearbyStart (admitted : Bool) (key : String) (nowMs : ℕ) (id : Option String)
  | nearbyReveal (session : String) (nowMs : ℕ) (token : Option Secret) (code : Option String)
  | claimedFrom (claim : ClaimId) (origin : String)
  | claimStatus (id : ClaimId) (nowMs : ℕ)
  | answer (id : PairingId) (allow : Bool) (shown : String) (hosts : List HostId) (nowMs : ℕ)
      (fault : Option Fault)
  | challenge (admitted : Bool) (device : DeviceId) (nowMs : ℕ) (nonce : Option Secret)
      (id : Option ChallengeId)
  | verify (challenge : ChallengeId) (signature : String) (nowMs : ℕ) (token : Option Secret)
      (fault : Option Fault)
  | authenticate (bearer : Option Secret) (nowMs : ℕ)
  | handoff (device : DeviceId) (nowMs : ℕ) (secret : Option Secret) (fault : Option Fault)
  | redeem (admitted : Bool) (token : Secret) (key : String) (nowMs : ℕ)
      (handoffFault deviceFault : Option Fault)
  | revoke (device : DeviceId) (linkFault deviceFault : Option Fault)
  | setPush (device : DeviceId) (push : Option String) (fault : Option Fault)
  | setApns (device : DeviceId) (apns : Option String) (fault : Option Fault)
  | setHosts (hosts : List Host)
  | hostLinks (device : DeviceId) (nowMs : ℕ)
  | askHost (device : DeviceId) (host : HostId) (key : String) (nowMs : ℕ)
  | takeHostPairings (nowMs : ℕ)
  | hostPaired (device : DeviceId) (host : HostId) (key : Option String) (outcome : HostOutcome)
      (nowMs : ℕ) (fault : Option Fault)
  | hostRevoked (revoke : HostRevoke) (fault : Option Fault)
  | enroll (enroll : Enroll) (nowMs : ℕ) (id : Option DeviceId)
      (linkFault oldFault deviceFault : Option Fault)
  | expireIdle (nowMs idleMs : ℕ) (fault : Option Fault)

namespace Auth

variable (crypto : Crypto) (codec : Codec)

def claim (admitted : Bool) (token : Option Secret) (name key : String) (nowMs : ℕ)
    (nonce : Option Secret) (claim : Option ClaimId) (device : Option DeviceId) (a : Auth) :
    Except Error Claim × Auth :=
  if admitted then
    match a.pairings.claim crypto token name key nowMs nonce claim device with
    | (result, pairings) => (result, { a with pairings })
  else (.error .rateLimited, a)

def nearbyStart (admitted : Bool) (key : String) (nowMs : ℕ) (id : Option String) (a : Auth) :
    Except Error String × Auth :=
  if admitted then
    match a.pairings.waiting nowMs with
    | (false, pairings) => (.error .noPairing, { a with pairings })
    | (true, pairings) =>
      match NearbySessions.start key crypto nowMs id a.nearby with
      | (result, nearby) => (result, { a with pairings, nearby })
  else (.error .rateLimited, a)

def nearbyReveal (session : String) (nowMs : ℕ) (token : Option Secret) (code : Option String)
    (a : Auth) : Except Error Unit × Auth :=
  match NearbySessions.take session nowMs a.nearby with
  | (.error error, nearby) => (.error error, { a with nearby })
  | (.ok (), nearby) =>
    match a.pairings.waiting nowMs with
    | (false, pairings) => (.error .noPairing, { a with pairings, nearby })
    | (true, pairings) =>
      match token, code with
      | none, _ => (.error .random, { a with pairings, nearby })
      | _, none => (.error .nearbyCrypto, { a with pairings, nearby })
      | some token, some code =>
        match pairings.setNearby crypto token code nowMs with
        | (result, pairings) => (result, { a with pairings, nearby })

def keep (fault : Option Fault) (nowMs : ℕ) (links : List Link) (device : NewDevice)
    (devices : Devices) : Except Error Unit × Devices :=
  devices.addWith codec fault device nowMs none links

def shows (state : Except Error PairingState) (shown : String) : Except Error Bool :=
  state.map fun
    | .claimed _ code _ => code = shown
    | _ => false

def answerWithHosts (id : PairingId) (allow : Bool) (shown : String) (hosts : List HostId)
    (nowMs : ℕ) (fault : Option Fault) (a : Auth) : Except Error PairingState × Auth :=
  let viewed := a.pairings.state id nowMs
  let matching := if allow then shows viewed.1 shown else .ok true
  let pairings := if allow then viewed.2 else a.pairings
  match matching with
  | .error error => (.error error, { a with pairings })
  | .ok false =>
    match pairings.answer id false nowMs (fun _ (kept : Unit) => (.ok (), kept)) () with
    | (.error error, pairings, _) => (.error error, { a with pairings })
    | (.ok _, pairings, _) => (.error .codeMismatch, { a with pairings })
  | .ok true =>
    let links := a.links.allowed hosts
    match pairings.answer id allow nowMs (keep codec fault nowMs links) a.devices with
    | (.error error, pairings, devices) => (.error error, { a with pairings, devices })
    | (.ok _, pairings, devices) =>
      match pairings.state id nowMs with
      | (result, pairings) => (result, { a with pairings, devices })

def challenge (admitted : Bool) (device : DeviceId) (nowMs : ℕ) (nonce : Option Secret)
    (id : Option ChallengeId) (a : Auth) : Except Error Challenge × Auth :=
  if admitted then
    match a.sessions.challenge device nowMs a.devices nonce id with
    | (result, sessions) => (result, { a with sessions })
  else (.error .rateLimited, a)

def verify (challenge : ChallengeId) (signature : String) (nowMs : ℕ) (token : Option Secret)
    (fault : Option Fault) (a : Auth) : Except Error Session × Auth :=
  match a.sessions.verify crypto challenge signature nowMs a.devices token with
  | (.error error, sessions) => (.error error, { a with sessions })
  | (.ok session, sessions) =>
    match a.devices.touch codec fault session.device nowMs with
    | (result, devices) => (result.map fun _ => session, { a with sessions, devices })

def authenticate (bearer : Option Secret) (nowMs : ℕ) (a : Auth) : Option DeviceId × Auth :=
  match a.sessions.authenticate crypto bearer nowMs with
  | (device, sessions) => (device, { a with sessions })

def handoff (device : DeviceId) (nowMs : ℕ) (secret : Option Secret) (fault : Option Fault)
    (a : Auth) : Except Error Handoff × Auth :=
  match a.devices.get device with
  | none => (.error .unknownDevice, a)
  | some _ =>
    match a.handoffs.mint crypto device nowMs secret fault with
    | (result, handoffs) => (result, { a with handoffs })

def redeem (admitted : Bool) (token : Secret) (key : String) (nowMs : ℕ)
    (handoffFault deviceFault : Option Fault) (a : Auth) : Except Error DeviceId × Auth :=
  if admitted then
    match crypto.key key with
    | .error error => (.error error, a)
    | .ok publicKey =>
      match a.handoffs.redeem crypto token nowMs handoffFault with
      | (.error error, handoffs) => (.error error, { a with handoffs })
      | (.ok none, handoffs) => (.error .invalidToken, { a with handoffs })
      | (.ok (some device), handoffs) =>
        match a.devices.rekey codec deviceFault device publicKey with
        | (.error error, devices) => (.error error, { a with handoffs, devices })
        | (.ok (), devices) =>
          (.ok device, { a with handoffs, devices, sessions := a.sessions.endDevice device })
  else (.error .rateLimited, a)

def forgotten (device : DeviceId) (fault : Option Fault) (a : Auth) : Except Error Unit × Links :=
  match a.devices.get device with
  | none => (.ok (), a.links)
  | some record => a.links.forget fault record

def revoke (device : DeviceId) (linkFault deviceFault : Option Fault) (a : Auth) :
    Except Error Bool × Auth :=
  match a.forgotten device linkFault with
  | (.error error, links) => (.error error, { a with links })
  | (.ok (), links) =>
    match a.devices.revoke codec deviceFault device with
    | (result, devices) =>
      (result, { a with
        links
        devices
        handoffs := a.handoffs.forget device
        sessions := a.sessions.endDevice device })

def askHost (device : DeviceId) (host : HostId) (key : String) (nowMs : ℕ) (a : Auth) :
    Except Error HostState × Auth :=
  match a.devices.get device with
  | none => (.error .unknownDevice, a)
  | some record =>
    match a.links.ask crypto record host key nowMs with
    | (result, links) => (result, { a with links })

def hostPaired (device : DeviceId) (host : HostId) (key : Option String) (outcome : HostOutcome)
    (nowMs : ℕ) (fault : Option Fault) (a : Auth) : Except Error Unit × Auth :=
  match a.links.finish crypto codec fault device host key outcome nowMs a.devices with
  | (result, links, devices) => (result, { a with links, devices })

def replaced (enroll : Enroll) (a : Auth) : Option DeviceId :=
  enroll.replace.filter fun old => (a.devices.get old).any fun record => record.via.isSome

def enroll (enroll : Enroll) (nowMs : ℕ) (id : Option DeviceId)
    (linkFault oldFault deviceFault : Option Fault) (a : Auth) : Except Error DeviceId × Auth :=
  match crypto.key enroll.publicKey, deviceName enroll.name, deviceName enroll.via with
  | .error error, _, _ | .ok _, .error error, _ | .ok _, .ok _, .error error => (.error error, a)
  | .ok publicKey, .ok name, .ok via =>
    let revoked : Except Error Bool × Auth :=
      match a.replaced enroll with
      | none => (.ok false, a)
      | some old => a.revoke codec old linkFault oldFault
    match revoked with
    | (.error error, a) => (.error error, a)
    | (.ok _, a) =>
      match id with
      | none => (.error .random, a)
      | some id =>
        match a.devices.addWith codec deviceFault ⟨none, id, name, publicKey⟩ nowMs (some via) [] with
        | (result, devices) => (result.map fun _ => id, { a with devices })

def expireIdle (nowMs idleMs : ℕ) (fault : Option Fault) (a : Auth) :
    Except Error (List DeviceId) × Auth :=
  match a.devices.expireIdle codec fault nowMs idleMs with
  | (.error error, devices) => (.error error, { a with devices })
  | (.ok expired, devices) =>
    (.ok expired, { a with
      devices, sessions := expired.foldl (fun sessions device => sessions.endDevice device) a.sessions })

def perform (a : Auth) : AuthOp → Auth
  | .mint nowMs origins fingerprint token id =>
    { a with pairings := (a.pairings.mint nowMs origins fingerprint crypto token id).2 }
  | .pairing id nowMs => { a with pairings := (a.pairings.state id nowMs).2 }
  | .cancel id => { a with pairings := (a.pairings.cancel id).2 }
  | .claim admitted token name key nowMs nonce claim device =>
    (a.claim crypto admitted token name key nowMs nonce claim device).2
  | .pairingOpen nowMs => { a with pairings := (a.pairings.waiting nowMs).2 }
  | .nearbyStart admitted key nowMs id => (a.nearbyStart crypto admitted key nowMs id).2
  | .nearbyReveal session nowMs token code => (a.nearbyReveal crypto session nowMs token code).2
  | .claimedFrom claim origin => { a with pairings := a.pairings.claimedFrom claim origin }
  | .claimStatus id nowMs => { a with pairings := (a.pairings.claimStatus id nowMs).2 }
  | .answer id allow shown hosts nowMs fault =>
    (a.answerWithHosts codec id allow shown hosts nowMs fault).2
  | .challenge admitted device nowMs nonce id => (a.challenge admitted device nowMs nonce id).2
  | .verify challenge signature nowMs token fault =>
    (a.verify crypto codec challenge signature nowMs token fault).2
  | .authenticate bearer nowMs => (a.authenticate crypto bearer nowMs).2
  | .handoff device nowMs secret fault => (a.handoff crypto device nowMs secret fault).2
  | .redeem admitted token key nowMs handoffFault deviceFault =>
    (a.redeem crypto codec admitted token key nowMs handoffFault deviceFault).2
  | .revoke device linkFault deviceFault => (a.revoke codec device linkFault deviceFault).2
  | .setPush device push fault =>
    { a with devices := (a.devices.setPush codec fault device push).2 }
  | .setApns device apns fault =>
    { a with devices := (a.devices.setApns codec fault device apns).2 }
  | .setHosts hosts => { a with links := (a.links.setHosts hosts).2 }
  | .hostLinks device nowMs =>
    match a.devices.get device with
    | none => a
    | some record => { a with links := (a.links.view record nowMs).2 }
  | .askHost device host key nowMs => (a.askHost crypto device host key nowMs).2
  | .takeHostPairings nowMs => { a with links := (a.links.take nowMs).2 }
  | .hostPaired device host key outcome nowMs fault =>
    (a.hostPaired crypto codec device host key outcome nowMs fault).2
  | .hostRevoked revoke fault => { a with links := (a.links.revoked fault revoke).2 }
  | .enroll enroll nowMs id linkFault oldFault deviceFault =>
    (a.enroll crypto codec enroll nowMs id linkFault oldFault deviceFault).2
  | .expireIdle nowMs idleMs fault => (a.expireIdle codec nowMs idleMs fault).2

def started (devices : Devices) (handoffs : Handoffs) (revokes : List HostRevoke) : Auth :=
  ⟨devices, handoffs, ⟨[], ∅, revokes⟩, [], ⟨none, []⟩, ⟨∅, ∅⟩⟩

end Auth

end Sheprd.Auth
