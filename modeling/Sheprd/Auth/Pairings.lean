import Sheprd.Auth.Crypto

namespace Sheprd.Auth

def tokenTtlMs : ℕ := 60000

def approvalTtlMs : ℕ := 120000

def maxNearbyReveals : ℕ := 3

def rememberedOutcomes : ℕ := 8

def nearbyTtlMs : ℕ := 60000

def maxNearbySessions : ℕ := 4

abbrev PairingId := String

abbrev ClaimId := String

inductive PairingState where
  | waiting (expiresInMs : ℕ)
  | claimed (deviceName code : String) (app : Option String)
  | approved (device : DeviceId)
  | denied
  | expired
  deriving DecidableEq

structure Claim where
  id : ClaimId
  code : String
  expiresMs : ℕ

structure Offer where
  id : PairingId
  token : Secret
  fingerprint : String
  expiresInMs : ℕ
  addresses : List String

structure NearbyToken where
  digest : Digest
  code : String
  expiresMs : ℕ

inductive Stage where
  | waiting
  | claimed (claim : ClaimId) (device : NewDevice) (code : String) (deadlineMs : ℕ)
  | finished (claim : Option ClaimId) (state : PairingState)
  deriving DecidableEq

structure Open where
  id : PairingId
  tokenDigest : Digest
  tokenExpiresMs : ℕ
  nearby : Option NearbyToken
  nearbyReveals : ℕ
  stage : Stage

namespace Open

def claimableUntil (o : Open) : ℕ :=
  o.nearby.elim o.tokenExpiresMs fun nearby => max nearby.expiresMs o.tokenExpiresMs

def unclaimed (o : Open) : Bool :=
  match o.stage with
  | .waiting | .finished none _ => true
  | _ => false

def view (o : Open) (nowMs : ℕ) : PairingState :=
  match o.stage with
  | .waiting => .waiting (o.claimableUntil - nowMs)
  | .claimed _ device code _ => .claimed device.name code device.app
  | .finished _ state => state

end Open

abbrev Outcome := ClaimId × PairingState

structure Pairings where
  current : Option Open
  outcomes : List Outcome

def remember (outcomes : List Outcome) (outcome : Outcome) : List Outcome :=
  if outcomes.length = rememberedOutcomes then outcomes.tail ++ [outcome]
  else outcomes ++ [outcome]

def matchingCode (crypto : Crypto) (token : Secret) (publicKey : PublicKey) (nonce : Secret) :
    String :=
  let digest := crypto.sha256 (token ++ crypto.keyBytes publicKey ++ nonce)
  let value := (digest.take 4).foldl (fun value byte => value * 256 + byte.toNat) 0
  let digits := (value % 1000000).repr
  .ofList (List.replicate (6 - digits.length) '0') ++ digits

namespace Pairings

def settle (o : Open) (outcomes : List Outcome) (state : PairingState) : Pairings :=
  match o.stage with
  | .claimed claim _ _ _ =>
    ⟨some { o with stage := .finished (some claim) state }, remember outcomes (claim, state)⟩
  | _ => ⟨some o, outcomes⟩

def refreshed (o : Open) (outcomes : List Outcome) (nowMs : ℕ) : Pairings :=
  match o.stage with
  | .waiting =>
    if o.claimableUntil ≤ nowMs then ⟨some { o with stage := .finished none .expired }, outcomes⟩
    else ⟨some o, outcomes⟩
  | .claimed _ _ _ deadlineMs =>
    if deadlineMs ≤ nowMs then settle o outcomes .expired else ⟨some o, outcomes⟩
  | .finished _ _ => ⟨some o, outcomes⟩

def refresh (p : Pairings) (nowMs : ℕ) : Pairings :=
  match p.current with
  | none => p
  | some o => refreshed o p.outcomes nowMs

def close (p : Pairings) : Pairings :=
  match p.current with
  | none => p
  | some o => { settle o p.outcomes .denied with current := none }

def mint (nowMs : ℕ) (origins : List String) (fingerprint : String) (crypto : Crypto)
    (token : Option Secret) (id : Option PairingId) (p : Pairings) :
    Except Error Offer × Pairings :=
  if origins = [] then (.error .noAddress, p)
  else match token with
  | none => (.error .random, p)
  | some token =>
    let kept : Option (PairingId × Option NearbyToken × ℕ) :=
      match p.current with
      | some o => if o.unclaimed then some (o.id, o.nearby, o.nearbyReveals) else id.map (·, none, 0)
      | none => id.map (·, none, 0)
    match kept with
    | none => (.error .random, p)
    | some (id, nearby, nearbyReveals) =>
      (.ok ⟨id, token, fingerprint, tokenTtlMs, origins⟩,
        { p.close with
          current := some ⟨id, crypto.sha256 token, saturatingAdd nowMs tokenTtlMs, nearby,
            nearbyReveals, .waiting⟩ })

def accept (o : Open) (outcomes : List Outcome) (nearby : Bool) (crypto : Crypto) (token : Secret)
    (deviceNameInput publicKey : String) (nowMs : ℕ) (nonce : Option Secret)
    (claim : Option ClaimId) (device : Option DeviceId) : Except Error Claim × Pairings :=
  let fail error : Except Error Claim × Pairings := (.error error, ⟨some o, outcomes⟩)
  match deviceName deviceNameInput, crypto.key publicKey, nonce, claim, device with
  | .error error, _, _, _, _ => fail error
  | _, .error error, _, _, _ => fail error
  | .ok name, .ok publicKey, some nonce, some claim, some device =>
    let (code, left) :=
      match nearby, o.nearby with
      | true, some sealed => (sealed.code, none)
      | _, other => (matchingCode crypto token publicKey nonce, other)
    let deadlineMs := saturatingAdd nowMs approvalTtlMs
    (.ok ⟨claim, code, deadlineMs⟩,
      ⟨some { o with
        nearby := left
        stage := .claimed claim ⟨none, device, name, publicKey⟩ code deadlineMs }, outcomes⟩)
  | _, _, _, _, _ => fail .random

def isNearby (o : Open) (digest : Digest) : Bool := o.nearby.any fun nearby => nearby.digest = digest

def claim (crypto : Crypto) (token : Option Secret) (deviceNameInput publicKey : String)
    (nowMs : ℕ) (nonce : Option Secret) (claim : Option ClaimId) (device : Option DeviceId)
    (p : Pairings) : Except Error Claim × Pairings :=
  match token, p.current with
  | none, _ | _, none => (.error .invalidToken, p)
  | some token, some o =>
    let digest := crypto.sha256 token
    let nearby := isNearby o digest
    if nearby = false ∧ o.tokenDigest ≠ digest then (.error .invalidToken, p)
    else
      let p := refreshed o p.outcomes nowMs
      match p.current with
      | none => (.error .invalidToken, p)
      | some o =>
        match o.stage with
        | .finished none _ => (.error .expiredToken, p)
        | .finished (some _) _ => (.error .alreadyClaimed, p)
        | .claimed _ _ _ _ => (.error .alreadyClaimed, settle o p.outcomes .denied)
        | .waiting =>
          let live := if nearby then o.nearby.any fun nearby => nowMs < nearby.expiresMs
            else nowMs < o.tokenExpiresMs
          if live then
            accept o p.outcomes nearby crypto token deviceNameInput publicKey nowMs nonce claim device
          else (.error .expiredToken, p)

def waiting (nowMs : ℕ) (p : Pairings) : Bool × Pairings :=
  let p := p.refresh nowMs
  (p.current.any fun o => o.stage = .waiting, p)

def setNearby (crypto : Crypto) (token : Secret) (code : String) (nowMs : ℕ) (p : Pairings) :
    Except Error Unit × Pairings :=
  match p.waiting nowMs with
  | (false, p) => (.error .noPairing, p)
  | (true, p) =>
    match p.current with
    | none => (.error .noPairing, p)
    | some o =>
      if maxNearbyReveals ≤ o.nearbyReveals then (.error .nearbyExhausted, p)
      else (.ok (), { p with
        current := some { o with
          nearbyReveals := o.nearbyReveals + 1
          nearby := some ⟨crypto.sha256 token, code, saturatingAdd nowMs tokenTtlMs⟩ } })

def claimedFrom (claim : ClaimId) (origin : String) (p : Pairings) : Pairings :=
  match p.current with
  | some o =>
    match o.stage with
    | .claimed id device code deadlineMs =>
      if id = claim then
        { p with current := some { o with
          stage := .claimed id { device with app := some origin } code deadlineMs } }
      else p
    | _ => p
  | none => p

def find (id : PairingId) (p : Pairings) : Option Open := p.current.filter fun o => o.id = id

def state (id : PairingId) (nowMs : ℕ) (p : Pairings) : Except Error PairingState × Pairings :=
  match p.find id with
  | none => (.error .unknownPairing, p)
  | some o =>
    let p := refreshed o p.outcomes nowMs
    (.ok ((p.current.getD o).view nowMs), p)

def claimStatus (id : ClaimId) (nowMs : ℕ) (p : Pairings) : Except Error PairingState × Pairings :=
  let p := p.refresh nowMs
  let underway := p.current.bind fun o =>
    match o.stage with
    | .claimed claim _ _ _ => if claim = id then some (o.view nowMs) else none
    | _ => none
  match underway with
  | some state => (.ok state, p)
  | none =>
    match p.outcomes.reverse.find? fun outcome => outcome.1 = id with
    | some outcome => (.ok outcome.2, p)
    | none => (.error .unknownClaim, p)

def answer {σ : Type} (id : PairingId) (allow : Bool) (nowMs : ℕ)
    (keep : NewDevice → σ → Except Error Unit × σ) (p : Pairings) (kept : σ) :
    Except Error (Option NewDevice) × Pairings × σ :=
  match p.find id with
  | none => (.error .unknownPairing, p, kept)
  | some o =>
    let p := refreshed o p.outcomes nowMs
    let o := p.current.getD o
    match o.stage with
    | .claimed _ device _ _ =>
      if allow then
        match keep device kept with
        | (.error error, kept) => (.error error, settle o p.outcomes .denied, kept)
        | (.ok (), kept) =>
          (.ok (some device), settle o p.outcomes (.approved device.id), kept)
      else (.ok none, settle o p.outcomes .denied, kept)
    | _ => (.error .notClaimed, p, kept)

def cancel (id : PairingId) (p : Pairings) : Except Error Unit × Pairings :=
  match p.find id with
  | none => (.error .unknownPairing, p)
  | some _ => (.ok (), p.close)

end Pairings

structure NearbySession where
  id : String
  expiresMs : ℕ

namespace NearbySessions

def start (phoneKey : String) (crypto : Crypto) (nowMs : ℕ) (id : Option String)
    (s : List NearbySession) : Except Error String × List NearbySession :=
  match crypto.key phoneKey with
  | .error error => (.error error, s)
  | .ok _ =>
    let s := s.filter fun session => nowMs < session.expiresMs
    if maxNearbySessions ≤ s.length then (.error .nearbyBusy, s)
    else match id with
    | none => (.error .random, s)
    | some id => (.ok id, s ++ [⟨id, saturatingAdd nowMs nearbyTtlMs⟩])

def take (id : String) (nowMs : ℕ) (s : List NearbySession) :
    Except Error Unit × List NearbySession :=
  let s := s.filter fun session => nowMs < session.expiresMs
  if s.any fun session => session.id = id then (.ok (), s.eraseP fun session => session.id = id)
  else (.error .unknownNearby, s)

end NearbySessions

end Sheprd.Auth
