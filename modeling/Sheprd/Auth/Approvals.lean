import Sheprd.Auth.Tokens
import Mathlib.Logic.Relation

set_option linter.dupNamespace false

namespace Sheprd.Auth

open Sheprd.Lib

structure Offered where
  pairing : PairingId
  token : Secret
  expiresMs : ℕ
  isSealed : Bool

structure Accepted where
  pairing : PairingId
  token : Secret
  claim : ClaimId
  code : String
  deadlineMs : ℕ
  nowMs : ℕ

structure Approved where
  pairing : PairingId
  claim : ClaimId
  shown : String
  device : DeviceId
  nowMs : ℕ

structure PairingLog where
  offers : List Offered
  accepts : List Accepted
  approvals : List Approved

section History

variable (crypto : Crypto) (codec : Codec)

def heldClaim (p : Pairings) : Option ClaimId :=
  p.current.bind fun o =>
    match o.stage with
    | .claimed claim _ _ _ => some claim
    | _ => none

def logOffer (log : PairingLog) (offer : Option Offered) : PairingLog :=
  { log with offers := log.offers ++ offer.toList }

def logAccept (log : PairingLog) (accept : Option Accepted) : PairingLog :=
  { log with accepts := log.accepts ++ accept.toList }

def logApproval (log : PairingLog) (approval : Option Approved) : PairingLog :=
  { log with approvals := log.approvals ++ approval.toList }

def accepted (o : Open) (token : Secret) (nowMs : ℕ) : Except Error Claim → Option Accepted
  | .ok made => some ⟨o.id, token, made.id, made.code, made.expiresMs, nowMs⟩
  | .error _ => none

def revealed (o : Open) (token : Secret) (nowMs : ℕ) : Except Error Unit → Option Offered
  | .ok () => some ⟨o.id, token, saturatingAdd nowMs tokenTtlMs, true⟩
  | .error _ => none

def approved (id : PairingId) (claim : ClaimId) (shown : String) (nowMs : ℕ) :
    Except Error PairingState → Option Approved
  | .ok (.approved device) => some ⟨id, claim, shown, device, nowMs⟩
  | _ => none

def pairingLog (a : Auth) (log : PairingLog) : AuthOp → PairingLog
  | .mint nowMs origins fingerprint token id =>
    logOffer log <|
      match (a.pairings.mint nowMs origins fingerprint crypto token id).1 with
      | .ok offer => some ⟨offer.id, offer.token, saturatingAdd nowMs tokenTtlMs, false⟩
      | .error _ => none
  | .nearbyReveal session nowMs token code =>
    logOffer log <|
      match token, a.pairings.current with
      | some token, some o => revealed o token nowMs (a.nearbyReveal crypto session nowMs (some token) code).1
      | _, _ => none
  | .claim admitted token name key nowMs nonce claim device =>
    logAccept log <|
      match token, a.pairings.current with
      | some token, some o =>
        accepted o token nowMs (a.claim crypto admitted (some token) name key nowMs nonce claim device).1
      | _, _ => none
  | .answer id allow shown hosts nowMs fault =>
    logApproval log <|
      match heldClaim a.pairings with
      | some claim =>
        approved id claim shown nowMs (a.answerWithHosts codec id allow shown hosts nowMs fault).1
      | none => none
  | _ => log

end History

def FreshDraws (log : PairingLog) : AuthOp → Prop
  | .mint _ _ _ token id =>
    (∀ t, token = some t → t ∉ log.offers.map Offered.token) ∧
      ∀ i, id = some i → i ∉ log.offers.map Offered.pairing
  | .nearbyReveal _ _ token _ => ∀ t, token = some t → t ∉ log.offers.map Offered.token
  | .claim _ _ _ _ _ _ claim _ => ∀ c, claim = some c → c ∉ log.accepts.map Accepted.claim
  | _ => True

structure PairingWorld where
  p : Pairings
  log : PairingLog

inductive Move (crypto : Crypto) : PairingWorld → PairingWorld → Prop
  | expire {o : Open} {outcomes : List Outcome} {log : PairingLog} (waiting : o.stage = .waiting) :
      Move crypto ⟨⟨some o, outcomes⟩, log⟩
        ⟨⟨some { o with stage := .finished none .expired }, outcomes⟩, log⟩
  | settle {o : Open} {outcomes : List Outcome} {log : PairingLog} {claim : ClaimId}
      {device : NewDevice} {code : String} {deadlineMs : ℕ} {state : PairingState}
      (claimed : o.stage = .claimed claim device code deadlineMs)
      (unstored : state = .denied ∨ state = .expired) :
      Move crypto ⟨⟨some o, outcomes⟩, log⟩ ⟨.settle o outcomes state, log⟩
  | approve {o : Open} {outcomes : List Outcome} {log : PairingLog} {claim : ClaimId}
      {device : NewDevice} {shown : String} {deadlineMs nowMs : ℕ}
      (claimed : o.stage = .claimed claim device shown deadlineMs) (inTime : nowMs < deadlineMs) :
      Move crypto ⟨⟨some o, outcomes⟩, log⟩
        ⟨.settle o outcomes (.approved device.id),
          logApproval log (some ⟨o.id, claim, shown, device.id, nowMs⟩)⟩
  | drop {o : Open} {outcomes : List Outcome} {log : PairingLog} :
      (∀ claim device code deadlineMs, o.stage ≠ .claimed claim device code deadlineMs) →
      Move crypto ⟨⟨some o, outcomes⟩, log⟩ ⟨⟨none, outcomes⟩, log⟩
  | mint {outcomes : List Outcome} {log : PairingLog} {id : PairingId} {token : Secret}
      {expiresMs : ℕ} (new : token ∉ log.offers.map Offered.token)
      (fresh : id ∉ log.offers.map Offered.pairing) :
      Move crypto ⟨⟨none, outcomes⟩, log⟩
        ⟨⟨some ⟨id, crypto.sha256 token, expiresMs, none, 0, .waiting⟩, outcomes⟩,
          logOffer log (some ⟨id, token, expiresMs, false⟩)⟩
  | rotate {o : Open} {outcomes : List Outcome} {log : PairingLog} {token : Secret} {expiresMs : ℕ}
      (new : token ∉ log.offers.map Offered.token) (unclaimed : o.unclaimed = true) :
      Move crypto ⟨⟨some o, outcomes⟩, log⟩
        ⟨⟨some ⟨o.id, crypto.sha256 token, expiresMs, o.nearby, o.nearbyReveals, .waiting⟩, outcomes⟩,
          logOffer log (some ⟨o.id, token, expiresMs, false⟩)⟩
  | accept {o : Open} {outcomes : List Outcome} {log : PairingLog} {token : Secret} {claim : ClaimId}
      {device : NewDevice} {code : String} {deadlineMs nowMs : ℕ} {left : Option NearbyToken}
      (waiting : o.stage = .waiting) (new : claim ∉ log.accepts.map Accepted.claim)
      (kept : left = none ∨ left = o.nearby)
      (live : (o.tokenDigest = crypto.sha256 token ∧ nowMs < o.tokenExpiresMs) ∨
        ∃ nearby, o.nearby = some nearby ∧ nearby.digest = crypto.sha256 token ∧
          nowMs < nearby.expiresMs) :
      Move crypto ⟨⟨some o, outcomes⟩, log⟩
        ⟨⟨some { o with nearby := left, stage := .claimed claim device code deadlineMs }, outcomes⟩,
          logAccept log (some ⟨o.id, token, claim, code, deadlineMs, nowMs⟩)⟩
  | reveal {o : Open} {outcomes : List Outcome} {log : PairingLog} {token : Secret} {code : String}
      {expiresMs : ℕ} (waiting : o.stage = .waiting) (new : token ∉ log.offers.map Offered.token)
      (few : o.nearbyReveals < maxNearbyReveals) :
      Move crypto ⟨⟨some o, outcomes⟩, log⟩
        ⟨⟨some { o with
            nearbyReveals := o.nearbyReveals + 1
            nearby := some ⟨crypto.sha256 token, code, expiresMs⟩ }, outcomes⟩,
          logOffer log (some ⟨o.id, token, expiresMs, true⟩)⟩
  | claimedFrom {o : Open} {outcomes : List Outcome} {log : PairingLog} {claim : ClaimId}
      {device device' : NewDevice} {code : String} {deadlineMs : ℕ}
      (claimed : o.stage = .claimed claim device code deadlineMs) (same : device'.id = device.id) :
      Move crypto ⟨⟨some o, outcomes⟩, log⟩
        ⟨⟨some { o with stage := .claimed claim device' code deadlineMs }, outcomes⟩, log⟩

def sealedFor (offers : List Offered) (pairing : PairingId) : List Offered :=
  offers.filter fun offer => offer.isSealed && decide (offer.pairing = pairing)

structure LogInv (log : PairingLog) : Prop where
  tokens : (log.offers.map Offered.token).Nodup
  accepts : ∀ accept ∈ log.accepts, ∃ offer ∈ log.offers, offer.token = accept.token ∧
    offer.pairing = accept.pairing ∧ accept.nowMs < offer.expiresMs
  once : (log.accepts.map Accepted.pairing).Nodup
  claims : (log.accepts.map Accepted.claim).Nodup
  reveals : ∀ pairing, (sealedFor log.offers pairing).length ≤ maxNearbyReveals
  approvals : ∀ approval ∈ log.approvals, ∃ accept ∈ log.accepts,
    accept.pairing = approval.pairing ∧ accept.claim = approval.claim ∧
      accept.code = approval.shown ∧ approval.nowMs < accept.deadlineMs

structure OpenInv (crypto : Crypto) (log : PairingLog) (o : Open) : Prop where
  token : ∃ offer ∈ log.offers, crypto.sha256 offer.token = o.tokenDigest ∧ offer.pairing = o.id ∧
    offer.expiresMs = o.tokenExpiresMs
  nearby : ∀ nearby, o.nearby = some nearby → ∃ offer ∈ log.offers,
    crypto.sha256 offer.token = nearby.digest ∧ offer.pairing = o.id ∧
      offer.expiresMs = nearby.expiresMs
  reveals : (sealedFor log.offers o.id).length = o.nearbyReveals
  unclaimed : o.unclaimed = true → o.id ∉ log.accepts.map Accepted.pairing
  claimed : ∀ claim device code deadlineMs, o.stage = .claimed claim device code deadlineMs →
    ∃ accept ∈ log.accepts, accept.pairing = o.id ∧ accept.claim = claim ∧ accept.code = code ∧
      accept.deadlineMs = deadlineMs

structure OutcomeInv (log : PairingLog) (p : Pairings) : Prop where
  claims : ∀ outcome ∈ p.outcomes, outcome.1 ∈ log.accepts.map Accepted.claim
  approved : ∀ outcome ∈ p.outcomes, ∀ device, outcome.2 = .approved device →
    ∃ approval ∈ log.approvals, approval.claim = outcome.1 ∧ approval.device = device
  once : (p.outcomes.map Prod.fst).Nodup
  held : ∀ claim, heldClaim p = some claim → claim ∉ p.outcomes.map Prod.fst

structure PairingInv (crypto : Crypto) (w : PairingWorld) : Prop where
  log : LogInv w.log
  current : ∀ o, w.p.current = some o → OpenInv crypto w.log o
  outcomes : OutcomeInv w.log w.p

lemma remember_sublist (outcomes : List Outcome) (outcome : Outcome) :
    (remember outcomes outcome).Sublist (outcomes ++ [outcome]) := by
  rw [remember]
  split
  · exact (List.tail_sublist _).append_right _
  · exact List.Sublist.refl _

lemma nodup_snoc {α : Type} {l : List α} {x : α} (hl : l.Nodup) (hx : x ∉ l) : (l ++ [x]).Nodup := by
  rw [← List.concat_eq_append]
  exact hl.concat hx

lemma settle_claimed {o : Open} {outcomes : List Outcome} {claim : ClaimId} {device : NewDevice}
    {code : String} {deadlineMs : ℕ} {state : PairingState}
    (h : o.stage = .claimed claim device code deadlineMs) :
    Pairings.settle o outcomes state =
      ⟨some { o with stage := .finished (some claim) state }, remember outcomes (claim, state)⟩ := by
  rw [Pairings.settle, h]

section Log

variable {crypto : Crypto} {log : PairingLog} {o : Open} {outcomes : List Outcome}

lemma OpenInv.more {log' : PairingLog} (h : OpenInv crypto log o)
    (hoffers : log.offers ⊆ log'.offers) (hsealed : sealedFor log'.offers o.id = sealedFor log.offers o.id)
    (haccepts : log'.accepts = log.accepts) : OpenInv crypto log' o := by
  obtain ⟨offer, hm, ht⟩ := h.token
  refine ⟨⟨offer, hoffers hm, ht⟩, ?_, hsealed ▸ h.reveals, haccepts ▸ h.unclaimed,
    haccepts ▸ h.claimed⟩
  intro nearby hn
  obtain ⟨offer, hm, ht⟩ := h.nearby nearby hn
  exact ⟨offer, hoffers hm, ht⟩

lemma OpenInv.staged {stage : Stage} (h : OpenInv crypto log o)
    (hunclaimed : { o with stage }.unclaimed = true → o.unclaimed = true)
    (hclaimed : ∀ claim device code deadlineMs, stage = .claimed claim device code deadlineMs →
      ∃ accept ∈ log.accepts, accept.pairing = o.id ∧ accept.claim = claim ∧ accept.code = code ∧
        accept.deadlineMs = deadlineMs) : OpenInv crypto log { o with stage } :=
  ⟨h.token, h.nearby, h.reveals, fun hu => h.unclaimed (hunclaimed hu), hclaimed⟩

lemma sealedFor_minted (offers : List Offered) (pairing : PairingId) (offer : Offered)
    (h : offer.isSealed = false) :
    sealedFor (offers ++ [offer]) pairing = sealedFor offers pairing := by
  simp [sealedFor, h]

lemma sealedFor_of_fresh {offers : List Offered} {pairing : PairingId}
    (h : pairing ∉ offers.map Offered.pairing) : sealedFor offers pairing = [] := by
  rw [sealedFor, List.filter_eq_nil_iff]
  intro offer hm
  have hne : offer.pairing ≠ pairing := fun heq => h (List.mem_map.mpr ⟨offer, hm, heq⟩)
  simp [hne]

lemma LogInv.offer {offer : Offered} (h : LogInv log)
    (hnew : offer.token ∉ log.offers.map Offered.token)
    (hreveals : ∀ pairing, (sealedFor (log.offers ++ [offer]) pairing).length ≤ maxNearbyReveals) :
    LogInv (logOffer log (some offer)) := by
  refine ⟨?_, ?_, h.once, h.claims, hreveals, h.approvals⟩
  · change ((log.offers ++ [offer]).map Offered.token).Nodup
    rw [List.map_append, List.map_singleton]
    exact nodup_snoc h.tokens hnew
  · intro accept hm
    obtain ⟨offer', hm', hrest⟩ := h.accepts accept hm
    exact ⟨offer', List.mem_append_left _ hm', hrest⟩

lemma LogInv.accept {accept : Accepted} (h : LogInv log)
    (hoffer : ∃ offer ∈ log.offers, offer.token = accept.token ∧ offer.pairing = accept.pairing ∧
      accept.nowMs < offer.expiresMs)
    (honce : accept.pairing ∉ log.accepts.map Accepted.pairing)
    (hclaim : accept.claim ∉ log.accepts.map Accepted.claim) :
    LogInv (logAccept log (some accept)) := by
  refine ⟨h.tokens, ?_, ?_, ?_, h.reveals, ?_⟩
  · intro known hm
    rcases List.mem_append.mp hm with hm | hm
    · exact h.accepts known hm
    · obtain rfl := List.mem_singleton.mp hm
      exact hoffer
  · change ((log.accepts ++ [accept]).map Accepted.pairing).Nodup
    rw [List.map_append, List.map_singleton]
    exact nodup_snoc h.once honce
  · change ((log.accepts ++ [accept]).map Accepted.claim).Nodup
    rw [List.map_append, List.map_singleton]
    exact nodup_snoc h.claims hclaim
  · intro approval hm
    obtain ⟨known, ha, hrest⟩ := h.approvals approval hm
    exact ⟨known, List.mem_append_left _ ha, hrest⟩

lemma LogInv.approve {approval : Approved} (h : LogInv log)
    (haccept : ∃ accept ∈ log.accepts, accept.pairing = approval.pairing ∧
      accept.claim = approval.claim ∧ accept.code = approval.shown ∧
        approval.nowMs < accept.deadlineMs) : LogInv (logApproval log (some approval)) := by
  refine ⟨h.tokens, h.accepts, h.once, h.claims, h.reveals, fun known hm => ?_⟩
  rcases List.mem_append.mp hm with hm | hm
  · exact h.approvals known hm
  · obtain rfl := List.mem_singleton.mp hm
    exact haccept

lemma LogInv.mint {offer : Offered} (h : LogInv log) (hopen : offer.isSealed = false)
    (hnew : offer.token ∉ log.offers.map Offered.token) : LogInv (logOffer log (some offer)) := by
  refine h.offer hnew fun pairing => ?_
  rw [sealedFor_minted _ _ _ hopen]
  exact h.reveals pairing

lemma OpenInv.minted {id : PairingId} {token : Secret} {expiresMs : ℕ} (h : LogInv log)
    (hfresh : id ∉ log.offers.map Offered.pairing) :
    OpenInv crypto (logOffer log (some ⟨id, token, expiresMs, false⟩))
      ⟨id, crypto.sha256 token, expiresMs, none, 0, .waiting⟩ := by
  refine ⟨⟨_, List.mem_append_right _ (List.mem_singleton_self _), rfl, rfl, rfl⟩, ?_, ?_, ?_, ?_⟩
  · exact fun _ hn => by cases hn
  · change (sealedFor (log.offers ++ [_]) id).length = 0
    rw [sealedFor_minted _ _ _ rfl, sealedFor_of_fresh hfresh]
    rfl
  · intro _ hm
    obtain ⟨accept, ha, hp⟩ := List.mem_map.mp hm
    obtain ⟨offer, ho, -, hpairing, -⟩ := h.accepts accept ha
    exact hfresh (List.mem_map.mpr ⟨offer, ho, hpairing.trans hp⟩)
  · exact fun _ _ _ _ he => by cases he

lemma OpenInv.rotated {token : Secret} {expiresMs : ℕ} (h : OpenInv crypto log o)
    (hunclaimed : o.unclaimed = true) :
    OpenInv crypto (logOffer log (some ⟨o.id, token, expiresMs, false⟩))
      ⟨o.id, crypto.sha256 token, expiresMs, o.nearby, o.nearbyReveals, .waiting⟩ := by
  refine ⟨⟨_, List.mem_append_right _ (List.mem_singleton_self _), rfl, rfl, rfl⟩, ?_, ?_, ?_, ?_⟩
  · intro nearby hn
    obtain ⟨offer, hm, hrest⟩ := h.nearby nearby hn
    exact ⟨offer, List.mem_append_left _ hm, hrest⟩
  · change (sealedFor (log.offers ++ [_]) o.id).length = o.nearbyReveals
    rw [sealedFor_minted _ _ _ rfl]
    exact h.reveals
  · exact fun _ => h.unclaimed hunclaimed
  · exact fun _ _ _ _ he => by cases he

lemma OpenInv.accepted {token : Secret} {claim : ClaimId} {device : NewDevice} {code : String}
    {deadlineMs nowMs : ℕ} {left : Option NearbyToken} (h : OpenInv crypto log o)
    (hleft : left = none ∨ left = o.nearby) :
    OpenInv crypto (logAccept log (some ⟨o.id, token, claim, code, deadlineMs, nowMs⟩))
      { o with nearby := left, stage := .claimed claim device code deadlineMs } := by
  refine ⟨h.token, ?_, h.reveals, fun hu => by simp [Open.unclaimed] at hu, ?_⟩
  · intro nearby hn
    rcases hleft with rfl | rfl
    · cases hn
    · exact h.nearby nearby hn
  · rintro _ _ _ _ ⟨⟩
    exact ⟨_, List.mem_append_right _ (List.mem_singleton_self _), rfl, rfl, rfl, rfl⟩

lemma OpenInv.offered (h : OpenInv crypto log o) (hsha : Function.Injective crypto.sha256)
    {token : Secret} {nowMs : ℕ}
    (hlive : (o.tokenDigest = crypto.sha256 token ∧ nowMs < o.tokenExpiresMs) ∨
      ∃ nearby, o.nearby = some nearby ∧ nearby.digest = crypto.sha256 token ∧
        nowMs < nearby.expiresMs) :
    ∃ offer ∈ log.offers, offer.token = token ∧ offer.pairing = o.id ∧ nowMs < offer.expiresMs := by
  rcases hlive with ⟨hd, hlt⟩ | ⟨nearby, hn, hd, hlt⟩
  · obtain ⟨offer, hm, ht, hp, he⟩ := h.token
    exact ⟨offer, hm, hsha (ht.trans hd), hp, he ▸ hlt⟩
  · obtain ⟨offer, hm, ht, hp, he⟩ := h.nearby nearby hn
    exact ⟨offer, hm, hsha (ht.trans hd), hp, he ▸ hlt⟩

lemma sealedFor_revealed (offers : List Offered) (offer : Offered) (h : offer.isSealed = true)
    (pairing : PairingId) : sealedFor (offers ++ [offer]) pairing =
      sealedFor offers pairing ++ if offer.pairing = pairing then [offer] else [] := by
  rw [sealedFor, List.filter_append]
  by_cases hp : offer.pairing = pairing
  · simp [sealedFor, h, hp]
  · simp [sealedFor, hp]

lemma LogInv.reveal {token : Secret} {expiresMs : ℕ} (h : LogInv log) (ho : OpenInv crypto log o)
    (hnew : token ∉ log.offers.map Offered.token) (hfew : o.nearbyReveals < maxNearbyReveals) :
    LogInv (logOffer log (some ⟨o.id, token, expiresMs, true⟩)) := by
  refine h.offer hnew fun pairing => ?_
  rw [sealedFor_revealed _ _ rfl]
  split
  · rename_i hp
    obtain rfl : o.id = pairing := hp
    rw [List.length_append, ho.reveals]
    exact hfew
  · rw [List.append_nil]
    exact h.reveals pairing

lemma OpenInv.revealed {token : Secret} {code : String} {expiresMs : ℕ} (h : OpenInv crypto log o) :
    OpenInv crypto (logOffer log (some ⟨o.id, token, expiresMs, true⟩))
      { o with
        nearbyReveals := o.nearbyReveals + 1
        nearby := some ⟨crypto.sha256 token, code, expiresMs⟩ } := by
  obtain ⟨offer, hm, hrest⟩ := h.token
  refine ⟨⟨offer, List.mem_append_left _ hm, hrest⟩, ?_, ?_, h.unclaimed, h.claimed⟩
  · rintro _ ⟨⟩
    exact ⟨_, List.mem_append_right _ (List.mem_singleton_self _), rfl, rfl, rfl⟩
  · change (sealedFor (log.offers ++ [_]) o.id).length = o.nearbyReveals + 1
    rw [sealedFor_revealed _ _ rfl, if_pos rfl, List.length_append, h.reveals]
    rfl

lemma OutcomeInv.more {log' : PairingLog} {p p' : Pairings} (h : OutcomeInv log p)
    (hout : p'.outcomes = p.outcomes) (haccepts : log.accepts ⊆ log'.accepts)
    (happrovals : log'.approvals = log.approvals)
    (hheld : ∀ claim, heldClaim p' = some claim → claim ∉ p.outcomes.map Prod.fst) :
    OutcomeInv log' p' := by
  refine ⟨?_, ?_, hout ▸ h.once, hout ▸ hheld⟩
  · intro outcome hm
    rw [hout] at hm
    obtain ⟨accept, ha, hc⟩ := List.mem_map.mp (h.claims outcome hm)
    exact List.mem_map.mpr ⟨accept, haccepts ha, hc⟩
  · intro outcome hm
    rw [hout] at hm
    rw [happrovals]
    exact h.approved outcome hm

lemma OutcomeInv.settle {log' : PairingLog} {claim : ClaimId} {device : NewDevice} {code : String}
    {deadlineMs : ℕ} {state : PairingState} (h : OutcomeInv log ⟨some o, outcomes⟩)
    (hc : o.stage = .claimed claim device code deadlineMs)
    (haccepted : claim ∈ log.accepts.map Accepted.claim) (haccepts : log'.accepts = log.accepts)
    (happrovals : log.approvals ⊆ log'.approvals)
    (hstate : ∀ device, state = .approved device →
      ∃ approval ∈ log'.approvals, approval.claim = claim ∧ approval.device = device) :
    OutcomeInv log' (.settle o outcomes state) := by
  rw [settle_claimed hc]
  have hmem : ∀ outcome, outcome ∈ remember outcomes (claim, state) →
      outcome ∈ outcomes ∨ outcome = (claim, state) := by
    intro outcome hm
    simpa using (remember_sublist _ _).subset hm
  have hnew : claim ∉ outcomes.map Prod.fst := h.held claim (by simp [heldClaim, hc])
  refine ⟨?_, ?_, ?_, ?_⟩
  · intro outcome hm
    rw [haccepts]
    rcases hmem outcome hm with hm | rfl
    · exact h.claims outcome hm
    · exact haccepted
  · intro outcome hm device hd
    rcases hmem outcome hm with hm | rfl
    · obtain ⟨approval, ha, hrest⟩ := h.approved outcome hm device hd
      exact ⟨approval, happrovals ha, hrest⟩
    · exact hstate device hd
  · have hsub := (remember_sublist outcomes (claim, state)).map Prod.fst
    rw [List.map_append, List.map_singleton] at hsub
    exact hsub.nodup (nodup_snoc h.once hnew)
  · intro claim' hheld
    simp [heldClaim] at hheld

end Log

variable {crypto : Crypto}

lemma PairingInv.move {w w' : PairingWorld} (hsha : Function.Injective crypto.sha256)
    (h : PairingInv crypto w) (hm : Move crypto w w') : PairingInv crypto w' := by
  cases hm with
  | @expire o outcomes log waiting =>
    refine ⟨h.log, ?_, h.outcomes.more rfl (fun _ h => h) rfl (by simp [heldClaim])⟩
    rintro _ ⟨⟩
    apply (h.current o rfl).staged
    · intro _
      rw [Open.unclaimed, waiting]
    · exact fun _ _ _ _ he => by cases he
  | @settle o outcomes log claim device code deadlineMs state claimed unstored =>
    have ho := h.current o rfl
    obtain ⟨accept, ha, -, hclaim, -⟩ := ho.claimed _ _ _ _ claimed
    refine ⟨h.log, ?_, ?_⟩
    · rw [settle_claimed claimed]
      rintro _ ⟨⟩
      exact ho.staged (fun hu => by simp [Open.unclaimed] at hu) fun _ _ _ _ he => by cases he
    · refine h.outcomes.settle claimed (List.mem_map.mpr ⟨accept, ha, hclaim⟩) rfl (fun _ h => h) ?_
      rintro device rfl
      rcases unstored with he | he
      · cases he
      · cases he
  | @approve o outcomes log claim device shown deadlineMs nowMs claimed inTime =>
    have ho := h.current o rfl
    obtain ⟨accept, ha, hpairing, hclaim, hcode, hdeadline⟩ := ho.claimed _ _ _ _ claimed
    refine ⟨h.log.approve ⟨accept, ha, hpairing, hclaim, hcode, hdeadline ▸ inTime⟩, ?_, ?_⟩
    · rw [settle_claimed claimed]
      rintro _ ⟨⟩
      refine OpenInv.staged (ho.more (fun _ h => h) rfl rfl) ?_ ?_
      · intro hu
        simp [Open.unclaimed] at hu
      · exact fun _ _ _ _ he => by cases he
    · refine h.outcomes.settle claimed (List.mem_map.mpr ⟨accept, ha, hclaim⟩) rfl
        (List.subset_append_left _ _) ?_
      rintro _ ⟨⟩
      exact ⟨_, List.mem_append_right _ (List.mem_singleton_self _), rfl, rfl⟩
  | drop _ =>
    refine ⟨h.log, ?_, h.outcomes.more rfl (fun _ h => h) rfl (by simp [heldClaim])⟩
    rintro _ ⟨⟩
  | @mint outcomes log id token expiresMs new fresh =>
    refine ⟨h.log.mint rfl new, ?_, h.outcomes.more rfl (fun _ h => h) rfl (by simp [heldClaim])⟩
    rintro _ ⟨⟩
    exact .minted h.log fresh
  | @rotate o outcomes log token expiresMs new unclaimed =>
    refine ⟨h.log.mint rfl new, ?_, h.outcomes.more rfl (fun _ h => h) rfl (by simp [heldClaim])⟩
    rintro _ ⟨⟩
    exact (h.current o rfl).rotated unclaimed
  | @accept o outcomes log token claim device code deadlineMs nowMs left waiting new kept live =>
    have ho := h.current o rfl
    have hfree := ho.unclaimed (by rw [Open.unclaimed, waiting])
    refine ⟨h.log.accept (ho.offered hsha live) hfree new, ?_, ?_⟩
    · rintro _ ⟨⟩
      exact ho.accepted kept
    · refine h.outcomes.more rfl (List.subset_append_left _ _) rfl ?_
      intro claim' hheld hm
      obtain rfl : claim = claim' := by simpa [heldClaim] using hheld
      obtain ⟨outcome, ho, rfl⟩ := List.mem_map.mp hm
      exact new (h.outcomes.claims outcome ho)
  | @reveal o outcomes log token code expiresMs waiting new few =>
    have ho := h.current o rfl
    refine ⟨h.log.reveal ho new few, ?_, h.outcomes.more rfl (fun _ h => h) rfl ?_⟩
    · rintro _ ⟨⟩
      exact ho.revealed
    · simp [heldClaim, waiting]
  | @claimedFrom o outcomes log claim device device' code deadlineMs claimed same =>
    have ho := h.current o rfl
    refine ⟨h.log, ?_, h.outcomes.more rfl (fun _ h => h) rfl ?_⟩
    · rintro _ ⟨⟩
      refine ho.staged (fun hu => by simp [Open.unclaimed] at hu) ?_
      rintro _ _ _ _ ⟨⟩
      exact ho.claimed _ _ _ _ claimed
    · intro claim' hheld
      obtain rfl : claim = claim' := by simpa [heldClaim] using hheld
      exact h.outcomes.held claim (by simp [heldClaim, claimed])

abbrev Moves (crypto : Crypto) : PairingWorld → PairingWorld → Prop :=
  Relation.ReflTransGen (Move crypto)

lemma PairingInv.moves {w w' : PairingWorld} (hsha : Function.Injective crypto.sha256)
    (h : PairingInv crypto w) (hm : Moves crypto w w') : PairingInv crypto w' := by
  induction hm with
  | refl => exact h
  | tail _ hm ih => exact ih.move hsha hm

section Moves

variable (log : PairingLog) (o : Open) (outcomes : List Outcome) (p : Pairings) (nowMs : ℕ)

lemma voided_moves {state : PairingState} (h : state = .denied ∨ state = .expired) :
    Moves crypto ⟨⟨some o, outcomes⟩, log⟩ ⟨.settle o outcomes state, log⟩ := by
  cases hs : o.stage with
  | claimed claim device code deadlineMs => exact .single (.settle hs h)
  | waiting =>
    rw [Pairings.settle, hs]
  | finished claim state =>
    rw [Pairings.settle, hs]

lemma refreshed_moves :
    Moves crypto ⟨⟨some o, outcomes⟩, log⟩ ⟨.refreshed o outcomes nowMs, log⟩ := by
  cases hs : o.stage with
  | waiting =>
    rw [Pairings.refreshed, hs]
    dsimp only
    split
    · exact .single (.expire hs)
    · exact .refl
  | claimed claim device code deadlineMs =>
    rw [Pairings.refreshed, hs]
    dsimp only
    split
    · exact voided_moves log o outcomes (.inr rfl)
    · exact .refl
  | finished claim state =>
    rw [Pairings.refreshed, hs]

lemma refresh_moves : Moves crypto ⟨p, log⟩ ⟨p.refresh nowMs, log⟩ := by
  obtain ⟨_ | o, outcomes⟩ := p
  · exact .refl
  · exact refreshed_moves log o outcomes nowMs

lemma waiting_moves : Moves crypto ⟨p, log⟩ ⟨(p.waiting nowMs).2, log⟩ := refresh_moves log p nowMs

lemma settle_unclaimed {state : PairingState} {o' : Open}
    (h : (Pairings.settle o outcomes state).current = some o') (claim : ClaimId) (device : NewDevice)
    (code : String) (deadlineMs : ℕ) : o'.stage ≠ .claimed claim device code deadlineMs := by
  rw [Pairings.settle] at h
  split at h
  · cases h
    exact fun he => by cases he
  · rename_i hother
    cases h
    exact hother _ _ _ _

lemma close_moves : Moves crypto ⟨p, log⟩ ⟨p.close, log⟩ := by
  obtain ⟨_ | o, outcomes⟩ := p
  · exact .refl
  · have hvoided : Moves crypto ⟨⟨some o, outcomes⟩, log⟩ ⟨.settle o outcomes .denied, log⟩ :=
      voided_moves log o outcomes (.inl rfl)
    rw [Pairings.close]
    dsimp only
    cases hp : Pairings.settle o outcomes .denied with
    | mk current outcomes' =>
      rw [hp] at hvoided
      have hcurrent : (Pairings.settle o outcomes .denied).current = current := by rw [hp]
      cases current with
      | none => exact hvoided
      | some o' => exact hvoided.tail (.drop (settle_unclaimed o outcomes hcurrent))

lemma close_current : p.close.current = none := by
  obtain ⟨_ | o, outcomes⟩ := p
  · rfl
  · rfl

lemma state_moves (id : PairingId) : Moves crypto ⟨p, log⟩ ⟨(p.state id nowMs).2, log⟩ := by
  obtain ⟨_ | o, outcomes⟩ := p
  · exact .refl
  · by_cases hid : o.id = id
    · have hs : (Pairings.state id nowMs ⟨some o, outcomes⟩).2 = .refreshed o outcomes nowMs := by
        simp [Pairings.state, Pairings.find, Option.filter, hid]
      rw [hs]
      exact refreshed_moves log o outcomes nowMs
    · have hs : (Pairings.state id nowMs ⟨some o, outcomes⟩).2 = ⟨some o, outcomes⟩ := by
        simp [Pairings.state, Pairings.find, Option.filter, hid]
      rw [hs]

lemma claimStatus_pairings (id : ClaimId) : (p.claimStatus id nowMs).2 = p.refresh nowMs := by
  rw [Pairings.claimStatus]
  split
  · rfl
  · split
    · rfl
    · rfl

lemma claimStatus_moves (id : ClaimId) :
    Moves crypto ⟨p, log⟩ ⟨(p.claimStatus id nowMs).2, log⟩ := by
  rw [claimStatus_pairings]
  exact refresh_moves log p nowMs

lemma cancel_moves (id : PairingId) : Moves crypto ⟨p, log⟩ ⟨(p.cancel id).2, log⟩ := by
  rw [Pairings.cancel]
  split
  · exact .refl
  · exact close_moves log p

lemma claimedFrom_moves (claim : ClaimId) (origin : String) :
    Moves crypto ⟨p, log⟩ ⟨p.claimedFrom claim origin, log⟩ := by
  obtain ⟨_ | o, outcomes⟩ := p
  · exact .refl
  · rw [Pairings.claimedFrom]
    dsimp only
    split
    · rename_i id device code deadlineMs hs
      split
      · exact .single (.claimedFrom hs rfl)
      · exact .refl
    · exact .refl

lemma close_of_unclaimed (h : o.unclaimed = true) :
    Pairings.close ⟨some o, outcomes⟩ = ⟨none, outcomes⟩ := by
  rw [Pairings.close]
  dsimp only
  rw [Pairings.settle]
  split
  · rename_i hs
    simp [Open.unclaimed, hs] at h
  · rfl

lemma logOffer_none : logOffer log none = log := by
  simp [logOffer]

lemma logAccept_none : logAccept log none = log := by
  simp [logAccept]

lemma logApproval_none : logApproval log none = log := by
  simp [logApproval]

variable {log p}

lemma minted_moves {token : Secret} {id : PairingId} {expiresMs : ℕ}
    (htoken : token ∉ log.offers.map Offered.token) (hid : id ∉ log.offers.map Offered.pairing) :
    Moves crypto ⟨p, log⟩ ⟨{ p.close with
      current := some ⟨id, crypto.sha256 token, expiresMs, none, 0, .waiting⟩ },
      logOffer log (some ⟨id, token, expiresMs, false⟩)⟩ := by
  have hclose : Moves crypto ⟨p, log⟩ ⟨p.close, log⟩ := close_moves log p
  have hcurrent := close_current p
  generalize p.close = closed at hclose hcurrent ⊢
  obtain ⟨current, outcomes⟩ := closed
  obtain rfl : current = none := hcurrent
  exact hclose.tail (.mint htoken hid)

lemma mint_moves {origins : List String} {fingerprint : String} {token : Option Secret}
    {id : Option PairingId}
    (htoken : ∀ t, token = some t → t ∉ log.offers.map Offered.token)
    (hid : ∀ i, id = some i → i ∉ log.offers.map Offered.pairing) :
    Moves crypto ⟨p, log⟩ ⟨(p.mint nowMs origins fingerprint crypto token id).2,
      logOffer log <|
        match (p.mint nowMs origins fingerprint crypto token id).1 with
        | .ok offer => some ⟨offer.id, offer.token, saturatingAdd nowMs tokenTtlMs, false⟩
        | .error _ => none⟩ := by
  by_cases horigins : origins = []
  · simp only [Pairings.mint, horigins, if_true, logOffer_none]
    exact .refl
  · cases token with
    | none =>
      simp only [Pairings.mint, horigins, if_false, logOffer_none]
      exact .refl
    | some token =>
      have ht := htoken token rfl
      cases hp : p.current with
      | none =>
        cases id with
        | none =>
          simp only [Pairings.mint, horigins, if_false, hp, Option.map_none, logOffer_none]
          exact .refl
        | some id =>
          simp only [Pairings.mint, horigins, if_false, hp, Option.map_some]
          exact minted_moves ht (hid id rfl)
      | some o =>
        by_cases hu : o.unclaimed = true
        · simp only [Pairings.mint, horigins, if_false, hp, hu, if_true]
          obtain ⟨_, outcomes⟩ := p
          obtain rfl := hp
          rw [close_of_unclaimed o outcomes hu]
          exact .single (.rotate ht hu)
        · cases id with
          | none =>
            simp only [Pairings.mint, horigins, if_false, hp, hu, Bool.false_eq_true, Option.map_none,
              logOffer_none]
            exact .refl
          | some id =>
            simp only [Pairings.mint, horigins, if_false, hp, hu, Bool.false_eq_true, Option.map_some]
            exact minted_moves ht (hid id rfl)

variable {nowMs} {a : Auth}

lemma accept_cases {o : Open} {nearby : Bool} {token : Secret} {name key : String}
    {nonce : Option Secret} {claim : Option ClaimId} {device : Option DeviceId} :
    (∃ error, Pairings.accept o outcomes nearby crypto token name key nowMs nonce claim device =
      (.error error, ⟨some o, outcomes⟩)) ∨
    ∃ claim' device' code left deadlineMs, claim = some claim' ∧ (left = none ∨ left = o.nearby) ∧
      Pairings.accept o outcomes nearby crypto token name key nowMs nonce claim device =
        (.ok ⟨claim', code, deadlineMs⟩,
          ⟨some { o with nearby := left, stage := .claimed claim' device' code deadlineMs },
            outcomes⟩) := by
  unfold Pairings.accept
  cases deviceName name with
  | error e => exact .inl ⟨e, rfl⟩
  | ok name =>
    cases crypto.key key with
    | error e => exact .inl ⟨e, rfl⟩
    | ok key =>
      rcases nonce with _ | nonce
      · exact .inl ⟨.random, rfl⟩
      rcases claim with _ | claim
      · exact .inl ⟨.random, rfl⟩
      rcases device with _ | device
      · exact .inl ⟨.random, rfl⟩
      refine .inr ?_
      cases nearby with
      | false => exact ⟨claim, _, _, _, _, rfl, .inr rfl, rfl⟩
      | true =>
        cases o.nearby with
        | none => exact ⟨claim, _, _, _, _, rfl, .inl rfl, rfl⟩
        | some sealed => exact ⟨claim, _, _, _, _, rfl, .inl rfl, rfl⟩

lemma accept_moves {o : Open} {nearby : Bool} {token : Secret} {name key : String}
    {nonce : Option Secret} {claim : Option ClaimId} {device : Option DeviceId}
    (waiting : o.stage = .waiting)
    (live : (o.tokenDigest = crypto.sha256 token ∧ nowMs < o.tokenExpiresMs) ∨
      ∃ nearby, o.nearby = some nearby ∧ nearby.digest = crypto.sha256 token ∧
        nowMs < nearby.expiresMs)
    (new : ∀ c, claim = some c → c ∉ log.accepts.map Accepted.claim)
    {result : Except Error Claim × Pairings}
    (hr : Pairings.accept o outcomes nearby crypto token name key nowMs nonce claim device =
      result) :
    Moves crypto ⟨⟨some o, outcomes⟩, log⟩
      ⟨result.2, logAccept log (accepted o token nowMs result.1)⟩ := by
  subst hr
  rcases accept_cases outcomes with ⟨error, h⟩ | ⟨c, device, code, left, deadlineMs, hc, hleft, h⟩
  · rw [h, accepted, logAccept_none]
  · rw [h]
    exact .single (.accept waiting (new c hc) hleft live)

variable (nowMs) in
lemma refreshed_cases : (Pairings.refreshed o outcomes nowMs = ⟨some o, outcomes⟩ ∧
      ∀ claim device code deadlineMs, o.stage = .claimed claim device code deadlineMs →
        nowMs < deadlineMs) ∨
    ∃ claim outcomes', Pairings.refreshed o outcomes nowMs =
      ⟨some { o with stage := .finished claim .expired }, outcomes'⟩ := by
  cases hs : o.stage with
  | waiting =>
    rw [Pairings.refreshed, hs]
    dsimp only
    split
    · exact .inr ⟨none, outcomes, rfl⟩
    · exact .inl ⟨rfl, fun _ _ _ _ h => by cases h⟩
  | claimed claim device code deadlineMs =>
    rw [Pairings.refreshed, hs]
    dsimp only
    split
    · rw [settle_claimed hs]
      exact .inr ⟨claim, _, rfl⟩
    · rename_i hlt
      refine .inl ⟨rfl, ?_⟩
      rintro _ _ _ _ ⟨⟩
      exact not_le.mp hlt
  | finished claim state =>
    rw [Pairings.refreshed, hs]
    exact .inl ⟨rfl, fun _ _ _ _ h => by cases h⟩

lemma isNearby_iff {o : Open} {digest : Digest} :
    Pairings.isNearby o digest = true ↔ ∃ nearby, o.nearby = some nearby ∧ nearby.digest = digest := by
  cases h : o.nearby with
  | none => simp [Pairings.isNearby, h]
  | some nearby => simp [Pairings.isNearby, h]

lemma claim_moves {token : Secret} {name key : String} {nonce : Option Secret}
    {claim : Option ClaimId} {device : Option DeviceId}
    (new : ∀ c, claim = some c → c ∉ log.accepts.map Accepted.claim)
    {result : Except Error Claim × Pairings}
    (hr : Pairings.claim crypto (some token) name key nowMs nonce claim device ⟨some o, outcomes⟩ =
      result) :
    Moves crypto ⟨⟨some o, outcomes⟩, log⟩
      ⟨result.2, logAccept log (accepted o token nowMs result.1)⟩ := by
  unfold Pairings.claim at hr
  dsimp only at hr
  split at hr
  · subst hr
    rw [accepted, logAccept_none]
  rename_i hmatch
  have hmoves : Moves crypto ⟨⟨some o, outcomes⟩, log⟩ ⟨.refreshed o outcomes nowMs, log⟩ :=
    refreshed_moves log o outcomes nowMs
  rcases refreshed_cases o outcomes nowMs with ⟨h, -⟩ | ⟨claim, outcomes', h⟩
  · rw [h] at hr
    dsimp only at hr
    cases hs : o.stage with
    | waiting =>
      rw [hs] at hr
      dsimp only at hr
      split at hr
      · rename_i hnear
        obtain ⟨nearby, hn, hd⟩ := isNearby_iff.mp hnear
        split at hr
        · rename_i hlive
          exact accept_moves outcomes hs (.inr ⟨nearby, hn, hd, by simpa [hn] using hlive⟩) new hr
        · subst hr
          rw [accepted, logAccept_none]
      · rename_i hnear
        have hqr : o.tokenDigest = crypto.sha256 token := by
          by_contra hne
          exact hmatch ⟨by simpa using hnear, hne⟩
        split at hr
        · rename_i hlive
          exact accept_moves outcomes hs (.inl ⟨hqr, by simpa using hlive⟩) new hr
        · subst hr
          rw [accepted, logAccept_none]
    | claimed claim device code deadlineMs =>
      rw [hs] at hr
      dsimp only at hr
      subst hr
      rw [accepted, logAccept_none]
      exact voided_moves log o outcomes (.inl rfl)
    | finished claim state =>
      rw [hs] at hr
      cases claim with
      | none =>
        subst hr
        rw [accepted, logAccept_none]
      | some claim =>
        subst hr
        rw [accepted, logAccept_none]
  · rw [h] at hr hmoves
    cases claim with
    | none =>
      subst hr
      rw [accepted, logAccept_none]
      exact hmoves
    | some claim =>
      subst hr
      rw [accepted, logAccept_none]
      exact hmoves

variable (nowMs) in
lemma refreshed_current : ∃ stage outcomes', Pairings.refreshed o outcomes nowMs =
    ⟨some { o with stage }, outcomes'⟩ := by
  rcases refreshed_cases o outcomes nowMs with ⟨h, -⟩ | ⟨claim, outcomes', h⟩
  · exact ⟨o.stage, outcomes, h⟩
  · exact ⟨_, outcomes', h⟩

lemma setNearby_moves {token : Secret} {code : String} {result : Except Error Unit × Pairings}
    (htoken : token ∉ log.offers.map Offered.token)
    (hr : Pairings.setNearby crypto token code nowMs ⟨some o, outcomes⟩ = result) :
    Moves crypto ⟨⟨some o, outcomes⟩, log⟩
      ⟨result.2, logOffer log (revealed o token nowMs result.1)⟩ := by
  have hmoves : Moves crypto ⟨⟨some o, outcomes⟩, log⟩ ⟨.refreshed o outcomes nowMs, log⟩ :=
    refreshed_moves log o outcomes nowMs
  obtain ⟨stage, outcomes', h⟩ := refreshed_current o outcomes nowMs
  rw [h] at hmoves
  by_cases hs : stage = .waiting
  · subst hs
    simp only [Pairings.setNearby, Pairings.waiting, Pairings.refresh, h, Option.any_some,
      decide_true] at hr
    split at hr
    · subst hr
      rw [revealed, logOffer_none]
      exact hmoves
    · rename_i hfew
      subst hr
      exact hmoves.tail (.reveal rfl htoken (not_le.mp hfew))
  · simp only [Pairings.setNearby, Pairings.waiting, Pairings.refresh, h, Option.any_some, hs,
      decide_false] at hr
    subst hr
    rw [revealed, logOffer_none]
    exact hmoves

lemma nearbyReveal_moves {session : String} {token : Secret} {code : Option String}
    {result : Except Error Unit × Auth} (ha : a.pairings = ⟨some o, outcomes⟩)
    (htoken : token ∉ log.offers.map Offered.token)
    (hr : a.nearbyReveal crypto session nowMs (some token) code = result) :
    Moves crypto ⟨⟨some o, outcomes⟩, log⟩
      ⟨result.2.pairings, logOffer log (revealed o token nowMs result.1)⟩ := by
  have hmoves : Moves crypto ⟨⟨some o, outcomes⟩, log⟩ ⟨.refreshed o outcomes nowMs, log⟩ :=
    refreshed_moves log o outcomes nowMs
  obtain ⟨stage, outcomes', h⟩ := refreshed_current o outcomes nowMs
  have hwaiting : a.pairings.waiting nowMs =
      (decide (stage = .waiting), ⟨some { o with stage }, outcomes'⟩) := by
    simp only [Pairings.waiting, Pairings.refresh, ha, h, Option.any_some]
  rw [h] at hmoves
  unfold Auth.nearbyReveal at hr
  split at hr
  · subst hr
    rw [revealed, logOffer_none, ← ha]
  · rw [hwaiting] at hr
    by_cases hs : stage = .waiting
    · rw [decide_eq_true hs] at hr
      cases code with
      | none =>
        subst hr
        rw [revealed, logOffer_none]
        exact hmoves
      | some code =>
        subst hr
        exact hmoves.trans (setNearby_moves _ _ htoken rfl)
    · rw [decide_eq_false hs] at hr
      subst hr
      rw [revealed, logOffer_none]
      exact hmoves

lemma nearbyReveal_idle {session : String} {token : Option Secret} {code : Option String}
    (h : token = none ∨ a.pairings.current = none) :
    Moves crypto ⟨a.pairings, log⟩
      ⟨(a.nearbyReveal crypto session nowMs token code).2.pairings, log⟩ := by
  unfold Auth.nearbyReveal
  split
  · exact .refl
  · split
    · rename_i pairings hw
      obtain rfl : (a.pairings.waiting nowMs).2 = pairings := by rw [hw]
      exact waiting_moves log a.pairings nowMs
    · rename_i pairings hw
      obtain rfl : (a.pairings.waiting nowMs).2 = pairings := by rw [hw]
      rcases h with rfl | h
      · exact waiting_moves log a.pairings nowMs
      · simp [Pairings.waiting, Pairings.refresh, h] at hw

variable {σ : Type} {keep : NewDevice → σ → Except Error Unit × σ} {kept : σ} {id : PairingId}
  {allow : Bool}

lemma answer_claimed {claim : ClaimId} {device : NewDevice} {code : String} {deadlineMs : ℕ}
    (hid : o.id = id) (hr : Pairings.refreshed o outcomes nowMs = ⟨some o, outcomes⟩)
    (hs : o.stage = .claimed claim device code deadlineMs) :
    Pairings.answer id allow nowMs keep ⟨some o, outcomes⟩ kept =
      if allow then
        match keep device kept with
        | (.error error, kept) => (.error error, .settle o outcomes .denied, kept)
        | (.ok (), kept) => (.ok (some device), .settle o outcomes (.approved device.id), kept)
      else (.ok none, .settle o outcomes .denied, kept) := by
  rcases hk : keep device kept with ⟨error | _, after⟩
  all_goals
    simp only [Pairings.answer, Pairings.find, Option.filter_some, hid, decide_true, if_true, hr,
      Option.getD_some, hs, hk]

lemma answer_unclaimed {o' : Open} {outcomes' : List Outcome} (hid : o.id = id)
    (hr : Pairings.refreshed o outcomes nowMs = ⟨some o', outcomes'⟩)
    (hs : ∀ claim device code deadlineMs, o'.stage ≠ .claimed claim device code deadlineMs) :
    Pairings.answer id allow nowMs keep ⟨some o, outcomes⟩ kept =
      (.error .notClaimed, ⟨some o', outcomes'⟩, kept) := by
  simp only [Pairings.answer, Pairings.find, Option.filter_some, hid, decide_true, if_true, hr,
    Option.getD_some]

lemma answer_other (hid : ∀ o, p.current = some o → o.id ≠ id) :
    Pairings.answer id allow nowMs keep p kept = (.error .unknownPairing, p, kept) := by
  obtain ⟨_ | o, outcomes⟩ := p
  · rfl
  · have hne := hid o rfl
    simp only [Pairings.answer, Pairings.find, Option.filter_some, hne, decide_false,
      Bool.false_eq_true, if_false]

lemma state_same (hid : o.id = id) {o' : Open} {outcomes' : List Outcome}
    (hr : Pairings.refreshed o outcomes nowMs = ⟨some o', outcomes'⟩) :
    Pairings.state id nowMs ⟨some o, outcomes⟩ = (.ok (o'.view nowMs), ⟨some o', outcomes'⟩) := by
  simp only [Pairings.state, Pairings.find, Option.filter_some, hid, decide_true, if_true, hr,
    Option.getD_some]

lemma state_other (hid : ∀ o, p.current = some o → o.id ≠ id) :
    Pairings.state id nowMs p = (.error .unknownPairing, p) := by
  obtain ⟨_ | o, outcomes⟩ := p
  · rfl
  · have hne := hid o rfl
    simp only [Pairings.state, Pairings.find, Option.filter_some, hne, decide_false,
      Bool.false_eq_true, if_false]

lemma refreshed_again {o' : Open} {outcomes' : List Outcome}
    (h : Pairings.refreshed o outcomes nowMs = ⟨some o', outcomes'⟩) :
    Pairings.refreshed o' outcomes' nowMs = ⟨some o', outcomes'⟩ := by
  rcases refreshed_cases o outcomes nowMs with ⟨hr, -⟩ | ⟨claim, outcomes'', hr⟩
  · obtain ⟨rfl, rfl⟩ : o = o' ∧ outcomes = outcomes' := by simpa using hr.symm.trans h
    exact h
  · obtain ⟨rfl, rfl⟩ : { o with stage := .finished claim .expired } = o' ∧ outcomes'' = outcomes' := by
      simpa using hr.symm.trans h
    rfl

variable {codec : Codec} {shown : String} {hosts : List HostId} {fault : Option Fault}

lemma answerWithHosts_unclaimed {o' : Open} {outcomes' : List Outcome}
    (ha : a.pairings = ⟨some o, outcomes⟩) (hid : o.id = id)
    (hr : Pairings.refreshed o outcomes nowMs = ⟨some o', outcomes'⟩) (hid' : o'.id = id)
    (hs : ∀ claim device code deadlineMs, o'.stage ≠ .claimed claim device code deadlineMs) :
    ∃ error, a.answerWithHosts codec id allow shown hosts nowMs fault =
      (.error error, { a with pairings := ⟨some o', outcomes'⟩ }) := by
  have hagain := refreshed_again o outcomes hr
  unfold Auth.answerWithHosts
  cases allow with
  | false =>
    simp only [Bool.false_eq_true, if_false, ha, answer_unclaimed o outcomes hid hr hs]
    exact ⟨_, rfl⟩
  | true =>
    simp only [if_true, ha, state_same o outcomes hid hr]
    cases hshow : Auth.shows (.ok (o'.view nowMs)) shown with
    | error error => cases hshow
    | ok matching =>
      cases matching with
      | false =>
        simp only [answer_unclaimed o' outcomes' hid' hagain hs]
        exact ⟨_, rfl⟩
      | true =>
        simp only [answer_unclaimed o' outcomes' hid' hagain hs]
        exact ⟨_, rfl⟩

lemma answerWithHosts_other (hid : ∀ o, a.pairings.current = some o → o.id ≠ id) :
    a.answerWithHosts codec id allow shown hosts nowMs fault = (.error .unknownPairing, a) := by
  unfold Auth.answerWithHosts
  cases allow with
  | false =>
    simp only [Bool.false_eq_true, if_false, answer_other hid]
  | true =>
    simp only [if_true, state_other hid]
    rfl

variable (codec allow shown hosts fault) in
lemma answerWithHosts_claimed {claim : ClaimId} {device : NewDevice} {code : String}
    {deadlineMs : ℕ} (ha : a.pairings = ⟨some o, outcomes⟩) (hid : o.id = id)
    (hr : Pairings.refreshed o outcomes nowMs = ⟨some o, outcomes⟩)
    (hs : o.stage = .claimed claim device code deadlineMs) :
    let kept := Auth.keep codec fault nowMs (a.links.allowed hosts) device a.devices
    let answered := a.answerWithHosts codec id allow shown hosts nowMs fault
    (answered.2.pairings = .settle o outcomes .denied ∧ (∀ d, answered.1 ≠ .ok (.approved d)) ∧
      (answered.2.devices = a.devices ∨ allow = true ∧ code = shown)) ∨
    (allow = true ∧ code = shown ∧ kept.1 = .ok () ∧ answered.2.devices = kept.2 ∧
      answered.1 = .ok (.approved device.id) ∧
      answered.2.pairings = .settle o outcomes (.approved device.id)) := by
  have hfinished : ∀ state, Pairings.refreshed { o with stage := .finished (some claim) state }
      (remember outcomes (claim, state)) nowMs =
      ⟨some { o with stage := .finished (some claim) state }, remember outcomes (claim, state)⟩ :=
    fun _ => rfl
  intro kept answered
  unfold answered
  unfold Auth.answerWithHosts
  cases allow with
  | false =>
    simp only [Bool.false_eq_true, if_false, ha, answer_claimed o outcomes hid hr hs]
    refine .inl ?_
    rw [settle_claimed hs]
    simp only [state_same { o with stage := .finished (some claim) .denied } _ hid (hfinished _)]
    refine ⟨trivial, ?_, .inl trivial⟩
    intro d hd
    simp [Open.view] at hd
  | true =>
    have hview : Auth.shows (.ok (o.view nowMs)) shown = .ok (decide (code = shown)) := by
      simp [Auth.shows, Open.view, hs, Except.map]
    by_cases hcode : code = shown
    · simp only [if_true, ha, state_same o outcomes hid hr, hview, hcode, decide_true,
        answer_claimed o outcomes hid hr hs]
      cases hk : Auth.keep codec fault nowMs (a.links.allowed hosts) device a.devices with
      | mk result devices =>
        cases result with
        | error error =>
          refine .inl ⟨rfl, ?_, .inr ⟨trivial, trivial⟩⟩
          intro d hd
          cases hd
        | ok _ =>
          refine .inr ⟨trivial, trivial, ?_⟩
          dsimp only
          rw [settle_claimed hs]
          simp only [state_same { o with stage := .finished (some claim) (.approved device.id) } _ hid
            (hfinished _)]
          exact ⟨by rw [show kept = _ from hk], by rw [show kept = _ from hk], rfl, trivial⟩
    · simp only [if_true, ha, state_same o outcomes hid hr, hview, decide_eq_false hcode,
        answer_claimed o outcomes hid hr hs, Bool.false_eq_true, if_false]
      refine .inl ⟨trivial, ?_, .inl trivial⟩
      intro d hd
      cases hd

def Auth.Matching (a : Auth) (id : PairingId) (shown : String) (nowMs : ℕ) (claim : ClaimId)
    (device : NewDevice) : Prop :=
  ∃ o deadlineMs, a.pairings.current = some o ∧ o.id = id ∧
    o.stage = .claimed claim device shown deadlineMs ∧ nowMs < deadlineMs

variable (crypto a log id allow codec shown hosts nowMs fault) in
lemma answer_result :
    let answered := a.answerWithHosts codec id allow shown hosts nowMs fault
    (Moves crypto ⟨a.pairings, log⟩ ⟨answered.2.pairings, log⟩ ∧
      (∀ d, answered.1 ≠ .ok (.approved d)) ∧
      (answered.2.devices = a.devices ∨
        allow = true ∧ ∃ claim device, a.Matching id shown nowMs claim device)) ∨
    ∃ claim device, allow = true ∧ a.Matching id shown nowMs claim device ∧
      answered.1 = .ok (.approved device.id) ∧
      Moves crypto ⟨a.pairings, log⟩ ⟨answered.2.pairings,
        logApproval log (some ⟨id, claim, shown, device.id, nowMs⟩)⟩ ∧
      Auth.keep codec fault nowMs (a.links.allowed hosts) device a.devices =
        (.ok (), answered.2.devices) := by
  intro answered
  by_cases hid : ∀ o, a.pairings.current = some o → o.id ≠ id
  · have hother : answered = (.error .unknownPairing, a) := answerWithHosts_other hid
    rw [hother]
    exact .inl ⟨.refl, fun d hd => (by cases hd), .inl rfl⟩
  · push Not at hid
    obtain ⟨o, ho, hid⟩ := hid
    obtain ⟨outcomes, ha⟩ : ∃ outcomes, a.pairings = ⟨some o, outcomes⟩ := ⟨_, by rw [← ho]⟩
    have hmoves : Moves crypto ⟨⟨some o, outcomes⟩, log⟩ ⟨.refreshed o outcomes nowMs, log⟩ :=
      refreshed_moves log o outcomes nowMs
    have hleft : ∀ o' outcomes', Pairings.refreshed o outcomes nowMs = ⟨some o', outcomes'⟩ →
        o'.id = id →
        (∀ claim device code deadlineMs, o'.stage ≠ .claimed claim device code deadlineMs) →
        Moves crypto ⟨a.pairings, log⟩ ⟨answered.2.pairings, log⟩ ∧
          (∀ d, answered.1 ≠ .ok (.approved d)) ∧ answered.2.devices = a.devices := by
      intro o' outcomes' hr hid' hs
      obtain ⟨error, h⟩ : ∃ error, answered = (.error error, { a with pairings := ⟨some o', outcomes'⟩ }) :=
        answerWithHosts_unclaimed o outcomes ha hid hr hid' hs
      rw [h, ha, ← hr]
      exact ⟨hmoves, fun d hd => (by cases hd), rfl⟩
    rcases refreshed_cases o outcomes nowMs with ⟨hr, hlive⟩ | ⟨ended, outcomes', hr⟩
    · cases hs : o.stage with
      | claimed claim device code deadlineMs =>
        have htime := hlive _ _ _ _ hs
        rcases answerWithHosts_claimed o outcomes allow codec shown hosts fault ha hid hr hs with ⟨hp, hres, hd⟩ | ⟨hallow, rfl, hk, hd, hres, hp⟩
        · refine .inl ⟨?_, hres, ?_⟩
          · rw [show answered.2.pairings = _ from hp, ha]
            exact voided_moves log o outcomes (.inl rfl)
          · refine hd.imp_right ?_
            rintro ⟨hallow, rfl⟩
            exact ⟨hallow, claim, device, o, deadlineMs, ho, hid, hs, htime⟩
        · refine .inr ⟨claim, device, hallow, ⟨o, deadlineMs, ho, hid, hs, htime⟩, hres, ?_, ?_⟩
          · rw [show answered.2.pairings = _ from hp, ha, ← hid]
            exact .single (.approve hs htime)
          · rw [show answered.2.devices = _ from hd, ← hk]
      | waiting =>
        obtain ⟨hm, hres, hd⟩ := hleft o outcomes hr hid (by simp [hs])
        exact .inl ⟨hm, hres, .inl hd⟩
      | finished ended state =>
        obtain ⟨hm, hres, hd⟩ := hleft o outcomes hr hid (by simp [hs])
        exact .inl ⟨hm, hres, .inl hd⟩
    · obtain ⟨hm, hres, hd⟩ := hleft _ outcomes' hr hid (by simp)
      exact .inl ⟨hm, hres, .inl hd⟩

end Moves

section Runs

variable (crypto) (codec : Codec)

lemma redeem_pairings (a : Auth) (admitted : Bool) (token : Secret) (key : String) (nowMs : ℕ)
    (handoffFault deviceFault : Option Fault) :
    (a.redeem crypto codec admitted token key nowMs handoffFault deviceFault).2.pairings =
      a.pairings := by
  rw [Auth.redeem]
  split
  · split
    · rfl
    · split
      · rfl
      · rfl
      · split
        · rfl
        · rfl
  · rfl

lemma revoke_pairings (a : Auth) (device : DeviceId) (linkFault deviceFault : Option Fault) :
    (a.revoke codec device linkFault deviceFault).2.pairings = a.pairings := by
  rw [Auth.revoke]
  split
  · rfl
  · rfl

lemma enroll_pairings (a : Auth) (enroll : Enroll) (nowMs : ℕ) (id : Option DeviceId)
    (linkFault oldFault deviceFault : Option Fault) :
    (a.enroll crypto codec enroll nowMs id linkFault oldFault deviceFault).2.pairings =
      a.pairings := by
  rw [Auth.enroll]
  split
  · rfl
  · rfl
  · rfl
  · rename_i publicKey name via _ _ _
    split
    · cases id <;> rfl
    · rename_i old _
      have hb := revoke_pairings codec a old linkFault oldFault
      rcases hrevoked : a.revoke codec old linkFault oldFault with ⟨_ | _, b⟩
      · rw [hrevoked] at hb
        exact hb
      · rw [hrevoked] at hb
        cases id with
        | none => exact hb
        | some id => exact hb

lemma claim_perform (a : Auth) (log : PairingLog) {admitted : Bool} {token : Option Secret}
    {name key : String} {nowMs : ℕ} {nonce : Option Secret} {claim : Option ClaimId}
    {device : Option DeviceId} (new : ∀ c, claim = some c → c ∉ log.accepts.map Accepted.claim) :
    Moves crypto ⟨a.pairings, log⟩
      ⟨(a.claim crypto admitted token name key nowMs nonce claim device).2.pairings,
        logAccept log <|
          match token, a.pairings.current with
          | some token, some o =>
            accepted o token nowMs
              (a.claim crypto admitted (some token) name key nowMs nonce claim device).1
          | _, _ => none⟩ := by
  cases admitted with
  | false =>
    have hlimited : ∀ token, a.claim crypto false token name key nowMs nonce claim device =
        (.error .rateLimited, a) := fun _ => rfl
    rw [hlimited]
    cases token with
    | none => rw [logAccept_none]
    | some token =>
      cases a.pairings.current with
      | none => rw [logAccept_none]
      | some o =>
        dsimp only
        rw [hlimited, accepted, logAccept_none]
  | true =>
    have hclaim : (a.claim crypto true token name key nowMs nonce claim device).2.pairings =
        (a.pairings.claim crypto token name key nowMs nonce claim device).2 := rfl
    rw [hclaim]
    cases token with
    | none =>
      have hp : (a.pairings.claim crypto none name key nowMs nonce claim device).2 = a.pairings := by
        rw [Pairings.claim.eq_def]
      rw [hp, logAccept_none]
    | some token =>
      cases ho : a.pairings.current with
      | none =>
        have hp : (a.pairings.claim crypto (some token) name key nowMs nonce claim device).2 =
            a.pairings := by
          rw [Pairings.claim.eq_def, ho]
        rw [hp, logAccept_none]
      | some o =>
        have ha : a.pairings = ⟨some o, a.pairings.outcomes⟩ := by rw [← ho]
        have hclaim' : (a.claim crypto true (some token) name key nowMs nonce claim device).1 =
            (a.pairings.claim crypto (some token) name key nowMs nonce claim device).1 := rfl
        dsimp only
        rw [hclaim', ha]
        exact claim_moves o a.pairings.outcomes new rfl

lemma nearbyReveal_perform (a : Auth) (log : PairingLog) {session : String} {nowMs : ℕ}
    {token : Option Secret} {code : Option String} :
    (∀ t, token = some t → t ∉ log.offers.map Offered.token) → Moves crypto ⟨a.pairings, log⟩
      ⟨(a.nearbyReveal crypto session nowMs token code).2.pairings,
        logOffer log <|
          match token, a.pairings.current with
          | some token, some o =>
            revealed o token nowMs (a.nearbyReveal crypto session nowMs (some token) code).1
          | _, _ => none⟩ := by
  intro new
  cases token with
  | none =>
    rw [logOffer_none]
    exact nearbyReveal_idle (.inl rfl)
  | some token =>
    cases ho : a.pairings.current with
    | none =>
      rw [logOffer_none]
      exact nearbyReveal_idle (.inr ho)
    | some o =>
      have ha : a.pairings = ⟨some o, a.pairings.outcomes⟩ := by rw [← ho]
      have hmoves : Moves crypto ⟨⟨some o, a.pairings.outcomes⟩, log⟩
          ⟨(a.nearbyReveal crypto session nowMs (some token) code).2.pairings, logOffer log <|
            revealed o token nowMs (a.nearbyReveal crypto session nowMs (some token) code).1⟩ :=
        nearbyReveal_moves o _ ha (new token rfl) rfl
      rw [← ha] at hmoves
      exact hmoves

lemma approved_none {id : PairingId} {claim : ClaimId} {shown : String} {nowMs : ℕ}
    {result : Except Error PairingState} (h : ∀ d, result ≠ .ok (.approved d)) :
    approved id claim shown nowMs result = none := by
  rw [approved.eq_def]
  split
  · exact absurd rfl (h _)
  · rfl

lemma answer_perform (a : Auth) (log : PairingLog) {id : PairingId} {allow : Bool} {shown : String}
    {hosts : List HostId} {nowMs : ℕ} {fault : Option Fault} :
    Moves crypto ⟨a.pairings, log⟩
      ⟨(a.answerWithHosts codec id allow shown hosts nowMs fault).2.pairings,
        logApproval log <|
          match heldClaim a.pairings with
          | some claim =>
            approved id claim shown nowMs
              (a.answerWithHosts codec id allow shown hosts nowMs fault).1
          | none => none⟩ := by
  rcases answer_result crypto log nowMs a id allow codec shown hosts fault with
    ⟨hm, hres, -⟩ | ⟨claim, device, hallow, ⟨o, deadlineMs, ho, -, hs, -⟩, hres, hm, -⟩
  · cases heldClaim a.pairings with
    | none =>
      rw [logApproval_none]
      exact hm
    | some claim =>
      dsimp only
      rw [approved_none hres, logApproval_none]
      exact hm
  · have hheld : heldClaim a.pairings = some claim := by simp [heldClaim, ho, hs]
    rw [hheld, hres]
    exact hm

lemma idle_moves {a b : Auth} {log : PairingLog} (h : b.pairings = a.pairings) :
    Moves crypto ⟨a.pairings, log⟩ ⟨b.pairings, log⟩ := by
  rw [h]

lemma perform_moves (a : Auth) (log : PairingLog) (op : AuthOp) (h : FreshDraws log op) :
    Moves crypto ⟨a.pairings, log⟩
      ⟨(a.perform crypto codec op).pairings, pairingLog crypto codec a log op⟩ := by
  cases op with
  | mint nowMs origins fingerprint token id => exact mint_moves nowMs h.1 h.2
  | pairing id nowMs => exact state_moves log a.pairings nowMs id
  | cancel id => exact cancel_moves log a.pairings id
  | claim => exact claim_perform crypto a log h
  | pairingOpen nowMs => exact waiting_moves log a.pairings nowMs
  | nearbyStart admitted key nowMs id =>
    change Moves crypto _ ⟨(a.nearbyStart crypto admitted key nowMs id).2.pairings, log⟩
    rw [Auth.nearbyStart]
    split
    · have hmoves : Moves crypto ⟨a.pairings, log⟩ ⟨(a.pairings.waiting nowMs).2, log⟩ :=
        waiting_moves log a.pairings nowMs
      split
      · rename_i hw
        rwa [hw] at hmoves
      · rename_i hw
        rwa [hw] at hmoves
    · exact .refl
  | nearbyReveal => exact nearbyReveal_perform crypto a log h
  | claimedFrom claim origin => exact claimedFrom_moves log a.pairings claim origin
  | claimStatus id nowMs => exact claimStatus_moves log a.pairings nowMs id
  | answer => exact answer_perform crypto codec a log
  | challenge admitted device nowMs nonce id =>
    refine idle_moves crypto ?_
    rw [Auth.perform, Auth.challenge]
    split
    · rfl
    · rfl
  | verify challenge signature nowMs token fault =>
    refine idle_moves crypto ?_
    rw [Auth.perform, Auth.verify]
    split
    · rfl
    · rfl
  | handoff device nowMs secret fault =>
    refine idle_moves crypto ?_
    rw [Auth.perform, Auth.handoff]
    split
    · rfl
    · rfl
  | redeem => exact idle_moves crypto (redeem_pairings crypto codec a _ _ _ _ _ _)
  | revoke => exact idle_moves crypto (revoke_pairings codec a _ _ _)
  | hostLinks device nowMs =>
    refine idle_moves crypto ?_
    rw [Auth.perform]
    split
    · rfl
    · rfl
  | askHost device host key nowMs =>
    refine idle_moves crypto ?_
    rw [Auth.perform, Auth.askHost]
    split
    · rfl
    · rfl
  | enroll => exact idle_moves crypto (enroll_pairings crypto codec a _ _ _ _ _ _)
  | expireIdle nowMs idleMs fault =>
    refine idle_moves crypto ?_
    rw [Auth.perform, Auth.expireIdle]
    split
    · rfl
    · rfl
  | _ => exact .refl

structure PairingRun where
  auth : Auth
  log : PairingLog

def PairingRun.perform (w : PairingRun) (op : AuthOp) : PairingRun :=
  ⟨w.auth.perform crypto codec op, pairingLog crypto codec w.auth w.log op⟩

def PairingRun.started (devices : Devices) (handoffs : Handoffs) (revokes : List HostRevoke) :
    PairingRun :=
  ⟨.started devices handoffs revokes, ⟨[], [], []⟩⟩

def PairingStep (w : PairingRun) (op : AuthOp) (w' : PairingRun) : Prop :=
  FreshDraws w.log op ∧ w' = w.perform crypto codec op

def AuthOp.onPairings : AuthOp → Bool
  | .mint .. | .pairing .. | .cancel .. | .claim .. | .pairingOpen .. | .nearbyStart ..
  | .nearbyReveal .. | .claimedFrom .. | .claimStatus .. | .answer .. => true
  | _ => false

def PairingState.isOutcome : PairingState → Bool
  | .approved _ | .denied | .expired => true
  | .waiting _ | .claimed .. => false

def StoredBy (start : PairingRun) (ops : List AuthOp) (approval : Approved) : Prop :=
  ∃ before after hosts fault v device,
    ops = before ++ .answer approval.pairing true approval.shown hosts approval.nowMs fault :: after ∧
    Run (PairingStep crypto codec) start before v ∧
    v.auth.Matching approval.pairing approval.shown approval.nowMs approval.claim device ∧
    device.id = approval.device ∧
    ∃ record ∈ (v.auth.perform crypto codec
      (.answer approval.pairing true approval.shown hosts approval.nowMs fault)).devices.records,
      record.id = device.id

structure PairingsSafe (start : PairingRun) (ops : List AuthOp) (w : PairingRun) : Prop where
  tokens : (w.log.accepts.map Accepted.token).Nodup
  expiry : ∀ accept ∈ w.log.accepts, ∃ offer ∈ w.log.offers, offer.token = accept.token ∧
    offer.pairing = accept.pairing ∧ accept.nowMs < offer.expiresMs
  claims : (w.log.accepts.map Accepted.pairing).Nodup
  reveals : ∀ pairing, (sealedFor w.log.offers pairing).length ≤ maxNearbyReveals
  stores : ∀ op, op.onPairings = true →
    (w.auth.perform crypto codec op).devices ≠ w.auth.devices →
    ∃ id shown hosts nowMs fault claim device, op = .answer id true shown hosts nowMs fault ∧
      w.auth.Matching id shown nowMs claim device
  outcomes : ∀ id nowMs state, (w.auth.pairings.claimStatus id nowMs).1 = .ok state →
    state.isOutcome = true → ∀ ops' w' nowMs' state',
    Run (PairingStep crypto codec) (w.perform crypto codec (.claimStatus id nowMs)) ops' w' →
    (w'.auth.pairings.claimStatus id nowMs').1 = .ok state' → state' = state
  approved : ∀ id nowMs device,
    (w.auth.pairings.claimStatus id nowMs).1 = .ok (.approved device) →
    ∃ approval, StoredBy crypto codec start ops approval ∧ approval.claim = id ∧
      approval.device = device

variable {crypto codec}

lemma Run.moves {w w' : PairingRun} {ops : List AuthOp}
    (hr : Run (PairingStep crypto codec) w ops w') :
    Moves crypto ⟨w.auth.pairings, w.log⟩ ⟨w'.auth.pairings, w'.log⟩ := by
  induction hr with
  | nil => exact .refl
  | snoc _ ha ih =>
    obtain ⟨hfresh, rfl⟩ := ha
    exact ih.trans (perform_moves crypto codec _ _ _ hfresh)

lemma keep_stores {fault : Option Fault} {nowMs : ℕ} {links : List Link} {device : NewDevice}
    {s t : Devices} (h : Auth.keep codec fault nowMs links device s = (.ok (), t)) :
    ∃ record ∈ t.records, record.id = device.id := by
  rw [Auth.keep, Devices.addWith, Devices.saveOrUndo] at h
  split at h
  · rename_i saved hsave
    obtain rfl : saved = t := by simpa using h
    obtain ⟨file, result, hrecords⟩ := Devices.save_records codec fault { s with
      records := s.records ++ [⟨device.app, device.id, device.name, device.publicKey, nowMs, none, none,
        none, none, links⟩] }
    rw [hsave] at hrecords
    obtain ⟨-, rfl⟩ := Prod.mk.inj hrecords
    exact ⟨_, List.mem_append_right _ (List.mem_singleton_self _), rfl⟩
  · cases h

lemma perform_devices (a : Auth) (op : AuthOp) (h : op.onPairings = true)
    (hd : (a.perform crypto codec op).devices ≠ a.devices) :
    ∃ id shown hosts nowMs fault claim device, op = .answer id true shown hosts nowMs fault ∧
      a.Matching id shown nowMs claim device := by
  cases op with
  | answer id allow shown hosts nowMs fault =>
    rcases answer_result crypto ⟨[], [], []⟩ nowMs a id allow codec shown hosts fault with
      ⟨-, -, hsame | ⟨rfl, claim, device, hm⟩⟩ | ⟨claim, device, rfl, hm, -⟩
    · exact absurd hsame hd
    · exact ⟨id, shown, hosts, nowMs, fault, claim, device, rfl, hm⟩
    · exact ⟨id, shown, hosts, nowMs, fault, claim, device, rfl, hm⟩
  | claim admitted token name key nowMs nonce claim device =>
    refine absurd ?_ hd
    rw [Auth.perform, Auth.claim]
    split
    · rfl
    · rfl
  | nearbyStart admitted key nowMs id =>
    refine absurd ?_ hd
    rw [Auth.perform, Auth.nearbyStart]
    split
    · split
      · rfl
      · rfl
    · rfl
  | nearbyReveal session nowMs token code =>
    refine absurd ?_ hd
    rw [Auth.perform, Auth.nearbyReveal]
    split
    · rfl
    · split
      · rfl
      · split
        · rfl
        · rfl
        · rfl
  | mint => exact absurd rfl hd
  | pairing => exact absurd rfl hd
  | cancel => exact absurd rfl hd
  | pairingOpen => exact absurd rfl hd
  | claimedFrom => exact absurd rfl hd
  | claimStatus => exact absurd rfl hd
  | _ => cases h

lemma pairingLog_approvals {a : Auth} {log : PairingLog} {op : AuthOp} {approval : Approved}
    (h : approval ∈ (pairingLog crypto codec a log op).approvals) :
    approval ∈ log.approvals ∨ ∃ hosts fault device,
      op = .answer approval.pairing true approval.shown hosts approval.nowMs fault ∧
      a.Matching approval.pairing approval.shown approval.nowMs approval.claim device ∧
      device.id = approval.device ∧
      ∃ record ∈ (a.perform crypto codec op).devices.records, record.id = device.id := by
  cases op with
  | answer id allow shown hosts nowMs fault =>
    have hlog : (pairingLog crypto codec a log (.answer id allow shown hosts nowMs fault)).approvals =
        log.approvals ++ ((heldClaim a.pairings).bind fun claim => approved id claim shown nowMs
          (a.answerWithHosts codec id allow shown hosts nowMs fault).1).toList := by
      rw [pairingLog]
      cases heldClaim a.pairings with
      | none => rfl
      | some claim => rfl
    rw [hlog] at h
    rcases List.mem_append.mp h with h | h
    · exact .inl h
    · refine .inr ?_
      obtain ⟨claim', hclaim', happroved⟩ := Option.bind_eq_some_iff.mp (Option.mem_toList.mp h)
      rcases answer_result crypto log nowMs a id allow codec shown hosts fault with
        ⟨-, hres, -⟩ | ⟨claim, device, rfl, hm, hres, -, hkeep⟩
      · rw [approved_none hres] at happroved
        cases happroved
      · have hheld : heldClaim a.pairings = some claim := by
          obtain ⟨o, deadlineMs, ho, -, hs, -⟩ := hm
          simp [heldClaim, ho, hs]
        obtain rfl : claim = claim' := Option.some.inj (hheld.symm.trans hclaim')
        rw [hres] at happroved
        obtain rfl : Approved.mk id claim shown device.id nowMs = approval :=
          Option.some.inj happroved
        exact ⟨hosts, fault, device, rfl, hm, rfl, keep_stores hkeep⟩
  | _ => exact .inl h

lemma Run.stored {start w : PairingRun} {ops : List AuthOp}
    (hr : Run (PairingStep crypto codec) start ops w) (hstart : start.log.approvals = []) :
    ∀ approval ∈ w.log.approvals, StoredBy crypto codec start ops approval := by
  induction hr with
  | nil =>
    intro approval hm
    rw [hstart] at hm
    cases hm
  | @snoc ops v w op hr ha ih =>
    obtain ⟨hfresh, rfl⟩ := ha
    intro approval hm
    rcases pairingLog_approvals hm with hm | ⟨hosts, fault, device, rfl, hmatch, hid, hstored⟩
    · obtain ⟨before, after, hosts, fault, u, device, hops, hrest⟩ := ih approval hm
      refine ⟨before, after ++ [op], hosts, fault, u, device, ?_, hrest⟩
      rw [hops, List.append_assoc, List.cons_append]
    · exact ⟨ops, [], hosts, fault, v, device, rfl, hr, hmatch, hid, hstored⟩

lemma PairingInv.started (crypto : Crypto) (devices : Devices) (handoffs : Handoffs)
    (revokes : List HostRevoke) :
    let w := PairingRun.started devices handoffs revokes
    PairingInv crypto ⟨w.auth.pairings, w.log⟩ := by
  constructor
  · constructor
    · exact .nil
    · simp [PairingRun.started]
    · exact .nil
    · exact .nil
    · intro pairing
      exact Nat.zero_le _
    · simp [PairingRun.started]
  · intro o ho
    cases ho
  · constructor
    · simp [PairingRun.started, Auth.started]
    · simp [PairingRun.started, Auth.started]
    · exact .nil
    · intro claim h
      cases h

structure Settled (claim : ClaimId) (state : PairingState) (w : PairingWorld) : Prop where
  accepted : claim ∈ w.log.accepts.map Accepted.claim
  closed : heldClaim w.p ≠ some claim
  outcomes : ∀ outcome ∈ w.p.outcomes, outcome.1 = claim → outcome.2 = state

lemma Settled.move {claim : ClaimId} {state : PairingState} {w w' : PairingWorld}
    (h : Settled claim state w) (hm : Move crypto w w') : Settled claim state w' := by
  have hsettle : ∀ {o : Open} {outcomes : List Outcome} {log log' : PairingLog} {held : ClaimId}
      {device : NewDevice} {code : String} {deadlineMs : ℕ} {state' : PairingState},
      Settled claim state ⟨⟨some o, outcomes⟩, log⟩ →
      o.stage = .claimed held device code deadlineMs → log'.accepts = log.accepts →
      Settled claim state ⟨.settle o outcomes state', log'⟩ := by
    intro o outcomes log log' held device code deadlineMs state' h hs hlog
    have hne : held ≠ claim := by
      rintro rfl
      exact h.closed (by simp [heldClaim, hs])
    rw [settle_claimed hs]
    refine ⟨hlog ▸ h.accepted, by simp [heldClaim], ?_⟩
    intro outcome hm hid
    rcases List.mem_append.mp ((remember_sublist _ _).subset hm) with hm | hm
    · exact h.outcomes outcome hm hid
    · obtain rfl := List.mem_singleton.mp hm
      exact absurd hid hne
  cases hm with
  | expire _ => exact ⟨h.accepted, by simp [heldClaim], h.outcomes⟩
  | settle claimed _ => exact hsettle h claimed rfl
  | approve claimed _ => exact hsettle h claimed rfl
  | drop _ => exact ⟨h.accepted, by simp [heldClaim], h.outcomes⟩
  | mint _ _ => exact ⟨h.accepted, by simp [heldClaim], h.outcomes⟩
  | rotate _ _ => exact ⟨h.accepted, by simp [heldClaim], h.outcomes⟩
  | accept _ new _ _ =>
    refine ⟨?_, ?_, h.outcomes⟩
    · obtain ⟨accept, ha, hc⟩ := List.mem_map.mp h.accepted
      exact List.mem_map.mpr ⟨accept, List.mem_append_left _ ha, hc⟩
    · intro hheld
      obtain rfl : _ = claim := by simpa [heldClaim] using hheld
      exact new h.accepted
  | reveal waiting _ _ => exact ⟨h.accepted, by simp [heldClaim, waiting], h.outcomes⟩
  | claimedFrom claimed _ =>
    refine ⟨h.accepted, ?_, h.outcomes⟩
    intro hheld
    exact h.closed (by simpa [heldClaim, claimed] using hheld)

lemma Settled.moves {claim : ClaimId} {state : PairingState} {w w' : PairingWorld}
    (h : Settled claim state w) (hm : Moves crypto w w') : Settled claim state w' := by
  induction hm with
  | refl => exact h
  | tail _ hm ih => exact ih.move hm

lemma claimStatus_outcome {p : Pairings} {id : ClaimId} {nowMs : ℕ} {state : PairingState}
    (h : (p.claimStatus id nowMs).1 = .ok state) :
    (heldClaim (p.refresh nowMs) = some id ∧ state.isOutcome = false) ∨
      (id, state) ∈ (p.refresh nowMs).outcomes := by
  rw [Pairings.claimStatus] at h
  split at h
  · rename_i view hview
    obtain rfl := Except.ok.inj h
    obtain ⟨o, ho, hview⟩ := Option.bind_eq_some_iff.mp hview
    left
    split at hview
    · rename_i claim device code deadlineMs hs
      split at hview
      · rename_i hid
        obtain rfl := Option.some.inj hview
        exact ⟨by simp [heldClaim, ho, hs, hid], by simp [Open.view, hs, PairingState.isOutcome]⟩
      · cases hview
    · cases hview
  · right
    split at h
    · rename_i outcome hfound
      obtain rfl := Except.ok.inj h
      have hm := List.mem_reverse.mp (List.mem_of_find?_eq_some hfound)
      have hid : outcome.1 = id := by simpa using List.find?_some hfound
      rwa [← hid]
    · cases h

lemma Settled.of_status {w : PairingWorld} {id : ClaimId} {nowMs : ℕ} {state : PairingState}
    (hinv : PairingInv crypto ⟨w.p.refresh nowMs, w.log⟩)
    (h : (w.p.claimStatus id nowMs).1 = .ok state) (hstate : state.isOutcome = true) :
    Settled id state ⟨w.p.refresh nowMs, w.log⟩ := by
  rcases claimStatus_outcome h with ⟨-, hopen⟩ | hm
  · rw [hopen] at hstate
    cases hstate
  · refine ⟨hinv.outcomes.claims _ hm, ?_, ?_⟩
    · intro hheld
      exact hinv.outcomes.held id hheld (List.mem_map.mpr ⟨_, hm, rfl⟩)
    · intro outcome hm' hid
      have heq := List.inj_on_of_nodup_map hinv.outcomes.once hm' hm hid
      rw [heq]

lemma LogInv.tokens_once {log : PairingLog} (h : LogInv log) :
    (log.accepts.map Accepted.token).Nodup := by
  rw [List.nodup_iff_pairwise_ne, List.pairwise_map]
  have honce := h.once
  rw [List.nodup_iff_pairwise_ne, List.pairwise_map] at honce
  refine honce.imp_of_mem ?_
  intro accept accept' hm hm' hne htoken
  obtain ⟨offer, ho, ht, hp, -⟩ := h.accepts accept hm
  obtain ⟨offer', ho', ht', hp', -⟩ := h.accepts accept' hm'
  have heq := List.inj_on_of_nodup_map h.tokens ho ho' (by rw [ht, ht', htoken])
  exact hne (by rw [← hp, ← hp', heq])

theorem pairings_safe (hsha : Function.Injective crypto.sha256) (devices : Devices)
    (handoffs : Handoffs) (revokes : List HostRevoke) (ops : List AuthOp) (w : PairingRun)
    (hr : Run (PairingStep crypto codec) (.started devices handoffs revokes) ops w) :
    PairingsSafe crypto codec (.started devices handoffs revokes) ops w := by
  have hinv := (PairingInv.started crypto devices handoffs revokes).moves hsha (Run.moves hr)
  have hrefresh : ∀ nowMs, PairingInv crypto ⟨w.auth.pairings.refresh nowMs, w.log⟩ :=
    fun nowMs => hinv.moves hsha (refresh_moves w.log w.auth.pairings nowMs)
  refine ⟨hinv.log.tokens_once, hinv.log.accepts, hinv.log.once, hinv.log.reveals,
    perform_devices w.auth, ?_, ?_⟩
  · intro id nowMs state hstate houtcome ops' w' nowMs' state' hr' hstate'
    have hsettled := Settled.of_status (w := ⟨w.auth.pairings, w.log⟩) (hrefresh nowMs) hstate houtcome
    have hpoll : (w.perform crypto codec (.claimStatus id nowMs)).auth.pairings =
        w.auth.pairings.refresh nowMs := claimStatus_pairings _ _ _
    have hmoves := Run.moves hr'
    rw [hpoll] at hmoves
    have hrefreshed : Moves crypto ⟨w'.auth.pairings, w'.log⟩
        ⟨w'.auth.pairings.refresh nowMs', w'.log⟩ := refresh_moves _ _ _
    have hlast := (hsettled.moves hmoves).moves hrefreshed
    rcases claimStatus_outcome hstate' with ⟨hheld, -⟩ | hm
    · exact absurd hheld hlast.closed
    · exact hlast.outcomes _ hm rfl
  · intro id nowMs device hstate
    rcases claimStatus_outcome hstate with ⟨-, hopen⟩ | hm
    · cases hopen
    · obtain ⟨approval, ha, hclaim, hdevice⟩ := (hrefresh nowMs).outcomes.approved _ hm device rfl
      exact ⟨approval, Run.stored hr rfl approval ha, hclaim, hdevice⟩

end Runs

def phonePairing : List AuthOp :=
  [.mint 0 ["https://desk"] "f" (some phoneToken) (some "pairing"),
    .claim true (some phoneToken) "Phone" Devices.phone.publicKey 0 (some []) (some "claim")
      (some "p"),
    .answer "pairing" true "065793" [] 0 none]

def phonePaired : PairingRun :=
  phonePairing.foldl (PairingRun.perform phoneCrypto Devices.fewDevices)
    (.started ⟨none, [], []⟩ ⟨∅⟩ [])

theorem pairings_safe_phone :
    PairingsSafe phoneCrypto Devices.fewDevices (.started ⟨none, [], []⟩ ⟨∅⟩ []) phonePairing
      phonePaired ∧
    (phonePaired.auth.pairings.claimStatus "claim" 30).1 = .ok (.approved "p") ∧
    phonePaired.auth.devices.records.map DeviceRecord.id = ["p"] := by
  refine ⟨pairings_safe phoneCrypto_injective _ _ _ _ _ ?_, by decide +kernel, by decide +kernel⟩
  refine .cons ⟨⟨?_, ?_⟩, rfl⟩ (.cons ⟨?_, rfl⟩ (.cons ⟨trivial, rfl⟩ .nil))
  · intro token _ hm
    cases hm
  · intro id _ hm
    cases hm
  · intro claim _
    decide +kernel +revert

end Sheprd.Auth
