import Sheprd.Auth.Tokens

set_option linter.dupNamespace false

namespace Sheprd.Auth

open Sheprd.Lib

def pairedWith (host : HostId) (record : DeviceRecord) : Option DeviceId :=
  ((Links.linkOf record host).bind Link.paired).map Enrolled.device

inductive LinkEvent where
  | reported (device : DeviceId) (host : HostId) (enrolled : DeviceId)
  | superseded (device : DeviceId) (host : HostId) (enrolled : DeviceId)
  | removed (revoke : HostRevoke)
  | expired (device : DeviceId)
  deriving DecidableEq

def reportEvents (device : DeviceId) (host : HostId) (enrolled : Enrolled) (ask : Option Ask) :
    Except Error Unit → List LinkEvent
  | .ok () =>
    ((ask.bind Ask.replace).map fun old => LinkEvent.superseded device host old).toList ++
      [.reported device host enrolled.device]
  | .error (.store _) | .error .encode => []
  | .error _ => [.reported device host enrolled.device]

section Ledger

variable (crypto : Crypto) (codec : Codec)

def linkEvents (a : Auth) : AuthOp → List LinkEvent
  | .hostPaired device host key (.paired enrolled) nowMs fault =>
    match key.mapM crypto.key with
    | .error _ => []
    | .ok attempt =>
      if enrolled.valid then
        reportEvents device host enrolled ((a.links.refresh nowMs).answered (device, host) attempt)
          (a.hostPaired crypto codec device host key (.paired enrolled) nowMs fault).1
      else []
  | .hostRevoked revoke fault =>
    match (a.links.revoked fault revoke).1 with
    | .ok () => if revoke ∈ a.links.revokes then [.removed revoke] else []
    | .error _ => []
  | .expireIdle nowMs idleMs fault =>
    match (a.expireIdle codec nowMs idleMs fault).1 with
    | .ok expired => expired.map LinkEvent.expired
    | .error _ => []
  | _ => []

structure Ledger where
  auth : Auth
  log : List LinkEvent

def Ledger.perform (w : Ledger) (op : AuthOp) : Ledger :=
  ⟨w.auth.perform crypto codec op, w.log ++ linkEvents crypto codec w.auth op⟩

def Ledger.run (a : Auth) (ops : List AuthOp) : Ledger :=
  ops.foldl (Ledger.perform crypto codec) ⟨a, []⟩

end Ledger

def Auth.Accounted (a : Auth) (device : DeviceId) (host : HostId) (enrolled : DeviceId) : Prop :=
  (∃ record, a.devices.get device = some record ∧ pairedWith host record = some enrolled) ∨
    ⟨host, enrolled⟩ ∈ a.links.revokes

structure Custody (w : Ledger) : Prop where
  asks : ∀ device host ask, w.auth.links.asks.lookup (device, host) = some ask →
    .expired device ∉ w.log →
    ∃ record, w.auth.devices.get device = some record ∧ ask.replace = pairedWith host record
  held : ∀ device host enrolled before after,
    w.log = before ++ .reported device host enrolled :: after →
    .superseded device host enrolled ∉ after → .removed ⟨host, enrolled⟩ ∉ after →
    .expired device ∉ w.log → w.auth.Accounted device host enrolled

variable {crypto : Crypto} {codec : Codec} {a b : Auth} {w w' : Ledger} {log : List LinkEvent}

lemma Custody.keep {events : List LinkEvent} (h : Custody w) (hlog : w'.log = w.log ++ events)
    (hasks : ∀ device host ask', w'.auth.links.asks.lookup (device, host) = some ask' →
      .expired device ∉ events →
      (∃ record, w'.auth.devices.get device = some record ∧
        ask'.replace = pairedWith host record) ∨
      ∃ ask, w.auth.links.asks.lookup (device, host) = some ask ∧ ask.replace = ask'.replace ∧
        w.auth.devices.Retains (pairedWith host) w'.auth.devices device)
    (hheld : ∀ device host enrolled, w.auth.Accounted device host enrolled →
      .superseded device host enrolled ∉ events → .removed ⟨host, enrolled⟩ ∉ events →
      .expired device ∉ w'.log → w'.auth.Accounted device host enrolled)
    (hnew : ∀ device host enrolled before after,
      events = before ++ .reported device host enrolled :: after → .expired device ∉ w'.log →
      w'.auth.Accounted device host enrolled) : Custody w' := by
  constructor
  · intro device host ask' hl hne
    rw [hlog, List.mem_append, not_or] at hne
    rcases hasks device host ask' hl hne.2 with hr | ⟨ask, ha, hreplace, hkeep⟩
    · exact hr
    · obtain ⟨record, hget, hp⟩ := h.asks device host ask ha hne.1
      obtain ⟨record', hget', hp'⟩ := hkeep record hget
      exact ⟨record', hget', by rw [← hreplace, hp, hp']⟩
  · intro device host enrolled before after hsplit hs hr hne
    rw [hlog] at hsplit
    rcases List.append_eq_append_iff.mp hsplit with ⟨rest, -, hevents⟩ | ⟨rest, hbefore, hevents⟩
    · exact hnew device host enrolled rest after hevents hne
    · cases rest with
      | nil => exact hnew device host enrolled [] after hevents.symm hne
      | cons event rest =>
        rw [List.cons_append] at hevents
        obtain ⟨rfl, rfl⟩ := List.cons.inj hevents
        rw [List.mem_append, not_or] at hs hr
        refine hheld device host enrolled ?_ hs.2 hr.2 hne
        rw [hlog, List.mem_append, not_or] at hne
        exact h.held device host enrolled before rest hbefore hs.1 hr.1 hne.1

structure Auth.Leaves (a b : Auth) : Prop where
  asks : ∀ key ask', b.links.asks.lookup key = some ask' →
    ∃ ask, a.links.asks.lookup key = some ask ∧ ask.replace = ask'.replace
  revokes : b.links.revokes = a.links.revokes
  devices : ∀ device, a.devices.Retains DeviceRecord.links b.devices device

lemma Accounted.retains {device : DeviceId} {host : HostId} {enrolled : DeviceId}
    (h : a.Accounted device host enrolled) (hrevokes : a.links.revokes ⊆ b.links.revokes)
    (hd : a.devices.Retains (pairedWith host) b.devices device) :
    b.Accounted device host enrolled := by
  rcases h with ⟨record, hget, hp⟩ | hm
  · obtain ⟨record', hget', hp'⟩ := hd record hget
    exact Or.inl ⟨record', hget', hp'.trans hp⟩
  · exact Or.inr (hrevokes hm)

lemma Retains.paired {s t : Devices} {device : DeviceId} (host : HostId)
    (h : s.Retains DeviceRecord.links t device) : s.Retains (pairedWith host) t device := by
  intro record hget
  obtain ⟨record', hget', hlinks⟩ := h record hget
  refine ⟨record', hget', ?_⟩
  rw [pairedWith, pairedWith, Links.linkOf, Links.linkOf, hlinks]

lemma Custody.leaves (h : Custody ⟨a, log⟩) (hl : a.Leaves b) : Custody ⟨b, log⟩ := by
  refine h.keep (List.append_nil log).symm ?_ ?_ ?_
  · intro device host ask' hask _
    obtain ⟨ask, ha, hreplace⟩ := hl.asks _ ask' hask
    exact Or.inr ⟨ask, ha, hreplace, Retains.paired host (hl.devices device)⟩
  · intro device host enrolled hacc _ _ _
    refine Accounted.retains hacc (fun revoke hm => ?_) (Retains.paired host (hl.devices device))
    rw [hl.revokes]
    exact hm
  · intro device host enrolled before after hevents
    simp at hevents

lemma Auth.Leaves.of_links (hlinks : b.links = a.links)
    (hd : ∀ device, a.devices.Retains DeviceRecord.links b.devices device) : a.Leaves b :=
  ⟨fun key ask' h => ⟨ask', by rwa [← hlinks], rfl⟩, by rw [hlinks], hd⟩

lemma Auth.Leaves.of_eq (hlinks : b.links = a.links) (hd : b.devices = a.devices) : a.Leaves b :=
  .of_links hlinks fun _ => .of_records (by rw [hd])

namespace Links

variable {s : Links} {key : DeviceId × HostId} {ask' : Ask}

lemma lapse_replace (nowMs : ℕ) (ask : Ask) : (lapse nowMs ask).replace = ask.replace := by
  rw [lapse]
  split
  · rfl
  · rfl

lemma taking_replace (nowMs : ℕ) (ask : Ask) : (taking nowMs ask).replace = ask.replace := by
  rw [taking]
  split
  · rfl
  · rfl

lemma of_lookup_refresh {nowMs : ℕ} (h : (s.refresh nowMs).asks.lookup key = some ask') :
    ∃ ask, s.asks.lookup key = some ask ∧ ask.replace = ask'.replace := by
  rw [refresh, Dict.lookup_mapValues] at h
  obtain ⟨ask, ha, rfl⟩ := Option.map_eq_some_iff.mp h
  exact ⟨ask, (Dict.of_lookup_filter ha).1, (lapse_replace nowMs ask).symm⟩

lemma of_lookup_take {nowMs : ℕ} (h : (s.take nowMs).2.asks.lookup key = some ask') :
    ∃ ask, s.asks.lookup key = some ask ∧ ask.replace = ask'.replace := by
  rw [take, Dict.lookup_mapValues] at h
  obtain ⟨ask, ha, rfl⟩ := Option.map_eq_some_iff.mp h
  obtain ⟨ask, hl, hreplace⟩ := of_lookup_refresh ha
  exact ⟨ask, hl, hreplace.trans (taking_replace nowMs _).symm⟩

lemma of_lookup_ask {crypto : Crypto} {record : DeviceRecord} {host : HostId} {text : String}
    {nowMs : ℕ} (h : (s.ask crypto record host text nowMs).2.asks.lookup key = some ask') :
    key = (record.id, host) ∧ ask'.replace = pairedWith host record ∨
      ∃ ask, s.asks.lookup key = some ask ∧ ask.replace = ask'.replace := by
  rw [ask.eq_def] at h
  dsimp only at h
  split at h
  · exact Or.inr (of_lookup_refresh h)
  · split at h
    · exact Or.inr (of_lookup_refresh h)
    · split at h
      · exact Or.inr (of_lookup_refresh h)
      · split at h
        · exact Or.inr (of_lookup_refresh h)
        · rcases Dict.of_lookup_insert h with ⟨rfl, rfl⟩ | h
          · exact Or.inl ⟨rfl, rfl⟩
          · exact Or.inr (of_lookup_refresh h)

lemma ask_revokes (crypto : Crypto) (record : DeviceRecord) (host : HostId) (text : String)
    (nowMs : ℕ) (s : Links) : (s.ask crypto record host text nowMs).2.revokes = s.revokes := by
  rw [ask.eq_def]
  dsimp only
  split
  · rfl
  · split
    · rfl
    · split
      · rfl
      · split
        · rfl
        · rfl

lemma addRevokes_append (revokes owed : List HostRevoke) :
    ∃ more, addRevokes revokes owed = revokes ++ more ∧ ∀ revoke ∈ owed, revoke ∈ revokes ++ more := by
  induction owed generalizing revokes with
  | nil => exact ⟨[], (List.append_nil revokes).symm, by simp⟩
  | cons revoke owed ih =>
    rw [addRevokes, List.foldl_cons]
    by_cases hm : revoke ∈ revokes
    · rw [if_pos hm]
      obtain ⟨more, hadd, hall⟩ := ih revokes
      refine ⟨more, hadd, ?_⟩
      rintro owes (_ | ⟨_, ho⟩)
      · exact List.mem_append_left _ hm
      · exact hall owes ho
    · rw [if_neg hm]
      obtain ⟨more, hadd, hall⟩ := ih (revokes ++ [revoke])
      refine ⟨revoke :: more, by rw [addRevokes] at hadd; rw [hadd]; simp, ?_⟩
      rintro owes (_ | ⟨_, ho⟩)
      · simp
      · simpa using hall owes ho

lemma replaceRevokes_cases (fault : Option Fault) (revokes : List HostRevoke) (s : Links) :
    s.replaceRevokes fault revokes = (.ok (), { s with revokes }) ∨
      ∃ operation, s.replaceRevokes fault revokes = (.error (.store operation), s) := by
  rw [replaceRevokes]
  cases fault with
  | none => exact Or.inl rfl
  | some fault =>
    cases fault with
    | _ => exact Or.inr ⟨_, rfl⟩

lemma owe_cases (fault : Option Fault) (owed : List HostRevoke) (s : Links)
    (h : (s.owe fault owed).2.revokes.length < maxRevokes) :
    (∃ operation, s.owe fault owed = (.error (.store operation), s)) ∨
      ∃ revokes, s.owe fault owed = (.ok (), { s with revokes }) ∧ s.revokes ⊆ revokes ∧
        ∀ revoke ∈ owed, revoke ∈ revokes := by
  obtain ⟨more, hadd, hall⟩ := addRevokes_append s.revokes owed
  rw [owe, hadd] at h ⊢
  split at h
  · rename_i hlen
    rw [List.length_append] at hlen
    obtain rfl : more = [] := List.length_eq_zero_iff.mp (by omega)
    rw [List.append_nil] at hall ⊢
    rw [if_pos rfl]
    exact Or.inr ⟨s.revokes, rfl, List.Subset.refl _, hall⟩
  · rename_i hlen
    rw [if_neg hlen]
    generalize maxRevokes = most at h ⊢
    rcases replaceRevokes_cases fault ((s.revokes ++ more).drop
      ((s.revokes ++ more).length - most)) s with hr | ⟨operation, hr⟩
    · have hfew : ((s.revokes ++ more).drop ((s.revokes ++ more).length - most)).length < most := by
        rw [hr] at h
        exact h
      rw [List.length_drop] at hfew
      have hnone : (s.revokes ++ more).length - most = 0 := by omega
      rw [hr, hnone, List.drop_zero]
      exact Or.inr ⟨_, rfl, List.subset_append_left _ _, hall⟩
    · exact Or.inl ⟨operation, hr⟩

lemma mem_owedBy {record : DeviceRecord} {host : HostId} {enrolled : DeviceId}
    (h : pairedWith host record = some enrolled) : ⟨host, enrolled⟩ ∈ owedBy record := by
  obtain ⟨paired, hp, rfl⟩ := Option.map_eq_some_iff.mp h
  obtain ⟨link, hl, hlink⟩ := Option.bind_eq_some_iff.mp hp
  have hhost : link.host = host := by simpa using List.find?_some hl
  refine List.mem_filterMap.mpr ⟨link, List.mem_of_find?_eq_some hl, ?_⟩
  rw [hlink, ← hhost]
  rfl

end Links

namespace Auth

lemma leaves_claim {admitted : Bool} {token : Option Secret} {name key : String} {nowMs : ℕ}
    {nonce : Option Secret} {claim : Option ClaimId} {device : Option DeviceId} :
    a.Leaves (a.claim crypto admitted token name key nowMs nonce claim device).2 := by
  rw [Auth.claim]
  split
  · exact .of_eq rfl rfl
  · exact .of_eq rfl rfl

lemma leaves_nearbyStart {admitted : Bool} {key : String} {nowMs : ℕ} {id : Option String} :
    a.Leaves (a.nearbyStart crypto admitted key nowMs id).2 := by
  rw [Auth.nearbyStart]
  split
  · split
    · exact .of_eq rfl rfl
    · exact .of_eq rfl rfl
  · exact .of_eq rfl rfl

lemma leaves_nearbyReveal {session : String} {nowMs : ℕ} {token : Option Secret}
    {code : Option String} : a.Leaves (a.nearbyReveal crypto session nowMs token code).2 := by
  rw [Auth.nearbyReveal]
  split
  · exact .of_eq rfl rfl
  · split
    · exact .of_eq rfl rfl
    · split
      · exact .of_eq rfl rfl
      · exact .of_eq rfl rfl
      · exact .of_eq rfl rfl

lemma leaves_answer {id : PairingId} {allow : Bool} {shown : String} {hosts : List HostId}
    {nowMs : ℕ} {fault : Option Fault} :
    a.Leaves (a.answerWithHosts codec id allow shown hosts nowMs fault).2 := by
  have hkept : ∀ pairings device, Devices.Retains DeviceRecord.links a.devices
      (Pairings.answer id allow nowMs (keep codec fault nowMs (a.links.allowed hosts)) pairings
        a.devices).2.2 device := by
    intro pairings device
    rcases answer_kept id allow nowMs (keep codec fault nowMs (a.links.allowed hosts)) pairings
      a.devices with h | ⟨new, h⟩
    · rw [h]
      exact .refl _ _
    · rw [h]
      exact .addWith _
  have hkept := hkept (if allow = true then (a.pairings.state id nowMs).2 else a.pairings)
  rw [Auth.answerWithHosts]
  dsimp only
  split
  · exact .of_eq rfl rfl
  · split
    · exact .of_eq rfl rfl
    · exact .of_eq rfl rfl
  · split
    · rename_i h
      rw [h] at hkept
      exact .of_links rfl hkept
    · rename_i h
      rw [h] at hkept
      exact .of_links rfl hkept

lemma leaves_challenge {admitted : Bool} {device : DeviceId} {nowMs : ℕ} {nonce : Option Secret}
    {id : Option ChallengeId} : a.Leaves (a.challenge admitted device nowMs nonce id).2 := by
  rw [Auth.challenge]
  split
  · exact .of_eq rfl rfl
  · exact .of_eq rfl rfl

lemma leaves_verify {challenge : ChallengeId} {signature : String} {nowMs : ℕ}
    {token : Option Secret} {fault : Option Fault} :
    a.Leaves (a.verify crypto codec challenge signature nowMs token fault).2 := by
  rw [Auth.verify]
  split
  · exact .of_eq rfl rfl
  · exact .of_links rfl fun _ => .touch _ fun _ _ => rfl

lemma leaves_handoff {device : DeviceId} {nowMs : ℕ} {secret : Option Secret}
    {fault : Option Fault} : a.Leaves (a.handoff crypto device nowMs secret fault).2 := by
  rw [Auth.handoff.eq_def]
  split
  · exact .of_eq rfl rfl
  · exact .of_eq rfl rfl

lemma rekey_retains (codec : Codec) (fault : Option Fault) (id : DeviceId) (publicKey : PublicKey) (s : Devices)
    (device : DeviceId) :
    Devices.Retains DeviceRecord.links s (s.rekey codec fault id publicKey).2 device :=
  .of_edit s (fun _ _ => rfl) (fun _ => rfl) fun _ _ => rfl

lemma leaves_redeem {admitted : Bool} {token : Secret} {key : String} {nowMs : ℕ}
    {handoffFault deviceFault : Option Fault} :
    a.Leaves (a.redeem crypto codec admitted token key nowMs handoffFault deviceFault).2 := by
  rw [Auth.redeem.eq_def]
  split
  · split
    · exact .of_eq rfl rfl
    · rename_i publicKey _
      split
      · exact .of_eq rfl rfl
      · exact .of_eq rfl rfl
      · rename_i device _ _
        have hrekey := rekey_retains codec deviceFault device publicKey a.devices
        split
        · rename_i h
          rw [h] at hrekey
          exact .of_links rfl hrekey
        · rename_i h
          rw [h] at hrekey
          exact .of_links rfl hrekey
  · exact .of_eq rfl rfl

lemma leaves_setHosts {hosts : List Host} :
    a.Leaves { a with links := (a.links.setHosts hosts).2 } := by
  rw [Links.setHosts]
  split
  · exact .of_eq rfl rfl
  · exact ⟨fun key ask' h => ⟨ask', h, rfl⟩, rfl, fun _ => .refl _ _⟩

lemma leaves_hostLinks {device : DeviceId} {nowMs : ℕ} :
    a.Leaves (a.perform crypto codec (.hostLinks device nowMs)) := by
  rw [Auth.perform]
  split
  · exact .of_eq rfl rfl
  · exact ⟨fun key ask' h => Links.of_lookup_refresh h, rfl, fun _ => .refl _ _⟩

lemma leaves_take {nowMs : ℕ} : a.Leaves { a with links := (a.links.take nowMs).2 } :=
  ⟨fun _ _ h => Links.of_lookup_take h, rfl, fun _ => .refl _ _⟩

lemma leaves_refresh {nowMs : ℕ} : a.Leaves { a with links := a.links.refresh nowMs } :=
  ⟨fun _ _ h => Links.of_lookup_refresh h, rfl, fun _ => .refl _ _⟩

end Auth

lemma Custody.askHost {device : DeviceId} {host : HostId} {key : String} {nowMs : ℕ}
    (h : Custody ⟨a, log⟩) : Custody ⟨(a.askHost crypto device host key nowMs).2, log⟩ := by
  rw [Auth.askHost]
  cases hget : a.devices.get device with
  | none => exact h
  | some record =>
    have hid : record.id = device := by simpa using List.find?_some hget
    refine h.keep (List.append_nil log).symm ?_ ?_ ?_
    · intro device' host' ask' hl _
      rcases Links.of_lookup_ask hl with ⟨hkey, hr⟩ | ⟨ask, ha, hr⟩
      · obtain ⟨rfl, rfl⟩ := Prod.mk.inj hkey
        exact Or.inl ⟨record, by rwa [hid], hr⟩
      · exact Or.inr ⟨ask, ha, hr, .refl _ _⟩
    · intro device' host' enrolled hacc _ _ _
      refine Accounted.retains hacc (fun revoke hm => ?_) (.refl _ _)
      change revoke ∈ (a.links.ask crypto record host key nowMs).2.revokes
      rw [Links.ask_revokes]
      exact hm
    · intro device' host' enrolled before after hevents
      simp at hevents

lemma Custody.hostRevoked {revoke : HostRevoke} {fault : Option Fault} (h : Custody w) :
    Custody (w.perform crypto codec (.hostRevoked revoke fault)) := by
  have hrevoked : (w.auth.links.revoked fault revoke).2.asks = w.auth.links.asks ∧
      ∀ owed ∈ w.auth.links.revokes, .removed owed ∉
        linkEvents crypto codec w.auth (.hostRevoked revoke fault) →
        owed ∈ (w.auth.links.revoked fault revoke).2.revokes := by
    rw [linkEvents, Links.revoked]
    split
    · exact ⟨rfl, fun owed hm _ => hm⟩
    · rcases Links.replaceRevokes_cases fault
        (w.auth.links.revokes.filter fun owed => owed ≠ revoke) w.auth.links with
        hr | ⟨operation, hr⟩
      · rw [hr]
        refine ⟨rfl, fun owed hm hne => List.mem_filter.mpr ⟨hm, ?_⟩⟩
        rw [decide_eq_true_eq]
        rintro rfl
        exact hne (by simp [hm])
      · rw [hr]
        exact ⟨rfl, fun owed hm _ => hm⟩
  refine h.keep rfl ?_ ?_ ?_
  · intro device host ask' hl _
    refine Or.inr ⟨ask', ?_, rfl, .refl _ _⟩
    rw [← hrevoked.1]
    exact hl
  · intro device host enrolled hacc _ hr _
    rcases hacc with hlinked | hm
    · exact Or.inl hlinked
    · exact Or.inr (hrevoked.2 _ hm hr)
  · intro device host enrolled before after hevents
    have hm : LinkEvent.reported device host enrolled ∈
        linkEvents crypto codec w.auth (.hostRevoked revoke fault) := by
      rw [hevents]
      simp
    rw [linkEvents] at hm
    split at hm
    · split at hm <;> simp at hm
    · simp at hm

lemma Auth.revoke_links (codec : Codec) (device : DeviceId) (linkFault deviceFault : Option Fault)
    (a : Auth) :
    (a.revoke codec device linkFault deviceFault).2.links = (a.forgotten device linkFault).2 := by
  rw [Auth.revoke]
  split
  · rename_i h
    rw [h]
  · rename_i h
    rw [h]

lemma Auth.revoke_devices (codec : Codec) (device : DeviceId)
    (linkFault deviceFault : Option Fault) (a : Auth) :
    (a.revoke codec device linkFault deviceFault).2.devices = a.devices ∨
      (a.forgotten device linkFault).1 = .ok () ∧
        (a.revoke codec device linkFault deviceFault).2.devices =
          (a.devices.revoke codec deviceFault device).2 := by
  rw [Auth.revoke]
  split
  · exact Or.inl rfl
  · rename_i h
    exact Or.inr ⟨by rw [h], rfl⟩

lemma Custody.revoke {device : DeviceId} {linkFault deviceFault : Option Fault}
    (h : Custody ⟨a, log⟩)
    (hfew : (a.revoke codec device linkFault deviceFault).2.links.revokes.length < maxRevokes) :
    Custody ⟨(a.revoke codec device linkFault deviceFault).2, log⟩ := by
  have hlinks := Auth.revoke_links codec device linkFault deviceFault a
  have hdevices := Auth.revoke_devices codec device linkFault deviceFault a
  generalize (a.revoke codec device linkFault deviceFault).2 = b at hfew hlinks hdevices ⊢
  have hother : ∀ other, other ≠ device →
      Devices.Retains DeviceRecord.links a.devices b.devices other := by
    intro other hne
    rcases hdevices with hd | ⟨-, hd⟩
    · rw [hd]
      exact .refl _ _
    · rw [hd]
      exact .revoke _ hne
  cases hget : a.devices.get device with
  | none =>
    refine h.leaves (.of_links (by rw [hlinks, Auth.forgotten, hget]) fun other => ?_)
    by_cases hne : other = device
    · subst hne
      intro record hr
      rw [hget] at hr
      cases hr
    · exact hother other hne
  | some record =>
    have hid : record.id = device := by simpa using List.find?_some hget
    rw [Auth.forgotten, hget] at hdevices hlinks
    dsimp only at hdevices hlinks
    rw [Links.forget] at hdevices hlinks
    rw [hlinks] at hfew
    have hasks : ∀ links : Links,
        links.asks = Dict.retain (fun key => key.1 ≠ record.id) a.links.asks →
        ∀ key ask, links.asks.lookup key = some ask →
          a.links.asks.lookup key = some ask ∧ key.1 ≠ device := by
      intro links hl key ask hk
      rw [hl] at hk
      obtain ⟨hk, hne⟩ := Dict.of_lookup_retain hk
      exact ⟨hk, by simpa [hid] using hne⟩
    rcases Links.owe_cases linkFault _ _ hfew with ⟨operation, ho⟩ | ⟨revokes, ho, hsub, hall⟩
    · rw [ho] at hlinks hdevices
      rcases hdevices with hd | ⟨hok, -⟩
      · refine h.leaves ⟨fun key ask' hk => ⟨ask', (hasks b.links (by rw [hlinks]) key ask' hk).1,
          rfl⟩, by rw [hlinks], fun other => ?_⟩
        rw [hd]
        exact .refl _ _
      · cases hok
    · rw [ho] at hlinks
      refine h.keep (List.append_nil log).symm ?_ ?_ ?_
      · intro device' host ask' hk _
        obtain ⟨hk, hne⟩ := hasks b.links (by rw [hlinks]) _ ask' hk
        exact Or.inr ⟨ask', hk, rfl, Retains.paired host (hother device' hne)⟩
      · intro device' host enrolled hacc _ _ _
        by_cases hne : device' = device
        · subst hne
          rcases hacc with ⟨record', hget', hp⟩ | hm
          · obtain rfl := Option.some.inj (hget.symm.trans hget')
            refine Or.inr ?_
            rw [hlinks]
            exact hall _ (Links.mem_owedBy hp)
          · refine Or.inr ?_
            rw [hlinks]
            exact hsub hm
        · refine Accounted.retains hacc ?_ (Retains.paired host (hother device' hne))
          rw [hlinks]
          exact hsub
      · intro device' host enrolled before after hevents
        simp at hevents

lemma Custody.enroll {enroll : Enroll} {nowMs : ℕ} {id : Option DeviceId}
    {linkFault oldFault deviceFault : Option Fault} (h : Custody ⟨a, log⟩)
    (hfew : (a.enroll crypto codec enroll nowMs id linkFault oldFault
      deviceFault).2.links.revokes.length < maxRevokes) :
    Custody ⟨(a.enroll crypto codec enroll nowMs id linkFault oldFault deviceFault).2, log⟩ := by
  have hadd : ∀ (b : Auth) new via, b.Leaves
      { b with devices := (b.devices.addWith codec deviceFault new nowMs via []).2 } :=
    fun b new via => .of_links rfl fun _ => .addWith _
  cases hkey : crypto.key enroll.publicKey with
  | error error => simpa [Auth.enroll, hkey] using h
  | ok publicKey =>
    cases hname : deviceName enroll.name with
    | error error => simpa [Auth.enroll, hkey, hname] using h
    | ok name =>
      cases hvia : deviceName enroll.via with
      | error error => simpa [Auth.enroll, hkey, hname, hvia] using h
      | ok via =>
        cases hold : a.replaced enroll with
        | none =>
          cases id with
          | none => simpa [Auth.enroll, hkey, hname, hvia, hold] using h
          | some id => simpa [Auth.enroll, hkey, hname, hvia, hold] using h.leaves (hadd a _ _)
        | some old =>
          simp only [Auth.enroll, hkey, hname, hvia, hold] at hfew ⊢
          have hrevoke : (a.revoke codec old linkFault oldFault).2.links.revokes.length <
              maxRevokes → Custody ⟨(a.revoke codec old linkFault oldFault).2, log⟩ := h.revoke
          cases hr : a.revoke codec old linkFault oldFault with
          | mk result b =>
            rw [hr] at hfew hrevoke
            cases result with
            | error error => exact hrevoke hfew
            | ok revoked =>
              cases id with
              | none => exact hrevoke hfew
              | some id => exact (hrevoke hfew).leaves (hadd b _ _)

lemma Custody.expireIdle {nowMs idleMs : ℕ} {fault : Option Fault} (h : Custody w) :
    Custody (w.perform crypto codec (.expireIdle nowMs idleMs fault)) := by
  have hevents : ∀ device, .expired device ∉
      linkEvents crypto codec w.auth (.expireIdle nowMs idleMs fault) →
      Devices.Retains DeviceRecord.links w.auth.devices
        (w.auth.expireIdle codec nowMs idleMs fault).2.devices device := by
    intro device hne
    have hretains := Devices.expireIdle_retains DeviceRecord.links codec fault nowMs idleMs
      w.auth.devices device
    rw [linkEvents, Auth.expireIdle] at hne
    rw [Auth.expireIdle]
    cases hr : w.auth.devices.expireIdle codec fault nowMs idleMs with
    | mk result devices =>
      simp only [hr] at hretains hne ⊢
      cases result with
      | error error =>
        rcases hretains with ⟨expired, hok, -⟩ | ⟨-, hk⟩
        · cases hok
        · exact hk
      | ok expired =>
        rcases hretains with ⟨expired', hok, hk⟩ | ⟨⟨error, herror⟩, -⟩
        · obtain rfl := Except.ok.inj hok
          exact hk (by simpa using hne)
        · cases herror
  have hlinks : (w.auth.expireIdle codec nowMs idleMs fault).2.links = w.auth.links := by
    rw [Auth.expireIdle]
    split
    · rfl
    · rfl
  refine h.keep rfl ?_ ?_ ?_
  · intro device host ask' hl hne
    refine Or.inr ⟨ask', ?_, rfl, Retains.paired host (hevents device hne)⟩
    rw [← hlinks]
    exact hl
  · intro device host enrolled hacc _ _ hne
    rw [Ledger.perform, List.mem_append, not_or] at hne
    refine Accounted.retains hacc (fun revoke hm => ?_) (Retains.paired host (hevents device hne.2))
    change revoke ∈ (w.auth.expireIdle codec nowMs idleMs fault).2.links.revokes
    rw [hlinks]
    exact hm
  · intro device host enrolled before after hsplit
    have hm : LinkEvent.reported device host enrolled ∈
        linkEvents crypto codec w.auth (.expireIdle nowMs idleMs fault) := by
      rw [hsplit]
      simp
    rw [linkEvents] at hm
    split at hm
    · simp at hm
    · simp at hm

namespace Devices

lemma save_error {fault : Option Fault} {s t : Devices} {error : Error}
    (h : save codec fault s = (.error error, t)) :
    error = .encode ∨ ∃ operation, error = .store operation := by
  rw [save] at h
  cases hencode : codec.encode s.records with
  | none =>
    rw [hencode] at h
    cases h
    exact Or.inl rfl
  | some content =>
    rw [hencode] at h
    cases fault with
    | none => cases h
    | some fault =>
      cases fault with
      | _ =>
        cases h
        exact Or.inr ⟨_, rfl⟩

lemma find_putLink (link : Link) (links : List Link) (host : HostId) :
    (putLink link links).find? (fun link => link.host = host) =
      if link.host = host then some link else links.find? fun link => link.host = host := by
  induction links with
  | nil => by_cases hhost : link.host = host <;> simp [putLink, hhost]
  | cons known links ih =>
    rw [putLink]
    by_cases hknown : known.host = link.host
    · rw [if_pos hknown, List.find?_cons, List.find?_cons, hknown]
      by_cases hhost : link.host = host <;> simp [hhost]
    · rw [if_neg hknown, List.find?_cons, List.find?_cons, ih]
      by_cases hhost : link.host = host
      · simp [hhost, show ¬known.host = host from hhost ▸ hknown]
      · simp [hhost]

lemma setLink_cases (codec : Codec) (fault : Option Fault) (id : DeviceId) (link : Link)
    (s : Devices) :
    (∃ record file, s.get id = some record ∧ setLink codec fault id link s = (.ok (),
        { s.amended id fun record => { record with links := putLink link record.links } with file })) ∨
      s.get id = none ∧ setLink codec fault id link s = (.error .unknownDevice, s) ∨
      ∃ error t, setLink codec fault id link s = (.error error, t) ∧ t.records = s.records ∧
        (error = .encode ∨ ∃ operation, error = .store operation) := by
  rw [setLink, edit]
  cases hget : s.get id with
  | none => exact Or.inr (Or.inl ⟨rfl, rfl⟩)
  | some record =>
    dsimp only
    rw [saveOrUndo]
    obtain ⟨file, result, hs⟩ := save_records codec fault
      (s.amended id fun record => { record with links := putLink link record.links })
    rw [hs]
    cases result with
    | ok value => exact Or.inl ⟨record, file, rfl, rfl⟩
    | error error =>
      refine Or.inr (Or.inr ⟨error, _, rfl, ?_, save_error hs⟩)
      change amend id (fun record' => { record' with links := record.links })
        (amend id _ s.records) = s.records
      exact amend_undo hget rfl rfl

end Devices

lemma Links.answered_lookup {key : DeviceId × HostId} {attempt : Option PublicKey} {s : Links}
    {ask : Ask} (h : s.answered key attempt = some ask) : s.asks.lookup key = some ask :=
  (Option.filter_eq_some_iff.mp h).1

lemma Custody.unanswered {device : DeviceId} {host : HostId} {enrolled : DeviceId}
    {fault : Option Fault} {s : Links} (h : Custody ⟨a, log⟩) (hs : a.links = s)
    (hfew : (s.owe fault [⟨host, enrolled⟩]).2.revokes.length < maxRevokes) :
    (∃ operation, s.owe fault [⟨host, enrolled⟩] = (.error (.store operation), s)) ∨
      ∃ links, s.owe fault [⟨host, enrolled⟩] = (.ok (), links) ∧
        Custody ⟨{ a with links }, log ++ [.reported device host enrolled]⟩ := by
  subst hs
  rcases Links.owe_cases fault _ _ hfew with herror | ⟨revokes, ho, hsub, hall⟩
  · exact Or.inl herror
  · refine Or.inr ⟨_, ho, h.keep rfl ?_ ?_ ?_⟩
    · intro device' host' ask' hl _
      exact Or.inr ⟨ask', hl, rfl, .refl _ _⟩
    · intro device' host' enrolled' hacc _ _ _
      exact Accounted.retains hacc hsub (.refl _ _)
    · intro device' host' enrolled' before after hevents _
      have hm : LinkEvent.reported device' host' enrolled' ∈
          [LinkEvent.reported device host enrolled] := by
        rw [hevents]
        simp
      obtain ⟨-, rfl, rfl⟩ := LinkEvent.reported.inj (List.mem_singleton.mp hm)
      exact Or.inr (hall _ (by simp))

lemma Custody.answered {device : DeviceId} {host : HostId} {enrolled : Enrolled} {ask : Ask}
    {fault : Option Fault} {name : String} (h : Custody ⟨a, log⟩)
    (hask : a.links.asks.lookup (device, host) = some ask) :
    (∃ devices, a.devices.setLink codec fault device ⟨host, name, some enrolled⟩ = (.ok (), devices) ∧
      Custody ⟨{ a with links := { a.links with asks := a.links.asks.erase (device, host) }, devices },
        log ++ reportEvents device host enrolled (some ask) (.ok ())⟩) ∨
    ∃ error devices, a.devices.setLink codec fault device ⟨host, name, some enrolled⟩ =
        (.error error, devices) ∧
      Custody ⟨{ a with devices }, log ++ reportEvents device host enrolled (some ask) (.error error)⟩ := by
  rcases Devices.setLink_cases codec fault device ⟨host, name, some enrolled⟩ a.devices with
    ⟨record, file, hget, hset⟩ | ⟨hnone, hset⟩ | ⟨error, devices, hset, hrecords, herror⟩
  · refine Or.inl ⟨_, hset, ?_⟩
    have hamend : ∀ other, Devices.get { a.devices.amended device fun record =>
        { record with links := Devices.putLink ⟨host, name, some enrolled⟩ record.links } with file }
          other = (a.devices.get other).map fun record => if record.id = device then
            { record with links := Devices.putLink ⟨host, name, some enrolled⟩ record.links }
            else record := fun other => Devices.find_amend _ _ fun _ => rfl
    have hid : ∀ other record, a.devices.get other = some record → record.id = other := by
      intro other record hr
      simpa using List.find?_some hr
    have hother : ∀ other host', (other, host') ≠ (device, host) → a.devices.Retains
        (pairedWith host') { a.devices.amended device fun record =>
          { record with links := Devices.putLink ⟨host, name, some enrolled⟩ record.links } with
            file } other := by
      intro other host' hne record' hr
      refine ⟨_, by rw [hamend, hr, Option.map_some], ?_⟩
      rw [hid other record' hr]
      split
      · rename_i heq
        have hhost : host ≠ host' := fun hh => hne (by rw [heq, hh])
        rw [pairedWith, pairedWith, Links.linkOf, Links.linkOf, Devices.find_putLink, if_neg hhost]
      · rfl
    have hpaired : ∃ record', Devices.get { a.devices.amended device fun record =>
          { record with links := Devices.putLink ⟨host, name, some enrolled⟩ record.links } with
            file } device = some record' ∧ pairedWith host record' = some enrolled.device := by
      refine ⟨_, by rw [hamend, hget, Option.map_some], ?_⟩
      rw [if_pos (hid device record hget), pairedWith, Links.linkOf, Devices.find_putLink, if_pos rfl]
      rfl
    refine h.keep rfl ?_ ?_ ?_
    · intro device' host' ask' hl _
      obtain ⟨hne, hl⟩ := Dict.of_lookup_erase hl
      exact Or.inr ⟨ask', hl, rfl, hother device' host' hne⟩
    · intro device' host' enrolled' hacc hs _ hne
      by_cases hkey : (device', host') = (device, host)
      · obtain ⟨rfl, rfl⟩ := Prod.mk.inj hkey
        rcases hacc with ⟨record', hget', hp⟩ | hm
        · exfalso
          rw [List.mem_append, not_or] at hne
          obtain ⟨record'', hget'', hreplace⟩ := h.asks device' host' ask hask hne.1
          obtain rfl := Option.some.inj (hget'.symm.trans hget'')
          apply hs
          rw [reportEvents, Option.bind_some, hreplace, hp]
          simp
        · exact Or.inr hm
      · exact Accounted.retains hacc (fun _ hm => hm) (hother device' host' hkey)
    · intro device' host' enrolled' before after hevents _
      have hm : LinkEvent.reported device' host' enrolled' ∈
          reportEvents device host enrolled (some ask) (.ok ()) := by
        rw [hevents]
        simp
      rw [reportEvents, List.mem_append] at hm
      rcases hm with hm | hm
      · simp at hm
      · obtain ⟨rfl, rfl, rfl⟩ := LinkEvent.reported.inj (List.mem_singleton.mp hm)
        exact Or.inl hpaired
  · refine Or.inr ⟨_, _, hset, h.keep rfl ?_ ?_ ?_⟩
    · intro device' host' ask' hl _
      exact Or.inr ⟨ask', hl, rfl, .refl _ _⟩
    · intro device' host' enrolled' hacc _ _ _
      exact Accounted.retains hacc (fun _ hm => hm) (.refl _ _)
    · intro device' host' enrolled' before after hevents hne
      have hm : LinkEvent.reported device' host' enrolled' ∈
          reportEvents device host enrolled (some ask) (.error .unknownDevice) := by
        rw [hevents]
        simp
      obtain ⟨rfl, rfl, rfl⟩ := LinkEvent.reported.inj (List.mem_singleton.mp hm)
      rw [List.mem_append, not_or] at hne
      obtain ⟨record, hget, -⟩ := h.asks device' host' ask hask hne.1
      rw [hnone] at hget
      cases hget
  · refine Or.inr ⟨error, devices, hset, ?_⟩
    have hevents : reportEvents device host enrolled (some ask) (.error error) = [] := by
      rcases herror with rfl | ⟨operation, rfl⟩
      · rfl
      · rfl
    rw [hevents, List.append_nil]
    exact h.leaves (.of_links rfl fun _ => .of_records hrecords)

lemma Auth.hostPaired_finish {device : DeviceId} {host : HostId} {key : Option String}
    {outcome : HostOutcome} {nowMs : ℕ} {fault : Option Fault} {result : Except Error Unit}
    {links : Links} {devices : Devices}
    (h : a.links.finish crypto codec fault device host key outcome nowMs a.devices =
      (result, links, devices)) :
    a.hostPaired crypto codec device host key outcome nowMs fault =
      (result, { a with links, devices }) := by
  rw [Auth.hostPaired, h]

lemma Custody.refreshed {device : DeviceId} {host : HostId} {key : Option String}
    {outcome : HostOutcome} {nowMs : ℕ} {fault : Option Fault} (h : Custody ⟨a, log⟩) (error : Error)
    (hfinish : a.links.finish crypto codec fault device host key outcome nowMs a.devices =
      (.error error, a.links.refresh nowMs, a.devices))
    (hevents : linkEvents crypto codec a (.hostPaired device host key outcome nowMs fault) = []) :
    Custody (Ledger.perform crypto codec ⟨a, log⟩
      (.hostPaired device host key outcome nowMs fault)) := by
  rw [Ledger.perform, hevents, List.append_nil, Auth.perform, Auth.hostPaired_finish hfinish]
  exact h.leaves Auth.leaves_refresh

section HostPaired

variable {device : DeviceId} {host : HostId} {key : Option String} {nowMs : ℕ} {fault : Option Fault}
  {attempt : Option PublicKey} {ask : Ask} {enrolled : Enrolled}

lemma Custody.pairedUnasked (h : Custody ⟨a, log⟩) (hkey : key.mapM crypto.key = .ok attempt)
    (hans : (a.links.refresh nowMs).answered (device, host) attempt = none)
    (hvalid : enrolled.valid = true)
    (hfew : (a.hostPaired crypto codec device host key (.paired enrolled) nowMs
      fault).2.links.revokes.length < maxRevokes) :
    Custody (Ledger.perform crypto codec ⟨a, log⟩
      (.hostPaired device host key (.paired enrolled) nowMs fault)) := by
  have hrefresh : Custody ⟨{ a with links := a.links.refresh nowMs }, log⟩ :=
    h.leaves Auth.leaves_refresh
  have hfails : ∀ {error s}, (a.links.refresh nowMs).owe fault [⟨host, enrolled.device⟩] =
      (.error error, s) → a.links.finish crypto codec fault device host key (.paired enrolled) nowMs
        a.devices = (.error error, s, a.devices) := by
    intro error s howe
    rw [Links.finish.eq_def]
    simp only [hkey, hans, hvalid, if_true, howe]
  have howes : ∀ {s}, (a.links.refresh nowMs).owe fault [⟨host, enrolled.device⟩] =
      (.ok (), s) → a.links.finish crypto codec fault device host key (.paired enrolled) nowMs
        a.devices = (.error .notPairing, s, a.devices) := by
    intro s howe
    rw [Links.finish.eq_def]
    simp only [hkey, hans, hvalid, if_true, howe]
  have hlinks : (a.hostPaired crypto codec device host key (.paired enrolled) nowMs
      fault).2.links = ((a.links.refresh nowMs).owe fault [⟨host, enrolled.device⟩]).2 := by
    rcases howe : (a.links.refresh nowMs).owe fault [⟨host, enrolled.device⟩] with ⟨_ | _, s⟩
    · rw [Auth.hostPaired_finish (hfails howe)]
    · rw [Auth.hostPaired_finish (howes howe)]
  rw [hlinks] at hfew
  have hevents : ∀ result, (a.hostPaired crypto codec device host key (.paired enrolled) nowMs
      fault).1 = result →
      linkEvents crypto codec a (.hostPaired device host key (.paired enrolled) nowMs fault) =
        reportEvents device host enrolled none result := by
    rintro result rfl
    simp only [linkEvents, hkey, hvalid, hans, if_true]
  rw [Ledger.perform, Auth.perform]
  rcases hrefresh.unanswered rfl hfew with ⟨operation, howe⟩ | ⟨links, howe, hkept⟩
  · have hpaired := Auth.hostPaired_finish (hfails howe)
    rw [hevents _ (by rw [hpaired]), hpaired, reportEvents, List.append_nil]
    exact hrefresh
  · have hpaired := Auth.hostPaired_finish (howes howe)
    rw [hevents _ (by rw [hpaired]), hpaired]
    exact hkept

lemma Custody.failedAsk (h : Custody ⟨a, log⟩) (hkey : key.mapM crypto.key = .ok attempt)
    (hans : (a.links.refresh nowMs).answered (device, host) attempt = some ask) (reason : String) :
    Custody (Ledger.perform crypto codec ⟨a, log⟩
      (.hostPaired device host key (.failed reason) nowMs fault)) := by
  have hfinish : a.links.finish crypto codec fault device host key (.failed reason) nowMs
      a.devices = (.ok (), { a.links.refresh nowMs with
        asks := (a.links.refresh nowMs).asks.insert (device, host) { ask with
          stage := .failed (.ofList (reason.toList.take maxReason)), sinceMs := nowMs } },
        a.devices) := by
    rw [Links.finish.eq_def]
    simp only [hkey, hans]
  change Custody ⟨_, log ++ []⟩
  rw [Auth.perform, Auth.hostPaired_finish hfinish, List.append_nil]
  have hrefresh : Custody ⟨{ a with links := a.links.refresh nowMs }, log⟩ :=
    h.leaves Auth.leaves_refresh
  refine hrefresh.leaves ⟨fun key' ask' hl => ?_, rfl, fun _ => .refl _ _⟩
  rcases Dict.of_lookup_insert hl with ⟨rfl, rfl⟩ | hl
  · exact ⟨ask, Links.answered_lookup hans, rfl⟩
  · exact ⟨ask', hl, rfl⟩

lemma Custody.deniedAsk (h : Custody ⟨a, log⟩) (hkey : key.mapM crypto.key = .ok attempt)
    (hans : (a.links.refresh nowMs).answered (device, host) attempt = some ask) :
    Custody (Ledger.perform crypto codec ⟨a, log⟩
      (.hostPaired device host key .denied nowMs fault)) := by
  have hfinish : a.links.finish crypto codec fault device host key .denied nowMs
      a.devices = (.ok (), { a.links.refresh nowMs with
        asks := (a.links.refresh nowMs).asks.erase (device, host) }, a.devices) := by
    rw [Links.finish.eq_def]
    simp only [hkey, hans]
  change Custody ⟨_, log ++ []⟩
  rw [Auth.perform, Auth.hostPaired_finish hfinish, List.append_nil]
  have hrefresh : Custody ⟨{ a with links := a.links.refresh nowMs }, log⟩ :=
    h.leaves Auth.leaves_refresh
  refine hrefresh.leaves ⟨fun key' ask' hl => ?_, rfl, fun _ => .refl _ _⟩
  exact ⟨ask', (Dict.of_lookup_erase hl).2, rfl⟩

lemma Custody.pairedAsk (h : Custody ⟨a, log⟩) (hkey : key.mapM crypto.key = .ok attempt)
    (hans : (a.links.refresh nowMs).answered (device, host) attempt = some ask)
    (hvalid : enrolled.valid = true) :
    Custody (Ledger.perform crypto codec ⟨a, log⟩
      (.hostPaired device host key (.paired enrolled) nowMs fault)) := by
  have hrefresh : Custody ⟨{ a with links := a.links.refresh nowMs }, log⟩ :=
    h.leaves Auth.leaves_refresh
  have hfails : ∀ {error devices}, a.devices.setLink codec fault device ⟨host,
      (a.links.refresh nowMs).hostName a.devices device host enrolled, some enrolled⟩ =
        (.error error, devices) → a.links.finish crypto codec fault device host key
          (.paired enrolled) nowMs a.devices = (.error error, a.links.refresh nowMs, devices) := by
    intro error devices hset
    rw [Links.finish.eq_def]
    simp only [hkey, hans, hvalid, if_true, hset]
  have hsets : ∀ {devices}, a.devices.setLink codec fault device ⟨host,
      (a.links.refresh nowMs).hostName a.devices device host enrolled, some enrolled⟩ =
        (.ok (), devices) → a.links.finish crypto codec fault device host key
          (.paired enrolled) nowMs a.devices = (.ok (), { a.links.refresh nowMs with
            asks := (a.links.refresh nowMs).asks.erase (device, host) }, devices) := by
    intro devices hset
    rw [Links.finish.eq_def]
    simp only [hkey, hans, hvalid, if_true, hset]
  have hevents : linkEvents crypto codec a
      (.hostPaired device host key (.paired enrolled) nowMs fault) =
        reportEvents device host enrolled (some ask)
          (a.hostPaired crypto codec device host key (.paired enrolled) nowMs fault).1 := by
    simp only [linkEvents, hkey, hvalid, hans, if_true]
  rw [Ledger.perform, Auth.perform, hevents]
  rcases hrefresh.answered (Links.answered_lookup hans) with
    ⟨devices, hset, hkept⟩ | ⟨error, devices, hset, hkept⟩
  · rw [Auth.hostPaired_finish (hsets hset)]
    exact hkept
  · rw [Auth.hostPaired_finish (hfails hset)]
    exact hkept

end HostPaired

lemma Custody.hostPaired {device : DeviceId} {host : HostId} {key : Option String}
    {outcome : HostOutcome} {nowMs : ℕ} {fault : Option Fault} (h : Custody w)
    (hfew : (w.perform crypto codec (.hostPaired device host key outcome nowMs
      fault)).auth.links.revokes.length < maxRevokes) :
    Custody (w.perform crypto codec (.hostPaired device host key outcome nowMs fault)) := by
  obtain ⟨a, log⟩ := w
  rw [Ledger.perform, Auth.perform] at hfew
  cases hkey : key.mapM crypto.key with
  | error error =>
    refine h.refreshed error ?_ ?_
    · rw [Links.finish.eq_def]
      simp only [hkey]
    · cases outcome with
      | paired enrolled => simp only [linkEvents, hkey]
      | failed reason => rfl
      | denied => rfl
  | ok attempt =>
    cases hans : (a.links.refresh nowMs).answered (device, host) attempt with
    | none =>
      cases outcome with
      | failed reason =>
        refine h.refreshed .notPairing ?_ rfl
        rw [Links.finish.eq_def]
        simp only [hkey, hans]
      | denied =>
        refine h.refreshed .notPairing ?_ rfl
        rw [Links.finish.eq_def]
        simp only [hkey, hans]
      | paired enrolled =>
        cases hvalid : enrolled.valid with
        | false =>
          refine h.refreshed .notPairing ?_ ?_
          · rw [Links.finish.eq_def]
            simp [hkey, hans, hvalid]
          · simp [linkEvents, hkey, hvalid]
        | true => exact h.pairedUnasked hkey hans hvalid hfew
    | some ask =>
      cases outcome with
      | failed reason => exact h.failedAsk hkey hans reason
      | denied => exact h.deniedAsk hkey hans
      | paired enrolled =>
        cases hvalid : enrolled.valid with
        | false =>
          refine h.refreshed .invalidOutcome ?_ ?_
          · rw [Links.finish.eq_def]
            simp [hkey, hans, hvalid]
          · simp [linkEvents, hkey, hvalid]
        | true => exact h.pairedAsk hkey hans hvalid

lemma Custody.perform (h : Custody w) (op : AuthOp)
    (hfew : (w.perform crypto codec op).auth.links.revokes.length < maxRevokes) :
    Custody (w.perform crypto codec op) := by
  have hsilent : linkEvents crypto codec w.auth op = [] →
      Custody ⟨w.auth.perform crypto codec op, w.log⟩ → Custody (w.perform crypto codec op) := by
    intro hevents hkept
    rw [Ledger.perform, hevents, List.append_nil]
    exact hkept
  have hleaves : linkEvents crypto codec w.auth op = [] →
      w.auth.Leaves (w.auth.perform crypto codec op) → Custody (w.perform crypto codec op) :=
    fun hevents hl => hsilent hevents (h.leaves hl)
  cases op with
  | claim => exact hleaves rfl Auth.leaves_claim
  | nearbyStart => exact hleaves rfl Auth.leaves_nearbyStart
  | nearbyReveal => exact hleaves rfl Auth.leaves_nearbyReveal
  | answer => exact hleaves rfl Auth.leaves_answer
  | challenge => exact hleaves rfl Auth.leaves_challenge
  | verify => exact hleaves rfl Auth.leaves_verify
  | handoff => exact hleaves rfl Auth.leaves_handoff
  | redeem => exact hleaves rfl Auth.leaves_redeem
  | setPush =>
    refine hleaves rfl (.of_links rfl fun _ => ?_)
    exact .of_edit _ (fun _ _ => rfl) (fun _ => rfl) fun _ _ => rfl
  | setApns =>
    refine hleaves rfl (.of_links rfl fun _ => ?_)
    exact .of_edit _ (fun _ _ => rfl) (fun _ => rfl) fun _ _ => rfl
  | setHosts => exact hleaves rfl Auth.leaves_setHosts
  | hostLinks => exact hleaves rfl Auth.leaves_hostLinks
  | takeHostPairings => exact hleaves rfl Auth.leaves_take
  | askHost => exact hsilent rfl h.askHost
  | hostPaired => exact h.hostPaired hfew
  | hostRevoked => exact h.hostRevoked
  | revoke => exact hsilent rfl (h.revoke hfew)
  | enroll => exact hsilent rfl (h.enroll hfew)
  | expireIdle => exact h.expireIdle
  | _ => exact hleaves rfl (.of_eq rfl rfl)

lemma Ledger.run_snoc (a : Auth) (ops : List AuthOp) (op : AuthOp) :
    Ledger.run crypto codec a (ops ++ [op]) = (Ledger.run crypto codec a ops).perform crypto codec op := by
  rw [Ledger.run, List.foldl_append]
  rfl

lemma Custody.run (crypto : Crypto) (codec : Codec) (devices : Devices) (handoffs : Handoffs)
    (revokes : List HostRevoke) (ops : List AuthOp)
    (hfew : ∀ done ∈ ops.inits, (Ledger.run crypto codec (.started devices handoffs revokes)
      done).auth.links.revokes.length < maxRevokes) :
    Custody (.run crypto codec (.started devices handoffs revokes) ops) := by
  induction ops using List.reverseRecOn with
  | nil =>
    constructor
    · intro device host ask hl
      simp [Ledger.run, Auth.started] at hl
    · intro device host enrolled before after hlog
      simp [Ledger.run] at hlog
  | append_singleton ops op ih =>
    rw [Ledger.run_snoc]
    refine (ih fun done hm => hfew done ?_).perform op ?_
    · rw [List.mem_inits] at hm ⊢
      exact hm.trans (List.prefix_append _ _)
    · rw [← Ledger.run_snoc]
      exact hfew _ (by rw [List.mem_inits])

lemma Auth.hostPaired_other {device : DeviceId} {host : HostId} {text : String} {key : PublicKey}
    {outcome : HostOutcome} {nowMs : ℕ} {fault : Option Fault} {ask : Ask}
    (hask : a.links.asks.lookup (device, host) = some ask) (hkey : crypto.key text = .ok key)
    (hne : key ≠ ask.publicKey) :
    (a.hostPaired crypto codec device host (some text) outcome nowMs fault).2.links.asks =
        (a.links.refresh nowMs).asks ∧
      (a.hostPaired crypto codec device host (some text) outcome nowMs fault).2.devices = a.devices := by
  have hattempt : (some text).mapM crypto.key = .ok (some key) := by
    rw [Option.mapM_some, hkey]
    rfl
  have hans : (a.links.refresh nowMs).answered (device, host) (some key) = none := by
    rw [Links.answered, Links.refresh, Dict.lookup_mapValues, Option.filter_eq_none_iff]
    rintro ask' hl
    obtain ⟨ask, ha, rfl⟩ := Option.map_eq_some_iff.mp hl
    obtain rfl := Option.some.inj (hask.symm.trans (Dict.of_lookup_filter ha).1)
    have hsame : (Links.lapse nowMs ask).publicKey = ask.publicKey := by
      rw [Links.lapse]
      split
      · rfl
      · rfl
    simp [hsame, hne]
  have howe : ∀ owed, ((a.links.refresh nowMs).owe fault owed).2.asks =
      (a.links.refresh nowMs).asks := by
    intro owed
    rw [Links.owe]
    split
    · rfl
    · rcases Links.replaceRevokes_cases fault _ (a.links.refresh nowMs) with hr | ⟨operation, hr⟩
      · rw [hr]
      · rw [hr]
  rw [Auth.hostPaired, Links.finish.eq_def]
  simp only [hattempt, hans]
  cases outcome with
  | failed reason => exact ⟨rfl, rfl⟩
  | denied => exact ⟨rfl, rfl⟩
  | paired enrolled =>
    have howe := howe [⟨host, enrolled.device⟩]
    dsimp only
    split
    · split
      · rename_i h
        rw [h] at howe
        exact ⟨howe, rfl⟩
      · rename_i h
        rw [h] at howe
        exact ⟨howe, rfl⟩
    · exact ⟨rfl, rfl⟩

theorem enrolments_accounted (devices : Devices) (handoffs : Handoffs) (revokes : List HostRevoke)
    (ops : List AuthOp)
    (hfew : ∀ done ∈ ops.inits, (Ledger.run crypto codec (.started devices handoffs revokes)
      done).auth.links.revokes.length < maxRevokes) :
    (∀ device host enrolled before after,
      (Ledger.run crypto codec (.started devices handoffs revokes) ops).log =
        before ++ .reported device host enrolled :: after →
      .superseded device host enrolled ∈ after ∨ .removed ⟨host, enrolled⟩ ∈ after ∨
        .expired device ∈ (Ledger.run crypto codec (.started devices handoffs revokes) ops).log ∨
        (Ledger.run crypto codec (.started devices handoffs revokes) ops).auth.Accounted device host
          enrolled) ∧
    ∀ device host ask text key outcome nowMs fault,
      (Ledger.run crypto codec (.started devices handoffs revokes) ops).auth.links.asks.lookup
        (device, host) = some ask → crypto.key text = .ok key → key ≠ ask.publicKey →
      ((Ledger.run crypto codec (.started devices handoffs revokes) ops).auth.hostPaired crypto codec
          device host (some text) outcome nowMs fault).2.links.asks =
        ((Ledger.run crypto codec (.started devices handoffs revokes) ops).auth.links.refresh
          nowMs).asks ∧
      ((Ledger.run crypto codec (.started devices handoffs revokes) ops).auth.hostPaired crypto codec
          device host (some text) outcome nowMs fault).2.devices =
        (Ledger.run crypto codec (.started devices handoffs revokes) ops).auth.devices := by
  have hrun := Custody.run crypto codec devices handoffs revokes ops hfew
  generalize Ledger.run crypto codec (.started devices handoffs revokes) ops = w at hrun ⊢
  constructor
  · intro device host enrolled before after hlog
    by_contra hnone
    simp only [not_or] at hnone
    exact hnone.2.2.2 (hrun.held device host enrolled before after hlog hnone.1 hnone.2.1 hnone.2.2.1)
  · intro device host ask text key outcome nowMs fault hask hkey hne
    exact Auth.hostPaired_other hask hkey hne

def cloudEnrolled : Enrolled := ⟨"e", "Cloud", "f", []⟩

def linkedPhone : DeviceRecord :=
  { Devices.phone with links := [⟨"h", "Cloud", some cloudEnrolled⟩] }

def linkedFile : Content :=
  "\x7b\n  \"version\": 1,\n  \"devices\": [\n    \x7b\n      \"id\": \"p\",\n" ++
  "      \"name\": \"Phone\",\n      \"public_key\": \"" ++ Devices.phone.publicKey ++
  "\",\n      \"created_ms\": 0,\n      \"links\": [\n        \x7b\n" ++
  "          \"host\": \"h\",\n          \"name\": \"Cloud\",\n          \"paired\": \x7b\n" ++
  "            \"device\": \"e\",\n            \"computer\": \"Cloud\",\n" ++
  "            \"fingerprint\": \"f\",\n            \"origins\": []\n          \x7d\n" ++
  "        \x7d\n      ]\n    \x7d\n  ]\n\x7d"

def linkedDevices : Codec where
  encode records :=
    if records = [] then some Devices.emptyFile
    else if records = [linkedPhone] then some linkedFile else none
  decode content :=
    if content = Devices.emptyFile then some []
    else if content = linkedFile then some [linkedPhone] else none
  decode_encode records content := by
    have hne : linkedFile ≠ Devices.emptyFile := by decide +kernel
    split
    · rintro ⟨⟩
      simp_all
    · split
      · rintro ⟨⟩
        simp_all
      · nofun

def phoneRetryKey : String :=
  "BHzyexiNA09-ilI4AwS1GsPAiWnid_IbNaYLSPxHZpl4B3dVENuO0EApPZrGn3Qw27p9reY86YIpngS3nSJ4c9E"

def twoKeys : Crypto :=
  { phoneCrypto with
    parseKey encoded :=
      if encoded = Devices.phone.publicKey ∨ encoded = phoneRetryKey then some encoded else none }

def phoneAlone : Auth := .started ⟨none, [Devices.phone], []⟩ ⟨∅⟩ []

def phoneLinked : List AuthOp :=
  [.setHosts [⟨"h", "Cloud"⟩], .askHost "p" "h" Devices.phone.publicKey 0, .takeHostPairings 0,
    .hostPaired "p" "h" (some Devices.phone.publicKey) (.paired cloudEnrolled) 0 none]

def phoneRetried : List AuthOp :=
  [.setHosts [⟨"h", "Cloud"⟩], .askHost "p" "h" Devices.phone.publicKey 0, .takeHostPairings 0,
    .askHost "p" "h" phoneRetryKey takenTtlMs, .takeHostPairings takenTtlMs]

theorem enrolments_accounted_phone :
    (∀ done ∈ phoneLinked.inits,
      (Ledger.run twoKeys linkedDevices phoneAlone done).auth.links.revokes.length < maxRevokes) ∧
    (Ledger.run twoKeys linkedDevices phoneAlone phoneLinked).log = [.reported "p" "h" "e"] ∧
    (Ledger.run twoKeys linkedDevices phoneAlone phoneLinked).auth.Accounted "p" "h" "e" := by
  have hfew : ∀ done ∈ phoneLinked.inits, (Ledger.run twoKeys linkedDevices phoneAlone
      done).auth.links.revokes.length < maxRevokes := by
    decide +kernel
  have hlog : (Ledger.run twoKeys linkedDevices phoneAlone phoneLinked).log =
      [.reported "p" "h" "e"] := by
    decide +kernel
  refine ⟨hfew, hlog, ?_⟩
  rcases (enrolments_accounted ⟨none, [Devices.phone], []⟩ ⟨∅⟩ [] phoneLinked hfew).1 "p" "h" "e"
    [] [] hlog with hs | hr | he | hkept
  · cases hs
  · cases hr
  · have he : LinkEvent.expired "p" ∈ (Ledger.run twoKeys linkedDevices phoneAlone phoneLinked).log := he
    rw [hlog] at he
    simp at he
  · exact hkept

theorem idle_phone_not_accounted :
    (Ledger.run twoKeys linkedDevices phoneAlone (phoneLinked ++
      [.expireIdle 86400000 86400000 none])).log = [.reported "p" "h" "e", .expired "p"] ∧
    ¬(Ledger.run twoKeys linkedDevices phoneAlone (phoneLinked ++
      [.expireIdle 86400000 86400000 none])).auth.Accounted "p" "h" "e" ∧
    ((Ledger.run twoKeys linkedDevices phoneAlone phoneRetried).auth.links.asks.lookup
      ("p", "h")).map Ask.publicKey = some phoneRetryKey ∧
    ((Ledger.run twoKeys linkedDevices phoneAlone phoneRetried).auth.hostPaired twoKeys linkedDevices
      "p" "h" none (.paired cloudEnrolled) takenTtlMs none).1 = .ok () := by
  refine ⟨by decide +kernel, ?_, by decide +kernel, by decide +kernel⟩
  have hget : (Ledger.run twoKeys linkedDevices phoneAlone (phoneLinked ++
      [.expireIdle 86400000 86400000 none])).auth.devices.get "p" = none := by
    decide +kernel
  have hrevokes : (Ledger.run twoKeys linkedDevices phoneAlone (phoneLinked ++
      [.expireIdle 86400000 86400000 none])).auth.links.revokes = [] := by
    decide +kernel
  rintro (⟨record, hr, -⟩ | hm)
  · rw [hget] at hr
    cases hr
  · rw [hrevokes] at hm
    cases hm

end Sheprd.Auth
