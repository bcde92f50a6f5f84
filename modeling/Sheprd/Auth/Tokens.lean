import Sheprd.Auth.Auth
import Mathlib.Data.List.Find

set_option linter.dupNamespace false

namespace Sheprd.Auth

open Sheprd.Lib

namespace Devices

variable {codec : Codec} {s t u : Devices} {device id : DeviceId}

def Retains {β : Type} (look : DeviceRecord → β) (s t : Devices) (device : DeviceId) : Prop :=
  ∀ record, s.get device = some record →
    ∃ record', t.get device = some record' ∧ look record' = look record

def Keeps (s t : Devices) (device : DeviceId) : Prop :=
  ∀ record, s.get device = some record →
    ∃ record', t.get device = some record' ∧ record'.publicKey = record.publicKey

lemma save_records (codec : Codec) (fault : Option Fault) (t : Devices) :
    ∃ file result, save codec fault t = (result, { t with file }) := by
  rw [save]
  cases codec.encode t.records with
  | none => exact ⟨t.file, _, rfl⟩
  | some content => exact ⟨_, _, rfl⟩

lemma saveOrUndo_records (codec : Codec) (fault : Option Fault) (undo : Devices → Devices)
    (t : Devices) :
    ∃ file, saveOrUndo codec fault undo t = (.ok (), { t with file }) ∨
      ∃ error, saveOrUndo codec fault undo t = (.error error, undo { t with file }) := by
  obtain ⟨file, result, hs⟩ := save_records codec fault t
  rw [saveOrUndo, hs]
  cases result with
  | ok value => exact ⟨file, Or.inl rfl⟩
  | error error => exact ⟨file, Or.inr ⟨error, rfl⟩⟩

lemma find_amend (records : List DeviceRecord) (f : DeviceRecord → DeviceRecord)
    (hid : ∀ record, (f record).id = record.id) :
    (amend id f records).find? (fun record => record.id = device) =
      (records.find? fun record => record.id = device).map
        fun record => if record.id = id then f record else record := by
  induction records with
  | nil => rfl
  | cons record records ih =>
    rw [amend]
    by_cases h : record.id = id
    · rw [if_pos h, List.find?_cons, List.find?_cons, hid]
      by_cases hdevice : record.id = device
      · simp [hdevice, h ▸ hdevice]
      · have hother : ∀ other, records.find? (fun record => record.id = device) = some other →
            other.id ≠ id := by
          intro other ho heq
          have := List.find?_some ho
          simp only [decide_eq_true_eq] at this
          exact hdevice (h.trans (heq.symm.trans this))
        simp only [hdevice, decide_false]
        cases hfind : records.find? fun record => record.id = device with
        | none => rfl
        | some other => simp [hother other hfind]
    · rw [if_neg h, List.find?_cons, List.find?_cons, ih]
      by_cases hdevice : record.id = device
      · simp [hdevice, show ¬device = id from hdevice ▸ h]
      · simp [hdevice]

lemma find_eraseIdx {α : Type} {p : α → Bool} (records : List α) (index : ℕ)
    (h : ∀ hlt : index < records.length, p records[index] = false) :
    (records.eraseIdx index).find? p = records.find? p := by
  induction records generalizing index with
  | nil => rfl
  | cons record records ih =>
    cases index with
    | zero =>
      have := h (Nat.succ_pos _)
      rw [List.getElem_cons_zero] at this
      rw [List.eraseIdx_cons_zero, List.find?_cons_of_neg (by simp [this])]
    | succ index =>
      have ih := ih index fun hlt => h (Nat.succ_lt_succ hlt)
      rw [List.eraseIdx_cons_succ, List.find?_cons, List.find?_cons, ih]

lemma find_filter {α : Type} {p q : α → Bool} (records : List α)
    (h : ∀ record ∈ records, q record = true → p record = true) :
    (records.filter p).find? q = records.find? q := by
  rw [List.find?_filter]
  refine List.find?_congr fun record hm => ?_
  cases hq : q record with
  | true => simp [h record hm hq]
  | false => simp

section Retains

variable {β : Type} {look : DeviceRecord → β}

lemma Retains.refl (s : Devices) (device : DeviceId) : Retains look s s device :=
  fun record h => ⟨record, h, rfl⟩

lemma Retains.of_records (h : t.records = s.records) : Retains look s t device := by
  intro record hr
  refine ⟨record, ?_, rfl⟩
  rw [get, h]
  exact hr

lemma Retains.trans (h : Retains look s t device) (h' : Retains look t u device) : Retains look s u device := by
  intro record hr
  obtain ⟨record', ht, hk⟩ := h record hr
  obtain ⟨record'', hu, hk'⟩ := h' record' ht
  exact ⟨record'', hu, hk'.trans hk⟩

lemma Retains.amended {f : DeviceRecord → DeviceRecord} (s : Devices)
    (hid : ∀ record, (f record).id = record.id)
    (hkey : ∀ record, record.id = device → record.id = id →
      look (f record) = look record) :
    Retains look s (s.amended id f) device := by
  intro record hr
  have hdevice : record.id = device := by simpa using List.find?_some hr
  refine ⟨if record.id = id then f record else record, ?_, ?_⟩
  · rw [get, Devices.amended, find_amend _ _ hid]
    rw [get] at hr
    rw [hr]
    rfl
  · split
    · rename_i h
      exact hkey record hdevice h
    · rfl

lemma edit_retains (look : DeviceRecord → β) (codec : Codec) (fault : Option Fault) (id : DeviceId) (s : Devices)
    (change undo : DeviceRecord → DeviceRecord → DeviceRecord) (hid : ∀ previous record, (change previous record).id = record.id)
    (hundo : ∀ record, undo record (change record record) = record) :
    (edit codec fault id change undo s).1 = .ok () ∧
        (∀ device, (∀ previous record, record.id = device → record.id = id →
          look (change previous record) = look record) →
          Retains look s (edit codec fault id change undo s).2 device) ∨
      (∃ error, (edit codec fault id change undo s).1 = .error error) ∧
        (edit codec fault id change undo s).2.records = s.records := by
  rw [Devices.edit]
  cases hget : s.get id with
  | none => exact Or.inr ⟨⟨_, rfl⟩, rfl⟩
  | some previous =>
    dsimp only
    obtain ⟨file, hs | ⟨error, hs⟩⟩ := saveOrUndo_records codec fault
      (fun s => s.amended id (undo previous)) (s.amended id (change previous))
    · rw [hs]
      refine Or.inl ⟨rfl, fun device hkey => ?_⟩
      exact (Retains.amended s (hid previous) (hkey previous)).trans (Retains.of_records rfl)
    · rw [hs]
      refine Or.inr ⟨⟨error, rfl⟩, ?_⟩
      exact amend_undo hget (hid previous previous) (hundo previous)

lemma Retains.of_edit {fault : Option Fault} {change undo : DeviceRecord → DeviceRecord → DeviceRecord}
    (s : Devices) (hid : ∀ previous record, (change previous record).id = record.id)
    (hundo : ∀ record, undo record (change record record) = record)
    (hkey : ∀ previous record, look (change previous record) = look record) :
    Retains look s (edit codec fault id change undo s).2 device := by
  rcases edit_retains look codec fault id s change undo hid hundo with
    ⟨-, h⟩ | ⟨-, h⟩
  · exact h device fun previous record _ _ => hkey previous record
  · exact Retains.of_records h

lemma Retains.addWith {fault : Option Fault} {new : NewDevice} {nowMs : ℕ} {via : Option String}
    {links : List Link} (s : Devices) :
    Retains look s (addWith codec fault new nowMs via links s).2 device := by
  rw [Devices.addWith]
  obtain ⟨file, hs | ⟨error, hs⟩⟩ := saveOrUndo_records codec fault
    (fun s => { s with records := s.records.dropLast })
    { s with records := s.records ++ [⟨new.app, new.id, new.name, new.publicKey, nowMs,
      none, none, none, via, links⟩] }
  · rw [hs]
    intro record hr
    refine ⟨record, ?_, rfl⟩
    rw [get] at hr ⊢
    rw [List.find?_append, hr]
    rfl
  · rw [hs]
    apply Retains.of_records
    simp

lemma Retains.touch {fault : Option Fault} {nowMs : ℕ} (s : Devices)
    (hseen : ∀ record ms, look { record with lastSeenMs := ms } = look record) :
    Retains look s (touch codec fault id nowMs s).2 device := by
  rw [Devices.touch]
  cases s.get id with
  | none => exact Retains.refl s device
  | some record =>
    have hsame : Retains look s (s.amended id fun record => { record with lastSeenMs := some nowMs }) device :=
      Retains.amended s (fun _ => rfl) fun _ _ _ => hseen _ _
    dsimp only
    split
    · obtain ⟨file, result, hs⟩ := save_records codec fault
        (s.amended id fun record => { record with lastSeenMs := some nowMs })
      rw [hs]
      cases result with
      | ok value => exact hsame.trans (Retains.of_records rfl)
      | error error => exact hsame.trans (Retains.of_records rfl)
    · exact hsame

lemma Retains.revoke {fault : Option Fault} (s : Devices) (hne : device ≠ id) :
    Retains look s (revoke codec fault id s).2 device := by
  rw [Devices.revoke]
  cases hindex : s.records.findIdx? fun record => record.id = id with
  | none => exact Retains.refl s device
  | some index =>
    dsimp only
    cases hrecord : s.records[index]? with
    | none => exact Retains.refl s device
    | some record =>
      obtain ⟨hlt, hget⟩ := List.getElem?_eq_some_iff.mp hrecord
      have hid : record.id = id := by
        have := (List.findIdx?_eq_some_iff_getElem.mp hindex).2.1
        simpa [hget] using this
      obtain ⟨file, hs | ⟨error, hs⟩⟩ := saveOrUndo_records codec fault
        (fun s => { s with records := s.records.insertIdx index record })
        { s with records := s.records.eraseIdx index }
      · simp only [hs]
        intro kept hk
        refine ⟨kept, ?_, rfl⟩
        rw [get] at hk ⊢
        rw [← hk]
        apply find_eraseIdx
        intro _
        simpa [hget, hid] using hne.symm
      · simp only [hs]
        apply Retains.of_records
        rw [← hget]
        exact List.insertIdx_eraseIdx_getElem hlt

lemma expireIdle_retains (look : DeviceRecord → β) (codec : Codec) (fault : Option Fault) (nowMs idleMs : ℕ) (s : Devices)
    (device : DeviceId) :
    (∃ expired, (expireIdle codec fault nowMs idleMs s).1 = .ok expired ∧
        (device ∉ expired → Retains look s (expireIdle codec fault nowMs idleMs s).2 device)) ∨
      (∃ error, (expireIdle codec fault nowMs idleMs s).1 = .error error) ∧
        Retains look s (expireIdle codec fault nowMs idleMs s).2 device := by
  rw [Devices.expireIdle]
  split
  · obtain ⟨file, hs | ⟨error, hs⟩⟩ := saveOrUndo_records codec fault
      (fun t => { t with records := s.records })
      { s with records := s.records.filter fun record => !idle nowMs idleMs record }
    · simp only [hs]
      refine Or.inl ⟨_, rfl, fun hne => ?_⟩
      intro record hr
      refine ⟨record, ?_, rfl⟩
      rw [get] at hr ⊢
      rw [← hr]
      apply find_filter
      intro other hm hother
      by_contra hidle
      refine hne (List.mem_map.mpr ⟨other, List.mem_filter.mpr ⟨hm, ?_⟩, by simpa using hother⟩)
      simpa using hidle
    · simp only [hs]
      exact Or.inr ⟨⟨error, rfl⟩, Retains.of_records rfl⟩
  · exact Or.inl ⟨[], rfl, fun _ => Retains.refl s device⟩

end Retains

lemma Keeps.refl (s : Devices) (device : DeviceId) : Keeps s s device := Retains.refl s device

lemma Keeps.of_records (h : t.records = s.records) : Keeps s t device := Retains.of_records h

lemma Keeps.trans (h : Keeps s t device) (h' : Keeps t u device) : Keeps s u device :=
  Retains.trans h h'

lemma Keeps.setLink {fault : Option Fault} {link : Link} (s : Devices) :
    Keeps s (setLink codec fault id link s).2 device :=
  Retains.of_edit s (fun _ _ => rfl) (fun _ => rfl) fun _ _ => rfl

lemma Keeps.setPush {fault : Option Fault} {push : Option String} (s : Devices) :
    Keeps s (setPush codec fault id push s).2 device :=
  Retains.of_edit s (fun _ _ => rfl) (fun _ => rfl) fun _ _ => rfl

lemma Keeps.setApns {fault : Option Fault} {apns : Option String} (s : Devices) :
    Keeps s (setApns codec fault id apns s).2 device :=
  Retains.of_edit s (fun _ _ => rfl) (fun _ => rfl) fun _ _ => rfl

lemma rekey_keeps (codec : Codec) (fault : Option Fault) (id : DeviceId) (publicKey : PublicKey)
    (s : Devices) (device : DeviceId) :
    (rekey codec fault id publicKey s).1 = .ok () ∧
        (device ≠ id → Keeps s (rekey codec fault id publicKey s).2 device) ∨
      (∃ error, (rekey codec fault id publicKey s).1 = .error error) ∧
        Keeps s (rekey codec fault id publicKey s).2 device := by
  rcases edit_retains DeviceRecord.publicKey codec fault id s
    (fun (_ : DeviceRecord) (record : DeviceRecord) => { record with publicKey, push := none })
    (fun previous record => { record with publicKey := previous.publicKey, push := previous.push })
    (fun _ _ => rfl) (fun _ => rfl) with ⟨hok, h⟩ | ⟨herror, h⟩
  · refine Or.inl ⟨hok, fun hne => h device fun _ record hd hi => ?_⟩
    exact absurd (hd.symm.trans hi) hne
  · exact Or.inr ⟨herror, Keeps.of_records h⟩

lemma Keeps.addWith {fault : Option Fault} {new : NewDevice} {nowMs : ℕ} {via : Option String}
    {links : List Link} (s : Devices) :
    Keeps s (addWith codec fault new nowMs via links s).2 device := Retains.addWith s

lemma Keeps.touch {fault : Option Fault} {nowMs : ℕ} (s : Devices) :
    Keeps s (touch codec fault id nowMs s).2 device := Retains.touch s fun _ _ => rfl

lemma Keeps.revoke {fault : Option Fault} (s : Devices) (hne : device ≠ id) :
    Keeps s (revoke codec fault id s).2 device := Retains.revoke s hne

lemma expireIdle_keeps (codec : Codec) (fault : Option Fault) (nowMs idleMs : ℕ) (s : Devices)
    (device : DeviceId) :
    (∃ expired, (expireIdle codec fault nowMs idleMs s).1 = .ok expired ∧
        (device ∉ expired → Keeps s (expireIdle codec fault nowMs idleMs s).2 device)) ∨
      (∃ error, (expireIdle codec fault nowMs idleMs s).1 = .error error) ∧
        Keeps s (expireIdle codec fault nowMs idleMs s).2 device :=
  expireIdle_retains DeviceRecord.publicKey codec fault nowMs idleMs s device

end Devices

inductive SessionEvent where
  | challenged (id : ChallengeId) (device : DeviceId) (nonce : Secret)
  | issued (token : Secret) (device : DeviceId) (challenge : ChallengeId) (nonce : Secret)
      (signature : String) (nowMs : ℕ)
  | ended (device : DeviceId)

def endedBy (device : DeviceId) : Except Error Unit → List SessionEvent
  | .ok () => [.ended device]
  | .error _ => []

section History

variable (crypto : Crypto) (codec : Codec)

def sessionEvents (a : Auth) : AuthOp → List SessionEvent
  | .challenge admitted device nowMs nonce id =>
    match (a.challenge admitted device nowMs nonce id).1 with
    | .ok challenge => [.challenged challenge.id device challenge.nonce]
    | .error _ => []
  | .verify challenge signature nowMs token _ =>
    match a.sessions.challenges.lookup challenge,
      (a.sessions.verify crypto challenge signature nowMs a.devices token).1 with
    | some pending, .ok session =>
      [.issued session.token session.device challenge pending.nonce signature nowMs]
    | _, _ => []
  | .redeem admitted token key nowMs handoffFault deviceFault =>
    match (a.redeem crypto codec admitted token key nowMs handoffFault deviceFault).1 with
    | .ok device => [.ended device]
    | .error _ => []
  | .revoke device linkFault _ => endedBy device (a.forgotten device linkFault).1
  | .enroll enroll _ _ linkFault _ _ =>
    match crypto.key enroll.publicKey, deviceName enroll.name, deviceName enroll.via,
      a.replaced enroll with
    | .ok _, .ok _, .ok _, some old => endedBy old (a.forgotten old linkFault).1
    | _, _, _, _ => []
  | .expireIdle nowMs idleMs fault =>
    match (a.expireIdle codec nowMs idleMs fault).1 with
    | .ok expired => expired.map SessionEvent.ended
    | .error _ => []
  | _ => []

structure Told where
  auth : Auth
  log : List SessionEvent

def Told.perform (w : Told) (op : AuthOp) : Told :=
  ⟨w.auth.perform crypto codec op, w.log ++ sessionEvents crypto codec w.auth op⟩

def Told.run (a : Auth) (ops : List AuthOp) : Told := ops.foldl (Told.perform crypto codec) ⟨a, []⟩

end History

structure Rooted (crypto : Crypto) (w : Told) (digest : Digest) (live : Live) : Prop where
  mk ::
  device : ∃ record, w.auth.devices.get live.device = some record ∧
    ∃ before after token challenge nonce signature read,
      w.log = before ++ .issued token live.device challenge nonce signature live.issuedMs :: after ∧
      crypto.sha256 token = digest ∧ .challenged challenge live.device nonce ∈ before ∧
      crypto.readSignature signature = some read ∧
      crypto.verifies record.publicKey (signedMessage nonce) read = true ∧
      .ended live.device ∉ after
  lasts : live.expiresMs ≤ live.issuedMs + sessionTtlMs

structure Sound (crypto : Crypto) (w : Told) : Prop where
  challenges : ∀ id pending, w.auth.sessions.challenges.lookup id = some pending →
    .challenged id pending.device pending.nonce ∈ w.log
  sessions : ∀ digest live, w.auth.sessions.sessions.lookup digest = some live →
    Rooted crypto w digest live

variable {crypto : Crypto} {codec : Codec} {w w' : Told}

lemma Rooted.keep {digest : Digest} {live : Live} {events : List SessionEvent}
    (h : Rooted crypto w digest live) (hlog : w'.log = w.log ++ events)
    (hkey : w.auth.devices.Keeps w'.auth.devices live.device) (hended : .ended live.device ∉ events) :
    Rooted crypto w' digest live := by
  obtain ⟨record, hr, before, after, token, challenge, nonce, signature, read, hl, hd, hc, hs, hv,
    he⟩ := h.device
  obtain ⟨record', hr', hk⟩ := hkey record hr
  refine ⟨⟨record', hr', before, after ++ events, token, challenge, nonce, signature, read, ?_, hd,
    hc, hs, hk ▸ hv, ?_⟩, h.lasts⟩
  · rw [hlog, hl, List.append_assoc, List.cons_append]
  · rw [List.mem_append, not_or]
    exact ⟨he, hended⟩

lemma Sound.keep {events : List SessionEvent} (h : Sound crypto w)
    (hlog : w'.log = w.log ++ events)
    (hchallenges : ∀ id pending, w'.auth.sessions.challenges.lookup id = some pending →
      w.auth.sessions.challenges.lookup id = some pending ∨
        .challenged id pending.device pending.nonce ∈ events)
    (hsessions : ∀ digest live, w'.auth.sessions.sessions.lookup digest = some live →
      w.auth.sessions.sessions.lookup digest = some live ∧
        w.auth.devices.Keeps w'.auth.devices live.device ∧ .ended live.device ∉ events) :
    Sound crypto w' := by
  constructor
  · intro id pending hl
    rw [hlog]
    rcases hchallenges id pending hl with hl | he
    · exact List.mem_append_left _ (h.challenges id pending hl)
    · exact List.mem_append_right _ he
  · intro digest live hl
    obtain ⟨hl, hk, he⟩ := hsessions digest live hl
    exact (h.sessions digest live hl).keep hlog hk he

lemma Sound.quiet (h : Sound crypto w) (hlog : w'.log = w.log)
    (hsessions : w'.auth.sessions = w.auth.sessions)
    (hkey : ∀ device, w.auth.devices.Keeps w'.auth.devices device) : Sound crypto w' := by
  have hnone : w'.log = w.log ++ [] := by rw [hlog, List.append_nil]
  apply h.keep hnone
  · intro id pending hl
    rw [hsessions] at hl
    exact Or.inl hl
  · intro digest live hl
    rw [hsessions] at hl
    exact ⟨hl, hkey _, by simp⟩

namespace Sessions

variable {s : Sessions} {device : DeviceId} {nowMs : ℕ}

lemma of_lookup_evict {κ ν : Type} [DecidableEq κ] {most : ℕ} {owned : ν → Bool} {issued : ν → ℕ}
    {d : Dict κ ν} {k : κ} {v : ν} (h : (evict most owned issued d).lookup k = some v) :
    d.lookup k = some v := by
  rw [evict] at h
  split at h
  · exact (Dict.of_lookup_erase h).2
  · exact h

lemma challenge_sessions {devices : Devices} {nonce : Option Secret} {id : Option ChallengeId} :
    (s.challenge device nowMs devices nonce id).2.sessions = s.sessions := by
  rw [challenge]
  split
  · rfl
  · dsimp only
    split
    · rfl
    · rfl

lemma challenge_lookup {devices : Devices} {nonce : Option Secret} {id : Option ChallengeId}
    {key : ChallengeId} {pending : Pending}
    (h : (s.challenge device nowMs devices nonce id).2.challenges.lookup key = some pending) :
    s.challenges.lookup key = some pending ∨
      ∃ challenge, (s.challenge device nowMs devices nonce id).1 = .ok challenge ∧
        challenge.id = key ∧ pending.device = device ∧ challenge.nonce = pending.nonce := by
  rw [challenge] at h ⊢
  split at h
  · exact Or.inl h
  · dsimp only at h ⊢
    split at h
    · rcases Dict.of_lookup_insert h with ⟨rfl, rfl⟩ | h
      · exact Or.inr ⟨_, rfl, rfl, rfl, rfl⟩
      · exact Or.inl (Dict.of_lookup_filter (of_lookup_evict h)).1
    · exact Or.inl (Dict.of_lookup_filter (of_lookup_evict h)).1

lemma start_challenges {token : Option Secret} :
    (s.start crypto device nowMs token).2.challenges = s.challenges := by
  rw [start.eq_def]
  dsimp only
  split
  · rfl
  · rfl

lemma start_lookup {token : Option Secret} {digest : Digest} {live : Live}
    (h : (s.start crypto device nowMs token).2.sessions.lookup digest = some live) :
    s.sessions.lookup digest = some live ∨
      ∃ session, (s.start crypto device nowMs token).1 = .ok session ∧ session.device = device ∧
        crypto.sha256 session.token = digest ∧
        live = ⟨device, nowMs, saturatingAdd nowMs sessionTtlMs⟩ := by
  rw [start.eq_def] at h ⊢
  dsimp only at h ⊢
  split at h
  · exact Or.inl (Dict.of_lookup_filter (of_lookup_evict h)).1
  · rcases Dict.of_lookup_insert h with ⟨rfl, rfl⟩ | h
    · exact Or.inr ⟨_, rfl, rfl, rfl, rfl⟩
    · exact Or.inl (Dict.of_lookup_filter (of_lookup_evict h)).1

structure Checked (crypto : Crypto) (s : Sessions) (challenge : ChallengeId) (signature : String)
    (devices : Devices) (session : Session) (pending : Pending) : Prop where
  known : s.challenges.lookup challenge = some pending
  device : session.device = pending.device
  signed : ∃ read record, crypto.readSignature signature = some read ∧
    devices.get pending.device = some record ∧
    crypto.verifies record.publicKey (signedMessage pending.nonce) read = true

lemma verify_challenges {challenge : ChallengeId} {signature : String} {devices : Devices}
    {token : Option Secret} :
    (s.verify crypto challenge signature nowMs devices token).2.challenges =
      s.challenges.erase challenge := by
  rw [verify]
  split
  · rfl
  · split
    · rfl
    · split
      · rfl
      · split
        · exact start_challenges
        · rfl

lemma verify_lookup {challenge : ChallengeId} {signature : String} {devices : Devices}
    {token : Option Secret} {digest : Digest} {live : Live}
    (h : (s.verify crypto challenge signature nowMs devices token).2.sessions.lookup digest =
      some live) :
    s.sessions.lookup digest = some live ∨
      ∃ session pending, (s.verify crypto challenge signature nowMs devices token).1 = .ok session ∧
        Checked crypto s challenge signature devices session pending ∧
        crypto.sha256 session.token = digest ∧
        live = ⟨session.device, nowMs, saturatingAdd nowMs sessionTtlMs⟩ := by
  rw [verify] at h ⊢
  split at h
  · exact Or.inl h
  · rename_i pending hpending
    obtain ⟨hl, -⟩ := Option.filter_eq_some_iff.mp hpending
    split at h
    · exact Or.inl h
    · rename_i read hread
      split at h
      · exact Or.inl h
      · rename_i record hrecord
        split at h
        · rename_i hv
          rcases start_lookup h with h | ⟨session, hs, hd, ht, hlive⟩
          · exact Or.inl h
          · refine Or.inr ⟨session, pending, ?_, ⟨hl, hd, read, record, hread, hrecord, hv⟩, ht, ?_⟩
            · simp only [hv, if_true, hs]
            · rw [hlive, hd]
        · exact Or.inl h

lemma authenticate_lookup {bearer : Option Secret} {digest : Digest} {live : Live}
    (h : (s.authenticate crypto bearer nowMs).2.sessions.lookup digest = some live) :
    s.sessions.lookup digest = some live := by
  rw [authenticate.eq_def] at h
  split at h
  · exact h
  · split at h
    · exact h
    · split at h
      · exact (Dict.of_lookup_erase h).2
      · exact h

lemma authenticate_challenges {bearer : Option Secret} :
    (s.authenticate crypto bearer nowMs).2.challenges = s.challenges := by
  rw [authenticate.eq_def]
  split
  · rfl
  · split
    · rfl
    · split
      · rfl
      · rfl

lemma endDevice_lookup {digest : Digest} {live : Live}
    (h : (s.endDevice device).sessions.lookup digest = some live) :
    s.sessions.lookup digest = some live ∧ live.device ≠ device := by
  obtain ⟨hl, hne⟩ := Dict.of_lookup_filter h
  exact ⟨hl, by simpa using hne⟩

lemma endDevice_challenge {id : ChallengeId} {pending : Pending}
    (h : (s.endDevice device).challenges.lookup id = some pending) :
    s.challenges.lookup id = some pending := (Dict.of_lookup_filter h).1

end Sessions

def Auth.Quiet (a b : Auth) : Prop :=
  b.sessions = a.sessions ∧ ∀ device, a.devices.Keeps b.devices device

lemma Auth.Quiet.of_eq {a b : Auth} (hs : b.sessions = a.sessions) (hd : b.devices = a.devices) :
    a.Quiet b := ⟨hs, fun _ => .of_records (by rw [hd])⟩

namespace Auth

variable {a : Auth}

lemma quiet_claim {admitted : Bool} {token : Option Secret} {name key : String} {nowMs : ℕ}
    {nonce : Option Secret} {claim : Option ClaimId} {device : Option DeviceId} :
    a.Quiet (a.claim crypto admitted token name key nowMs nonce claim device).2 := by
  rw [Auth.claim]
  split
  · exact .of_eq rfl rfl
  · exact .of_eq rfl rfl

lemma quiet_nearbyStart {admitted : Bool} {key : String} {nowMs : ℕ} {id : Option String} :
    a.Quiet (a.nearbyStart crypto admitted key nowMs id).2 := by
  rw [Auth.nearbyStart]
  split
  · split
    · exact .of_eq rfl rfl
    · exact .of_eq rfl rfl
  · exact .of_eq rfl rfl

lemma quiet_nearbyReveal {session : String} {nowMs : ℕ} {token : Option Secret}
    {code : Option String} : a.Quiet (a.nearbyReveal crypto session nowMs token code).2 := by
  rw [Auth.nearbyReveal]
  split
  · exact .of_eq rfl rfl
  · split
    · exact .of_eq rfl rfl
    · split
      · exact .of_eq rfl rfl
      · exact .of_eq rfl rfl
      · exact .of_eq rfl rfl

lemma answer_kept {σ : Type} (id : PairingId) (allow : Bool) (nowMs : ℕ)
    (keep : NewDevice → σ → Except Error Unit × σ) (p : Pairings) (kept : σ) :
    (p.answer id allow nowMs keep kept).2.2 = kept ∨
      ∃ device, (p.answer id allow nowMs keep kept).2.2 = (keep device kept).2 := by
  rw [Pairings.answer]
  split
  · exact Or.inl rfl
  · dsimp only
    split
    · rename_i device _ _ _
      split
      · refine Or.inr ⟨device, ?_⟩
        split
        · rename_i h
          rw [h]
        · rename_i h
          rw [h]
      · exact Or.inl rfl
    · exact Or.inl rfl

lemma quiet_answer {id : PairingId} {allow : Bool} {shown : String} {hosts : List HostId} {nowMs : ℕ}
    {fault : Option Fault} :
    a.Quiet (a.answerWithHosts codec id allow shown hosts nowMs fault).2 := by
  rw [Auth.answerWithHosts]
  dsimp only
  split
  · exact .of_eq rfl rfl
  · split
    · exact .of_eq rfl rfl
    · exact .of_eq rfl rfl
  · have hkept : ∀ device pairings, a.devices.Keeps (Pairings.answer id allow nowMs
        (keep codec fault nowMs (a.links.allowed hosts)) pairings a.devices).2.2 device := by
      intro device pairings
      rcases answer_kept id allow nowMs (keep codec fault nowMs (a.links.allowed hosts)) pairings
        a.devices with h | ⟨new, h⟩
      · rw [h]
        exact .refl _ _
      · rw [h]
        exact Devices.Keeps.addWith _
    split
    · rename_i h
      refine ⟨rfl, fun device => ?_⟩
      have hd := hkept device (if allow = true then (a.pairings.state id nowMs).2 else a.pairings)
      rw [h] at hd
      exact hd
    · rename_i h
      refine ⟨rfl, fun device => ?_⟩
      have hd := hkept device (if allow = true then (a.pairings.state id nowMs).2 else a.pairings)
      rw [h] at hd
      exact hd

lemma quiet_handoff {device : DeviceId} {nowMs : ℕ} {secret : Option Secret} {fault : Option Fault} :
    a.Quiet (a.handoff crypto device nowMs secret fault).2 := by
  rw [Auth.handoff]
  split
  · exact .of_eq rfl rfl
  · exact .of_eq rfl rfl

lemma quiet_askHost {device : DeviceId} {host : HostId} {key : String} {nowMs : ℕ} :
    a.Quiet (a.askHost crypto device host key nowMs).2 := by
  rw [Auth.askHost]
  split
  · exact .of_eq rfl rfl
  · exact .of_eq rfl rfl

lemma quiet_hostPaired {device : DeviceId} {host : HostId} {key : Option String}
    {outcome : HostOutcome} {nowMs : ℕ} {fault : Option Fault} :
    a.Quiet (a.hostPaired crypto codec device host key outcome nowMs fault).2 := by
  have hlink : ∀ id link other, a.devices.Keeps (a.devices.setLink codec fault id link).2 other :=
    fun _ _ _ => Devices.Keeps.setLink _
  refine ⟨rfl, fun other => ?_⟩
  rw [Auth.hostPaired, Links.finish.eq_def]
  dsimp only
  split
  · exact .refl _ _
  · split
    · split
      · split
        · split
          · exact .refl _ _
          · exact .refl _ _
        · exact .refl _ _
      · exact .refl _ _
    · split
      · split
        · rename_i enrolled _
          have hk := hlink device
            ⟨host, (a.links.refresh nowMs).hostName a.devices device host enrolled, some enrolled⟩ other
          split
          · rename_i h
            rwa [h] at hk
          · rename_i h
            rwa [h] at hk
        · exact .refl _ _
      · exact .refl _ _
      · exact .refl _ _

lemma revoke_others (codec : Codec) (a : Auth) (device : DeviceId)
    (linkFault deviceFault : Option Fault) :
    (∃ error, (a.forgotten device linkFault).1 = .error error ∧
        a.Quiet (a.revoke codec device linkFault deviceFault).2) ∨
      (a.forgotten device linkFault).1 = .ok () ∧
        (a.revoke codec device linkFault deviceFault).2.sessions = a.sessions.endDevice device ∧
        ∀ other, other ≠ device →
          a.devices.Keeps (a.revoke codec device linkFault deviceFault).2.devices other := by
  rw [Auth.revoke]
  split
  · rename_i error links h
    exact Or.inl ⟨error, by rw [h], .of_eq rfl rfl⟩
  · rename_i links h
    exact Or.inr ⟨by rw [h], rfl, fun other hne => Devices.Keeps.revoke _ hne⟩

lemma foldl_endDevice {ids : List DeviceId} {s : Sessions} {digest : Digest} {live : Live}
    (h : (ids.foldl (fun sessions device => sessions.endDevice device) s).sessions.lookup digest =
      some live) : s.sessions.lookup digest = some live ∧ live.device ∉ ids := by
  induction ids generalizing s with
  | nil => exact ⟨h, by simp⟩
  | cons id ids ih =>
    obtain ⟨hl, hm⟩ := ih h
    obtain ⟨hl, hne⟩ := Sessions.endDevice_lookup hl
    exact ⟨hl, by simp [hne, hm]⟩

lemma foldl_endDevice_challenge {ids : List DeviceId} {s : Sessions} {id : ChallengeId}
    {pending : Pending}
    (h : (ids.foldl (fun sessions device => sessions.endDevice device) s).challenges.lookup id =
      some pending) : s.challenges.lookup id = some pending := by
  induction ids generalizing s with
  | nil => exact h
  | cons id' ids ih => exact Sessions.endDevice_challenge (ih h)

end Auth

lemma Sound.of_quiet {op : AuthOp} (h : Sound crypto w)
    (hq : w.auth.Quiet (w.auth.perform crypto codec op))
    (hlog : sessionEvents crypto codec w.auth op = []) : Sound crypto (w.perform crypto codec op) := by
  apply h.quiet
  · rw [Told.perform, hlog, List.append_nil]
  · exact hq.1
  · exact hq.2

lemma Sound.challenge {admitted : Bool} {device : DeviceId} {nowMs : ℕ} {nonce : Option Secret}
    {id : Option ChallengeId} (h : Sound crypto w) :
    Sound crypto (w.perform crypto codec (.challenge admitted device nowMs nonce id)) := by
  cases admitted with
  | false => exact h.of_quiet (.of_eq rfl rfl) rfl
  | true =>
    apply h.keep rfl
    · intro key pending hl
      rcases Sessions.challenge_lookup hl with hl | ⟨challenge, hc, rfl, rfl, hn⟩
      · exact Or.inl hl
      · refine Or.inr ?_
        simp [sessionEvents, Auth.challenge, hc, hn]
    · intro digest live hl
      have hl : w.auth.sessions.sessions.lookup digest = some live := by
        rw [← Sessions.challenge_sessions]
        exact hl
      refine ⟨hl, .refl _ _, ?_⟩
      rw [sessionEvents]
      split
      · simp
      · simp

lemma Auth.verify_state (crypto : Crypto) (codec : Codec) (a : Auth) (challenge : ChallengeId)
    (signature : String) (nowMs : ℕ) (token : Option Secret) (fault : Option Fault) :
    (a.verify crypto codec challenge signature nowMs token fault).2.sessions =
        (a.sessions.verify crypto challenge signature nowMs a.devices token).2 ∧
      ∀ device, a.devices.Keeps
        (a.verify crypto codec challenge signature nowMs token fault).2.devices device := by
  rw [Auth.verify]
  split
  · rename_i h
    exact ⟨by rw [h], fun _ => .refl _ _⟩
  · rename_i h
    exact ⟨by rw [h], fun _ => Devices.Keeps.touch _⟩

lemma Sound.verify {challenge : ChallengeId} {signature : String} {nowMs : ℕ}
    {token : Option Secret} {fault : Option Fault} (h : Sound crypto w) :
    Sound crypto (w.perform crypto codec (.verify challenge signature nowMs token fault)) := by
  obtain ⟨hsessions, hkeep⟩ := Auth.verify_state crypto codec w.auth challenge signature nowMs token
    fault
  have hended : ∀ device, .ended device ∉
      sessionEvents crypto codec w.auth (.verify challenge signature nowMs token fault) := by
    intro device
    rw [sessionEvents]
    split
    · simp
    · simp
  constructor
  · intro id pending hl
    rw [Told.perform, Auth.perform, hsessions, Sessions.verify_challenges] at hl
    exact List.mem_append_left _ (h.challenges _ _ (Dict.of_lookup_erase hl).2)
  · intro digest live hl
    rw [Told.perform, Auth.perform, hsessions] at hl
    rcases Sessions.verify_lookup hl with hl | ⟨session, pending, hs, hc, ht, rfl⟩
    · exact (h.sessions digest live hl).keep rfl (hkeep _) (hended _)
    · obtain ⟨read, record, hread, hget, hv⟩ := hc.signed
      obtain ⟨record', hget', hk⟩ := hkeep _ record hget
      have hevents : sessionEvents crypto codec w.auth (.verify challenge signature nowMs token fault)
          = [.issued session.token session.device challenge pending.nonce signature nowMs] := by
        simp only [sessionEvents, hc.known, hs]
      refine ⟨⟨record', hc.device ▸ hget', w.log, [], session.token, challenge, pending.nonce,
        signature, read, ?_, ht, ?_, hread, hk ▸ hv, by simp⟩, min_le_left _ _⟩
      · rw [Told.perform, hevents]
      · rw [hc.device]
        exact h.challenges _ _ hc.known

lemma Sound.authenticate {bearer : Option Secret} {nowMs : ℕ} (h : Sound crypto w) :
    Sound crypto (w.perform crypto codec (.authenticate bearer nowMs)) := by
  apply h.keep rfl
  · intro id pending hl
    have hl : (w.auth.sessions.authenticate crypto bearer nowMs).2.challenges.lookup id =
        some pending := hl
    rw [Sessions.authenticate_challenges] at hl
    exact Or.inl hl
  · intro digest live hl
    exact ⟨Sessions.authenticate_lookup hl, .refl _ _, by simp [sessionEvents]⟩

lemma Sound.redeem {admitted : Bool} {token : Secret} {key : String} {nowMs : ℕ}
    {handoffFault deviceFault : Option Fault} (h : Sound crypto w) :
    Sound crypto
      (w.perform crypto codec (.redeem admitted token key nowMs handoffFault deviceFault)) := by
  have hstate : (∃ error, (w.auth.redeem crypto codec admitted token key nowMs handoffFault
        deviceFault).1 = .error error) ∧ w.auth.Quiet
          (w.auth.redeem crypto codec admitted token key nowMs handoffFault deviceFault).2 ∨
      ∃ device, (w.auth.redeem crypto codec admitted token key nowMs handoffFault deviceFault).1 =
          .ok device ∧
        (w.auth.redeem crypto codec admitted token key nowMs handoffFault deviceFault).2.sessions =
          w.auth.sessions.endDevice device ∧
        ∀ other, other ≠ device → w.auth.devices.Keeps
          (w.auth.redeem crypto codec admitted token key nowMs handoffFault deviceFault).2.devices
          other := by
    rw [Auth.redeem.eq_def]
    split
    · split
      · exact Or.inl ⟨⟨_, rfl⟩, .of_eq rfl rfl⟩
      · rename_i publicKey _
        split
        · exact Or.inl ⟨⟨_, rfl⟩, .of_eq rfl rfl⟩
        · exact Or.inl ⟨⟨_, rfl⟩, .of_eq rfl rfl⟩
        · rename_i device _ _
          have hrekey := Devices.rekey_keeps codec deviceFault device publicKey w.auth.devices
          split
          · rename_i hr
            refine Or.inl ⟨⟨_, rfl⟩, rfl, fun other => ?_⟩
            rcases hrekey other with ⟨hok, -⟩ | ⟨-, hk⟩
            · rw [hr] at hok
              cases hok
            · rwa [hr] at hk
          · rename_i hr
            refine Or.inr ⟨device, rfl, rfl, fun other hne => ?_⟩
            rcases hrekey other with ⟨-, hk⟩ | ⟨⟨error, herror⟩, -⟩
            · have hk := hk hne
              rwa [hr] at hk
            · rw [hr] at herror
              cases herror
    · exact Or.inl ⟨⟨_, rfl⟩, .of_eq rfl rfl⟩
  rcases hstate with ⟨⟨error, herror⟩, hquiet⟩ | ⟨device, hok, hsessions, hkeep⟩
  · exact h.of_quiet hquiet (by simp only [sessionEvents, herror])
  · apply h.keep rfl
    · intro id pending hl
      rw [Told.perform, Auth.perform, hsessions] at hl
      exact Or.inl (Sessions.endDevice_challenge hl)
    · intro digest live hl
      rw [Told.perform, Auth.perform, hsessions] at hl
      obtain ⟨hl, hne⟩ := Sessions.endDevice_lookup hl
      exact ⟨hl, hkeep _ hne, by simp [sessionEvents, hok, hne]⟩

lemma Sound.revoke {device : DeviceId} {linkFault deviceFault : Option Fault} (h : Sound crypto w) :
    Sound crypto (w.perform crypto codec (.revoke device linkFault deviceFault)) := by
  rcases Auth.revoke_others codec w.auth device linkFault deviceFault with
    ⟨error, herror, hquiet⟩ | ⟨hok, hsessions, hkeep⟩
  · exact h.of_quiet hquiet (by simp only [sessionEvents, herror, endedBy])
  · apply h.keep rfl
    · intro id pending hl
      rw [Told.perform, Auth.perform, hsessions] at hl
      exact Or.inl (Sessions.endDevice_challenge hl)
    · intro digest live hl
      rw [Told.perform, Auth.perform, hsessions] at hl
      obtain ⟨hl, hne⟩ := Sessions.endDevice_lookup hl
      exact ⟨hl, hkeep _ hne, by simp [sessionEvents, hok, endedBy, hne]⟩

lemma Sound.expireIdle {nowMs idleMs : ℕ} {fault : Option Fault} (h : Sound crypto w) :
    Sound crypto (w.perform crypto codec (.expireIdle nowMs idleMs fault)) := by
  have hkeep := Devices.expireIdle_keeps codec fault nowMs idleMs w.auth.devices
  cases hr : w.auth.devices.expireIdle codec fault nowMs idleMs with
  | mk result devices =>
    simp only [hr] at hkeep
    cases result with
    | error error =>
      apply h.of_quiet
      · refine ⟨by simp [Auth.perform, Auth.expireIdle, hr], fun device => ?_⟩
        rcases hkeep device with ⟨expired, hok, -⟩ | ⟨-, hk⟩
        · cases hok
        · simpa [Auth.perform, Auth.expireIdle, hr] using hk
      · simp [sessionEvents, Auth.expireIdle, hr]
    | ok expired =>
      have hstate : (w.perform crypto codec (.expireIdle nowMs idleMs fault)).auth =
          { w.auth with
            devices := devices
            sessions := expired.foldl (fun sessions device => sessions.endDevice device)
              w.auth.sessions } := by
        simp [Told.perform, Auth.perform, Auth.expireIdle, hr]
      apply h.keep rfl
      · intro id pending hl
        rw [hstate] at hl
        exact Or.inl (Auth.foldl_endDevice_challenge hl)
      · intro digest live hl
        rw [hstate] at hl ⊢
        obtain ⟨hl, hne⟩ := Auth.foldl_endDevice hl
        refine ⟨hl, ?_, by simp [sessionEvents, Auth.expireIdle, hr, hne]⟩
        rcases hkeep live.device with ⟨expired', hok, hk⟩ | ⟨⟨error, herror⟩, -⟩
        · obtain rfl := Except.ok.inj hok
          exact hk hne
        · cases herror

lemma Auth.addWith_quiet {a : Auth} {fault : Option Fault} {new : NewDevice} {nowMs : ℕ}
    {via : Option String} {links : List Link} :
    a.Quiet { a with devices := (a.devices.addWith codec fault new nowMs via links).2 } :=
  ⟨rfl, fun _ => Devices.Keeps.addWith _⟩

lemma Auth.enroll_others (crypto : Crypto) (codec : Codec) (a : Auth) (enroll : Enroll) (nowMs : ℕ)
    (id : Option DeviceId) (linkFault oldFault deviceFault : Option Fault) :
    a.Quiet (a.enroll crypto codec enroll nowMs id linkFault oldFault deviceFault).2 ∧
        sessionEvents crypto codec a (.enroll enroll nowMs id linkFault oldFault deviceFault) = [] ∨
      ∃ old, sessionEvents crypto codec a (.enroll enroll nowMs id linkFault oldFault deviceFault) =
          [.ended old] ∧
        (a.enroll crypto codec enroll nowMs id linkFault oldFault deviceFault).2.sessions =
          a.sessions.endDevice old ∧
        ∀ other, other ≠ old → a.devices.Keeps
          (a.enroll crypto codec enroll nowMs id linkFault oldFault deviceFault).2.devices other := by
  cases hkey : crypto.key enroll.publicKey with
  | error error => exact Or.inl ⟨by simpa [Auth.enroll, hkey] using .of_eq rfl rfl, by simp [sessionEvents, hkey]⟩
  | ok publicKey =>
    cases hname : deviceName enroll.name with
    | error error =>
      exact Or.inl ⟨by simpa [Auth.enroll, hkey, hname] using .of_eq rfl rfl, by simp [sessionEvents, hkey, hname]⟩
    | ok name =>
      cases hvia : deviceName enroll.via with
      | error error =>
        exact Or.inl ⟨by simpa [Auth.enroll, hkey, hname, hvia] using .of_eq rfl rfl,
          by simp [sessionEvents, hkey, hname, hvia]⟩
      | ok via =>
        cases hold : a.replaced enroll with
        | none =>
          refine Or.inl ⟨?_, by simp [sessionEvents, hkey, hname, hvia, hold]⟩
          cases id with
          | none => simpa [Auth.enroll, hkey, hname, hvia, hold] using .of_eq rfl rfl
          | some id => simpa [Auth.enroll, hkey, hname, hvia, hold] using Auth.addWith_quiet
        | some old =>
          have hevents : sessionEvents crypto codec a
              (.enroll enroll nowMs id linkFault oldFault deviceFault) =
              endedBy old (a.forgotten old linkFault).1 := by
            simp [sessionEvents, hkey, hname, hvia, hold]
          have hquiet : Auth.Quiet (a.revoke codec old linkFault oldFault).2
              (a.enroll crypto codec enroll nowMs id linkFault oldFault deviceFault).2 := by
            simp only [Auth.enroll, hkey, hname, hvia, hold]
            cases hr : a.revoke codec old linkFault oldFault with
            | mk result b =>
              cases result with
              | error error => exact .of_eq rfl rfl
              | ok revoked =>
                cases id with
                | none => exact .of_eq rfl rfl
                | some id => exact Auth.addWith_quiet
          rcases Auth.revoke_others codec a old linkFault oldFault with
            ⟨error, herror, hq⟩ | ⟨hok, hsessions, hkeep⟩
          · refine Or.inl ⟨?_, by rw [hevents, herror, endedBy]⟩
            exact ⟨hquiet.1.trans hq.1, fun device => (hq.2 device).trans (hquiet.2 device)⟩
          · refine Or.inr ⟨old, by rw [hevents, hok, endedBy], hquiet.1.trans hsessions, ?_⟩
            exact fun other hne => (hkeep other hne).trans (hquiet.2 other)

lemma Sound.enroll {enroll : Enroll} {nowMs : ℕ} {id : Option DeviceId}
    {linkFault oldFault deviceFault : Option Fault} (h : Sound crypto w) :
    Sound crypto
      (w.perform crypto codec (.enroll enroll nowMs id linkFault oldFault deviceFault)) := by
  rcases Auth.enroll_others crypto codec w.auth enroll nowMs id linkFault oldFault deviceFault with
    ⟨hquiet, hevents⟩ | ⟨old, hevents, hsessions, hkeep⟩
  · exact h.of_quiet hquiet hevents
  · apply h.keep rfl
    · intro key pending hl
      rw [Told.perform, Auth.perform, hsessions] at hl
      exact Or.inl (Sessions.endDevice_challenge hl)
    · intro digest live hl
      rw [Told.perform, Auth.perform, hsessions] at hl
      obtain ⟨hl, hne⟩ := Sessions.endDevice_lookup hl
      refine ⟨hl, hkeep _ hne, ?_⟩
      rw [hevents]
      simpa using hne

lemma Sound.perform (h : Sound crypto w) (op : AuthOp) : Sound crypto (w.perform crypto codec op) := by
  cases op with
  | challenge => exact h.challenge
  | verify => exact h.verify
  | authenticate => exact h.authenticate
  | redeem => exact h.redeem
  | revoke => exact h.revoke
  | enroll => exact h.enroll
  | expireIdle => exact h.expireIdle
  | claim => exact h.of_quiet Auth.quiet_claim rfl
  | nearbyStart => exact h.of_quiet Auth.quiet_nearbyStart rfl
  | nearbyReveal => exact h.of_quiet Auth.quiet_nearbyReveal rfl
  | answer => exact h.of_quiet Auth.quiet_answer rfl
  | handoff => exact h.of_quiet Auth.quiet_handoff rfl
  | askHost => exact h.of_quiet Auth.quiet_askHost rfl
  | hostPaired => exact h.of_quiet Auth.quiet_hostPaired rfl
  | setPush => exact h.of_quiet ⟨rfl, fun _ => Devices.Keeps.setPush _⟩ rfl
  | setApns => exact h.of_quiet ⟨rfl, fun _ => Devices.Keeps.setApns _⟩ rfl
  | hostLinks device nowMs =>
    apply h.of_quiet _ rfl
    rw [Auth.perform]
    split
    · exact .of_eq rfl rfl
    · exact .of_eq rfl rfl
  | _ => exact h.of_quiet (.of_eq rfl rfl) rfl

lemma Sound.run (crypto : Crypto) (codec : Codec) (devices : Devices) (handoffs : Handoffs) (revokes : List HostRevoke)
    (ops : List AuthOp) : Sound crypto (.run crypto codec (.started devices handoffs revokes) ops) := by
  have hstart : Sound crypto ⟨.started devices handoffs revokes, []⟩ := by
    constructor
    · intro id pending hl
      simp [Auth.started] at hl
    · intro digest live hl
      simp [Auth.started] at hl
  have hrun : ∀ w, Sound crypto w → Sound crypto (ops.foldl (Told.perform crypto codec) w) := by
    induction ops with
    | nil => exact fun _ h => h
    | cons op ops ih => exact fun w h => ih _ (h.perform op)
  exact hrun _ hstart

theorem authenticate_sound (hsha : Function.Injective crypto.sha256) (devices : Devices)
    (handoffs : Handoffs) (revokes : List HostRevoke) (ops : List AuthOp) (bearer : Option Secret)
    (nowMs : ℕ) (device : DeviceId)
    (h : ((Told.run crypto codec (.started devices handoffs revokes) ops).auth.authenticate crypto
      bearer nowMs).1 = some device) :
    ∃ record token before after challenge nonce signature read issuedMs,
      bearer = some token ∧
      (Told.run crypto codec (.started devices handoffs revokes) ops).auth.devices.get device =
        some record ∧
      (Told.run crypto codec (.started devices handoffs revokes) ops).log =
        before ++ .issued token device challenge nonce signature issuedMs :: after ∧
      nowMs < issuedMs + sessionTtlMs ∧
      .challenged challenge device nonce ∈ before ∧
      crypto.readSignature signature = some read ∧
      crypto.verifies record.publicKey (signedMessage nonce) read = true ∧
      .ended device ∉ after := by
  have hsound := Sound.run crypto codec devices handoffs revokes ops
  generalize Told.run crypto codec (.started devices handoffs revokes) ops = w at h hsound ⊢
  rw [Auth.authenticate, Sessions.authenticate.eq_def] at h
  cases bearer with
  | none => cases h
  | some token =>
    dsimp only at h
    cases hl : w.auth.sessions.sessions.lookup (crypto.sha256 token) with
    | none => simp [hl] at h
    | some live =>
      simp only [hl] at h
      split at h
      · cases h
      · rename_i hlive
        obtain rfl := Option.some.inj h
        have hrooted := hsound.sessions _ _ hl
        obtain ⟨record, hr, before, after, token', challenge, nonce, signature, read, hlog, hd, hc,
          hs, hv, he⟩ := hrooted.device
        obtain rfl := hsha hd
        exact ⟨record, token', before, after, challenge, nonce, signature, read, live.issuedMs, rfl,
          hr, hlog, lt_of_lt_of_le (not_le.mp hlive) hrooted.lasts, hc, hs, hv, he⟩

def phoneToken : Secret := List.replicate 32 1

def phoneTokenDigest : Digest :=
  [114, 205, 110, 132, 34, 196, 7, 251, 109, 9, 134, 144, 241, 19, 11, 125, 237, 126, 194, 247, 245,
    225, 211, 11, 217, 213, 33, 240, 21, 54, 55, 147]

def phoneSignature : Signature :=
  [124, 242, 123, 24, 141, 3, 79, 126, 138, 82, 56, 3, 4, 181, 26, 195, 192, 137, 105, 226, 119, 242,
    27, 53, 166, 11, 72, 252, 71, 102, 153, 120, 185, 7, 211, 41, 215, 228, 27, 5, 120, 160, 58, 64,
    33, 66, 178, 141, 173, 47, 121, 139, 59, 131, 47, 92, 121, 164, 181, 188, 16, 82, 190, 223]

def phoneSignatureText : String :=
  "fPJ7GI0DT36KUjgDBLUaw8CJaeJ38hs1pgtI_EdmmXi5B9Mp1-QbBXigOkAhQrKNrS95izuDL1x5pLW8EFK-3w"

def phoneCrypto : Crypto where
  sha256 bytes := if bytes = phoneToken then phoneTokenDigest else 0 :: bytes
  parseKey encoded := if encoded = Devices.phone.publicKey then some encoded else none
  keyBytes key := key.toUTF8.toList
  readSignature text := if text = phoneSignatureText then some phoneSignature else none
  verifies key message signature :=
    key = Devices.phone.publicKey ∧ message = signedMessage (List.replicate 32 0) ∧
      signature = phoneSignature

lemma phoneCrypto_injective : Function.Injective phoneCrypto.sha256 := by
  intro a b h
  simp only [phoneCrypto] at h
  split at h
  · rename_i ha
    split at h
    · rename_i hb
      rw [ha, hb]
    · simp [phoneTokenDigest] at h
  · split at h
    · simp [phoneTokenDigest] at h
    · simpa using h

def phoneDevices : Devices := ⟨none, [{ Devices.phone with lastSeenMs := some 0 }], [("p", 0)]⟩

def phoneSession : List AuthOp :=
  [.challenge true "p" 0 (some (List.replicate 32 0)) (some "c"),
    .verify "c" phoneSignatureText 1 (some phoneToken) none]

theorem authenticate_sound_phone :
    ((Told.run phoneCrypto Devices.fewDevices (.started phoneDevices ⟨∅⟩ []) phoneSession).auth
      |>.authenticate phoneCrypto (some phoneToken) 2).1 = some "p" ∧
    ∃ record, (Told.run phoneCrypto Devices.fewDevices (.started phoneDevices ⟨∅⟩ [])
      phoneSession).auth.devices.get "p" = some record := by
  have h : ((Told.run phoneCrypto Devices.fewDevices (.started phoneDevices ⟨∅⟩ [])
      phoneSession).auth.authenticate phoneCrypto (some phoneToken) 2).1 = some "p" := by
    decide +kernel
  obtain ⟨record, -, -, -, -, -, -, -, -, -, hr, -⟩ :=
    authenticate_sound phoneCrypto_injective _ _ _ _ _ _ _ h
  exact ⟨h, record, hr⟩

end Sheprd.Auth
