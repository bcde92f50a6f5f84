import Mathlib.Tactic

namespace Sheprd.Auth

abbrev DeviceId := String

abbrev HostId := String

abbrev PublicKey := String

def touchPersistMs : ℕ := 60000

def saturatingAdd (a b : ℕ) : ℕ := min (a + b) (2 ^ 64 - 1)

structure Enrolled where
  device : DeviceId
  computer : String
  fingerprint : String
  origins : List String
  deriving DecidableEq

structure Link where
  host : HostId
  name : String
  paired : Option Enrolled
  deriving DecidableEq

structure DeviceRecord where
  app : Option String
  id : DeviceId
  name : String
  publicKey : PublicKey
  createdMs : ℕ
  lastSeenMs : Option ℕ
  push : Option String
  apns : Option String
  via : Option String
  links : List Link
  deriving DecidableEq

structure NewDevice where
  app : Option String
  id : DeviceId
  name : String
  publicKey : PublicKey
  deriving DecidableEq

inductive StoreOperation where
  | createDirectory
  | createTemporary
  | read
  | replace
  | sync
  | write
  deriving DecidableEq

inductive Fault where
  | createDirectory
  | createTemporary
  | write
  | syncFile
  | replace
  | syncDirectory
  deriving DecidableEq

def Fault.operation : Fault → StoreOperation
  | .createDirectory => .createDirectory
  | .createTemporary => .createTemporary
  | .write => .write
  | .syncFile | .syncDirectory => .sync
  | .replace => .replace

inductive Error where
  | alreadyClaimed
  | codeMismatch
  | encode
  | expiredToken
  | invalidHost
  | invalidKey
  | invalidName
  | invalidOutcome
  | invalidSignature
  | invalidToken
  | hostBusy
  | hostTooMany
  | nearbyBusy
  | nearbyCrypto
  | nearbyExhausted
  | noAddress
  | noPairing
  | notClaimed
  | notPairing
  | random
  | rateLimited
  | store (operation : StoreOperation)
  | storeFormat
  | unknownChallenge
  | unknownClaim
  | unknownDevice
  | unknownHost
  | unknownNearby
  | unknownPairing
  deriving DecidableEq

abbrev Content := String

def writePrivate (content : Content) (fault : Option Fault) (file : Option Content) :
    Except Error Unit × Option Content :=
  match fault with
  | none => (.ok (), some content)
  | some .syncDirectory => (.error (.store .sync), some content)
  | some fault => (.error (.store fault.operation), file)

structure Codec where
  encode : List DeviceRecord → Option Content
  decode : Content → Option (List DeviceRecord)
  decode_encode : ∀ records content, encode records = some content → decode content = some records

structure Devices where
  file : Option Content
  records : List DeviceRecord
  storedSeen : List (DeviceId × ℕ)

namespace Devices

variable (codec : Codec)

def reload (file : Option Content) : Except Error (List DeviceRecord) :=
  match file with
  | none => .ok []
  | some content =>
    match codec.decode content with
    | none => .error .storeFormat
    | some records => .ok records

def load (file : Option Content) : Except Error Devices := do
  let records ← reload codec file
  let seen := records.filterMap fun record => record.lastSeenMs.map fun ms => (record.id, ms)
  return ⟨file, records, seen.reverse⟩

def get (s : Devices) (id : DeviceId) : Option DeviceRecord :=
  s.records.find? fun record => record.id = id

def amend (id : DeviceId) (f : DeviceRecord → DeviceRecord) :
    List DeviceRecord → List DeviceRecord
  | [] => []
  | record :: records =>
    if record.id = id then f record :: records else record :: amend id f records

def amended (s : Devices) (id : DeviceId) (f : DeviceRecord → DeviceRecord) : Devices :=
  { s with records := amend id f s.records }

def seen (s : Devices) (id : DeviceId) : Option ℕ := (s.storedSeen.find? (·.1 = id)).map Prod.snd

def unsee (s : Devices) (ids : List DeviceId) : Devices :=
  { s with storedSeen := s.storedSeen.filter (·.1 ∉ ids) }

def save (fault : Option Fault) (s : Devices) : Except Error Unit × Devices :=
  match codec.encode s.records with
  | none => (.error .encode, s)
  | some content =>
    match writePrivate content fault s.file with
    | (result, file) => (result, { s with file })

def saveOrUndo (fault : Option Fault) (undo : Devices → Devices) (s : Devices) :
    Except Error Unit × Devices :=
  match save codec fault s with
  | (.ok (), s) => (.ok (), s)
  | (.error error, s) => (.error error, undo s)

def addWith (fault : Option Fault) (device : NewDevice) (nowMs : ℕ) (via : Option String)
    (links : List Link) (s : Devices) : Except Error Unit × Devices :=
  saveOrUndo codec fault (fun s => { s with records := s.records.dropLast })
    { s with records := s.records ++ [⟨device.app, device.id, device.name, device.publicKey, nowMs,
      none, none, none, via, links⟩] }

def putLink (link : Link) : List Link → List Link
  | [] => [link]
  | known :: links => if known.host = link.host then link :: links else known :: putLink link links

def edit (fault : Option Fault) (id : DeviceId)
    (change undo : DeviceRecord → DeviceRecord → DeviceRecord) (s : Devices) :
    Except Error Unit × Devices :=
  match s.get id with
  | none => (.error .unknownDevice, s)
  | some previous =>
    saveOrUndo codec fault (fun s => s.amended id (undo previous)) (s.amended id (change previous))

def setLink (fault : Option Fault) (id : DeviceId) (link : Link) :
    Devices → Except Error Unit × Devices :=
  edit codec fault id (fun _ record => { record with links := putLink link record.links })
    (fun previous record => { record with links := previous.links })

def rekey (fault : Option Fault) (id : DeviceId) (publicKey : PublicKey) :
    Devices → Except Error Unit × Devices :=
  edit codec fault id (fun _ record => { record with publicKey, push := none })
    (fun previous record => { record with publicKey := previous.publicKey, push := previous.push })

def setPush (fault : Option Fault) (id : DeviceId) (push : Option String) :
    Devices → Except Error Unit × Devices :=
  edit codec fault id (fun _ record => { record with push })
    (fun previous record => { record with push := previous.push })

def setApns (fault : Option Fault) (id : DeviceId) (apns : Option String) :
    Devices → Except Error Unit × Devices :=
  edit codec fault id (fun _ record => { record with apns })
    (fun previous record => { record with apns := previous.apns })

def touch (fault : Option Fault) (id : DeviceId) (nowMs : ℕ) (s : Devices) :
    Except Error Unit × Devices :=
  match s.get id with
  | none => (.error .unknownDevice, s)
  | some _ =>
    let s := s.amended id fun record => { record with lastSeenMs := some nowMs }
    if (s.seen id).all fun stored => touchPersistMs ≤ nowMs - stored then
      match save codec fault s with
      | (.ok (), s) => (.ok (), { s with storedSeen := (id, nowMs) :: (s.unsee [id]).storedSeen })
      | (.error error, s) => (.error error, s)
    else (.ok (), s)

def revoke (fault : Option Fault) (id : DeviceId) (s : Devices) : Except Error Bool × Devices :=
  match s.records.findIdx? fun record => record.id = id with
  | none => (.ok false, s)
  | some index =>
    match s.records[index]? with
    | none => (.ok false, s)
    | some record =>
      match saveOrUndo codec fault (fun s => { s with records := s.records.insertIdx index record })
        { s with records := s.records.eraseIdx index } with
      | (.ok (), s) => (.ok true, s.unsee [id])
      | (.error error, s) => (.error error, s)

def idle (nowMs idleMs : ℕ) (record : DeviceRecord) : Bool :=
  idleMs ≤ nowMs - record.lastSeenMs.getD record.createdMs

def expireIdle (fault : Option Fault) (nowMs idleMs : ℕ) (s : Devices) :
    Except Error (List DeviceId) × Devices :=
  if s.records.any (idle nowMs idleMs) then
    match saveOrUndo codec fault (fun t => { t with records := s.records })
      { s with records := s.records.filter fun record => !idle nowMs idleMs record } with
    | (.ok (), t) =>
      let expired := (s.records.filter (idle nowMs idleMs)).map DeviceRecord.id
      (.ok expired, t.unsee expired)
    | (.error error, t) => (.error error, t)
  else (.ok [], s)

end Devices

inductive DeviceOp where
  | addWith (device : NewDevice) (nowMs : ℕ) (via : Option String) (links : List Link)
  | setLink (id : DeviceId) (link : Link)
  | rekey (id : DeviceId) (publicKey : PublicKey)
  | revoke (id : DeviceId)
  | setPush (id : DeviceId) (push : Option String)
  | setApns (id : DeviceId) (apns : Option String)
  | expireIdle (nowMs idleMs : ℕ)
  | touch (id : DeviceId) (nowMs : ℕ)

namespace Devices

variable (codec : Codec)

def dropValue {α : Type} (r : Except Error α × Devices) : Except Error Unit × Devices :=
  (r.1.map fun _ => (), r.2)

def apply (s : Devices) (fault : Option Fault) : DeviceOp → Except Error Unit × Devices
  | .addWith device nowMs via links => addWith codec fault device nowMs via links s
  | .setLink id link => setLink codec fault id link s
  | .rekey id publicKey => rekey codec fault id publicKey s
  | .revoke id => dropValue (revoke codec fault id s)
  | .setPush id push => setPush codec fault id push s
  | .setApns id apns => setApns codec fault id apns s
  | .expireIdle nowMs idleMs => dropValue (expireIdle codec fault nowMs idleMs s)
  | .touch id nowMs => touch codec fault id nowMs s

end Devices

def DeviceRecord.unseen (record : DeviceRecord) : DeviceRecord := { record with lastSeenMs := none }

namespace Devices

variable {codec : Codec}

def Agrees (codec : Codec) (s : Devices) : Prop :=
  ∃ records, reload codec s.file = .ok records ∧
    records.map DeviceRecord.unseen = s.records.map DeviceRecord.unseen

inductive Outcome {α : Type} (codec : Codec) (look : List DeviceRecord → List DeviceRecord)
    (s : Devices) : Except Error α × Devices → Prop
  | saved {value : α} {t : Devices} (saved : reload codec t.file = .ok t.records) :
      Outcome codec look s (.ok value, t)
  | kept {result : Except Error α} {t : Devices} (file : t.file = s.file)
      (records : look t.records = look s.records) : Outcome codec look s (result, t)

lemma writePrivate_safe (content : Content) {fault : Option Fault} (file : Option Content)
    (h : fault ≠ some .syncDirectory) :
    writePrivate content fault file = (.ok (), some content) ∨
      ∃ error, writePrivate content fault file = (.error error, file) := by
  cases fault with
  | none => exact Or.inl rfl
  | some fault =>
    cases fault with
    | syncDirectory => exact absurd rfl h
    | _ => exact Or.inr ⟨_, rfl⟩

lemma save_safe (codec : Codec) {fault : Option Fault} (s : Devices) (h : fault ≠ some .syncDirectory) :
    (∃ file, save codec fault s = (.ok (), { s with file }) ∧ reload codec file = .ok s.records) ∨
      ∃ error, save codec fault s = (.error error, s) := by
  rw [save]
  cases hencode : codec.encode s.records with
  | none => exact Or.inr ⟨_, rfl⟩
  | some content =>
    rcases writePrivate_safe content s.file h with hw | ⟨error, hw⟩
    · refine Or.inl ⟨some content, by simp only [hw], ?_⟩
      simp only [reload, codec.decode_encode _ _ hencode]
    · exact Or.inr ⟨error, by simp only [hw]⟩

lemma saveOrUndo_safe (codec : Codec) {fault : Option Fault} (undo : Devices → Devices)
    {s : Devices} (t : Devices) (h : fault ≠ some .syncDirectory) (hundo : undo t = s) :
    (∃ file, saveOrUndo codec fault undo t = (.ok (), { t with file }) ∧
      reload codec file = .ok t.records) ∨
      ∃ error, saveOrUndo codec fault undo t = (.error error, s) := by
  rw [saveOrUndo]
  rcases save_safe codec t h with ⟨file, hs, hr⟩ | ⟨error, hs⟩
  · exact Or.inl ⟨file, by simp only [hs], hr⟩
  · exact Or.inr ⟨error, by simp only [hs, hundo]⟩

lemma amend_undo {id : DeviceId} {records : List DeviceRecord} {previous : DeviceRecord}
    {change undo : DeviceRecord → DeviceRecord}
    (hget : records.find? (fun record => record.id = id) = some previous)
    (hid : (change previous).id = previous.id) (hundo : undo (change previous) = previous) :
    amend id undo (amend id change records) = records := by
  induction records with
  | nil => simp at hget
  | cons record records ih =>
    by_cases hrecord : record.id = id
    · simp only [List.find?_cons, hrecord, decide_true, Option.some.injEq] at hget
      subst hget
      simp only [amend, hrecord, if_true, hid, hundo]
    · simp only [List.find?_cons, hrecord, decide_false] at hget
      simp only [amend, hrecord, if_false, ih hget]

lemma Outcome.of_saveOrUndo {fault : Option Fault} {undo : Devices → Devices} {s t : Devices}
    (h : fault ≠ some .syncDirectory) (hundo : undo t = s) :
    Outcome codec id s (saveOrUndo codec fault undo t) := by
  rcases saveOrUndo_safe codec undo t h hundo with ⟨file, hs, hr⟩ | ⟨error, hs⟩
  · rw [hs]
    exact .saved hr
  · rw [hs]
    exact .kept rfl rfl

lemma Outcome.edit {fault : Option Fault} {device : DeviceId}
    {change undo : DeviceRecord → DeviceRecord → DeviceRecord} (s : Devices)
    (h : fault ≠ some .syncDirectory) (hid : ∀ record, (change record record).id = record.id)
    (hundo : ∀ record, undo record (change record record) = record) :
    Outcome codec id s (edit codec fault device change undo s) := by
  rw [Devices.edit]
  cases hget : s.get device with
  | none => exact .kept rfl rfl
  | some previous =>
    apply Outcome.of_saveOrUndo h
    rw [amended, amended, amend_undo hget (hid previous) (hundo previous)]

lemma amend_unseen (id : DeviceId) (nowMs : ℕ) (records : List DeviceRecord) :
    (amend id (fun record => { record with lastSeenMs := some nowMs }) records).map
      DeviceRecord.unseen = records.map DeviceRecord.unseen := by
  induction records with
  | nil => rfl
  | cons record records ih =>
    rw [amend]
    split
    · rfl
    · rw [List.map_cons, List.map_cons, ih]

lemma Outcome.touch {fault : Option Fault} (id : DeviceId) (nowMs : ℕ) (s : Devices)
    (h : fault ≠ some .syncDirectory) : Outcome codec (List.map DeviceRecord.unseen) s (touch codec fault id nowMs s) := by
  rw [Devices.touch]
  cases s.get id with
  | none => exact .kept rfl rfl
  | some record =>
    dsimp only
    split
    · rcases save_safe codec
        (s.amended id fun record => { record with lastSeenMs := some nowMs }) h with
        ⟨file, hs, hr⟩ | ⟨error, hs⟩
      · rw [hs]
        exact .saved hr
      · rw [hs]
        exact .kept rfl (amend_unseen _ _ _)
    · exact .kept rfl (amend_unseen _ _ _)

lemma Outcome.revoke {fault : Option Fault} (device : DeviceId) (s : Devices)
    (h : fault ≠ some .syncDirectory) : Outcome codec id s (revoke codec fault device s) := by
  rw [Devices.revoke]
  cases s.records.findIdx? fun record => record.id = device with
  | none => exact .kept rfl rfl
  | some index =>
    dsimp only
    cases hrecord : s.records[index]? with
    | none => exact .kept rfl rfl
    | some record =>
      obtain ⟨hlt, hget⟩ := List.getElem?_eq_some_iff.mp hrecord
      have hundo : (s.records.eraseIdx index).insertIdx index record = s.records := by
        rw [← hget]
        exact List.insertIdx_eraseIdx_getElem hlt
      have hundo : ({ s with records := (s.records.eraseIdx index).insertIdx index record } : Devices)
          = s := by rw [hundo]
      rcases saveOrUndo_safe codec
        (fun s => { s with records := s.records.insertIdx index record })
        { s with records := s.records.eraseIdx index } h hundo with ⟨file, hs, hr⟩ | ⟨error, hs⟩
      · simp only [hs]
        exact .saved hr
      · simp only [hs]
        exact .kept rfl rfl

lemma Outcome.expireIdle {fault : Option Fault} (nowMs idleMs : ℕ) (s : Devices)
    (h : fault ≠ some .syncDirectory) : Outcome codec id s (expireIdle codec fault nowMs idleMs s) := by
  rw [Devices.expireIdle]
  split
  · rcases saveOrUndo_safe codec (fun t => { t with records := s.records })
      { s with records := s.records.filter fun record => !idle nowMs idleMs record } h rfl with ⟨file, hs, hr⟩ | ⟨error, hs⟩
    · simp only [hs]
      exact .saved hr
    · simp only [hs]
      exact .kept rfl rfl
  · exact .kept rfl rfl

lemma Outcome.dropValue {α : Type} {s : Devices} {r : Except Error α × Devices}
    (h : Outcome codec id s r) : Outcome codec id s (dropValue r) := by
  cases h with
  | saved saved => exact .saved saved
  | kept file records => exact .kept file records

end Devices

def DeviceOp.look : DeviceOp → List DeviceRecord → List DeviceRecord
  | .touch _ _ => List.map DeviceRecord.unseen
  | _ => id

namespace Devices

lemma Outcome.apply (codec : Codec) {fault : Option Fault} (op : DeviceOp) (s : Devices)
    (h : fault ≠ some .syncDirectory) : Outcome codec op.look s (s.apply codec fault op) := by
  cases op with
  | addWith device nowMs via links =>
    apply Outcome.of_saveOrUndo h
    simp
  | setLink id link =>
    apply Outcome.edit s h
    · exact fun _ => rfl
    · exact fun _ => rfl
  | rekey id publicKey =>
    apply Outcome.edit s h
    · exact fun _ => rfl
    · exact fun _ => rfl
  | revoke id => exact (Outcome.revoke id s h).dropValue
  | setPush id push =>
    apply Outcome.edit s h
    · exact fun _ => rfl
    · exact fun _ => rfl
  | setApns id apns =>
    apply Outcome.edit s h
    · exact fun _ => rfl
    · exact fun _ => rfl
  | expireIdle nowMs idleMs => exact (Outcome.expireIdle nowMs idleMs s h).dropValue
  | touch id nowMs => exact Outcome.touch id nowMs s h

lemma look_unseen {op : DeviceOp} {records records' : List DeviceRecord}
    (h : op.look records = op.look records') :
    records.map DeviceRecord.unseen = records'.map DeviceRecord.unseen := by
  cases op with
  | touch id nowMs => exact h
  | _ => exact congrArg (List.map DeviceRecord.unseen) h

lemma Agrees.apply {s : Devices} {fault : Option Fault} (op : DeviceOp) (h : s.Agrees codec)
    (hsafe : fault ≠ some .syncDirectory) : Agrees codec (s.apply codec fault op).2 := by
  have hout := Outcome.apply codec op s hsafe
  generalize s.apply codec fault op = r at hout ⊢
  cases hout with
  | saved saved => exact ⟨_, saved, rfl⟩
  | kept file records =>
    obtain ⟨stored, hr, hs⟩ := h
    exact ⟨stored, file ▸ hr, hs.trans (look_unseen records).symm⟩

lemma Agrees.load {file : Option Content} {s : Devices} (h : load codec file = .ok s) :
    s.Agrees codec := by
  cases hr : reload codec file with
  | error error => simp [Devices.load, hr, bind, Except.bind] at h
  | ok records =>
    simp only [Devices.load, hr, bind, Except.bind, pure, Except.pure] at h
    obtain rfl := Except.ok.inj h
    exact ⟨records, hr, rfl⟩

def operate (codec : Codec) (s : Devices) (op : Option Fault × DeviceOp) : Devices :=
  (s.apply codec op.1 op.2).2

theorem file_agrees {file : Option Content} {s : Devices} (ops : List (Option Fault × DeviceOp))
    (h : load codec file = .ok s) (hsafe : ∀ op ∈ ops, op.1 ≠ some .syncDirectory) :
    (ops.foldl (operate codec) s).Agrees codec ∧
      ∀ fault op error, fault ≠ some Fault.syncDirectory →
        ((ops.foldl (operate codec) s).apply codec fault op).1 = .error error →
        (operate codec (ops.foldl (operate codec) s) (fault, op)).file
            = (ops.foldl (operate codec) s).file ∧
          op.look (operate codec (ops.foldl (operate codec) s) (fault, op)).records
            = op.look (ops.foldl (operate codec) s).records := by
  constructor
  · have hall := Agrees.load h
    clear h
    induction ops generalizing s with
    | nil => exact hall
    | cons op ops ih =>
      rw [List.foldl_cons]
      apply ih
      · exact fun op' hm => hsafe op' (List.mem_cons_of_mem _ hm)
      · exact hall.apply op.2 (hsafe op List.mem_cons_self)
  · intro fault op error hfault herror
    have hout := Outcome.apply codec op (ops.foldl (operate codec) s) hfault
    rw [operate]
    generalize (ops.foldl (operate codec) s).apply codec fault op = r at hout herror ⊢
    cases hout with
    | saved saved => cases herror
    | kept file records => exact ⟨file, records⟩

def phone : DeviceRecord :=
  ⟨none, "p", "Phone", "BGsX0fLhLEJH-Lzm5WOkQPJ3A32BLeszoPShOUXYmMKWT-NC4v4af5uO5-tKfA-eFivOM1drMV7Oy7ZAaDe_UfU",
    0, none, none, none, none, []⟩

def emptyFile : Content := "\x7b\n  \"version\": 1,\n  \"devices\": []\n\x7d"

def phoneFile : Content :=
  "\x7b\n  \"version\": 1,\n  \"devices\": [\n    \x7b\n      \"id\": \"p\",\n" ++
  "      \"name\": \"Phone\",\n      \"public_key\": \"" ++ phone.publicKey ++
  "\",\n      \"created_ms\": 0\n    \x7d\n  ]\n\x7d"

def fewDevices : Codec where
  encode records :=
    if records = [] then some emptyFile else if records = [phone] then some phoneFile else none
  decode content :=
    if content = emptyFile then some [] else if content = phoneFile then some [phone] else none
  decode_encode records content := by
    have hne : phoneFile ≠ emptyFile := by decide +kernel
    split
    · rintro ⟨⟩
      simp_all
    · split
      · rintro ⟨⟩
        simp_all
      · nofun

def paired : DeviceOp := .addWith ⟨none, phone.id, phone.name, phone.publicKey⟩ 0 none []

theorem file_agrees_paired :
    Agrees fewDevices (operate fewDevices ⟨none, [], []⟩ (some .replace, paired)) ∧
      Agrees fewDevices (operate fewDevices ⟨none, [], []⟩ (none, paired)) := by
  have hload : load fewDevices none = .ok ⟨none, [], []⟩ := rfl
  exact ⟨(file_agrees [(some .replace, paired)] hload (by decide)).1,
    (file_agrees [(none, paired)] hload (by decide)).1⟩

theorem unsynced_directory_disagrees :
    load fewDevices none = .ok ⟨none, [], []⟩ ∧
      (apply fewDevices ⟨none, [], []⟩ (some .syncDirectory) paired).1 = .error (.store .sync) ∧
      ¬Agrees fewDevices (operate fewDevices ⟨none, [], []⟩ (some .syncDirectory, paired)) := by
  refine ⟨rfl, by decide +kernel, ?_⟩
  rintro ⟨records, hr, hs⟩
  have hfile : reload fewDevices
      (operate fewDevices ⟨none, [], []⟩ (some .syncDirectory, paired)).file = .ok [phone] := by
    decide +kernel
  rw [hfile] at hr
  obtain rfl := Except.ok.inj hr
  revert hs
  decide +kernel

end Devices

end Sheprd.Auth
