import Sheprd.Desktop.Mutes

namespace Sheprd.Desktop.Muting

open Sheprd.Lib

structure Kept (saved : Saved) : Prop where
  mutes : (saved.mutes.map Mute.key).Nodup
  hosts : saved.hosts.Nodup
  mutes_le : saved.mutes.length ≤ maxMutes
  hosts_le : saved.hosts.length ≤ maxHosts
  mutes_valid : ∀ mute ∈ saved.mutes, mute.valid = true
  hosts_valid : ∀ host ∈ saved.hosts, validHost host = true

def Readable (json : Json) (saved : Saved) : Prop :=
  bytes (saved.text json) ≤ maxFileBytes ∧ parse json (saved.text json) = .ok saved

section File

lemma fits_iff {field : String} : fits field = true ↔
    field.utf8ByteSize ≤ maxFieldBytes ∧ ∀ c ∈ field.toList, Text.isControl c = false := by
  simp [fits, hasControl]

lemma bytes_field {field : String} (h : fits field = true) :
    bytes (Value.quote field) ≤ 2 * maxFieldBytes + 2 := by
  obtain ⟨hsize, hcontrol⟩ := fits_iff.mp h
  have := Value.bytes_quote hcontrol
  omega

lemma valid_iff {mute : Mute} : mute.valid = true ↔ mute.daemon.endpoint ≠ "" ∧ mute.id ≠ "" ∧
    mute.boot ≠ "" ∧ fits mute.daemon.endpoint = true ∧ fits mute.daemon.session = true ∧
    fits mute.id = true ∧ fits mute.boot = true ∧ fits mute.label = true := by
  simp [Mute.valid, and_assoc]

lemma bytes_mute {mute : Mute} (h : mute.valid = true) :
    bytes (Value.print mute.toValue) ≤ 2 * 5 * maxFieldBytes + 159 := by
  obtain ⟨-, -, -, hendpoint, hsession, hid, hboot, hlabel⟩ := valid_iff.mp h
  have hendpoint := bytes_field hendpoint
  have hsession := bytes_field hsession
  have hid := bytes_field hid
  have hboot := bytes_field hboot
  have hlabel := bytes_field hlabel
  have htime : bytes mute.mutedAt.toNat.repr.toList ≤ 20 :=
    Value.bytes_repr (by decide) (mute.mutedAt.toNat_lt.trans (by decide))
  have hscope : bytes (Value.quote mute.scope.name) ≤ 11 := by
    cases mute.scope <;> decide
  have hmarks : ('\x7b' : Char).utf8Size = 1 ∧ ('\x7d' : Char).utf8Size = 1 ∧
      (':' : Char).utf8Size = 1 ∧ (',' : Char).utf8Size = 1 := ⟨rfl, rfl, rfl, rfl⟩
  have hkeys : bytes (Value.quote "endpoint") = 10 ∧ bytes (Value.quote "session") = 9 ∧
      bytes (Value.quote "scope") = 7 ∧ bytes (Value.quote "id") = 4 ∧
      bytes (Value.quote "boot") = 6 ∧ bytes (Value.quote "label") = 7 ∧
      bytes (Value.quote "muted_at") = 10 := by
    decide
  simp only [Mute.toValue, Value.print, Value.printFields, bytes_cons, bytes_append, bytes_nil,
    hkeys, hmarks]
  omega

lemma bytes_host {host : String} (h : validHost host = true) :
    bytes (Value.print (.string host)) ≤ 2 * maxFieldBytes + 7 := by
  simp only [validHost, Bool.and_eq_true] at h
  have := bytes_field h.2
  rw [Value.print]
  omega

lemma Kept.bytes_le {saved : Saved} (h : Kept saved) (json : Compact) :
    bytes (saved.text json.toJson) ≤ maxFileBytes := by
  have hmute : ∀ item ∈ saved.mutes.map Mute.toValue,
      bytes item.print ≤ 2 * 5 * maxFieldBytes + 159 := by
    intro item hitem
    obtain ⟨mute, hmute, rfl⟩ := List.mem_map.mp hitem
    exact bytes_mute (h.mutes_valid mute hmute)
  have hhost : ∀ item ∈ saved.hosts.map Value.string, bytes item.print ≤ 2 * maxFieldBytes + 7 := by
    intro item hitem
    obtain ⟨host, hhost, rfl⟩ := List.mem_map.mp hitem
    exact bytes_host (h.hosts_valid host hhost)
  have hmutes := Value.bytes_array hmute
  have hhosts := Value.bytes_array hhost
  rw [List.length_map] at hmutes hhosts
  have hmutes' : bytes (Value.print (.array (saved.mutes.map Mute.toValue))) ≤
      maxMutes * (2 * 5 * maxFieldBytes + 160) + 2 :=
    hmutes.trans (Nat.add_le_add_right (Nat.mul_le_mul_right _ h.mutes_le) 2)
  have hhosts' : bytes (Value.print (.array (saved.hosts.map Value.string))) ≤
      maxHosts * (2 * maxFieldBytes + 8) + 2 :=
    hhosts.trans (Nat.add_le_add_right (Nat.mul_le_mul_right _ h.hosts_le) 2)
  have hmarks : ('\x7b' : Char).utf8Size = 1 ∧ ('\x7d' : Char).utf8Size = 1 ∧
      (':' : Char).utf8Size = 1 ∧ (',' : Char).utf8Size = 1 ∧ ('\n' : Char).utf8Size = 1 :=
    ⟨rfl, rfl, rfl, rfl, rfl⟩
  have hkeys : bytes (Value.quote "mutes") = 7 ∧ bytes (Value.quote "hosts") = 7 := by decide
  rw [Saved.text, json.print_eq, Saved.toValue, Value.print]
  simp only [Value.printFields, bytes_cons, bytes_append, bytes_nil, hkeys, hmarks, maxFileBytes]
  omega

lemma Mute.ofValue_toValue (mute : Mute) : Mute.ofValue mute.toValue = some mute := by
  have hscope : (textOf mute.toValue "scope").bind Scope.ofName = some mute.scope := by
    change Scope.ofName mute.scope.name = some mute.scope
    cases mute.scope <;> rfl
  have htime : timeOf (mute.toValue.get "muted_at") = some mute.mutedAt := by
    change (Value.asNat (.number mute.mutedAt.toNat.repr)).bind _ = _
    have hle : mute.mutedAt.toNat ≤ u64Max := Nat.le_of_lt_succ mute.mutedAt.toNat_lt
    rw [Value.asNat_repr, Option.bind_some, if_pos hle, UInt64.ofNat_toNat]
  rw [Mute.ofValue, hscope, htime]
  rfl

lemma Mute.toValue_plain (mute : Mute) (depth : ℕ) : mute.toValue.Plain (depth + 1) := by
  have htime : (Value.number mute.mutedAt.toNat.repr).Plain depth := .number mute.mutedAt.toNat_lt
  refine .object (by simp) ?_
  simp [Value.Plain.string, htime]

lemma Saved.ofValue_toValue (saved : Saved) : Saved.ofValue saved.toValue = some saved := by
  have hmutes : (saved.mutes.map Mute.toValue).mapM Mute.ofValue = some saved.mutes :=
    mapM_map_some Mute.ofValue_toValue saved.mutes
  have hhosts : hostsOf (saved.toValue.get "hosts") = some saved.hosts := by
    change (saved.hosts.map Value.string).mapM Value.asStr = some saved.hosts
    exact mapM_map_some (f := Value.string) (fun _ => rfl) saved.hosts
  rw [Saved.ofValue, hhosts]
  change (do
    let mutes ← (saved.mutes.map Mute.toValue).mapM Mute.ofValue
    let hosts ← some saved.hosts
    return ({ mutes, hosts } : Saved)) = some saved
  rw [hmutes]
  rfl

lemma Saved.toValue_plain (saved : Saved) : saved.toValue.Plain 127 := by
  have hmutes : (Value.array (saved.mutes.map Mute.toValue)).Plain 126 := by
    refine .array fun item hitem => ?_
    obtain ⟨mute, -, rfl⟩ := List.mem_map.mp hitem
    exact mute.toValue_plain 124
  have hhosts : (Value.array (saved.hosts.map Value.string)).Plain 126 := by
    refine .array fun item hitem => ?_
    obtain ⟨host, -, rfl⟩ := List.mem_map.mp hitem
    exact .string host
  refine .object (by simp) ?_
  simp [hmutes, hhosts]

lemma Kept.readable {saved : Saved} (h : Kept saved) (json : Compact) :
    Readable json.toJson saved := by
  refine ⟨h.bytes_le json, ?_⟩
  rw [parse, Saved.text, json.read_print _ saved.toValue_plain, Option.bind_some,
    Saved.ofValue_toValue]
  refine if_neg ?_
  simp only [not_or, not_lt, not_not, List.all_eq_true]
  exact ⟨h.mutes_le, h.hosts_le, h.mutes_valid, h.hosts_valid⟩

end File

section Steps

lemma Kept.sublist {saved saved' : Saved} (h : Kept saved) (hmutes : saved'.mutes.Sublist saved.mutes)
    (hhosts : saved'.hosts.Sublist saved.hosts) : Kept saved' where
  mutes := h.mutes.sublist (hmutes.map Mute.key)
  hosts := h.hosts.sublist hhosts
  mutes_le := hmutes.length_le.trans h.mutes_le
  hosts_le := hhosts.length_le.trans h.hosts_le
  mutes_valid mute hmute := h.mutes_valid mute (hmutes.subset hmute)
  hosts_valid host hhost := h.hosts_valid host (hhosts.subset hhost)

lemma kept_empty : Kept ⟨[], []⟩ where
  mutes := .nil
  hosts := .nil
  mutes_le := Nat.zero_le _
  hosts_le := Nat.zero_le _
  mutes_valid := List.forall_mem_nil _
  hosts_valid := List.forall_mem_nil _

def Good (s : Mutes) : Prop := Kept s.saved ∧ ∀ files, s.files = some files → ∀ file ∈ files, Kept file

lemma Good.changed {s : Mutes} (h : Good s) : Good s.changed := by
  refine ⟨h.1, fun files hfiles file hfile => ?_⟩
  rw [Mutes.changed] at hfiles
  dsimp only at hfiles
  split at hfiles
  · exact h.2 files hfiles file hfile
  · obtain ⟨old, hold, rfl⟩ := Option.map_eq_some_iff.mp hfiles
    rcases List.mem_append.mp hfile with hfile | hfile
    · exact h.2 old hold file hfile
    · rw [List.mem_singleton.mp hfile]
      exact h.1

lemma newest_sublist {α : Type} (bound : ℕ) (items : List α) : (newest bound items).Sublist items := by
  rw [newest]
  exact List.drop_sublist _ _

lemma length_newest_le {α : Type} (bound : ℕ) (items : List α) :
    (newest bound items).length ≤ bound := by
  rw [newest, List.length_drop]
  omega

lemma Kept.pushHost {mutes : List Mute} {hosts : List String} {endpoint : String}
    (h : Kept ⟨mutes, hosts⟩) (hnew : endpoint ∉ hosts) (hvalid : validHost endpoint = true) :
    Kept ⟨mutes, newest maxHosts (hosts ++ [endpoint])⟩ where
  mutes := h.mutes
  hosts := by
    refine List.Nodup.sublist (newest_sublist _ _) ?_
    refine List.nodup_append.mpr ⟨h.hosts, List.nodup_singleton _, ?_⟩
    rintro host hhost other hother rfl
    exact hnew (List.mem_singleton.mp hother ▸ hhost)
  mutes_le := h.mutes_le
  hosts_le := length_newest_le _ _
  mutes_valid := h.mutes_valid
  hosts_valid host hhost := by
    rcases List.mem_append.mp ((newest_sublist _ _).subset hhost) with hhost | hhost
    · exact h.hosts_valid host hhost
    · rw [List.mem_singleton.mp hhost]
      exact hvalid

lemma Kept.pushMute {mutes : List Mute} {hosts : List String} {mute : Mute}
    (h : Kept ⟨mutes, hosts⟩) (hnew : mute.key ∉ mutes.map Mute.key) (hvalid : mute.valid = true) :
    Kept ⟨newest maxMutes (mutes ++ [mute]), hosts⟩ where
  mutes := by
    refine List.Nodup.sublist ((newest_sublist _ _).map Mute.key) ?_
    rw [List.map_append]
    refine List.nodup_append.mpr ⟨h.mutes, List.nodup_singleton _, ?_⟩
    rintro key hold other hother rfl
    exact hnew (List.mem_singleton.mp hother ▸ hold)
  hosts := h.hosts
  mutes_le := length_newest_le _ _
  hosts_le := h.hosts_le
  mutes_valid other hother := by
    rcases List.mem_append.mp ((newest_sublist _ _).subset hother) with hother | hother
    · exact h.mutes_valid other hother
    · rw [List.mem_singleton.mp hother]
      exact hvalid
  hosts_valid := h.hosts_valid

lemma good_setHost {s : Mutes} (h : Good s) (endpoint : String) (muted : Bool) :
    Good (s.setHost endpoint muted).1 := by
  rw [Mutes.setHost]
  split
  · exact h
  · rename_i hnot
    simp only [not_or, not_and, not_not] at hnot
    split
    · rename_i hmuted
      have hnew : endpoint ∉ s.hosts := by simpa [hmuted] using hnot.1
      exact Good.changed ⟨h.1.pushHost hnew (hnot.2 hmuted), h.2⟩
    · exact Good.changed ⟨h.1.sublist (List.Sublist.refl _) List.filter_sublist, h.2⟩

lemma made_eq_some {daemon : Daemon} {snapshot : Snapshot} {scope : Scope} {id : String}
    {now : UInt64} {mute : Mute} (h : Mutes.made daemon snapshot scope id now = some mute) :
    mute.key = (daemon, scope, id) ∧ mute.valid = true := by
  rw [Mutes.made, Option.filter_eq_some_iff] at h
  obtain ⟨h, hvalid⟩ := h
  obtain ⟨target, -, rfl⟩ := Option.map_eq_some_iff.mp h
  exact ⟨rfl, hvalid⟩

lemma good_set {s : Mutes} (h : Good s) (daemon : Daemon) (snapshot : Snapshot) (scope : Scope)
    (id : String) (muted : Bool) (now : UInt64) :
    Good (s.set daemon snapshot scope id muted now).1 := by
  have hothers : Kept ⟨s.mutes.filter fun mute => !mute.is daemon scope id, s.hosts⟩ :=
    h.1.sublist List.filter_sublist (List.Sublist.refl _)
  simp only [Mutes.set]
  split
  · split
    · exact h
    · exact Good.changed ⟨hothers, h.2⟩
  · split
    · exact h
    · rename_i mute hmade
      obtain ⟨hkey, hvalid⟩ := made_eq_some hmade
      split
      · exact h
      · refine Good.changed ⟨hothers.pushMute ?_ hvalid, h.2⟩
        intro hold
        obtain ⟨old, hold, hsame⟩ := List.mem_map.mp hold
        have hnot := (List.mem_filter.mp hold).2
        rw [Mute.is, hsame, hkey, decide_eq_true rfl] at hnot
        cases hnot

lemma fits_fit (label : String) : fits (fit label) = true := by
  rw [fit]
  split
  · assumption
  · refine fits_iff.mpr ⟨Text.truncate_size _ _, fun c hc => ?_⟩
    rw [Text.truncate, String.toList_ofList, String.toList_ofList] at hc
    have hc := (Text.takeBytes_prefix _ _).subset hc
    simpa using (List.mem_filter.mp hc).2

end Steps

section Reconciling

variable {daemon : Daemon} {snapshot : Snapshot} {now : UInt64} {mute : Mute}

lemma settled_cases (daemon : Daemon) (snapshot : Snapshot) (now : UInt64) (mute : Mute) :
    ((mute.daemon ≠ daemon ∨ verdict mute snapshot now = .keep) ∧
      Mutes.settled daemon snapshot now mute = (some mute, false)) ∨
    (mute.daemon = daemon ∧ verdict mute snapshot now = .forget ∧
      Mutes.settled daemon snapshot now mute = (none, true)) ∨
    (mute.daemon = daemon ∧ mute.boot = snapshot.bootId ∧ ∃ target,
      Muting.target snapshot mute.scope mute.id = some target ∧ mute.label ≠ fit target.label ∧
      verdict mute snapshot now = .relabel (fit target.label) ∧
      Mutes.settled daemon snapshot now mute = (some { mute with label := fit target.label }, true)) ∨
    (mute.daemon = daemon ∧ mute.boot ≠ snapshot.bootId ∧ ∃ target,
      Muting.target snapshot mute.scope mute.id = some target ∧ mute.label = fit target.label ∧
      snapshot.bootId.utf8ByteSize ≤ maxFieldBytes ∧ verdict mute snapshot now = .adopt ∧
      Mutes.settled daemon snapshot now mute = (some { mute with boot := snapshot.bootId }, true)) := by
  by_cases hdaemon : mute.daemon ≠ daemon
  · exact .inl ⟨.inl hdaemon, if_pos hdaemon⟩
  rw [not_not] at hdaemon
  simp only [Mutes.settled, hdaemon, ne_eq, not_true_eq_false, if_false, false_or, true_and]
  cases htarget : Muting.target snapshot mute.scope mute.id with
  | none =>
    simp only [verdict, htarget]
    split
    · exact .inl ⟨rfl, rfl⟩
    · exact .inr (.inl ⟨rfl, rfl⟩)
  | some target =>
    simp only [verdict, htarget]
    by_cases hboot : mute.boot = snapshot.bootId
    · simp only [if_pos hboot]
      by_cases hlabel : mute.label = fit target.label
      · simp only [if_pos hlabel]
        exact .inl ⟨trivial, trivial⟩
      · simp only [if_neg hlabel]
        exact .inr (.inr (.inl ⟨hboot, target, rfl, hlabel, rfl, rfl⟩))
    · simp only [if_neg hboot]
      by_cases hadopt : mute.label = fit target.label ∧ target.named = true ∧
          snapshot.bootId.utf8ByteSize ≤ maxFieldBytes
      · simp only [if_pos hadopt]
        exact .inr (.inr (.inr ⟨hboot, target, rfl, hadopt.1, hadopt.2.2, trivial, trivial⟩))
      · simp only [if_neg hadopt]
        split
        · exact .inl ⟨rfl, rfl⟩
        · exact .inr (.inl ⟨rfl, rfl⟩)

lemma settled_key {mute' : Mute} (h : (Mutes.settled daemon snapshot now mute).1 = some mute') :
    mute'.key = mute.key := by
  rcases settled_cases daemon snapshot now mute with ⟨-, heq⟩ | ⟨-, -, heq⟩ |
    ⟨-, -, target, -, -, -, heq⟩ | ⟨-, -, target, -, -, -, -, heq⟩
  all_goals
    rw [heq] at h
    cases h
  all_goals rfl

lemma settled_settled {mute' : Mute} (h : (Mutes.settled daemon snapshot now mute).1 = some mute') :
    Mutes.settled daemon snapshot now mute' = (some mute', false) := by
  rcases settled_cases daemon snapshot now mute with ⟨-, heq⟩ | ⟨-, -, heq⟩ |
    ⟨hdaemon, hboot, target, htarget, -, -, heq⟩ | ⟨hdaemon, -, target, htarget, hlabel, -, -, heq⟩
  · rw [heq] at h
    cases h
    exact heq
  · rw [heq] at h
    cases h
  · rw [heq] at h
    cases h
    simp [Mutes.settled, hdaemon, verdict, htarget, hboot]
  · rw [heq] at h
    cases h
    simp [Mutes.settled, hdaemon, verdict, htarget, hlabel]

lemma settled_same (h : (Mutes.settled daemon snapshot now mute).1 = some mute) :
    (Mutes.settled daemon snapshot now mute).2 = false := by
  rcases settled_cases daemon snapshot now mute with ⟨-, heq⟩ | ⟨-, -, heq⟩ |
    ⟨-, -, target, -, hlabel, -, heq⟩ | ⟨-, hboot, target, -, -, -, -, heq⟩
  · rw [heq]
  · rw [heq] at h
    cases h
  · rw [heq] at h
    exact absurd (congrArg Mute.label (Option.some.inj h)).symm hlabel
  · rw [heq] at h
    exact absurd (congrArg Mute.boot (Option.some.inj h)).symm hboot

lemma settled_unchanged_iff : (Mutes.settled daemon snapshot now mute).2 = false ↔
    (mute.daemon = daemon → verdict mute snapshot now = .keep) := by
  rcases settled_cases daemon snapshot now mute with ⟨hsame, heq⟩ | ⟨hdaemon, hverdict, heq⟩ |
    ⟨hdaemon, -, target, -, -, hverdict, heq⟩ | ⟨hdaemon, -, target, -, -, -, hverdict, heq⟩
  · rw [heq]
    exact ⟨fun _ hdaemon => hsame.resolve_left (not_not.mpr hdaemon), fun _ => rfl⟩
  all_goals simp [heq, hdaemon, hverdict]

lemma filterMap_eq_self {α : Type} {f : α → Option α} {l : List α} (h : l.filterMap f = l) :
    ∀ a ∈ l, f a = some a := by
  induction l with
  | nil => exact nofun
  | cons a l ih =>
    rw [List.filterMap_cons] at h
    cases ha : f a with
    | none =>
      rw [ha] at h
      have hlength := List.length_filterMap_le f l
      rw [show l.filterMap f = a :: l from h] at hlength
      simp at hlength
    | some b =>
      rw [ha] at h
      obtain ⟨rfl, hl⟩ := List.cons.inj h
      exact List.forall_mem_cons.mpr ⟨ha, ih hl⟩

variable (s : Mutes)

def left (daemon : Daemon) (snapshot : Snapshot) (now : UInt64) (mutes : List Mute) : List Mute :=
  mutes.filterMap fun mute => (Mutes.settled daemon snapshot now mute).1

lemma reconcile_mutes : (s.reconcile daemon snapshot now).1.mutes =
    left daemon snapshot now s.mutes := by
  rw [Mutes.reconcile, left]
  split <;> simp [Mutes.changed, List.filterMap_map]

lemma reconcile_same (h : ∀ mute ∈ s.mutes, Mutes.settled daemon snapshot now mute = (some mute, false)) :
    s.reconcile daemon snapshot now = (s, false) := by
  have hkept : (s.mutes.map (Mutes.settled daemon snapshot now)).filterMap Prod.fst = s.mutes := by
    rw [List.map_congr_left h, List.filterMap_map]
    simp
  have hany : (s.mutes.map (Mutes.settled daemon snapshot now)).any Prod.snd = false := by
    rw [List.map_congr_left h]
    simp
  rw [Mutes.reconcile, hkept, hany]
  rfl

lemma current_iff : s.current daemon snapshot now = true ↔
    ∀ mute ∈ s.mutes, (Mutes.settled daemon snapshot now mute).2 = false := by
  simp only [Mutes.current, List.all_eq_true, List.mem_filter, decide_eq_true_eq, and_imp,
    settled_unchanged_iff]

lemma settled_of_unchanged (h : (Mutes.settled daemon snapshot now mute).2 = false) :
    Mutes.settled daemon snapshot now mute = (some mute, false) := by
  rcases settled_cases daemon snapshot now mute with ⟨-, heq⟩ | ⟨-, -, heq⟩ |
    ⟨-, -, target, -, -, -, heq⟩ | ⟨-, -, target, -, -, -, -, heq⟩
  · exact heq
  all_goals
    rw [heq] at h
    cases h

lemma current_iff_mutes : s.current daemon snapshot now = true ↔
    (s.reconcile daemon snapshot now).1.mutes = s.mutes := by
  rw [current_iff, reconcile_mutes]
  constructor
  · intro h
    have hsettled mute (hmute : mute ∈ s.mutes) := settled_of_unchanged (h mute hmute)
    have hleft : (s.reconcile daemon snapshot now).1.mutes = left daemon snapshot now s.mutes :=
      reconcile_mutes s
    rw [← hleft, reconcile_same s hsettled]
  · exact fun h mute hmute => settled_same (filterMap_eq_self h mute hmute)

lemma reconcile_twice : (s.reconcile daemon snapshot now).1.reconcile daemon snapshot now =
    ((s.reconcile daemon snapshot now).1, false) := by
  refine reconcile_same _ fun mute hmute => ?_
  rw [reconcile_mutes, left] at hmute
  obtain ⟨old, -, hold⟩ := List.mem_filterMap.mp hmute
  exact settled_settled hold

end Reconciling

section Runs

def BootValid (snapshot : Snapshot) : Prop :=
  snapshot.bootId ≠ "" ∧ hasControl snapshot.bootId = false

def Meets (s : Mutes) : Op → Prop
  | .reconcile daemon snapshot now =>
    (∃ mute ∈ s.mutes, mute.daemon = daemon ∧ verdict mute snapshot now = .adopt) →
      BootValid snapshot
  | _ => True

structure Sound (json : Json) (s : Mutes) : Prop where
  kept : Kept s.saved
  readable : Readable json s.saved
  written : ∀ files, s.files = some files → ∀ file ∈ files, Readable json file
  current : ∀ daemon snapshot now, s.current daemon snapshot now = true ↔
    (s.reconcile daemon snapshot now).1.mutes = s.mutes
  unchanged : ∀ daemon snapshot now, s.current daemon snapshot now = true →
    s.reconcile daemon snapshot now = (s, false)
  twice : ∀ daemon snapshot now,
    (s.reconcile daemon snapshot now).1.reconcile daemon snapshot now =
      ((s.reconcile daemon snapshot now).1, false)

lemma Good.sound {s : Mutes} (h : Good s) (json : Compact) : Sound json.toJson s where
  kept := h.1
  readable := h.1.readable json
  written files hfiles file hfile := (h.2 files hfiles file hfile).readable json
  current _ _ _ := current_iff_mutes s
  unchanged _ _ _ hcurrent := reconcile_same s fun mute hmute =>
    settled_of_unchanged ((current_iff s).mp hcurrent mute hmute)
  twice _ _ _ := reconcile_twice s

lemma valid_relabel {mute : Mute} (h : mute.valid = true) (label : String) :
    ({ mute with label := fit label } : Mute).valid = true := by
  rw [valid_iff] at h ⊢
  obtain ⟨hendpoint, hid, hboot, hendpoint', hsession, hid', hboot', -⟩ := h
  exact ⟨hendpoint, hid, hboot, hendpoint', hsession, hid', hboot', fits_fit label⟩

lemma valid_adopt {mute : Mute} {snapshot : Snapshot} (h : mute.valid = true)
    (hsize : snapshot.bootId.utf8ByteSize ≤ maxFieldBytes) (hboot : BootValid snapshot) :
    ({ mute with boot := snapshot.bootId } : Mute).valid = true := by
  have hfits : fits snapshot.bootId = true := by
    rw [fits, hboot.2, decide_eq_true hsize]
    rfl
  rw [valid_iff] at h ⊢
  obtain ⟨hendpoint, hid, -, hendpoint', hsession, hid', -, hlabel⟩ := h
  exact ⟨hendpoint, hid, hboot.1, hendpoint', hsession, hid', hfits, hlabel⟩

lemma left_keys (daemon : Daemon) (snapshot : Snapshot) (now : UInt64) (mutes : List Mute) :
    ((left daemon snapshot now mutes).map Mute.key).Sublist (mutes.map Mute.key) := by
  induction mutes with
  | nil => exact .slnil
  | cons mute mutes ih =>
    rw [left, List.filterMap_cons]
    cases hsettled : (Mutes.settled daemon snapshot now mute).1 with
    | none => exact ih.trans (List.sublist_cons_self _ _)
    | some mute' =>
      rw [List.map_cons, List.map_cons, settled_key hsettled]
      exact ih.cons_cons _

lemma left_valid {daemon : Daemon} {snapshot : Snapshot} {now : UInt64} {s : Mutes}
    (h : ∀ mute ∈ s.mutes, mute.valid = true) (hmeets : Meets s (.reconcile daemon snapshot now)) :
    ∀ mute ∈ left daemon snapshot now s.mutes, mute.valid = true := by
  intro mute' hmute'
  obtain ⟨mute, hmute, hsettled⟩ := List.mem_filterMap.mp hmute'
  rcases settled_cases daemon snapshot now mute with ⟨-, heq⟩ | ⟨-, -, heq⟩ |
    ⟨-, -, target, -, -, -, heq⟩ | ⟨hdaemon, -, target, -, -, hsize, hverdict, heq⟩
  all_goals
    rw [heq] at hsettled
    cases hsettled
  · exact h _ hmute
  · exact valid_relabel (h mute hmute) target.label
  · exact valid_adopt (h mute hmute) hsize (hmeets ⟨mute, hmute, hdaemon, hverdict⟩)

lemma good_reconcile {daemon : Daemon} {snapshot : Snapshot} {now : UInt64} {s : Mutes}
    (h : Good s) (hmeets : Meets s (.reconcile daemon snapshot now)) :
    Good (s.reconcile daemon snapshot now).1 := by
  have hkept : Kept ⟨left daemon snapshot now s.mutes, s.hosts⟩ :=
    { h.1 with
      mutes := h.1.mutes.sublist (left_keys _ _ _ _)
      mutes_le := (List.length_filterMap_le _ _).trans h.1.mutes_le
      mutes_valid := left_valid h.1.mutes_valid hmeets }
  have hleft : Good { s with mutes := left daemon snapshot now s.mutes } := ⟨hkept, h.2⟩
  have hsettled : (s.mutes.map (Mutes.settled daemon snapshot now)).filterMap Prod.fst =
      left daemon snapshot now s.mutes := by
    rw [left, List.filterMap_map]
    rfl
  rw [Mutes.reconcile, hsettled]
  split
  · exact hleft.changed
  · exact hleft

lemma good_load {json : Json} {text : Option (List Char)} {files : Option (List Saved)}
    (htext : ∀ text' ∈ text, ∃ saved, Kept saved ∧ Readable json saved ∧ text' = saved.text json)
    (hfiles : ∀ files', files = some files' → ∀ file ∈ files', Kept file) :
    Good (.load json text files) := by
  refine ⟨?_, hfiles⟩
  cases text with
  | none => exact kept_empty
  | some text =>
    obtain ⟨saved, hkept, ⟨hbytes, hparse⟩, rfl⟩ := htext text rfl
    simp only [Mutes.load, Mutes.saved, Option.bind_some, if_neg (not_lt.mpr hbytes), hparse]
    exact hkept

lemma good_apply (json : Compact) {s : Mutes} {op : Op} (h : Good s) (hmeets : Meets s op) :
    Good (s.apply json.toJson op) := by
  cases op with
  | set daemon snapshot scope id muted now => exact good_set h daemon snapshot scope id muted now
  | setHost endpoint muted => exact good_setHost h endpoint muted
  | reconcile daemon snapshot now => exact good_reconcile h hmeets
  | quit => exact h
  | restart =>
    refine good_load (fun text htext => ?_) h.2
    obtain ⟨saved, hsaved, rfl⟩ := Option.map_eq_some_iff.mp htext
    obtain ⟨files, hfiles, hlast⟩ := Option.bind_eq_some_iff.mp hsaved
    have hkept := h.2 files hfiles saved (List.mem_of_getLast? hlast)
    exact ⟨saved, hkept, hkept.readable json, rfl⟩

lemma meets_of_sound {json : Json} {s : Mutes} {op : Op} (h : Sound json (s.apply json op)) :
    Meets s op := by
  cases op with
  | reconcile daemon snapshot now =>
    rintro ⟨mute, hmute, hdaemon, hverdict⟩
    rcases settled_cases daemon snapshot now mute with ⟨hsame, -⟩ | ⟨-, hforget, -⟩ |
      ⟨-, -, target, -, -, hrelabel, -⟩ | ⟨-, -, target, -, -, -, -, heq⟩
    · rcases hsame with hother | hkeep
      · exact absurd hdaemon hother
      · rw [hverdict] at hkeep
        cases hkeep
    · rw [hverdict] at hforget
      cases hforget
    · rw [hverdict] at hrelabel
      cases hrelabel
    · have hadopted : { mute with boot := snapshot.bootId } ∈
          (s.reconcile daemon snapshot now).1.mutes := by
        rw [reconcile_mutes, left]
        exact List.mem_filterMap.mpr ⟨mute, hmute, by rw [heq]⟩
      have hvalid := valid_iff.mp (h.kept.mutes_valid _ hadopted)
      obtain ⟨-, -, hboot, -, -, -, hfits, -⟩ := hvalid
      simp only [fits, Bool.and_eq_true, Bool.not_eq_true'] at hfits
      exact ⟨hboot, hfits.2⟩
  | _ => exact trivial

variable (json : Compact) (writes : Bool) (ops : List Op)

lemma run_take_succ {n : ℕ} {op : Op} (h : ops[n]? = some op) :
    Mutes.run json.toJson writes (ops.take (n + 1)) =
      (Mutes.run json.toJson writes (ops.take n)).apply json.toJson op := by
  rw [Mutes.run, List.take_add_one, h, List.foldl_append]
  rfl

theorem mutes_sound_iff : (∀ n ≤ ops.length, Sound json.toJson (Mutes.run json.toJson writes (ops.take n))) ↔
    ∀ n op, ops[n]? = some op → Meets (Mutes.run json.toJson writes (ops.take n)) op := by
  constructor
  · intro h n op hop
    have hn : n < ops.length := (List.getElem?_eq_some_iff.mp hop).1
    have hsound := h (n + 1) hn
    rw [run_take_succ json writes ops hop] at hsound
    exact meets_of_sound hsound
  · intro h n hn
    suffices hgood : Good (Mutes.run json.toJson writes (ops.take n)) from hgood.sound json
    induction n with
    | zero => exact good_load nofun (by cases writes <;> simp)
    | succ n ih =>
      have hop : ops[n]? = some ops[n] := List.getElem?_eq_getElem hn
      rw [run_take_succ json writes ops hop]
      exact good_apply json (ih (Nat.le_of_succ_le hn)) (h n _ hop)

end Runs

section Nameless

def shown (bootId : String) : Snapshot := ⟨bootId, [⟨"w1", "repo", true⟩], []⟩

def nameless : List Op :=
  [.set ⟨"local", ""⟩ (shown "b1") .workspace "w1" true 100,
    .reconcile ⟨"local", ""⟩ (shown "b\x07") 200]

example : (Mutes.run Json.compact true
    [.set ⟨"local", ""⟩ (shown "b1") .workspace "w1" true 100,
      .reconcile ⟨"local", ""⟩ (shown "b2") 200]).mutes =
    [⟨⟨"local", ""⟩, .workspace, "w1", "b2", "repo", 100⟩] := by
  decide +kernel

lemma nameless_kept : (Mutes.run Json.compact true nameless).mutes =
    [⟨⟨"local", ""⟩, .workspace, "w1", "b\x07", "repo", 100⟩] := by
  decide +kernel

theorem nameless_unsound : ¬∀ n ≤ nameless.length,
    Sound Json.compact (Mutes.run Json.compact true (nameless.take n)) := by
  intro h
  have hkept := (h 2 le_rfl).kept
  have hmute : (⟨⟨"local", ""⟩, .workspace, "w1", "b\x07", "repo", 100⟩ : Mute) ∈
      (Mutes.run Json.compact true nameless).mutes := by
    rw [nameless_kept]
    exact List.mem_singleton_self _
  obtain ⟨-, -, -, -, -, -, hboot, -⟩ := valid_iff.mp (hkept.mutes_valid _ hmute)
  have hlost : fits "b\x07" = false := by decide +kernel
  rw [hlost] at hboot
  cases hboot

end Nameless

end Sheprd.Desktop.Muting
