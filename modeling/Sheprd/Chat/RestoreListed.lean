import Mathlib
import Sheprd.Chat.Restore
import Sheprd.Lib.Base64

namespace Sheprd.Chat.Restore

open Lib

section Names

variable {name stem ext : String} {id : EndpointId}

lemma rsplitFileAtDot_eq (h : rsplitFileAtDot name = (some stem, some ext)) :
    name = stem ++ "." ++ ext := by
  rw [rsplitFileAtDot] at h
  split at h
  · cases (Prod.mk.inj h).2
  · cases hs : Text.splitOnce '.' name.toList.reverse with
    | none =>
      rw [hs] at h
      cases (Prod.mk.inj h).1
    | some parts =>
      obtain ⟨after, before⟩ := parts
      rw [hs] at h
      simp only at h
      split at h
      · cases (Prod.mk.inj h).2
      · obtain ⟨hstem, hext⟩ := Prod.mk.inj h
        rw [← Option.some.inj hstem, ← Option.some.inj hext]
        apply String.toList_inj.mp
        rw [← List.reverse_reverse name.toList, Text.splitOnce_eq_some hs]
        simp

lemma recordPath_eq (h : recordId name = some id) : name = recordPath id := by
  rw [recordId] at h
  split at h
  case isFalse => cases h
  case isTrue hext =>
    obtain ⟨stem, hstem, hid⟩ := Option.bind_eq_some_iff.mp h
    obtain ⟨before, hbefore, hafter⟩ := Option.bind_eq_some_iff.mp hext
    have hsplit : rsplitFileAtDot name = (some before, some "json") := Prod.ext hbefore hafter
    rw [fileStem, hsplit, Option.some_or] at hstem
    cases hstem
    rw [EndpointId.parse] at hid
    split at hid
    · cases hid
      rw [rsplitFileAtDot_eq hsplit, recordPath, String.append_assoc]
      rfl
    · cases hid

lemma EndpointId.size (id : EndpointId) : id.text.utf8ByteSize = 32 := by
  have h := id.digits
  rw [isEndpoint, Bool.and_eq_true, decide_eq_true_eq] at h
  exact h.1

lemma EndpointId.parse_text (id : EndpointId) : EndpointId.parse id.text = some id := dif_pos id.digits

lemma recordId_recordPath (id : EndpointId) : recordId (recordPath id) = some id := by
  have hsize := id.size
  have hlong : (recordPath id).utf8ByteSize = 37 := by
    rw [recordPath, String.utf8ByteSize_append, hsize]
    rfl
  have hdots : recordPath id ≠ ".." := fun h => absurd (hlong.symm.trans (congrArg _ h)) (by decide)
  have hsplit : rsplitFileAtDot (recordPath id) = (some id.text, some "json") := by
    have hreverse : (recordPath id).toList.reverse = ['n', 'o', 's', 'j'] ++ '.' :: id.text.toList.reverse := by
      simp [recordPath]
    have hne : id.text.toList.reverse ≠ [] := by
      intro h
      rw [List.reverse_eq_nil_iff, String.toList_eq_nil_iff] at h
      rw [h] at hsize
      exact absurd hsize (by decide)
    rw [rsplitFileAtDot, if_neg hdots, hreverse, Text.splitOnce_append (by decide)]
    simp only
    rw [if_neg hne, List.reverse_reverse, String.ofList_toList]
    rfl
  rw [recordId, extension, fileStem, hsplit]
  exact id.parse_text

end Names

section Ids

variable {names names' : List String}

lemma EndpointId.text_inj {a b : EndpointId} (h : a.text = b.text) : a = b := by
  cases a
  cases b
  cases h
  rfl

lemma nodup_filterMap_recordId (h : names.Nodup) : (names.filterMap recordId).Nodup := by
  refine h.filterMap fun name name' id hid hid' => ?_
  rw [recordPath_eq hid, recordPath_eq hid']

lemma recordIds_perm (names : List String) :
    (recordIds names).Perm ((names.take maxEntries).filterMap recordId) :=
  List.perm_insertionSort _ _

lemma recordIds_nodup (h : names.Nodup) : (recordIds names).Nodup :=
  (recordIds_perm names).nodup_iff.mpr (nodup_filterMap_recordId (h.sublist (List.take_sublist _ _)))

lemma recordIds_sorted (h : names.Nodup) : (recordIds names).Pairwise fun a b => a.text < b.text := by
  have total : Std.Total fun a b : EndpointId => a.text ≤ b.text := ⟨fun a b => le_total a.text b.text⟩
  have trans : IsTrans EndpointId fun a b => a.text ≤ b.text := ⟨fun _ _ _ hab hbc => hab.trans hbc⟩
  have hle : (recordIds names).Pairwise fun a b => a.text ≤ b.text := List.pairwise_insertionSort _ _
  refine hle.imp₂ ?_ (recordIds_nodup h)
  intro a b hab hne
  exact lt_of_le_of_ne hab fun heq => hne (EndpointId.text_inj heq)

lemma mem_recordIds (hfew : names.length ≤ maxEntries) {id : EndpointId} :
    id ∈ recordIds names ↔ recordPath id ∈ names := by
  rw [(recordIds_perm names).mem_iff, List.take_of_length_le hfew, List.mem_filterMap]
  constructor
  · rintro ⟨name, hm, hid⟩
    rwa [← recordPath_eq hid]
  · intro hm
    exact ⟨_, hm, recordId_recordPath id⟩

lemma recordIds_congr (h : names'.Perm names) (hfew : names.length ≤ maxEntries) (hd : names.Nodup) :
    recordIds names' = recordIds names := by
  have hfew' : names'.length ≤ maxEntries := h.length_eq.trans_le hfew
  refine List.Perm.eq_of_pairwise ?_ (recordIds_sorted (h.nodup_iff.mpr hd)) (recordIds_sorted hd) ?_
  · intro a b _ _ hab hba
    exact absurd hba hab.asymm
  · refine (recordIds_perm names').trans (.trans ?_ (recordIds_perm names).symm)
    rw [List.take_of_length_le hfew', List.take_of_length_le hfew]
    exact h.filterMap _

end Ids

section Follow

variable {fromSlice : ByteArray → Option Stored} {file : String → Option ByteArray}
  {names : List String} {after : Option EndpointId}

lemma list_records (hd : names.Nodup) : ∃ ids : List EndpointId, ids.Nodup ∧
    (∀ id ∈ ids, recordPath id ∈ names) ∧
    (list fromSlice file names after).records = ids.filterMap (readRecord fromSlice file) := by
  refine ⟨_, Rounds.window_nodup (recordIds_nodup hd) (Nat.min_le_left _ _), ?_, rfl⟩
  intro id hm
  obtain ⟨name, hname, hid⟩ := List.mem_filterMap.mp ((recordIds_perm names).mem_iff.mp (Rounds.window_sub hm))
  rw [← recordPath_eq hid]
  exact List.mem_of_mem_take hname

lemma read_small (hsmall : (recordIds names).length ≤ maxRecords) {id : EndpointId}
    (hm : id ∈ recordIds names) (hd : names.Nodup) {read : Record × Option String}
    (hread : readRecord fromSlice file id = some read) :
    read ∈ (list fromSlice file names after).records := by
  refine List.mem_filterMap.mpr ⟨id, ?_, hread⟩
  obtain ⟨n, hn⟩ := Nat.exists_eq_succ_of_ne_zero (List.length_pos_of_mem hm).ne'
  have hwalk := @Rounds.walk_all _ _ _ EndpointId.text _ id n (recordIds_sorted hd) 1
    (after.map EndpointId.text) (by omega) hm
  rw [Rounds.walk, Rounds.walk, List.append_nil] at hwalk
  rw [Nat.min_eq_left hsmall, hn]
  exact hwalk

lemma list_many (hmany : maxRecords < (recordIds names).length) :
    let window := Rounds.window (recordIds names)
      (Rounds.start EndpointId.text (recordIds names) (after.map EndpointId.text)) maxRecords
    (list fromSlice file names after).next = window.getLast? ∧
      (list fromSlice file names after).records = window.filterMap (readRecord fromSlice file) := by
  rw [list]
  simp only
  rw [if_pos hmany, Nat.min_eq_right hmany.le]
  exact ⟨rfl, rfl⟩

lemma list_perm {names' : List String} (h : names'.Perm names) (hfew : names.length ≤ maxEntries)
    (hd : names.Nodup) : list fromSlice file names' after = list fromSlice file names after := by
  rw [list, recordIds_congr h hfew hd]
  rfl

lemma follow_reads (hd : names.Nodup) (hfew : names.length ≤ maxEntries) {calls : List (List String)}
    (horder : ∀ names' ∈ calls, names'.Perm names) {id : EndpointId} {read : Record × Option String}
    (hread : readRecord fromSlice file id = some read)
    (h : id ∈ Rounds.walk EndpointId.text (recordIds names) maxRecords calls.length
      (after.map EndpointId.text)) :
    ∃ listing ∈ follow fromSlice file calls after, read ∈ listing.records := by
  induction calls generalizing after with
  | nil => exact absurd h List.not_mem_nil
  | cons names' calls ih =>
    have hperm := horder names' List.mem_cons_self
    rw [follow, list_perm hperm hfew hd]
    rw [List.length_cons, Rounds.walk] at h
    obtain hmany | hsmall := Nat.lt_or_ge maxRecords (recordIds names).length
    · obtain ⟨hnext, hrecords⟩ := @list_many fromSlice file names after hmany
      obtain hnow | hlater := List.mem_append.mp h
      · refine ⟨_, List.mem_cons_self, ?_⟩
        rw [hrecords]
        exact List.mem_filterMap.mpr ⟨id, hnow, hread⟩
      · have hne : recordIds names ≠ [] := List.ne_nil_of_length_pos (Nat.zero_lt_of_lt hmany)
        rw [hnext]
        cases hl : (Rounds.window (recordIds names)
          (Rounds.start EndpointId.text (recordIds names) (after.map EndpointId.text))
          maxRecords).getLast? with
        | none =>
          have hlast := @Rounds.window_last _ (recordIds names)
            (Rounds.start EndpointId.text (recordIds names) (after.map EndpointId.text)) 255 hne
          have hlt := Nat.mod_lt (Rounds.start EndpointId.text (recordIds names)
            (after.map EndpointId.text) + 255) (List.length_pos_iff.mpr hne)
          rw [List.getElem?_eq_getElem hlt] at hlast
          cases hl.symm.trans hlast
        | some last =>
          rw [hl] at hlater
          obtain ⟨listing, hm, hr⟩ := @ih (some last)
            (fun names' hm => horder names' (List.mem_cons_of_mem _ hm)) hlater
          exact ⟨listing, List.mem_cons_of_mem _ hm, hr⟩
    · refine ⟨_, List.mem_cons_self, ?_⟩
      refine read_small hsmall ?_ hd hread
      obtain hnow | hlater := List.mem_append.mp h
      · exact Rounds.window_sub hnow
      · exact Rounds.walk_sub hlater

lemma mem_follow {calls : List (List String)} {listing : Listing}
    (h : listing ∈ follow fromSlice file calls after) :
    ∃ names ∈ calls, ∃ after, listing = list fromSlice file names after := by
  induction calls generalizing after with
  | nil => exact absurd h List.not_mem_nil
  | cons names calls ih =>
    rw [follow] at h
    obtain rfl | hm := List.mem_cons.mp h
    · exact ⟨names, List.mem_cons_self, after, rfl⟩
    · cases hn : (list fromSlice file names after).next with
      | none =>
        rw [hn] at hm
        exact absurd hm List.not_mem_nil
      | some next =>
        rw [hn] at hm
        obtain ⟨names', hm', after', he⟩ := ih hm
        exact ⟨names', List.mem_cons_of_mem _ hm', after', he⟩

end Follow

structure Folder where
  names : List String
  file : String → Option ByteArray
  distinct : names.Nodup

namespace Folder

def holds (folder : Folder) (id : EndpointId) : Prop := recordPath id ∈ folder.names

def count (folder : Folder) : ℕ := (folder.names.filterMap recordId).length

theorem records_visited (fromSlice : ByteArray → Option Stored) (folder : Folder)
    (after : Option EndpointId) {calls : List (List String)}
    (hfew : folder.names.length ≤ maxEntries) (horder : ∀ names ∈ calls, names.Perm folder.names) :
    ((folder.count + (maxRecords - 1)) / maxRecords ≤ calls.length →
      ∀ id, folder.holds id → ∀ record, Record.read fromSlice folder.file (recordPath id) = .ok record →
        ∃ listing ∈ follow fromSlice folder.file calls after,
          (record, readSeen folder.file record.endpoint) ∈ listing.records) ∧
    ∀ listing ∈ follow fromSlice folder.file calls after,
      (∃ ids : List EndpointId, ids.Nodup ∧ (∀ id ∈ ids, folder.holds id) ∧
        listing.records = ids.filterMap (readRecord fromSlice folder.file)) ∧
      ((∀ id record, Record.read fromSlice folder.file (recordPath id) = .ok record →
          record.endpoint = id) →
        (listing.records.map fun read => read.1.endpoint).Nodup) := by
  have hlength : (recordIds folder.names).length = folder.count := by
    rw [(recordIds_perm folder.names).length_eq, List.take_of_length_le hfew, count]
  constructor
  · intro hcalls id hid record hrecord
    have hread : readRecord fromSlice folder.file id =
        some (record, readSeen folder.file record.endpoint) := by
      rw [readRecord, hrecord]
      rfl
    refine follow_reads folder.distinct hfew horder hread ?_
    refine Rounds.walk_all (recordIds_sorted folder.distinct) _ ?_ ((mem_recordIds hfew).mpr hid)
    have hmax : maxRecords = 255 + 1 := rfl
    rw [hlength]
    rw [hmax] at hcalls
    omega
  · intro listing hm
    obtain ⟨names, hnames, after', rfl⟩ := mem_follow hm
    rw [list_perm (horder names hnames) hfew folder.distinct]
    obtain ⟨ids, hnodup, hheld, hrecords⟩ := @list_records fromSlice folder.file _ after' folder.distinct
    refine ⟨⟨ids, hnodup, hheld, hrecords⟩, fun hnamed => ?_⟩
    have hendpoint : ∀ id read, readRecord fromSlice folder.file id = some read →
        read.1.endpoint = id := by
      intro id read hread
      obtain ⟨record, hrecord, rfl⟩ := Option.map_eq_some_iff.mp hread
      cases hr : Record.read fromSlice folder.file (recordPath id) with
      | error e =>
        rw [hr] at hrecord
        cases hrecord
      | ok found =>
        rw [hr] at hrecord
        cases hrecord
        exact hnamed id record hr
    rw [hrecords, List.map_filterMap]
    refine hnodup.filterMap fun id id' endpoint h h' => ?_
    obtain ⟨read, hr, rfl⟩ := Option.map_eq_some_iff.mp h
    obtain ⟨read', hr', he⟩ := Option.map_eq_some_iff.mp h'
    rw [← hendpoint id read hr, ← hendpoint id' read' hr', he]

section Sample

def oneId : EndpointId := ⟨"0123456789abcdef0123456789abcdef", by decide⟩

def oneStored : Stored :=
  ⟨false, "claude", "/work/repo", "0123456789abcdef0123456789abcdef", "w1:p3",
    "0c6f0c39-3c1e-4b7e-9a51-6d1b8e2d7f10", "/home/me/herdr.sock", 1⟩

def oneRecord : Record :=
  ⟨false, .claude, "/work/repo", oneId, "w1:p3", "0c6f0c39-3c1e-4b7e-9a51-6d1b8e2d7f10",
    "/home/me/herdr.sock"⟩

def oneText : String :=
  "\x7b\"adapter\":false,\"agent\":\"claude\",\"cwd\":\"/work/repo\"," ++
    "\"endpoint\":\"0123456789abcdef0123456789abcdef\",\"pane\":\"w1:p3\"," ++
    "\"session\":\"0c6f0c39-3c1e-4b7e-9a51-6d1b8e2d7f10\"," ++
    "\"socket\":\"/home/me/herdr.sock\",\"version\":1\x7d"

def oneFile (name : String) : Option ByteArray :=
  if name = recordPath oneId then some oneText.toUTF8 else none

def parseOne (bytes : ByteArray) : Option Stored := if bytes = oneText.toUTF8 then some oneStored else none

lemma parseOne_text : parseOne oneText.toUTF8 = some oneStored := if_pos rfl

lemma oneFile_record : oneFile (recordPath oneId) = some oneText.toUTF8 := if_pos rfl

lemma oneText_fits : oneText.toUTF8.size ≤ maxRecordSize := by
  decide +kernel

lemma oneStored_reads : Record.ofStored oneStored = .ok oneRecord := by
  decide

lemma read_ok {fromSlice : ByteArray → Option Stored} {file : String → Option ByteArray} {path : String}
    {bytes : ByteArray} {stored : Stored} {record : Record} (hf : file path = some bytes)
    (hs : bytes.size ≤ maxRecordSize) (hp : fromSlice bytes = some stored)
    (hr : Record.ofStored stored = .ok record) : Record.read fromSlice file path = .ok record := by
  have hbounded : readBounded file path = .ok bytes := by
    rw [readBounded, hf]
    exact if_neg (Nat.not_lt.mpr hs)
  simp only [Record.read, hbounded, bind, Except.bind, hp]
  exact hr

lemma read_one {file : String → Option ByteArray} (h : file (recordPath oneId) = some oneText.toUTF8) :
    Record.read parseOne file (recordPath oneId) = .ok oneRecord :=
  read_ok h oneText_fits parseOne_text oneStored_reads

def hexDigits : List Char := "0123456789abcdef".toList

def numbered (leads : List Char) (extension : String) : List String :=
  (leads.product (hexDigits.product hexDigits)).map fun (a, b, c) =>
    .ofList (List.replicate 29 '0' ++ [a, b, c]) ++ extension

lemma numbered_length (leads : List Char) (extension : String) :
    (numbered leads extension).length = leads.length * 256 := by
  have hdigits : hexDigits.length = 16 := rfl
  have hlength : (leads ×ˢ (hexDigits ×ˢ hexDigits)).length = leads.length * 256 := by
    rw [List.length_product, List.length_product, hdigits]
  exact (List.length_map _).trans hlength

lemma numbered_nodup {leads : List Char} (hleads : leads.Nodup) (extension : String) :
    (numbered leads extension).Nodup := by
  have hdigits : hexDigits.Nodup := by decide
  refine (hleads.product (hdigits.product hdigits)).map fun x y h => ?_
  obtain ⟨a, b, c⟩ := x
  obtain ⟨a', b', c'⟩ := y
  have hlist := congrArg String.toList h
  simpa using hlist

def pages : List String := numbered ['0', '1'] ".json"

def pageFile (name : String) : Option ByteArray := if name ∈ pages then some oneText.toUTF8 else none

def pageFolder : Folder := ⟨pages, pageFile, numbered_nodup (by decide) _⟩

lemma page_endpoint {page : Char × Char × Char} (h : page ∈ ['0', '1'] ×ˢ (hexDigits ×ˢ hexDigits)) :
    isEndpoint (.ofList (List.replicate 29 '0' ++ [page.1, page.2.1, page.2.2])) = true := by
  obtain ⟨ha, hrest⟩ := List.mem_product.mp h
  obtain ⟨hb, hc⟩ := List.mem_product.mp hrest
  have hdigit : ∀ d ∈ hexDigits, (d.isDigit || ('a' ≤ d && d ≤ 'f')) = true ∧ d.utf8Size = 1 :=
    fun d hd => of_decide_eq_true (List.all_eq_true.mp (by decide : hexDigits.all fun d =>
      decide ((d.isDigit || ('a' ≤ d && d ≤ 'f')) = true ∧ d.utf8Size = 1)) d hd)
  have hlead : page.1 ∈ hexDigits := by
    simp only [List.mem_cons, List.not_mem_nil, or_false] at ha
    obtain ha | ha := ha <;> rw [ha] <;> decide
  have hall : ∀ d ∈ List.replicate 29 '0' ++ [page.1, page.2.1, page.2.2],
      (d.isDigit || ('a' ≤ d && d ≤ 'f')) = true ∧ d.utf8Size = 1 := by
    intro d hd
    simp only [List.mem_append, List.mem_replicate, List.mem_cons, List.not_mem_nil, or_false] at hd
    obtain ⟨-, rfl⟩ | rfl | rfl | rfl := hd
    · decide
    · exact hdigit _ hlead
    · exact hdigit _ hb
    · exact hdigit _ hc
  rw [isEndpoint, String.toList_ofList, Bool.and_eq_true, decide_eq_true_eq, List.all_eq_true,
    Base64.ofList_size fun d hd => (hall d hd).2]
  exact ⟨by simp, fun d hd => (hall d hd).1⟩

lemma page_held {name : String} (h : name ∈ pages) : ∃ id, name = recordPath id := by
  obtain ⟨page, hm, rfl⟩ := List.mem_map.mp h
  exact ⟨⟨_, page_endpoint hm⟩, rfl⟩

lemma pages_length : pages.length = 512 := numbered_length _ _

lemma pages_count : pageFolder.count = 512 := by
  have hsome : ∀ name ∈ pages, (recordId name).isSome = true := by
    intro name hm
    obtain ⟨id, rfl⟩ := page_held hm
    rw [recordId_recordPath]
    rfl
  have hcount : (pages.filterMap recordId).length = pages.length :=
    List.filterMap_length_eq_length.mpr hsome
  exact hcount.trans pages_length

theorem records_visited_pages : pageFolder.count = 512 ∧
    ∀ id, pageFolder.holds id → ∃ listing ∈ follow parseOne pageFile [pages, pages.reverse] none,
      (oneRecord, readSeen pageFile oneId) ∈ listing.records := by
  refine ⟨pages_count, fun id hid => ?_⟩
  have hread : Record.read parseOne pageFile (recordPath id) = .ok oneRecord :=
    read_ok (if_pos hid) oneText_fits parseOne_text oneStored_reads
  have horder : ∀ names ∈ [pages, pages.reverse], names.Perm pages := by
    simp [List.reverse_perm]
  have hfew : pageFolder.names.length ≤ maxEntries := by
    rw [pageFolder, pages_length]
    decide
  refine (records_visited parseOne pageFolder none hfew horder).1 ?_ id hid oneRecord hread
  rw [pages_count]
  decide

def stamps : List String := numbered hexDigits ".seen"

lemma stamps_length : stamps.length = maxEntries := numbered_length hexDigits ".seen"

lemma stamps_nodup : stamps.Nodup := numbered_nodup (by decide) _

lemma recordId_stamp {name : String} (h : name ∈ stamps) : recordId name = none := by
  obtain ⟨⟨a, b, c⟩, -, rfl⟩ := List.mem_map.mp h
  refine Option.eq_none_iff_forall_ne_some.mpr fun id hid => ?_
  have hlist := congrArg String.toList (recordPath_eq hid)
  have hlength : ".seen".toList.length = ".json".toList.length := by simp
  have hends : ".seen".toList ≠ ".json".toList := by simp
  simp only [recordPath, String.toList_append] at hlist
  exact hends (List.append_inj' hlist hlength).2

def stampFile (name : String) : Option ByteArray :=
  if name ∈ stamps then some "boot-1".toUTF8 else oneFile name

lemma record_unstamped : recordPath oneId ∉ stamps := by
  intro hm
  cases (recordId_recordPath oneId).symm.trans (recordId_stamp hm)

def stampFolder : Folder where
  names := stamps ++ [recordPath oneId]
  file := stampFile
  distinct := by
    refine List.nodup_append.mpr ⟨stamps_nodup, List.nodup_singleton _, fun a ha b hb hab => ?_⟩
    rw [List.mem_singleton.mp hb] at hab
    exact record_unstamped (hab ▸ ha)

lemma recordIds_stampFolder : recordIds stampFolder.names = [] := by
  have htake : stampFolder.names.take maxEntries = stamps := List.take_left' stamps_length
  have hnone : stamps.filterMap recordId = [] :=
    List.filterMap_eq_nil_iff.mpr fun _ hm => recordId_stamp hm
  rw [recordIds, htake, hnone]
  rfl

theorem stamps_hide_record : stampFolder.count = 1 ∧ stampFolder.holds oneId ∧
    Record.read parseOne stampFolder.file (recordPath oneId) = .ok oneRecord ∧
    ∀ calls, ∀ listing ∈ follow parseOne stampFolder.file (List.replicate calls stampFolder.names) none,
      listing.records = [] := by
  have hheld : recordPath oneId ∈ stamps ++ [recordPath oneId] :=
    List.mem_append_right _ (List.mem_singleton_self _)
  have hfile : stampFile (recordPath oneId) = some oneText.toUTF8 := by
    rw [stampFile, if_neg record_unstamped, oneFile_record]
  have hread : Record.read parseOne stampFile (recordPath oneId) = .ok oneRecord := read_one hfile
  refine ⟨?_, hheld, hread, ?_⟩
  · have hnone : stamps.filterMap recordId = [] :=
      List.filterMap_eq_nil_iff.mpr fun _ hm => recordId_stamp hm
    rw [count, stampFolder, List.filterMap_append, hnone, List.nil_append,
      List.filterMap_cons_some (recordId_recordPath oneId)]
    rfl
  · intro calls listing hm
    obtain ⟨names, hnames, after, rfl⟩ := mem_follow hm
    rw [List.eq_of_mem_replicate hnames, list, recordIds_stampFolder]
    rfl

end Sample

end Folder

end Sheprd.Chat.Restore
