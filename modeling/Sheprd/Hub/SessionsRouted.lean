import Sheprd.Hub.Sessions
import Sheprd.Lib.Fold

namespace Sheprd.Hub.Sessions

open Sheprd.Lib

def Terminal.ids (terminal : Terminal) : List String :=
  terminal.tab :: terminal.panes.map TerminalPane.pane ++ terminal.agent.toList.map TerminalAgent.pane

def Workspace.ids (workspace : Workspace) : List String :=
  workspace.id :: workspace.chats.flatMap (fun chat => [chat.pane, chat.tab]) ++
    workspace.terminals.flatMap Terminal.ids

def listedIds (workspaces : List Workspace) : List String := workspaces.flatMap Workspace.ids

def idAt (key : String) : Value → Option String
  | .string id => if id ≠ "" ∧ key ∈ idKeys then some id else none
  | _ => none

mutual

def answerIds : Value → List String
  | .array items => itemsIds items
  | .object fields => fieldsIds fields
  | _ => []

def itemsIds : List Value → List String
  | [] => []
  | item :: items => answerIds item ++ itemsIds items

def fieldsIds : List (String × Value) → List String
  | [] => []
  | (key, value) :: fields => (idAt key value).elim (answerIds value) ([·]) ++ fieldsIds fields

end

variable {name id text key : String} {params answer : Value}

lemma toList_tag (name id : String) : (tag name id).toList = sessionPrefix ++ name.toList ++ ':' :: id.toList :=
  String.toList_ofList

lemma tag_ne_empty (name id : String) : tag name id ≠ "" := by
  intro h
  have hlist := congrArg String.toList h
  rw [toList_tag] at hlist
  simp [sessionPrefix] at hlist

lemma tag_inj {name' id' : String} (hn : ':' ∉ name.toList) (hn' : ':' ∉ name'.toList)
    (h : tag name id = tag name' id') : name = name' ∧ id = id' := by
  have hlist := congrArg String.toList h
  rw [toList_tag, toList_tag, List.append_assoc, List.append_assoc] at hlist
  have hsplit := congrArg (Text.splitOnce ':') (List.append_cancel_left hlist)
  rw [Text.splitOnce_append hn, Text.splitOnce_append hn'] at hsplit
  obtain ⟨hname, hid⟩ := Prod.mk.inj (Option.some.inj hsplit)
  exact ⟨String.toList_inj.mp hname, String.toList_inj.mp hid⟩

section Answers

lemma prefixId_eq (name key : String) (value : Value) :
    prefixId name key value = (idAt key value).map fun id => .string (tag name id) := by
  cases value with
  | string id =>
    rw [prefixId, idAt]
    split
    · rfl
    · rfl
  | _ => rfl

lemma idAt_tag (h : idAt key value = some id) : idAt key (.string (tag name id)) = some (tag name id) := by
  cases value with
  | string text =>
    rw [idAt, Option.ite_none_right_eq_some] at h
    exact if_pos ⟨tag_ne_empty name id, h.1.2⟩
  | _ => cases h

lemma idAt_none (h : idAt key value = none) : idAt key (prefixAnswer name value) = none := by
  cases value with
  | string text => exact h
  | _ => rfl

mutual

lemma answerIds_prefixAnswer (name : String) :
    ∀ answer, answerIds (prefixAnswer name answer) = (answerIds answer).map (tag name)
  | .array items => itemsIds_prefixItems name items
  | .object fields => fieldsIds_prefixFields name fields
  | .null | .bool _ | .number _ | .string _ => rfl

lemma itemsIds_prefixItems (name : String) :
    ∀ items, itemsIds (prefixItems name items) = (itemsIds items).map (tag name)
  | [] => rfl
  | item :: items => by
    rw [prefixItems, itemsIds, itemsIds, List.map_append, answerIds_prefixAnswer name item,
      itemsIds_prefixItems name items]

lemma fieldsIds_prefixFields (name : String) :
    ∀ fields, fieldsIds (prefixFields name fields) = (fieldsIds fields).map (tag name)
  | [] => rfl
  | (key, value) :: fields => by
    rw [prefixFields, fieldsIds, fieldsIds, List.map_append, fieldsIds_prefixFields name fields, prefixId_eq]
    cases hid : idAt key value with
    | none =>
      rw [Option.map_none, Option.getD_none, idAt_none hid, Option.elim_none, Option.elim_none,
        answerIds_prefixAnswer name value]
    | some id =>
      rw [Option.map_some, Option.getD_some, idAt_tag hid]
      rfl

end

lemma ne_empty_of_idAt (h : idAt key value = some id) : id ≠ "" := by
  cases value with
  | string text =>
    obtain ⟨⟨hne, -⟩, htext⟩ := Option.ite_none_right_eq_some.mp h
    exact Option.some.inj htext ▸ hne
  | _ => cases h

mutual

lemma ne_empty_of_answer : ∀ answer, ∀ id ∈ answerIds answer, id ≠ ""
  | .array items, id, h => ne_empty_of_items items id h
  | .object fields, id, h => ne_empty_of_fields fields id h
  | .null, _, h | .bool _, _, h | .number _, _, h | .string _, _, h => by cases h

lemma ne_empty_of_items : ∀ items, ∀ id ∈ itemsIds items, id ≠ ""
  | item :: items, id, h => by
    obtain h | h := List.mem_append.mp h
    · exact ne_empty_of_answer item id h
    · exact ne_empty_of_items items id h

lemma ne_empty_of_fields : ∀ fields, ∀ id ∈ fieldsIds fields, id ≠ ""
  | (key, value) :: fields, id, h => by
    obtain h | h := List.mem_append.mp h
    · cases hat : idAt key value with
      | none =>
        rw [hat] at h
        exact ne_empty_of_answer value id h
      | some found =>
        rw [hat] at h
        exact List.mem_singleton.mp h ▸ ne_empty_of_idAt hat
    · exact ne_empty_of_fields fields id h

end

end Answers

section Listed

def cut (workspace : Workspace) (room : ℕ) : Workspace :=
  { workspace with chats := workspace.chats.take room }

def Entries (session : String × Layout) (entries : List Workspace) : Prop :=
  ∃ rooms, rooms.length = session.2.workspaces.length ∧
    entries = (prefixLayout session.2 session.1).workspaces.zipWith cut rooms

def chatCount (workspaces : List Workspace) : ℕ := (workspaces.flatMap Workspace.chats).length

lemma chatCount_append (front back : List Workspace) :
    chatCount (front ++ back) = chatCount front + chatCount back := by
  simp [chatCount]

lemma terminal_ids (name : String) (terminal : Terminal) :
    (prefixTerminal name terminal).ids = terminal.ids.map (tag name) := by
  cases hagent : terminal.agent <;> simp [Terminal.ids, prefixTerminal, hagent]

lemma workspace_ids (name : String) (workspace : Workspace) :
    (prefixWorkspace name workspace).ids = workspace.ids.map (tag name) := by
  simp [Workspace.ids, prefixWorkspace, List.flatMap_map, List.map_flatMap, terminal_ids]

lemma cut_ids {workspace : Workspace} {room : ℕ} (h : id ∈ (cut workspace room).ids) : id ∈ workspace.ids := by
  rw [Workspace.ids, List.mem_append, List.mem_cons] at h ⊢
  refine h.imp_left (Or.imp_right fun hchat => ?_)
  obtain ⟨chat, hmem, hid⟩ := List.mem_flatMap.mp hchat
  exact List.mem_flatMap.mpr ⟨chat, List.mem_of_mem_take hmem, hid⟩

lemma zipWith_cut_ids {workspaces : List Workspace} {rooms : List ℕ}
    (h : id ∈ listedIds (workspaces.zipWith cut rooms)) : id ∈ listedIds workspaces := by
  obtain ⟨workspace, hmem, hid⟩ := List.mem_flatMap.mp h
  obtain ⟨i, hi⟩ := List.mem_iff_getElem?.mp hmem
  obtain ⟨whole, room, hwhole, -, rfl⟩ := List.getElem?_zipWith_eq_some.mp hi
  exact List.mem_flatMap.mpr ⟨whole, List.mem_of_getElem? hwhole, cut_ids hid⟩

lemma Entries.tagged {session : String × Layout} {entries : List Workspace} (h : Entries session entries)
    (hid : id ∈ listedIds entries) : ∃ own ∈ listedIds session.2.workspaces, id = tag session.1 own := by
  obtain ⟨rooms, -, rfl⟩ := h
  obtain ⟨workspace, hmem, hid⟩ := List.mem_flatMap.mp (zipWith_cut_ids hid)
  obtain ⟨own, hown, rfl⟩ := List.mem_map.mp hmem
  rw [workspace_ids] at hid
  obtain ⟨inner, hinner, rfl⟩ := List.mem_map.mp hid
  exact ⟨inner, List.mem_flatMap.mpr ⟨own, hown, hinner⟩, rfl⟩

lemma truncateChats_spec (workspaces : List Workspace) (room : ℕ) :
    ∃ rooms rest, rooms.length = workspaces.length ∧
      truncateChats workspaces room = some (workspaces.zipWith cut rooms, rest) ∧
      chatCount (workspaces.zipWith cut rooms) + rest = room := by
  induction workspaces generalizing room with
  | nil => exact ⟨[], room, rfl, rfl, Nat.zero_add room⟩
  | cons workspace workspaces ih =>
    have hfits : (workspace.chats.take room).length ≤ room := List.length_take_le _ _
    obtain ⟨rooms, rest, hlength, htruncated, hcount⟩ := ih (room - (workspace.chats.take room).length)
    refine ⟨room :: rooms, rest, congrArg Nat.succ hlength, ?_, ?_⟩
    · rw [truncateChats, if_neg (Nat.not_lt.mpr hfits)]
      simp only [htruncated]
      rfl
    · rw [List.zipWith_cons_cons, ← List.singleton_append, chatCount_append, Nat.add_assoc, hcount]
      have hone : chatCount [cut workspace room] = (workspace.chats.take room).length := by
        simp [chatCount, cut]
      rw [hone, Nat.add_sub_cancel' hfits]

lemma mergeSession_spec (merged : Layout) (room : ℕ) (session : String × Layout) :
    ∃ entries merged' rest, Entries session entries ∧ mergeSession (merged, room) session = some (merged', rest) ∧
      merged'.workspaces = merged.workspaces ++ entries ∧ chatCount entries + rest = room := by
  obtain ⟨rooms, rest, hlength, htruncated, hcount⟩ :=
    truncateChats_spec (prefixLayout session.2 session.1).workspaces room
  refine ⟨_, { merged with
      connected := merged.connected || session.2.connected
      working := merged.working + session.2.working
      workspaces := merged.workspaces ++ _ }, rest, ⟨rooms, ?_, rfl⟩, ?_, rfl, hcount⟩
  · rw [hlength]
    exact List.length_map _
  · simp only [mergeSession, htruncated]
    rfl

lemma merge_spec (sessions : List (String × Layout)) (merged : Layout) (room : ℕ) :
    ∃ blocks merged' rest, List.Forall₂ Entries sessions blocks ∧
      sessions.foldlM mergeSession (merged, room) = some (merged', rest) ∧
      merged'.workspaces = merged.workspaces ++ blocks.flatten ∧ chatCount blocks.flatten + rest = room := by
  induction sessions generalizing merged room with
  | nil => exact ⟨[], merged, room, .nil, rfl, (List.append_nil _).symm, Nat.zero_add room⟩
  | cons session sessions ih =>
    obtain ⟨entries, next, left, hentries, hnext, hworkspaces, hcount⟩ := mergeSession_spec merged room session
    obtain ⟨blocks, last, rest, hblocks, hlast, hall, htotal⟩ := ih next left
    refine ⟨entries :: blocks, last, rest, .cons hentries hblocks, ?_, ?_, ?_⟩
    · rw [List.foldlM_cons, hnext]
      exact hlast
    · rw [hall, hworkspaces, List.flatten_cons, List.append_assoc]
    · rw [List.flatten_cons, chatCount_append, Nat.add_assoc, htotal, hcount]

end Listed

section Owner

variable {reading reading' : Reading} {keys : List String}

def Carries (name id : String) : Prop := name ≠ "" ∧ ':' ∉ name.toList ∧ id ≠ ""

lemma dropPrefix_tag (name id : String) :
    (tag name id).toList.dropPrefix? sessionPrefix = some (name.toList ++ ':' :: id.toList) := by
  rw [toList_tag, List.append_assoc]
  exact List.dropPrefix?_append_of_beq _ (beq_self_eq_true _)

lemma dropPrefix_none (h : ¬ sessionPrefix <+: id.toList) : id.toList.dropPrefix? sessionPrefix = none := by
  rw [Option.eq_none_iff_forall_ne_some]
  intro rest hrest
  obtain ⟨front, hid, hfront⟩ := List.dropPrefix?_eq_some_iff.mp hrest
  exact h ⟨rest, (eq_of_beq hfront) ▸ hid.symm⟩

lemma readId_other (h : ∀ id, params.get key ≠ some (.string id)) (reading : Reading) :
    readId params reading key = .ok reading := by
  rw [readId]
  cases hget : params.get key with
  | none => rfl
  | some value =>
    cases value with
    | string id => exact absurd hget (h id)
    | _ => rfl

lemma readId_primary (hget : params.get key = some (.string id)) (h : ¬ sessionPrefix <+: id.toList)
    (reading : Reading) : readId params reading key = .ok { reading with primary := true } := by
  rw [readId, hget]
  simp only [Option.bind_some, Value.asStr, dropPrefix_none h]

lemma readId_tag (hget : params.get key = some (.string (tag name id))) (h : Carries name id)
    (reading : Reading) : readId params reading key =
      if reading.owner.any (· ≠ name) then .error .response
      else .ok { reading with owner := some name, stripped := reading.stripped.replace key (.string id) } := by
  obtain ⟨hname, hcolon, hid⟩ := h
  have hfull : ((decide (name.toList ≠ [])) && decide (id.toList ≠ [])) = true := by
    simp [hname, hid]
  rw [readId, hget]
  simp only [Option.bind_some, Value.asStr, dropPrefix_tag, Text.splitOnce_append hcolon, Option.filter_some,
    hfull, if_true, String.ofList_toList]

lemma readId_keeps (h : readId params reading key = .ok reading') :
    (∀ name, reading.owner = some name → reading'.owner = some name) ∧
      (reading.primary = true → reading'.primary = true) := by
  rw [readId] at h
  split at h
  · cases h
    exact ⟨fun _ => id, id⟩
  · split at h
    · cases h
      exact ⟨fun _ => id, fun _ => rfl⟩
    · split at h
      · cases h
      · rename_i name' id' _
        split at h
        · cases h
        · rename_i hsame
          cases h
          refine ⟨fun name howner => ?_, id⟩
          rw [howner, Option.any_some, decide_eq_true_eq, not_not] at hsame
          rw [hsame]

lemma owned_of_read (hmem : key ∈ keys) (hget : params.get key = some (.string (tag name id)))
    (hc : Carries name id) (h : keys.foldlM (readId params) reading = .ok reading') :
    reading'.owner = some name := by
  refine Fold.leaves (P := fun r => r.owner = some name) (fun r _ r' hr h => (readId_keeps h).1 name hr) ?_ hmem h
  intro r r' hread
  rw [readId_tag hget hc] at hread
  split at hread
  · cases hread
  · cases hread
    rfl

lemma primary_of_read (hmem : key ∈ keys) (hget : params.get key = some (.string id))
    (hbare : ¬ sessionPrefix <+: id.toList) (h : keys.foldlM (readId params) reading = .ok reading') :
    reading'.primary = true := by
  refine Fold.leaves (P := fun r => r.primary = true) (fun r _ r' hr h => (readId_keeps h).2 hr) ?_ hmem h
  intro r r' hread
  rw [readId_primary hget hbare] at hread
  cases hread
  rfl

lemma owner_read {reading : Reading} {name : String}
    (hread : idKeys.foldlM (readId params) ⟨none, false, params⟩ = .ok reading)
    (hname : reading.owner = some name) :
    owner params =
      if reading.primary then .error .response else .ok (some (name, reading.stripped)) := by
  obtain ⟨own, primary, stripped⟩ := reading
  obtain rfl : own = some name := hname
  rw [owner, hread]
  rfl

lemma owner_refused (h : ∀ reading, idKeys.foldlM (readId params) ⟨none, false, params⟩ = .ok reading →
    reading.owner.isSome ∧ reading.primary = true) : owner params = .error .response := by
  cases hread : idKeys.foldlM (readId params) ⟨none, false, params⟩ with
  | error e =>
    rw [owner, hread]
    cases e
    rfl
  | ok reading =>
    obtain ⟨howner, hprimary⟩ := h reading hread
    obtain ⟨name, hname⟩ := Option.isSome_iff_exists.mp howner
    rw [owner_read hread hname]
    exact if_pos hprimary

def address (name : String) : Value → Value
  | .string id => .string (tag name id)
  | other => other

def Addresses (name : String) (params own : Value) : Prop :=
  ∀ key, params.get key = if key ∈ idKeys then (own.get key).map (address name) else own.get key

lemma address_eq_string {value : Value} (h : address name value = .string text) :
    ∃ id, value = .string id ∧ text = tag name id := by
  cases value with
  | string id =>
    cases h
    exact ⟨id, rfl, rfl⟩
  | _ => cases h

lemma address_other {value : Option Value} (h : ∀ id, value ≠ some (.string id)) :
    value.map (address name) = value := by
  cases value with
  | none => rfl
  | some value =>
    cases value with
    | string id => exact absurd rfl (h id)
    | _ => rfl

structure Stripping (name : String) (params : Value) (rest : List String) (reading : Reading) : Prop where
  kept : ∀ key ∈ rest, key ∈ idKeys
  once : rest.Nodup
  alone : reading.primary = false
  owned : reading.owner = none ∨ reading.owner = some name
  read : ∀ key, params.get key =
    if key ∈ idKeys ∧ key ∉ rest then (reading.stripped.get key).map (address name)
    else reading.stripped.get key

lemma Stripping.unread {rest : List String} (h : Stripping name params (key :: rest) reading) :
    params.get key = reading.stripped.get key := by
  rw [h.read key, if_neg fun hread => hread.2 List.mem_cons_self]

lemma Stripping.beside {rest : List String} {other : String} (h : Stripping name params (key :: rest) reading)
    (hne : other ≠ key) : params.get other =
      if other ∈ idKeys ∧ other ∉ rest then (reading.stripped.get other).map (address name)
      else reading.stripped.get other := by
  rw [h.read other]
  simp [hne]

lemma Stripping.step {rest : List String} (h : Stripping name params (key :: rest) reading)
    (hall : ∀ key ∈ idKeys, ∀ text, params.get key = some (.string text) →
      ∃ id, Carries name id ∧ text = tag name id) :
    ∃ next, readId params reading key = .ok next ∧ Stripping name params rest next := by
  have hkey := h.kept key List.mem_cons_self
  have hkept : ∀ key ∈ rest, key ∈ idKeys := fun other hm => h.kept other (List.mem_cons_of_mem key hm)
  obtain ⟨hfresh, honce⟩ := List.nodup_cons.mp h.once
  by_cases htext : ∃ text, params.get key = some (.string text)
  · obtain ⟨text, hget⟩ := htext
    obtain ⟨id, hc, rfl⟩ := hall key hkey text hget
    have howned : reading.owner.any (· ≠ name) = false := by
      obtain hnone | hsome := h.owned
      · rw [hnone]
        rfl
      · simp [hsome]
    have hnext : readId params reading key = .ok { reading with
        owner := some name
        stripped := reading.stripped.replace key (.string id) } := by
      rw [readId_tag hget hc, howned]
      exact if_neg Bool.false_ne_true
    refine ⟨_, hnext, hkept, honce, h.alone, .inr rfl, fun other => ?_⟩
    by_cases hother : other = key
    · subst hother
      rw [if_pos ⟨hkey, hfresh⟩, Value.get_replace_self (h.unread.symm.trans hget), hget]
      rfl
    · rw [Value.get_replace_ne hother]
      exact h.beside hother
  · have hother : ∀ id, params.get key ≠ some (.string id) := fun id hid => htext ⟨id, hid⟩
    refine ⟨reading, readId_other hother reading, hkept, honce, h.alone, h.owned, fun other => ?_⟩
    by_cases hsame : other = key
    · subst hsame
      rw [if_pos ⟨hkey, hfresh⟩, ← h.unread, address_other hother]
    · exact h.beside hsame

lemma owner_tagged (hall : ∀ key ∈ idKeys, ∀ text, params.get key = some (.string text) →
    ∃ id, Carries name id ∧ text = tag name id)
    (hone : ∃ key ∈ idKeys, ∃ text, params.get key = some (.string text)) :
    ∃ own, owner params = .ok (some (name, own)) ∧ Addresses name params own := by
  have hstart : Stripping name params idKeys ⟨none, false, params⟩ :=
    ⟨fun _ => id, by decide, rfl, .inl rfl, fun key => (if_neg fun hread => hread.2 hread.1).symm⟩
  obtain ⟨reading, hread, hend⟩ := Fold.succeeds (fun key rest r hr => hr.step hall) hstart
  obtain ⟨key, hmem, text, hget⟩ := hone
  obtain ⟨id, hc, rfl⟩ := hall key hmem text hget
  refine ⟨reading.stripped, ?_, fun other => ?_⟩
  · rw [owner_read hread (owned_of_read hmem hget hc hread), hend.alone]
    rfl
  · rw [hend.read other]
    simp

example : owner (.object [("pane_id", .string (tag "work" "w1:p1")), ("keys", .array [.string "Enter"])]) =
    .ok (some ("work", .object [("pane_id", .string "w1:p1"), ("keys", .array [.string "Enter"])])) := by rfl

end Owner

def told (session : String × Layout) (entries : List Workspace) (answers : List Value) : List String :=
  listedIds entries ++ answers.flatMap fun answer => answerIds (prefixAnswer session.1 answer)

def known (session : String × Layout) (answers : List Value) : List String :=
  listedIds session.2.workspaces ++ answers.flatMap answerIds

def Names (params : Value) (ids : List String) : Prop :=
  ∃ key ∈ idKeys, ∃ id ∈ ids, params.get key = some (.string id)

def NamesOnly (params : Value) (ids : List String) : Prop :=
  Names params ids ∧ ∀ key ∈ idKeys, ∀ id, params.get key = some (.string id) → id ∈ ids

def NamesPrimary (params : Value) : Prop :=
  ∃ key ∈ idKeys, ∃ id, params.get key = some (.string id) ∧ ¬ sessionPrefix <+: id.toList

section Routed

variable {session session' : String × Layout} {entries entries' : List Workspace} {answers answers' : List Value}

lemma Entries.told (h : Entries session entries) (hid : id ∈ told session entries answers) :
    ∃ own ∈ known session answers, id = tag session.1 own := by
  obtain hlisted | hanswer := List.mem_append.mp hid
  · obtain ⟨own, hown, rfl⟩ := h.tagged hlisted
    exact ⟨own, List.mem_append_left _ hown, rfl⟩
  · obtain ⟨answer, hmem, hid⟩ := List.mem_flatMap.mp hanswer
    rw [answerIds_prefixAnswer] at hid
    obtain ⟨own, hown, rfl⟩ := List.mem_map.mp hid
    exact ⟨own, List.mem_append_right _ (List.mem_flatMap.mpr ⟨answer, hmem, hown⟩), rfl⟩

lemma known_ne_empty (h : "" ∉ listedIds session.2.workspaces) (hid : id ∈ known session answers) : id ≠ "" := by
  obtain hlisted | hanswer := List.mem_append.mp hid
  · exact ne_of_mem_of_not_mem hlisted h
  · obtain ⟨answer, -, hid⟩ := List.mem_flatMap.mp hanswer
    exact ne_empty_of_answer answer id hid

def Fit (session : String × Layout) : Prop :=
  session.1 ≠ "" ∧ ':' ∉ session.1.toList ∧ "" ∉ listedIds session.2.workspaces

lemma Fit.carries (h : Fit session) (hid : id ∈ known session answers) : Carries session.1 id :=
  ⟨h.1, h.2.1, known_ne_empty h.2.2 hid⟩

lemma routed (hf : Fit session) (he : Entries session entries)
    (h : NamesOnly params (told session entries answers)) :
    ∃ own, owner params = .ok (some (session.1, own)) ∧ Addresses session.1 params own ∧
      NamesOnly own (known session answers) := by
  obtain ⟨⟨key, hmem, text, htold, hget⟩, hall⟩ := h
  have htagged : ∀ key ∈ idKeys, ∀ text, params.get key = some (.string text) →
      ∃ id, Carries session.1 id ∧ text = tag session.1 id := by
    intro key hm text hget
    obtain ⟨own, hown, htext⟩ := he.told (hall key hm text hget)
    exact ⟨own, hf.carries hown, htext⟩
  obtain ⟨own, howner, haddress⟩ := owner_tagged htagged ⟨key, hmem, text, hget⟩
  have hknown : ∀ key ∈ idKeys, ∀ id, own.get key = some (.string id) → id ∈ known session answers := by
    intro key hm id hid
    have hasked := haddress key
    rw [if_pos hm, hid] at hasked
    obtain ⟨own', hown', htag⟩ := he.told (hall key hm _ hasked)
    rw [(tag_inj hf.2.1 hf.2.1 htag).2]
    exact hown'
  refine ⟨own, howner, haddress, ⟨key, hmem, ?_⟩, hknown⟩
  have hasked := haddress key
  rw [if_pos hmem, hget] at hasked
  obtain ⟨value, hvalue, hstring⟩ := Option.map_eq_some_iff.mp hasked.symm
  obtain ⟨id, rfl, -⟩ := address_eq_string hstring
  exact ⟨id, hknown key hmem id hvalue, hvalue⟩

lemma Names.owned (h : Names params (told session entries answers)) (hf : Fit session)
    (he : Entries session entries) {reading : Reading}
    (hread : idKeys.foldlM (readId params) ⟨none, false, params⟩ = .ok reading) :
    reading.owner = some session.1 := by
  obtain ⟨key, hmem, text, htold, hget⟩ := h
  obtain ⟨own, hown, rfl⟩ := he.told htold
  exact owned_of_read hmem hget (hf.carries hown) hread

lemma refused_primary (hf : Fit session) (he : Entries session entries)
    (h : Names params (told session entries answers)) (hp : NamesPrimary params) :
    owner params = .error .response := by
  obtain ⟨key, hmem, id, hget, hbare⟩ := hp
  refine owner_refused fun reading hread => ⟨?_, primary_of_read hmem hget hbare hread⟩
  rw [h.owned hf he hread]
  rfl

lemma refused_two (hf : Fit session) (he : Entries session entries) (hf' : Fit session')
    (he' : Entries session' entries') (hne : session.1 ≠ session'.1)
    (h : Names params (told session entries answers)) (h' : Names params (told session' entries' answers')) :
    owner params = .error .response := by
  refine owner_refused fun reading hread => ?_
  have hsame := (h.owned hf he hread).symm.trans (h'.owned hf' he' hread)
  exact absurd (Option.some.inj hsame) hne

lemma entries_disjoint (hf : Fit session) (he : Entries session entries) (hf' : Fit session')
    (he' : Entries session' entries') (hne : session.1 ≠ session'.1) :
    (listedIds entries).Disjoint (listedIds entries') := by
  intro id hid hid'
  obtain ⟨own, -, rfl⟩ := he.tagged hid
  obtain ⟨own', -, htag⟩ := he'.tagged hid'
  exact hne (tag_inj hf.2.1 hf'.2.1 htag).1

lemma blocks_disjoint {sessions : List (String × Layout)} {blocks : List (List Workspace)}
    (h : List.Forall₂ Entries sessions blocks) (hnames : (sessions.map Prod.fst).Nodup)
    (hfit : ∀ session ∈ sessions, Fit session) :
    blocks.Pairwise fun entries entries' => (listedIds entries).Disjoint (listedIds entries') := by
  induction h with
  | nil => exact .nil
  | @cons session entries sessions blocks he hrest ih =>
    obtain ⟨hnew, hnames⟩ := List.nodup_cons.mp hnames
    obtain ⟨hf, hfit⟩ := List.forall_mem_cons.mp hfit
    refine .cons (fun entries' hm => ?_) (ih hnames hfit)
    obtain ⟨session', hm', he'⟩ := exists_of_forall₂ hrest hm
    exact entries_disjoint hf he (hfit session' hm') he' fun heq => hnew (heq ▸ List.mem_map_of_mem hm')

end Routed

theorem requests_routed (base : Layout) (sessions : List (String × Layout))
    (hnames : (sessions.map Prod.fst).Nodup) (hfit : ∀ session ∈ sessions, Fit session) :
    ∃ merged blocks, merge base sessions = some merged ∧
      merged.workspaces = base.workspaces ++ blocks.flatten ∧ List.Forall₂ Entries sessions blocks ∧
      merged.chats.length ≤ max maxChats base.chats.length ∧
      (blocks.Pairwise fun entries entries' => (listedIds entries).Disjoint (listedIds entries')) ∧
      ∀ session entries, (session, entries) ∈ sessions.zip blocks → ∀ answers params,
        (NamesOnly params (told session entries answers) →
          ∃ own, owner params = .ok (some (session.1, own)) ∧ Addresses session.1 params own ∧
            NamesOnly own (known session answers)) ∧
        (Names params (told session entries answers) → NamesPrimary params → owner params = .error .response) ∧
        ∀ session' entries', (session', entries') ∈ sessions.zip blocks → session.1 ≠ session'.1 →
          ∀ answers', Names params (told session entries answers) →
            Names params (told session' entries' answers') → owner params = .error .response := by
  obtain ⟨blocks, merged, rest, hblocks, hmerged, hworkspaces, hcount⟩ :=
    merge_spec sessions base (maxChats - base.chats.length)
  refine ⟨merged, blocks, ?_, hworkspaces, hblocks, ?_, blocks_disjoint hblocks hnames hfit, ?_⟩
  · rw [merge, hmerged]
    rfl
  · have hsum : merged.chats.length = base.chats.length + chatCount blocks.flatten := by
      rw [Layout.chats, hworkspaces]
      exact chatCount_append _ _
    omega
  · intro session entries hzip answers params
    have hf := hfit session (List.of_mem_zip hzip).1
    have he := List.forall₂_zip hblocks hzip
    refine ⟨routed hf he, refused_primary hf he, ?_⟩
    intro session' entries' hzip' hne answers' h h'
    exact refused_two hf he (hfit session' (List.of_mem_zip hzip').1) (List.forall₂_zip hblocks hzip') hne h h'

def shellOf (id : String) : Workspace where
  id := id
  label := "api"
  branch := none
  cwd := "/code"
  worktree := none
  session := none
  chats := []
  terminals := [⟨"t1", "zsh", none, [⟨"p1", none, none, true⟩], false, none⟩]

def listing (workspaces : List Workspace) : Layout := ⟨true, "boot", 0, workspaces⟩

def chatOf (pane : String) : Chat :=
  ⟨pane, "t1", ⟨"0123456789abcdef0123456789abcdef", rfl⟩, none, "", .idle⟩

def play : String × Layout := ("play", listing [shellOf "w1"])

def work : String × Layout := ("work", listing [{ shellOf "w1" with chats := [chatOf "p2"] }])

def paneAnswer : Value := .object [("pane_id", .string "p1")]

def toWork : Value := .object [("pane_id", .string (tag "work" "p1")), ("text", .string "ls")]

def toBoth : Value :=
  .object [("pane_id", .string (tag "work" "p1")), ("target_pane_id", .string (tag "play" "p1"))]

lemma told_answer (session : String × Layout) (entries : List Workspace) :
    tag session.1 "p1" ∈ told session entries [paneAnswer] := by
  refine List.mem_append_right _ ?_
  simp [paneAnswer, prefixAnswer, prefixFields, prefixId, answerIds, fieldsIds, idAt, idKeys, tag_ne_empty]

lemma toWork_names (entries : List Workspace) : NamesOnly toWork (told work entries [paneAnswer]) := by
  have htold := told_answer work entries
  refine ⟨⟨"pane_id", by decide, _, htold, rfl⟩, ?_⟩
  intro key hkey id hget
  simp only [idKeys, List.mem_cons, List.not_mem_nil, or_false] at hkey
  obtain rfl | rfl | rfl | rfl := hkey
  · cases hget
    exact htold
  · cases hget
  · cases hget
  · cases hget

theorem requests_routed_two :
    ∃ merged blocks, merge (listing []) [play, work] = some merged ∧ merged.workspaces = List.flatten blocks ∧
      (blocks.Pairwise fun entries entries' => (listedIds entries).Disjoint (listedIds entries')) ∧
      merged.chats.length ≤ maxChats ∧
      (∃ own, owner toWork = .ok (some ("work", own)) ∧ Addresses "work" toWork own ∧
        NamesOnly own (known work [paneAnswer])) ∧
      owner toBoth = .error .response := by
  obtain ⟨merged, blocks, hmerged, hworkspaces, hblocks, hcount, hdisjoint, hroutes⟩ :=
    requests_routed (listing []) [play, work] (by decide) (by unfold Fit; decide)
  obtain ⟨played, worked, rfl⟩ : ∃ played worked, blocks = [played, worked] := by
    obtain _ | ⟨-, _ | ⟨-, _ | _⟩⟩ := hblocks
    exact ⟨_, _, rfl⟩
  have hown := (hroutes work worked (by simp) [paneAnswer] toWork).1
  refine ⟨merged, _, hmerged, hworkspaces, hdisjoint, hcount, hown (toWork_names worked), ?_⟩
  obtain ⟨-, -, hboth⟩ := hroutes work worked (by simp) [paneAnswer] toBoth
  exact hboth play played (by simp) (by decide) [paneAnswer]
    ⟨"pane_id", by decide, _, told_answer work worked, rfl⟩
    ⟨"target_pane_id", by decide, _, told_answer play played, rfl⟩

theorem base_past_bound : ¬ ∀ (base merged : Layout) (sessions : List (String × Layout)),
    (sessions.map Prod.fst).Nodup → (∀ session ∈ sessions, Fit session) →
      merge base sessions = some merged → merged.chats.length ≤ maxChats := by
  intro h
  let base := listing [{ shellOf "w1" with chats := List.replicate 65 (chatOf "p1") }]
  have hcount := h base base [] .nil (fun _ hm => nomatch hm) rfl
  have hmany : base.chats.length = 65 := by simp [base, listing, Layout.chats]
  rw [hmany] at hcount
  exact absurd hcount (by decide)

end Sheprd.Hub.Sessions
