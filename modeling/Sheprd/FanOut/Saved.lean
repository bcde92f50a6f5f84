import Sheprd.FanOut.Copies
import Sheprd.Lib.JsonText

namespace Sheprd.FanOut

open Sheprd.Lib

namespace Checkpoint

def name : Checkpoint → String
  | planned => "planned"
  | creatingWorktree => "creating_worktree"
  | created => "created"
  | startingAgent => "starting_agent"
  | prompting => "prompting"
  | prompted => "prompted"

def ofName : String → Option Checkpoint
  | "planned" => some planned
  | "creating_worktree" => some creatingWorktree
  | "created" => some created
  | "starting_agent" => some startingAgent
  | "prompting" => some prompting
  | "prompted" => some prompted
  | _ => none

lemma ofName_name (step : Checkpoint) : ofName step.name = some step := by
  cases step <;> rfl

end Checkpoint

def textOrNull : Option String → Value
  | some text => .string text
  | none => .null

def textOf (value : Value) (key : String) : Option String := (value.get key).bind Value.asStr

namespace SavedOrigin

def toValue (origin : SavedOrigin) : Value :=
  .object [("endpoint_id", .string origin.endpointId), ("host", .string origin.host),
    ("endpoint_label", .string origin.endpointLabel), ("workspace_id", .string origin.workspaceId),
    ("repo_key", .string origin.repoKey), ("repo_label", .string origin.repoLabel),
    ("base", .string origin.base)]

def ofValue (value : Value) : Option SavedOrigin := do
  let endpointId ← textOf value "endpoint_id"
  let host ← textOf value "host"
  let endpointLabel ← textOf value "endpoint_label"
  let workspaceId ← textOf value "workspace_id"
  let repoKey ← textOf value "repo_key"
  let repoLabel ← textOf value "repo_label"
  let base ← textOf value "base"
  some { endpointId, host, endpointLabel, workspaceId, repoKey, repoLabel, base }

lemma ofValue_toValue (origin : SavedOrigin) : ofValue origin.toValue = some origin := rfl

lemma toValue_plain (origin : SavedOrigin) (depth : ℕ) : origin.toValue.Plain (depth + 1) := by
  refine .object (by simp) ?_
  simp [Value.Plain.string]

end SavedOrigin

namespace SavedCheckout

def toValue (checkout : SavedCheckout) : Value :=
  .object [("endpoint_id", .string checkout.endpointId), ("host", .string checkout.host),
    ("workspace_id", .string checkout.workspaceId), ("path", .string checkout.path),
    ("pane_id", .string checkout.paneId)]

def ofValue (value : Value) : Option SavedCheckout := do
  let endpointId ← textOf value "endpoint_id"
  let host ← textOf value "host"
  let workspaceId ← textOf value "workspace_id"
  let path ← textOf value "path"
  let paneId ← textOf value "pane_id"
  some { endpointId, host, workspaceId, path, paneId }

lemma ofValue_toValue (checkout : SavedCheckout) : ofValue checkout.toValue = some checkout := rfl

lemma toValue_plain (checkout : SavedCheckout) (depth : ℕ) : checkout.toValue.Plain (depth + 1) := by
  refine .object (by simp) ?_
  simp [Value.Plain.string]

end SavedCheckout

namespace SavedLane

def toValue (lane : SavedLane) : Value :=
  .object [("kind", .string lane.kind), ("branch", .string lane.branch),
    ("agent", .string lane.agent), ("step", .string lane.step.name),
    ("checkout", (lane.checkout.map SavedCheckout.toValue).getD .null)]

def ofValue (value : Value) : Option SavedLane := do
  let kind ← textOf value "kind"
  let branch ← textOf value "branch"
  let agent ← textOf value "agent"
  let step ← (textOf value "step").bind Checkpoint.ofName
  let checkout ← Value.optional SavedCheckout.ofValue (value.get "checkout")
  some { kind, branch, agent, step, checkout }

lemma ofValue_toValue (lane : SavedLane) : ofValue lane.toValue = some lane := by
  have hstep : (textOf lane.toValue "step").bind Checkpoint.ofName = some lane.step :=
    Checkpoint.ofName_name lane.step
  have hcheckout : Value.optional SavedCheckout.ofValue (lane.toValue.get "checkout") =
      some lane.checkout := by
    cases lane with
    | mk kind branch agent step checkout =>
      cases checkout with
      | none => rfl
      | some checkout => rfl
  rw [ofValue, hstep, hcheckout]
  rfl

lemma toValue_plain (lane : SavedLane) (depth : ℕ) : lane.toValue.Plain (depth + 2) := by
  have hcheckout : ((lane.checkout.map SavedCheckout.toValue).getD .null).Plain (depth + 1) := by
    cases lane.checkout with
    | none => exact .null
    | some checkout => exact checkout.toValue_plain depth
  refine .object (by simp) ?_
  simp [Value.Plain.string, hcheckout]

end SavedLane

namespace Record

def toValue (record : Record) : Value :=
  .object [("id", .number record.id.toNat.repr), ("origin", record.origin.toValue),
    ("commit", textOrNull record.commit), ("prompt", textOrNull record.prompt),
    ("lanes", .array (record.lanes.map SavedLane.toValue))]

def ofValue (value : Value) : Option Record := do
  let id ← (value.get "id").bind Value.asNat
  let origin ← (value.get "origin").bind SavedOrigin.ofValue
  let commit ← Value.optional Value.asStr (value.get "commit")
  let prompt ← Value.optional Value.asStr (value.get "prompt")
  let lanes ← (value.get "lanes").bind Value.asArray
  let lanes ← lanes.mapM SavedLane.ofValue
  if id < 2 ^ 64 then some { id := UInt64.ofNat id, origin, commit, prompt, lanes } else none

lemma ofValue_toValue (record : Record) : ofValue record.toValue = some record := by
  have hid : (record.toValue.get "id").bind Value.asNat = some record.id.toNat :=
    Value.asNat_repr record.id.toNat
  have horigin : (record.toValue.get "origin").bind SavedOrigin.ofValue = some record.origin :=
    record.origin.ofValue_toValue
  have htext : ∀ text, Value.optional Value.asStr (some (textOrNull text)) = some text := by
    intro text
    cases text <;> rfl
  have hcommit : Value.optional Value.asStr (record.toValue.get "commit") = some record.commit :=
    htext record.commit
  have hprompt : Value.optional Value.asStr (record.toValue.get "prompt") = some record.prompt :=
    htext record.prompt
  have hlanes : (record.toValue.get "lanes").bind Value.asArray =
      some (record.lanes.map SavedLane.toValue) := rfl
  have hdecoded : (record.lanes.map SavedLane.toValue).mapM SavedLane.ofValue = some record.lanes := by
    have hsome : SavedLane.ofValue ∘ SavedLane.toValue = fun lane => pure lane :=
      funext SavedLane.ofValue_toValue
    rw [List.mapM_map, hsome, List.mapM_pure (f := fun lane => lane), List.map_id']
    rfl
  have hlt : record.id.toNat < 2 ^ 64 := record.id.toNat_lt
  rw [ofValue, hid, horigin, hcommit, hprompt, hlanes]
  simp only [Option.bind_eq_bind, Option.bind_some, hdecoded, if_pos hlt, UInt64.ofNat_toNat]

lemma toValue_plain (record : Record) (depth : ℕ) : record.toValue.Plain (depth + 4) := by
  have htext : ∀ text, (textOrNull text).Plain (depth + 3) := by
    intro text
    cases text with
    | none => exact .null
    | some text => exact .string text
  have hlanes : (Value.array (record.lanes.map SavedLane.toValue)).Plain (depth + 3) := by
    refine .array fun item hm => ?_
    obtain ⟨lane, -, rfl⟩ := List.mem_map.mp hm
    exact lane.toValue_plain depth
  have hid : (Value.number record.id.toNat.repr).Plain (depth + 3) := .number record.id.toNat_lt
  have horigin : record.origin.toValue.Plain (depth + 3) := record.origin.toValue_plain (depth + 2)
  refine .object (by simp) ?_
  simp [hid, horigin, htext, hlanes]

end Record

def saved (records : List Record) : Value :=
  .object [("records", .array (records.map Record.toValue))]

def written (json : Json) (records : List Record) : List Char := json.print (saved records) ++ ['\n']

def keep (records : List Record) (value : Value) : List Record :=
  match Record.ofValue value with
  | some record =>
      if !record.valid || records.any fun known => decide (known.id = record.id) then records
      else records ++ [record]
  | none => records

def parse (json : Json) (text : List Char) : Option (List Record) := do
  let loaded ← json.read text
  let values ← (loaded.get "records").bind Value.asArray
  let records := values.foldl keep []
  some (records.drop (records.length - maxRecords))

lemma saved_plain (records : List Record) : (saved records).Plain 127 := by
  have hrecords : (Value.array (records.map Record.toValue)).Plain 126 := by
    refine .array fun item hm => ?_
    obtain ⟨record, -, rfl⟩ := List.mem_map.mp hm
    exact record.toValue_plain 121
  refine .object (by simp) ?_
  simp [hrecords]

structure Sound (records : List Record) : Prop where
  valid : ∀ record ∈ records, record.valid = true
  distinct : (records.map Record.id).Nodup

lemma Sound.keep {records : List Record} (h : Sound records) (value : Value) :
    Sound (keep records value) := by
  rw [Sheprd.FanOut.keep]
  split
  · rename_i record _
    split
    · exact h
    · rename_i hkept
      simp only [Bool.or_eq_true, Bool.not_eq_true', List.any_eq_true, decide_eq_true_eq] at hkept
      push Not at hkept
      obtain ⟨hvalid, hnew⟩ := hkept
      refine ⟨fun known hm => ?_, ?_⟩
      · rcases List.mem_append.mp hm with hm | hm
        · exact h.valid known hm
        · rw [List.mem_singleton.mp hm]
          simpa using hvalid
      · rw [List.map_append]
        refine List.nodup_append.mpr ⟨h.distinct, List.nodup_singleton _, ?_⟩
        rintro _ hm _ hm' rfl
        obtain ⟨known, hk, hid⟩ := List.mem_map.mp hm
        exact hnew known hk (hid.trans (List.mem_singleton.mp hm'))
  · exact h

lemma Sound.foldl {records : List Record} (h : Sound records) (values : List Value) :
    Sound (values.foldl Sheprd.FanOut.keep records) := by
  induction values generalizing records with
  | nil => exact h
  | cons value values ih => exact ih (h.keep value)

lemma parse_kept {json : Json} {text : List Char} {records : List Record}
    (h : parse json text = some records) : WellKept records := by
  obtain ⟨loaded, -, h⟩ := Option.bind_eq_some_iff.mp h
  obtain ⟨values, -, h⟩ := Option.bind_eq_some_iff.mp h
  obtain rfl := Option.some.inj h
  have hnil : Sound [] := ⟨List.forall_mem_nil _, .nil⟩
  have hsound : Sound (values.foldl keep []) := hnil.foldl values
  refine ⟨fun record hm => hsound.valid record (List.mem_of_mem_drop hm), ?_, ?_⟩
  · exact hsound.distinct.sublist ((List.drop_sublist _ _).map Record.id)
  · rw [List.length_drop]
    omega

lemma keep_toValue {records : List Record} {record : Record} (hvalid : record.valid = true)
    (hnew : record.id ∉ records.map Record.id) : keep records record.toValue = records ++ [record] := by
  have hany : (records.any fun known => decide (known.id = record.id)) = false := by
    refine List.any_eq_false.mpr fun known hm => ?_
    simp only [decide_eq_true_eq]
    exact fun hid => hnew (hid ▸ List.mem_map_of_mem hm)
  simp only [keep, record.ofValue_toValue, hvalid, hany]
  rfl

lemma foldl_toValue {front records : List Record} (hvalid : ∀ record ∈ records, record.valid = true)
    (hdistinct : ((front ++ records).map Record.id).Nodup) :
    (records.map Record.toValue).foldl keep front = front ++ records := by
  induction records generalizing front with
  | nil =>
    rw [List.append_nil]
    rfl
  | cons record records ih =>
    obtain ⟨hrecord, hrest⟩ := List.forall_mem_cons.mp hvalid
    have hnew : record.id ∉ front.map Record.id := by
      rw [List.map_append, List.map_cons] at hdistinct
      exact fun hm => List.disjoint_of_nodup_append hdistinct hm List.mem_cons_self
    rw [List.map_cons, List.foldl_cons, keep_toValue hrecord hnew, ih hrest]
    · rw [List.append_assoc]
      rfl
    · rwa [List.append_assoc]

lemma parse_written (json : Json) {records : List Record} (h : WellKept records) :
    parse json (written json records) = some records := by
  have hvalues : ((saved records).get "records").bind Value.asArray =
      some (records.map Record.toValue) := rfl
  have hfew : records.length - maxRecords = 0 := Nat.sub_eq_zero_of_le h.few
  have hfold : (records.map Record.toValue).foldl keep [] = records :=
    foldl_toValue h.valid h.distinct
  rw [parse, written, json.read_print _ (saved_plain records)]
  simp only [Option.bind_eq_bind, Option.bind_some, hvalues, hfold, hfew, List.drop_zero]

inductive Op where
  | start (record : Record)
  | advance (id : UInt64) (report : Report)
  | rewind (id : UInt64) (index : ℕ) (step : Checkpoint)
  | settle (id : UInt64) (indices : List ℕ)
  | forget (id : UInt64)

def Op.apply (path : Bool) (s : State) : Op → State
  | .start record =>
      if !record.valid then s.follow record
      else if (s.start record).1 then (s.update path (State.start record)).2
      else (s.update path (State.start record)).2.follow record
  | .advance id report =>
      if (s.advanceUnsaved id report).1 then (s.advanceUnsaved id report).2
      else (s.update path (State.advance id report)).2
  | .rewind id index step => s.rewind id index step
  | .settle id indices => (s.update path (State.settle id indices)).2
  | .forget id => (s.update path (State.forget id)).2

lemma Op.apply_kept {path : Bool} {s : State} (h : WellKept s.records) (op : Op) :
    WellKept (op.apply path s).records := by
  have hupdate : ∀ {change : State → Bool × State}, WellKept (change s).2.records →
      WellKept (s.update path change).2.records := fun hkept => by
    rwa [State.update_records]
  cases op with
  | start record =>
    rw [apply]
    split
    · exact h
    · rename_i hvalid
      have hvalid : record.valid = true := by simpa using hvalid
      split
      · exact hupdate (State.start_kept h hvalid)
      · exact hupdate (State.start_kept h hvalid)
  | advance id report =>
    rw [apply]
    split
    · rw [State.advanceUnsaved]
      split
      · exact h
      · exact h
    · exact hupdate (h.advanceIn id report)
  | rewind id index step => exact h.rewindIn id index step
  | settle id indices => exact hupdate (h.settleIn id indices)
  | forget id => exact hupdate (h.filter _)

def Found (json : Json) (found : List Record) : Prop :=
  found = [] ∨ ∃ text, parse json text = some found

lemma Found.kept {json : Json} {found : List Record} (h : Found json found) : WellKept found := by
  rcases h with rfl | ⟨text, h⟩
  · exact wellKept_nil
  · exact parse_kept h

theorem records_read_back (json : Json) (path : Bool) {found : List Record}
    (hfound : Found json found) :
    (∀ ops : List Op,
      let records := (ops.foldl (Op.apply path) (Journal.opened path found).state).records
      WellKept records ∧ parse json (written json records) = some records) ∧
    ∀ acts j, Run Step (Journal.opened path found) acts j →
      WellKept j.state.records ∧ WellKept j.file ∧
        parse json (written json j.file) = some j.file := by
  have hkept := hfound.kept
  refine ⟨fun ops => ?_, fun acts j hr => ?_⟩
  · have hops : ∀ ops : List Op, ∀ s : State, WellKept s.records →
        WellKept (ops.foldl (Op.apply path) s).records := by
      intro ops
      induction ops with
      | nil => exact fun _ h => h
      | cons op ops ih => exact fun s h => ih _ (op.apply_kept h)
    have hrecords := hops ops (Journal.opened path found).state hkept
    exact ⟨hrecords, parse_written json hrecords⟩
  · obtain ⟨hc, -⟩ := Journal.run_coherent (Journal.coherent_opened path found) trivial hr
    obtain ⟨hnow, hmemory⟩ := kept_run (by simpa [Journal.opened] using hkept) hkept hr
    obtain ⟨t, -, ht⟩ := hc.file
    have hfile := hmemory _ (List.mem_of_getElem? ht)
    exact ⟨hnow, hfile, parse_written json hfile⟩

theorem records_read_back_advanced :
    parse Json.compact (written Json.compact [oneLane none .creatingWorktree]) =
      some [oneLane none .creatingWorktree] := by
  have hfound : Found Json.compact [] := Or.inl rfl
  exact ((records_read_back Json.compact true hfound).1
    [.start (oneLane none .planned), .advance 1 (.lane 0 .creatingWorktree)]).2

end Sheprd.FanOut
