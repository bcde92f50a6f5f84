import Sheprd.Acp.Replica
import Sheprd.Acp.Tally

namespace Sheprd.Chat.Transcript

open Sheprd.Lib Sheprd.Lib.Exec

def Beside (t t' : Transcript) : Prop := ∃ known, t' = { t with activities := known }

lemma Beside.of_snapshot (t : Transcript) : t.Beside t := ⟨t.activities, rfl⟩

section Apply

variable {t t' : Transcript} (h : t.Beside t')

include h

lemma Beside.modify {g : Transcript → Transcript}
    (hg : ∀ known, g { t with activities := known } = { g t with activities := known }) :
    Agrees Beside (modify g : Applying PUnit) (modify g) t t' := by
  obtain ⟨known, rfl⟩ := h
  exact Agrees.modify ⟨known, hg known⟩

lemma pushEntry_agrees (entry : Entry) : Agrees Beside (pushEntry entry) (pushEntry entry) t t' := by
  refine Agrees.get_bind ?_
  have hlast : t'.lastEntryId = t.lastEntryId := by
    obtain ⟨known, rfl⟩ := h
    rfl
  rw [hlast]
  cases t.lastEntryId.filter fun last => decide (entry.id ≤ last) with
  | some last => exact Agrees.throw _ h
  | none => exact h.modify fun _ => rfl

lemma appendText_agrees (id : EntryId) (text : String) :
    Agrees Beside (appendText id text) (appendText id text) t t' := by
  refine Agrees.get_bind ?_
  have hsame : t'.position id = t.position id ∧ t'.entries = t.entries := by
    obtain ⟨known, rfl⟩ := h
    exact ⟨rfl, rfl⟩
  rw [hsame.1, hsame.2]
  refine Agrees.bind (Agrees.require _ _ h) fun index t t' h => ?_
  refine Agrees.bind (Agrees.require _ _ h) fun kind t t' h => ?_
  exact h.modify fun _ => rfl

lemma replaceEntry_agrees (entry : Entry) :
    Agrees Beside (replaceEntry entry) (replaceEntry entry) t t' := by
  refine Agrees.get_bind ?_
  have hsame : t'.position entry.id = t.position entry.id := by
    obtain ⟨known, rfl⟩ := h
    rfl
  rw [hsame]
  refine Agrees.bind (Agrees.require _ _ h) fun index t t' h => ?_
  exact h.modify fun _ => rfl

lemma truncateBefore_agrees (before : EntryId) :
    Agrees Beside (truncateBefore before) (truncateBefore before) t t' := by
  refine Agrees.get_bind ?_
  have hsame : t'.entries = t.entries := by
    obtain ⟨known, rfl⟩ := h
    rfl
  simp only [hsame]
  exact Agrees.when _ (h.modify fun _ => rfl) h

lemma askPermission_agrees (permission : Permission) :
    Agrees Beside (askPermission permission) (askPermission permission) t t' := by
  refine Agrees.get_bind ?_
  have hsame : t'.permissions = t.permissions := by
    obtain ⟨known, rfl⟩ := h
    rfl
  rw [hsame]
  refine Agrees.bind (Agrees.refuse _ _ h) fun _ t t' h => ?_
  exact h.modify fun _ => rfl

lemma resolvePermission_agrees (id : PermissionId) :
    Agrees Beside (resolvePermission id) (resolvePermission id) t t' := by
  refine Agrees.get_bind ?_
  have hsame : t'.permissions = t.permissions := by
    obtain ⟨known, rfl⟩ := h
    rfl
  rw [hsame]
  refine Agrees.bind (Agrees.require _ _ h) fun index t t' h => ?_
  exact h.modify fun _ => rfl

lemma setCurrentMode_agrees (id : String) :
    Agrees Beside (setCurrentMode id) (setCurrentMode id) t t' := by
  refine Agrees.get_bind ?_
  have hsame : t'.modes = t.modes := by
    obtain ⟨known, rfl⟩ := h
    rfl
  rw [hsame]
  refine Agrees.bind (Agrees.require _ _ h) fun modes t t' h => ?_
  exact h.modify fun _ => rfl

lemma apply_agrees {change : Change} (hchange : ∀ activity, change ≠ .activity activity) :
    Agrees Beside (apply change) (apply change) t t' := by
  rw [apply]
  cases change.overlongAnswers with
  | some id => exact Agrees.throw _ h
  | none =>
    cases change with
    | push entry => exact pushEntry_agrees h entry
    | append id text => exact appendText_agrees h id text
    | replace entry => exact replaceEntry_agrees h entry
    | truncate before => exact truncateBefore_agrees h before
    | permissionAsked permission => exact askPermission_agrees h permission
    | permissionResolved id => exact resolvePermission_agrees h id
    | currentMode id => exact setCurrentMode_agrees h id
    | activity activity => exact absurd rfl (hchange activity)
    | _ => exact h.modify fun _ => rfl

end Apply

lemma record_beside (activity : Activity) (t : Transcript) :
    wp (record activity) (fun _ t' => t.Beside t') t := by
  rw [record, wp_bind, wp_refuse]
  refine ⟨fun _ => ⟨_, rfl⟩, fun _ => ?_⟩
  rw [andThen_ok, wp_bind, wp_get, andThen_ok]
  cases t.activities.findIdx? fun known => decide (known.callId = activity.callId) with
  | some i => exact ⟨_, rfl⟩
  | none =>
    dsimp only
    rw [wp_bind, wp_when]
    refine ⟨fun _ => ?_, fun _ => ⟨_, rfl⟩⟩
    rw [wp_bind, wp_require]
    exact ⟨fun _ => ⟨_, rfl⟩, fun i _ => ⟨_, rfl⟩⟩

lemma apply_clients {change : Change} (hchange : ∀ count, change ≠ .clients count) (t : Transcript) :
    (exec (apply change) t).2.clients = t.clients := by
  rw [apply]
  cases change.overlongAnswers with
  | some id => rfl
  | none =>
    cases change with
    | push entry => exact (Acp.Aside.pushEntry entry t).clients
    | append id text => exact (Acp.Aside.appendText id text t).clients
    | replace entry => exact (Acp.Aside.replaceEntry entry t).clients
    | truncate before => exact (Acp.Aside.truncateBefore before t).clients
    | currentMode id => exact (Acp.Aside.setCurrentMode id t).clients
    | activity activity => exact (Acp.Aside.record activity t).clients
    | permissionAsked permission =>
      change wp (askPermission permission) (fun _ t' => t'.clients = t.clients) t
      rw [askPermission, wp_bind, wp_get, andThen_ok, wp_bind, wp_refuse]
      exact ⟨fun _ => rfl, fun _ => rfl⟩
    | permissionResolved id =>
      change wp (resolvePermission id) (fun _ t' => t'.clients = t.clients) t
      rw [resolvePermission, wp_bind, wp_get, andThen_ok, wp_bind, wp_require]
      exact ⟨fun _ => rfl, fun _ _ => rfl⟩
    | clients count => exact absurd rfl (hchange count)
    | _ => rfl

end Sheprd.Chat.Transcript

namespace Sheprd.Acp

open Sheprd.Lib Sheprd.Lib.Exec Sheprd.Chat

def revision : ℕ := 1

structure Downgrade where
  clients : Option ℕ
  revision : ℕ

namespace Downgrade

def new (revision : ℕ) : Downgrade := ⟨none, revision⟩

def current (d : Downgrade) : Bool := decide (Acp.revision ≤ d.revision)

def older (d : Downgrade) : ServerMessage → Option ServerMessage × Downgrade
  | .snapshot cursor transcript =>
      (some (.snapshot cursor transcript), { d with clients := some transcript.clients })
  | .change (.clients count) cursor =>
      (some (.change (.clients count) cursor), { d with clients := some count })
  | .change (.activity _) cursor =>
      match d.clients with
      | some count => (some (.change (.clients count) cursor), d)
      | none => (none, d)
  | message => (some message, d)

def message (d : Downgrade) (message : ServerMessage) : Option ServerMessage × Downgrade :=
  if d.current then (some message, d) else d.older message

def write (d : Downgrade) : List ServerMessage → List ServerMessage
  | [] => []
  | message :: queue =>
      match d.message message with
      | (some message, d) => message :: d.write queue
      | (none, _) => []

end Downgrade

namespace View

lemma receive_applied {view : View} {change : Change} {cursor : Cursor} {t : Transcript}
    (hf : view.follows cursor = true) (ha : exec (Transcript.apply change) view.transcript = (.ok (), t)) :
    view.receive (.change change cursor) = (.applied, ⟨some cursor, t⟩) := by
  rw [receive, if_pos hf, ha]

lemma receive_change {view : View} {change : Change} {cursor : Cursor}
    (h : (view.receive (.change change cursor)).1 ≠ .resync) :
    ∃ known t, view.cursor = some known ∧ view.follows cursor = true ∧
      exec (Transcript.apply change) view.transcript = (.ok (), t) := by
  rw [receive] at h
  by_cases hf : view.follows cursor = true
  · rw [if_pos hf] at h
    obtain ⟨known, hknown⟩ : ∃ known, view.cursor = some known := by
      rw [follows] at hf
      cases hc : view.cursor with
      | none =>
        rw [hc] at hf
        cases hf
      | some known => exact ⟨known, rfl⟩
    rcases ha : exec (Transcript.apply change) view.transcript with ⟨r, t⟩
    rw [ha] at h
    cases r with
    | ok _ => exact ⟨known, t, hknown, hf, rfl⟩
    | error e => exact absurd rfl h
  · rw [if_neg hf] at h
    exact absurd rfl h

lemma not_resync_cons {view : View} {message : ServerMessage} {stream : List ServerMessage} :
    .resync ∉ (view.receiveAll (message :: stream)).1 ↔
      (view.receive message).1 ≠ .resync ∧ .resync ∉ ((view.receive message).2.receiveAll stream).1 := by
  rw [receiveAll, List.mem_cons, not_or]
  exact and_congr_left' ne_comm

lemma follows_of_cursor {view older : View} {cursor : Cursor} (h : older.cursor = view.cursor) :
    older.follows cursor = view.follows cursor := by
  rw [follows, follows, h]

end View

def isActivity : ServerMessage → Bool
  | .change (.activity _) _ => true
  | _ => false

def View.Older (d : Downgrade) (view older : View) : Prop :=
  ∀ cursor, view.cursor = some cursor → older.cursor = some cursor ∧
    d.clients = some view.transcript.clients ∧ view.transcript.Beside older.transcript

namespace Downgrade

def Relays (d : Downgrade) (view older : View) (message : ServerMessage) : Prop :=
  ∃ message' d', d.older message = (some message', d') ∧ d'.revision = d.revision ∧
    message'.cursor = message.cursor ∧ isActivity message' = false ∧
    (older.receive message').1 = (view.receive message).1 ∧
    View.Older d' (view.receive message).2 (older.receive message').2

variable {d : Downgrade} {view older : View} (h : View.Older d view older)

include h

lemma activity_relays {activity : Chat.Activity} {cursor : Cursor}
    (hnot : (view.receive (.change (.activity activity) cursor)).1 ≠ .resync) :
    d.Relays view older (.change (.activity activity) cursor) := by
  obtain ⟨known, t, hknown, hfollows, happly⟩ := View.receive_change hnot
  obtain ⟨hcursor, hclients, hbeside⟩ := h known hknown
  have hreceive := View.receive_applied hfollows happly
  have hsame : older.receive (.change (.clients view.transcript.clients) cursor) =
      (.applied, ⟨some cursor, older.transcript⟩) := by
    refine View.receive_applied ?_ ?_
    · rw [View.follows_of_cursor (hcursor.trans hknown.symm), hfollows]
    · obtain ⟨known, hk⟩ := hbeside
      rw [hk]
      rfl
  have ht : view.transcript.Beside t := by
    have hrecord : view.transcript.Beside
        (exec (Transcript.apply (.activity activity)) view.transcript).2 :=
      Transcript.record_beside activity view.transcript
    rwa [happly] at hrecord
  refine ⟨.change (.clients view.transcript.clients) cursor, d, ?_, rfl, rfl, rfl, ?_, ?_⟩
  · rw [Downgrade.older, hclients]
  · rw [hreceive, hsame]
  · rw [hreceive, hsame]
    obtain ⟨activities, rfl⟩ := ht
    obtain ⟨activities', hk⟩ := hbeside
    exact fun _ hc => ⟨hc, hclients, activities', hk⟩

lemma change_relays {change : Change} {cursor : Cursor} {d' : Downgrade}
    (hactivity : ∀ activity, change ≠ .activity activity)
    (hnot : (view.receive (.change change cursor)).1 ≠ .resync)
    (hsent : d.older (.change change cursor) = (some (.change change cursor), d'))
    (hrevision : d'.revision = d.revision)
    (hclients : d.clients = some view.transcript.clients →
      d'.clients = some (exec (Transcript.apply change) view.transcript).2.clients) :
    d.Relays view older (.change change cursor) := by
  obtain ⟨known, t, hknown, hfollows, happly⟩ := View.receive_change hnot
  obtain ⟨hcursor, hheld, hbeside⟩ := h known hknown
  obtain ⟨hr, ht⟩ := Transcript.apply_agrees hbeside hactivity
  have hcount := hclients hheld
  rw [happly] at hr ht hcount
  have hreceive := View.receive_applied hfollows happly
  have hreceive' : older.receive (.change change cursor) =
      (.applied, ⟨some cursor, (exec (Transcript.apply change) older.transcript).2⟩) := by
    refine View.receive_applied ?_ (Prod.ext hr rfl)
    rw [View.follows_of_cursor (hcursor.trans hknown.symm), hfollows]
  refine ⟨.change change cursor, d', hsent, hrevision, rfl, ?_, ?_, ?_⟩
  · cases change with
    | activity activity => exact absurd rfl (hactivity activity)
    | _ => rfl
  · rw [hreceive, hreceive']
  · rw [hreceive, hreceive']
    exact fun _ hc => ⟨hc, hcount, ht⟩

lemma relays {message : ServerMessage} (hnot : (view.receive message).1 ≠ .resync) :
    d.Relays view older message := by
  cases message with
  | snapshot cursor transcript =>
    refine ⟨.snapshot cursor transcript, _, rfl, rfl, rfl, rfl, rfl, ?_⟩
    exact fun _ hc => ⟨hc, rfl, .of_snapshot transcript⟩
  | change change cursor =>
    have hsame : (∀ count, change ≠ .clients count) → d.clients = some view.transcript.clients →
        d.clients = some (exec (Transcript.apply change) view.transcript).2.clients := by
      intro hother hheld
      rw [Transcript.apply_clients hother, hheld]
    cases change with
    | clients count => exact change_relays h (by simp) hnot rfl rfl fun _ => rfl
    | activity activity => exact activity_relays h hnot
    | _ => exact change_relays h (by simp) hnot rfl rfl (hsame (by simp))
  | welcome agent pane version => exact ⟨_, d, rfl, rfl, rfl, rfl, rfl, h⟩
  | ack id rejected => exact ⟨_, d, rfl, rfl, rfl, rfl, rfl, h⟩
  | bye reason => exact ⟨_, d, rfl, rfl, rfl, rfl, rfl, h⟩

omit h in
lemma message_eq_older (hd : d.revision < Acp.revision) (message : ServerMessage) :
    d.message message = d.older message := by
  have hcurrent : ¬d.current = true := by
    rw [current, decide_eq_true_eq]
    exact not_le.mpr hd
  rw [Downgrade.message, if_neg hcurrent]

lemma write_follows (hd : d.revision < Acp.revision) {stream : List ServerMessage}
    (hnot : .resync ∉ (view.receiveAll stream).1) :
    cursors (d.write stream) = cursors stream ∧ (∀ sent ∈ d.write stream, isActivity sent = false) ∧
      (older.receiveAll (d.write stream)).1 = (view.receiveAll stream).1 ∧
      ∃ d', View.Older d' (view.receiveAll stream).2 (older.receiveAll (d.write stream)).2 := by
  induction stream generalizing d view older with
  | nil =>
    rw [write]
    exact ⟨rfl, List.forall_mem_nil _, rfl, d, h⟩
  | cons message stream ih =>
    obtain ⟨hfirst, hrest⟩ := View.not_resync_cons.mp hnot
    obtain ⟨message', d', hsent, hrevision, hcursor, hactivity, hreceived, hview⟩ := relays h hfirst
    obtain ⟨hcursors, hnone, hall, hend⟩ := ih hview (hrevision ▸ hd) hrest
    have hwrite : d.write (message :: stream) = message' :: d'.write stream := by
      rw [write, message_eq_older hd, hsent]
    rw [hwrite]
    refine ⟨?_, ?_, ?_, hend⟩
    · rw [cursors, cursors, List.filterMap_cons, List.filterMap_cons, hcursor]
      rw [cursors, cursors] at hcursors
      rw [hcursors]
    · exact List.forall_mem_cons.mpr ⟨hactivity, hnone⟩
    · exact congrArg₂ List.cons hreceived hall

end Downgrade

namespace View

lemma cursors_chain {view : View} {known : Cursor} (hcursor : view.cursor = some known)
    {stream : List ServerMessage} (hnot : .resync ∉ (view.receiveAll stream).1)
    (hchanges : ∀ cursor transcript, .snapshot cursor transcript ∉ stream) :
    (known :: cursors stream).IsChain Cursor.Precedes := by
  induction stream generalizing view known with
  | nil => exact .singleton known
  | cons message stream ih =>
    obtain ⟨hfirst, hrest⟩ := not_resync_cons.mp hnot
    have hchanges' : ∀ cursor transcript, .snapshot cursor transcript ∉ stream :=
      fun cursor transcript hm => hchanges cursor transcript (List.mem_cons_of_mem _ hm)
    cases message with
    | snapshot cursor transcript => exact absurd List.mem_cons_self (hchanges cursor transcript)
    | change change cursor =>
      obtain ⟨_, t, _, hfollows, happly⟩ := receive_change hfirst
      have hreceive := receive_applied hfollows happly
      rw [hreceive] at hrest
      refine .cons_cons ?_ (ih rfl hrest hchanges')
      rw [follows, hcursor] at hfollows
      obtain ⟨hepoch, hseq⟩ : known.epoch = cursor.epoch ∧ known.seq + 1 = cursor.seq := by
        simpa using hfollows
      rw [Cursor.Precedes, hepoch, hseq]
    | welcome agent pane version => exact ih hcursor hrest hchanges'
    | ack id rejected => exact ih hcursor hrest hchanges'
    | bye reason => exact ih hcursor hrest hchanges'

lemma cursor_kept {view : View} {known : Cursor} (hcursor : view.cursor = some known)
    {stream : List ServerMessage} (hnot : .resync ∉ (view.receiveAll stream).1) :
    ∃ last, (view.receiveAll stream).2.cursor = some last := by
  induction stream generalizing view known with
  | nil => exact ⟨known, hcursor⟩
  | cons message stream ih =>
    obtain ⟨hfirst, hrest⟩ := not_resync_cons.mp hnot
    cases message with
    | snapshot cursor transcript => exact ih rfl hrest
    | change change cursor =>
      obtain ⟨_, t, _, hfollows, happly⟩ := receive_change hfirst
      have hreceive := receive_applied hfollows happly
      rw [hreceive] at hrest
      rw [receiveAll, hreceive]
      exact ih rfl hrest
    | welcome agent pane version => exact ih hcursor hrest
    | ack id rejected => exact ih hcursor hrest
    | bye reason => exact ih hcursor hrest

end View

theorem older_client_follows (known : ℕ) (hknown : known < revision) :
    (∀ (cursor : Cursor) (transcript : Transcript) (rest : List ServerMessage) (view older : View),
      .resync ∉ (view.receiveAll (.snapshot cursor transcript :: rest)).1 →
      let sent := (Downgrade.new known).write (.snapshot cursor transcript :: rest)
      cursors sent = cursors (.snapshot cursor transcript :: rest) ∧
      ((∀ cursor transcript, .snapshot cursor transcript ∉ rest) →
        (cursors sent).IsChain Cursor.Precedes) ∧
      (∀ message ∈ sent, isActivity message = false) ∧
      .resync ∉ (older.receiveAll sent).1 ∧
      (older.receiveAll sent).2.cursor =
        (view.receiveAll (.snapshot cursor transcript :: rest)).2.cursor ∧
      ∃ activities, (older.receiveAll sent).2.transcript =
        { (view.receiveAll (.snapshot cursor transcript :: rest)).2.transcript with activities }) ∧
    ∀ (world : World) (decode : Wire.Decoders) (config : Config) (epoch : Uuid)
      (found : List (NoticeLevel × String)) (inputs : List Input),
      let s := (exec (runSession world decode found inputs) (Session.new config epoch)).2
      ∀ client ∈ s.clients, client.resumed = none → ∀ taken, taken <+: client.sent →
      ∀ older : View, let sent := (Downgrade.new known).write taken
      cursors sent = cursors taken ∧ (cursors sent).IsChain Cursor.Precedes ∧
      (∀ message ∈ sent, isActivity message = false) ∧
      .resync ∉ (older.receiveAll sent).1 ∧
      ∀ cursor, (cursors taken).getLast? = some cursor →
        (older.receiveAll sent).2.cursor = some cursor ∧
        ∃ t activities, s.shown[cursor.seq]? = some t ∧
          (older.receiveAll sent).2.transcript = { t with activities } := by
  constructor
  · intro cursor transcript rest view older hnot
    obtain ⟨-, hrest⟩ := View.not_resync_cons.mp hnot
    have hstart : View.Older (Downgrade.new known) ⟨none, view.transcript⟩ older := nofun
    have hnot' : .resync ∉ (View.receiveAll ⟨none, view.transcript⟩ (.snapshot cursor transcript :: rest)).1 :=
      View.not_resync_cons.mpr ⟨nofun, hrest⟩
    obtain ⟨hcursors, hactivity, hall, d, hend⟩ := Downgrade.write_follows hstart hknown hnot'
    obtain ⟨last, hlast⟩ := View.cursor_kept rfl hrest
    obtain ⟨hcursor, -, activities, htranscript⟩ := hend last hlast
    refine ⟨hcursors, ?_, hactivity, ?_, hcursor.trans hlast.symm, activities, htranscript⟩
    · intro hchanges
      rw [hcursors]
      exact View.cursors_chain rfl hrest hchanges
    · rw [hall]
      exact hnot'
  · intro world decode config epoch found inputs s client hclient hresumed taken htaken older
    obtain ⟨-, hsteps⟩ := runSession_runs world decode found inputs (Session.new config epoch)
    have hvalid : s.feed.Valid := (valid_new config epoch).steps hsteps
    obtain ⟨place, hplace⟩ := hvalid.clients client hclient
    obtain ⟨earlier, hearlier⟩ := hplace.of_begun htaken
    rw [hresumed] at hearlier
    have hstart : View.Older (Downgrade.new known) ⟨none, older.transcript⟩ older := nofun
    have hview : ∀ since ∈ (none : Option Cursor), (View.mk none older.transcript).cursor = some since ∧
        s.feed.shown[since.seq]? = some (View.mk none older.transcript).transcript := nofun
    obtain ⟨hnot, hat⟩ := hearlier.received hview
    obtain ⟨hcursors, hactivity, hall, d, hend⟩ := Downgrade.write_follows hstart hknown hnot
    refine ⟨hcursors, ?_, hactivity, ?_, ?_⟩
    · rw [hcursors]
      exact hearlier.cursors.1
    · rw [hall]
      exact hnot
    · intro cursor hcursor
      have hplace' := hearlier.cursors.2
      change (cursors taken).getLast? = _ at hplace'
      rw [hcursor] at hplace'
      obtain ⟨n, rfl, rfl⟩ := Option.map_eq_some_iff.mp hplace'.symm
      obtain ⟨hc, -, activities, ht⟩ := hend _ hat.1
      exact ⟨hc, _, activities, hat.2, ht⟩

def activeStream : List ServerMessage :=
  [.snapshot ⟨1, 0⟩ (Transcript.new "agent"),
    .change (.activity ⟨"task", none, none, .subagent, "Review", 1000, .running⟩) ⟨1, 1⟩]

theorem older_client_follows_activity :
    0 < revision ∧ cursors ((Downgrade.new 0).write activeStream) = [⟨1, 0⟩, ⟨1, 1⟩] := by
  refine ⟨by decide, ?_⟩
  refine ((older_client_follows 0 (by decide)).1 ⟨1, 0⟩ (Transcript.new "agent") _
    ⟨none, Transcript.new "agent"⟩ ⟨none, Transcript.new "agent"⟩ ?_).1
  decide +kernel

end Sheprd.Acp
