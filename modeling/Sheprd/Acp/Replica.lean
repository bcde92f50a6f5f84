import Sheprd.Acp.Refines

namespace Sheprd.Acp

open Sheprd.Lib Sheprd.Lib.Exec Sheprd.Chat

inductive Received where
  | applied
  | resync
  | closed
  deriving DecidableEq

@[ext] structure View where
  cursor : Option Cursor
  transcript : Transcript

namespace View

def follows (view : View) (cursor : Cursor) : Bool :=
  view.cursor.any fun known =>
    decide (known.epoch = cursor.epoch) && decide (known.seq + 1 = cursor.seq)

def receive (view : View) : ServerMessage → Received × View
  | .welcome _ _ _ => (.applied, view)
  | .snapshot cursor transcript => (.applied, ⟨some cursor, transcript⟩)
  | .change change cursor =>
      if view.follows cursor then
        match exec (Transcript.apply change) view.transcript with
        | (.ok _, transcript) => (.applied, ⟨some cursor, transcript⟩)
        | (.error _, transcript) => (.resync, ⟨none, transcript⟩)
      else (.resync, { view with cursor := none })
  | .ack _ _ => (.applied, view)
  | .bye _ => (.closed, view)

def receiveAll (view : View) : List ServerMessage → List Received × View
  | [] => ([], view)
  | message :: messages =>
      let (received, next) := view.receive message
      let (rest, last) := next.receiveAll messages
      (received :: rest, last)

lemma receiveAll_concat (view : View) (messages : List ServerMessage) (message : ServerMessage) :
    view.receiveAll (messages ++ [message]) =
      ((view.receiveAll messages).1 ++ [((view.receiveAll messages).2.receive message).1],
        ((view.receiveAll messages).2.receive message).2) := by
  induction messages generalizing view with
  | nil => rfl
  | cons first messages ih =>
    have := ih (view.receive first).2
    simp only [List.cons_append, receiveAll, this]

def At (shown : List Transcript) (epoch : Uuid) (start : View) (place : Option ℕ) (view : View) :
    Prop :=
  match place with
  | none => view = start
  | some n => view.cursor = some ⟨epoch, n⟩ ∧ shown[n]? = some view.transcript

end View

open Feed

def Cursor.Precedes (a b : Cursor) : Prop := b = ⟨a.epoch, a.seq + 1⟩

def cursors (messages : List ServerMessage) : List Cursor :=
  messages.filterMap ServerMessage.cursor

lemma cursors_concat (messages : List ServerMessage) (message : ServerMessage) :
    cursors (messages ++ [message]) = cursors messages ++ message.cursor.toList := by
  rw [cursors, List.filterMap_append]
  cases message <;> rfl

namespace Feed.Follows

variable {shown : List Transcript} {epoch : Uuid} {resumed : Option Cursor}
  {sent : List ServerMessage} {place : Option ℕ}

lemma received (h : Follows shown epoch resumed sent place) {view : View}
    (hv : ∀ since ∈ resumed, view.cursor = some since ∧ shown[since.seq]? = some view.transcript) :
    .resync ∉ (view.receiveAll sent).1 ∧ View.At shown epoch view place (view.receiveAll sent).2 := by
  induction h with
  | fresh nothing => exact ⟨List.not_mem_nil, rfl⟩
  | @resumed since held same past =>
    obtain ⟨hc, ht⟩ := hv since held
    subst same
    exact ⟨List.not_mem_nil, hc, ht⟩
  | snapshot _ current ih =>
    rw [View.receiveAll_concat]
    refine ⟨?_, rfl, current⟩
    simp [ih.1, View.receive]
  | @change sent n change _ takes ih =>
    obtain ⟨hnot, hcursor, htranscript⟩ := ih
    obtain ⟨t, t', ht, happly, ht'⟩ := takes
    obtain rfl : t = (view.receiveAll sent).2.transcript := by
      rw [ht] at htranscript
      exact Option.some.inj htranscript
    have hfollows : (view.receiveAll sent).2.follows ⟨epoch, n + 1⟩ = true := by
      simp [View.follows, hcursor]
    have hreceive : (view.receiveAll sent).2.receive (.change change ⟨epoch, n + 1⟩) =
        (.applied, ⟨some ⟨epoch, n + 1⟩, t'⟩) := by
      rw [View.receive, if_pos hfollows, happly]
    rw [View.receiveAll_concat, hreceive]
    refine ⟨?_, rfl, ht'⟩
    simp [hnot]
  | @beside sent place message _ nothing ih =>
    rw [View.receiveAll_concat]
    cases message with
    | snapshot cursor transcript => cases nothing
    | change change cursor => cases nothing
    | _ => simpa [View.receive] using ih

lemma cursors (h : Follows shown epoch resumed sent place) :
    (resumed.toList ++ Acp.cursors sent).IsChain Cursor.Precedes ∧
      (resumed.toList ++ Acp.cursors sent).getLast? = place.map (Cursor.mk epoch) := by
  induction h with
  | fresh nothing =>
    subst nothing
    exact ⟨.nil, rfl⟩
  | @resumed since held same past =>
    subst held same
    exact ⟨.singleton _, rfl⟩
  | @snapshot sent n t _ current ih =>
    obtain ⟨-, hlast⟩ := ih
    have hnil : resumed.toList ++ Acp.cursors sent = [] := List.getLast?_eq_none_iff.mp hlast
    rw [cursors_concat, ← List.append_assoc, hnil]
    exact ⟨.singleton _, rfl⟩
  | @change sent n change _ takes ih =>
    obtain ⟨hchain, hlast⟩ := ih
    rw [cursors_concat, ← List.append_assoc]
    refine ⟨hchain.append (.singleton _) ?_, List.getLast?_concat⟩
    rw [hlast]
    rintro x hx y hy
    cases hx
    cases hy
    rfl
  | beside _ nothing ih =>
    rw [cursors_concat, nothing, Option.toList_none, List.append_nil]
    exact ih

end Feed.Follows

lemma valid_new (config : Config) (epoch : Uuid) : (Session.new config epoch).feed.Valid where
  count := rfl
  current := rfl
  log := ⟨0, .nil 0⟩
  clients := nofun
  distinct := .nil
  subscribers := nofun

namespace Feed.Valid

variable {f : Feed}

lemma reachesBack_iff (h : Valid f) {since : Cursor} : f.reachesBack since = true ↔
    since.epoch = f.epoch ∧ since.seq ≤ f.seq ∧
      ∀ n, since.seq < n → n ≤ f.seq → ∃ change, (n, change) ∈ f.log := by
  obtain ⟨first, hlog⟩ := h.log
  rw [Feed.reachesBack_iff hlog]
  constructor
  · rintro ⟨hepoch, hfirst, hlast⟩
    refine ⟨hepoch, hlast, ?_⟩
    intro n hn hle
    exact hlog.mem_iff.mpr ⟨lt_of_le_of_lt hfirst hn, hle⟩
  · rintro ⟨hepoch, hlast, hall⟩
    refine ⟨hepoch, ?_, hlast⟩
    by_contra hlt
    obtain ⟨hpos, -⟩ := hlog.mem_iff.mp (hall (since.seq + 1) (Nat.lt_succ_self _) (by
      have := hlog.le
      omega))
    omega

lemma catchUp_eq_snapshot (h : Valid f) {since : Cursor} {view : View}
    (hback : f.reachesBack since = true) (hcursor : view.cursor = some since)
    (ht : f.shown[since.seq]? = some view.transcript) :
    .resync ∉ (view.receiveAll (f.catchUp since)).1 ∧
      (view.receiveAll (f.catchUp since)).2 = (view.receiveAll [f.snapshot]).2 := by
  obtain ⟨first, hlog⟩ := h.log
  obtain ⟨hepoch, hfirst, hlast⟩ := (Feed.reachesBack_iff hlog).mp hback
  have hstart : Follows f.shown f.epoch (some since) [] (some since.seq) :=
    .resumed rfl hepoch (List.getElem?_eq_some_iff.mp ht).1
  have hfollows := hstart.catchUp (hlog.filter hfirst hlast)
  obtain ⟨hnot, hc, htranscript⟩ := hfollows.received fun _ hs => by
    cases hs
    exact ⟨hcursor, ht⟩
  refine ⟨hnot, View.ext hc ?_⟩
  exact Option.some.inj (htranscript.symm.trans h.current)

end Feed.Valid

theorem clients_follow_session (world : World) (decode : Wire.Decoders) (config : Config)
    (epoch : Uuid) (found : List (NoticeLevel × String)) (inputs : List Input) :
    let run := exec (runSession world decode found inputs) (Session.new config epoch)
    let s := run.2
    run.1.isOk = true ∧
    s.shown.length = s.seq + 1 ∧ s.shown[s.seq]? = some s.transcript ∧
    (∀ client ∈ s.clients,
      (client.resumed.toList ++ cursors client.sent).IsChain Cursor.Precedes ∧
      ∀ view : View, (∀ since ∈ client.resumed,
          view.cursor = some since ∧ s.shown[since.seq]? = some view.transcript) →
        ∀ taken, taken <+: client.sent →
          .resync ∉ (view.receiveAll taken).1 ∧
          ∀ cursor, (client.resumed.toList ++ cursors taken).getLast? = some cursor →
            (view.receiveAll taken).2.cursor = some cursor ∧ cursor.epoch = s.epoch ∧
            s.shown[cursor.seq]? = some (view.receiveAll taken).2.transcript) ∧
    ∀ since,
      (s.feed.reachesBack since = true ↔ since.epoch = s.epoch ∧ since.seq ≤ s.seq ∧
        ∀ n, since.seq < n → n ≤ s.seq → ∃ change, (n, change) ∈ s.log) ∧
      ∀ view : View, s.feed.reachesBack since = true → view.cursor = some since →
        s.shown[since.seq]? = some view.transcript →
        .resync ∉ (view.receiveAll (s.feed.catchUp since)).1 ∧
        (view.receiveAll (s.feed.catchUp since)).2 = (view.receiveAll [s.feed.snapshot]).2 := by
  intro run s
  obtain ⟨hok, hsteps⟩ := runSession_runs world decode found inputs (Session.new config epoch)
  have hvalid : s.feed.Valid := (valid_new config epoch).steps hsteps
  refine ⟨hok, hvalid.count, hvalid.current, ?_, ?_⟩
  · intro client hc
    obtain ⟨place, hplace⟩ := hvalid.clients client hc
    refine ⟨hplace.cursors.1, ?_⟩
    intro view hview taken htaken
    obtain ⟨earlier, hearlier⟩ := hplace.of_begun htaken
    obtain ⟨hnot, hat⟩ := hearlier.received hview
    refine ⟨hnot, ?_⟩
    intro cursor hcursor
    rw [hearlier.cursors.2] at hcursor
    obtain ⟨n, rfl, rfl⟩ := Option.map_eq_some_iff.mp hcursor
    exact ⟨hat.1, rfl, hat.2⟩
  · intro since
    refine ⟨hvalid.reachesBack_iff, ?_⟩
    intro view hback hcursor ht
    exact hvalid.catchUp_eq_snapshot hback hcursor ht

end Sheprd.Acp
