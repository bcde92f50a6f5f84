import Sheprd.Acp.Refines
import Sheprd.Acp.Serves

namespace Sheprd.Acp

open Sheprd.Lib Sheprd.Lib.Exec Sheprd.Chat Session

def Act.asksFor (request : RequestId) : Act → Bool
  | .ask id => decide (id = request)
  | .refuse id => decide (id = request)
  | _ => false

def Input.asksFor (request : RequestId) : Input → Bool
  | .agent (.request id method _) =>
      decide (id = request) && decide (method = "session/request_permission")
  | _ => false

namespace Desk

variable {world : World} {d d' : Desk} {act : Act}

def owed (d : Desk) (request : RequestId) : ℕ := d.answered request + d.waiting request

lemma waiting_settle {permission : PermissionId} {asked : Asked}
    (found : d.asked.lookup permission = some asked) (lines : List Outbound) (request : RequestId) :
    (d.settle permission lines).waiting request + (if asked.request = request then 1 else 0) =
      d.waiting request := by
  have hm : permission ∈ d.asked.entries.keys :=
    AList.mem_keys.mp (AList.lookup_isSome.mp (by rw [found]; rfl))
  obtain ⟨asked', front, back, hfront, hentries, herase⟩ := List.exists_of_kerase hm
  obtain rfl : asked' = asked := by
    have hmem : Sigma.mk permission asked' ∈ d.asked.entries := by simp [hentries]
    have := AList.mem_lookup_iff.mpr hmem
    rw [found] at this
    exact (Option.some.inj this).symm
  change ((List.kerase permission d.asked.entries).map _).count request + _ = _
  rw [waiting, herase, hentries]
  simp only [List.map_append, List.map_cons, List.count_append, List.count_cons, beq_iff_eq]
  omega

lemma waiting_asks (id : RequestId) (options : List String) (d : Desk) (request : RequestId) :
    (d.asks id options).waiting request ≤ d.waiting request + (if id = request then 1 else 0) := by
  change ((Sigma.mk _ _ :: List.kerase _ d.asked.entries).map _).count request ≤ _
  have hsub := ((List.kerase_sublist (d.nextPermission + 1) d.asked.entries).map
    fun entry => entry.2.request).count_le request
  rw [List.map_cons, List.count_cons, waiting]
  simp only [beq_iff_eq]
  omega

lemma answered_append {d d' : Desk} {lines : List Outbound} (h : d'.outbox = d.outbox ++ lines)
    (request : RequestId) : d'.answered request =
      d.answered request + (lines.filterMap Outbound.answers).count request := by
  rw [answered, h, List.filterMap_append, List.count_append, answered]

lemma owed_step (hs : Step world d act d') (request : RequestId) :
    d'.owed request ≤ d.owed request + (if act.asksFor request then 1 else 0) := by
  cases hs with
  | @tell lines plain unasked =>
    rw [owed, answered_append rfl, List.filterMap_eq_nil_iff.mpr unasked]
    exact le_rfl
  | calls other plain opening loading =>
    rw [owed, answered_append rfl]
    exact le_rfl
  | ask id options =>
    have := waiting_asks id options d request
    rw [Act.asksFor, owed, owed]
    simp only [decide_eq_true_eq]
    exact (Nat.add_le_add_left this _).trans (by rw [Nat.add_assoc]; exact le_rfl)
  | refuse id =>
    rw [owed, answered_append rfl, Act.asksFor]
    change _ + List.count request [id] + d.waiting request ≤ _
    rw [List.count_singleton, owed]
    simp only [beq_iff_eq, decide_eq_true_eq]
    omega
  | @answer permission asked lines found told =>
    have hwaiting := waiting_settle found lines request
    have hlines : (lines.filterMap Outbound.answers).count request ≤
        if asked.request = request then 1 else 0 := by
      rcases told with rfl | ⟨outcome, rfl⟩
      · exact Nat.zero_le _
      · change List.count request [asked.request] ≤ _
        rw [List.count_singleton]
        simp
    rw [owed, answered_append rfl, owed]
    omega
  | deliver first free ready carries =>
    rw [owed, answered_append rfl]
    exact le_rfl
  | exit message => exact Nat.add_le_add_left (Nat.zero_le _) _
  | _ => exact Nat.le_add_right _ _

lemma owed_run {acts : List Act} (hr : Run (Step world) d acts d') (request : RequestId) :
    d'.owed request ≤ d.owed request + acts.countP (Act.asksFor request) := by
  induction hr with
  | nil => exact Nat.le_add_right _ _
  | snoc _ ha ih =>
    have := owed_step ha request
    rw [List.countP_append, List.countP_singleton]
    omega

lemma Serves.owed_le {own : List Act} (h : Serves world own d d') (request : RequestId) :
    d'.owed request ≤ d.owed request + own.countP (Act.asksFor request) := by
  obtain ⟨first, rest, d₁, d₂, hfirst, hrest, h₁, h₂, h₃⟩ := h
  have hnone : ∀ {acts : List Act}, (∀ act ∈ acts, act.leading = true ∨ act.quiet = true) →
      acts.countP (Act.asksFor request) = 0 := by
    intro acts hacts
    refine List.countP_eq_zero.mpr fun act hm hask => ?_
    cases act with
    | ask id => rcases hacts _ hm with h | h <;> cases h
    | refuse id => rcases hacts _ hm with h | h <;> cases h
    | _ => cases hask
  have hown := owed_run h₁ request
  have hleading := owed_run h₂ request
  have hquiet := owed_run h₃ request
  rw [hnone fun act hm => Or.inl (hfirst act hm)] at hleading
  rw [hnone fun act hm => Or.inr (hrest act hm)] at hquiet
  omega

end Desk

lemma Input.Own.asksFor_le {input : Input} {own : List Act} (h : Input.Own input own)
    (request : RequestId) :
    own.countP (Act.asksFor request) ≤ [input].countP (Input.asksFor request) := by
  cases h with
  | ask id params => simp [List.countP_singleton, Act.asksFor, Input.asksFor]
  | refuse id params => simp [List.countP_singleton, Act.asksFor, Input.asksFor]
  | _ => exact Nat.zero_le _

structure Session.Between (inputs : List Input) (s : Session) : Prop where
  sound : s.desk.Sound
  settled : s.desk.Settled
  owed : ∀ request, s.desk.owed request ≤ inputs.countP (Input.asksFor request)

section Run

variable (world : World) (decode : Wire.Decoders)

lemma handle_total (input : Input) (s : Session) :
    ∃ flow s', exec (handle world decode input) s = (.ok flow, s') := by
  obtain ⟨hok, -⟩ := handle_runs world decode input s
  rcases hx : exec (handle world decode input) s with ⟨r, s'⟩
  cases r with
  | ok flow => exact ⟨flow, s', rfl⟩
  | error fault =>
    rw [hx] at hok
    cases hok

variable {world decode} in
lemma Session.Handles.between {inputs : List Input} {input : Input} {flow : Flow} {s s' : Session}
    (h : s.Handles world input flow s') (hs : s.Between inputs) : s'.Between (inputs ++ [input]) := by
  obtain ⟨own, d, hown, -, hserves, hdesk⟩ := h.serves
  refine ⟨?_, h.settled, fun request => ?_⟩
  · have hack : Desk.Step world d .ack { d with handled := s'.handled } := .ack _
    rw [hdesk]
    exact (hserves.sound hs.sound).step hack
  · have howed : s'.desk.owed request = d.owed request := by rw [hdesk]; rfl
    have hle := hserves.owed_le request
    have hasks := hown.asksFor_le request
    have hbefore := hs.owed request
    rw [howed, List.countP_append]
    omega

def opening (found : List (NoticeLevel × String)) : Acting Unit := do
  notices world found
  start world

lemma notices_rests (found : List (NoticeLevel × String)) (s : Session) :
    Post (fun _ s' => s.Rests s') (notices world found) s := by
  induction found generalizing s with
  | nil => exact Post.pure (.refl s)
  | cons notice rest ih =>
    refine Post.bind (notice_rests world _ _ s) ?_
    exact fun _ s₁ h₁ => (ih s₁).mono fun _ _ h => h₁.trans h

def Desk.blank : Desk := ⟨none, ∅, [], 0, 0, [], ∅, [], [], false, false, .starting, none⟩

lemma desk_new (config : Config) (epoch : Uuid) : (Session.new config epoch).desk = Desk.blank := by
  rw [Session.desk, Session.new]
  cases config.history <;> rfl

lemma counted_new (config : Config) (epoch : Uuid) : (Session.new config epoch).Counted := by
  rw [Counted, Session.new]
  cases config.history <;> rfl

lemma sound_blank : Desk.blank.Sound where
  asked permission := by simp [Desk.blank]
  numbered := nofun
  distinct := .nil
  working := nofun
  running := rfl
  unready _ := ⟨nofun, nofun⟩
  named := nofun
  loading id hl := by simp [Desk.blank] at hl
  ordered id hm := by simp [Desk.blank] at hm
  current := nofun
  single id id' hp := by simp [Desk.promptPending, Desk.blank] at hp
  opening id kind hl := by simp [Desk.blank] at hl

lemma opening_brings (config : Config) (epoch : Uuid) (found : List (NoticeLevel × String)) :
    Post (fun _ s' => s'.Counted ∧ (s'.desk = Desk.blank.calls .handshake .handshake ∨
        ∃ message, s'.desk = Desk.blank.numbers.failed message))
      (opening world found) (Session.new config epoch) := by
  refine Post.bind (notices_rests world found _) ?_
  intro _ s₁ h₁
  have hcounted := h₁.tally.counted (counted_new config epoch)
  have hdesk : s₁.desk = Desk.blank := h₁.desk.trans (desk_new config epoch)
  refine Post.bind (request_brings world .handshake .handshake s₁) ?_
  rintro sent s₂ ⟨hsent, hfailed⟩
  refine (reportActivity_rests s₂).mono fun _ s₃ h₃ => ?_
  cases sent with
  | true =>
    have h₂ := (hsent rfl).rests h₃
    exact ⟨h₂.tally.counted hcounted, Or.inl (by rw [h₂.desk, hdesk])⟩
  | false =>
    obtain ⟨message, hm⟩ := hfailed rfl
    have h₂ := hm.rests h₃
    exact ⟨h₂.tally.counted hcounted, Or.inr ⟨message, by rw [h₂.desk, hdesk]⟩⟩

omit world in
lemma between_begun {s : Session} (h : s.desk = Desk.blank.calls .handshake .handshake ∨
    ∃ message, s.desk = Desk.blank.numbers.failed message) : s.Between [] := by
  rcases h with h | ⟨message, h⟩
  · have hunopened : Desk.blank.Unopened := ⟨rfl, fun id kind hl => by simp [Desk.blank] at hl⟩
    refine ⟨?_, .of_empty ?_ ?_ ?_, ?_⟩
    · rw [h]
      exact sound_blank.calls rfl (fun _ => hunopened) nofun
    · rw [h]
      rfl
    · rw [h]
      rfl
    · rw [h]
      exact fun _ => ⟨_, .handshake, AList.lookup_insert _, rfl⟩
    · rw [h]
      exact fun _ => le_rfl
  · refine ⟨?_, .of_empty ?_ ?_ ?_, ?_⟩
    · rw [h]
      exact { sound_blank with
        working := nofun
        unready := fun _ => ⟨nofun, nofun⟩
        ordered := fun id hm => by simp [Desk.failed, Desk.numbers, Desk.blank] at hm }
    · rw [h]
      rfl
    · rw [h]
      rfl
    · rw [h]
      nofun
    · rw [h]
      exact fun _ => le_rfl

end Run

def Continues (world : World) (decode : Wire.Decoders) (s : Session) (input : Input) (s' : Session) :
    Prop := exec (handle world decode input) s = (.ok .goOn, s')

section Conversation

variable {world : World} {decode : Wire.Decoders} {config : Config} {epoch : Uuid}
  {found : List (NoticeLevel × String)} {inputs : List Input} {s₀ s : Session}
  (hbegun : exec (opening world found) (Session.new config epoch) = (.ok (), s₀))
  (hrun : Run (Continues world decode) s₀ inputs s)

include hbegun hrun

lemma conversation_between : s.Between inputs ∧ s.Counted := by
  induction hrun with
  | nil =>
    obtain ⟨hcounted, hdesk⟩ := (opening_brings world config epoch found).of_exec hbegun
    exact ⟨between_begun hdesk, hcounted⟩
  | snoc _ hinput ih =>
    obtain ⟨hs, hcounted⟩ := ih
    have h := (handle_handles world decode hs.sound hs.settled _).of_exec hinput
    exact ⟨h.between hs, (h.tally rfl).counted hcounted⟩

end Conversation

theorem bookkeeping_agrees (world : World) (decode : Wire.Decoders) (config : Config) (epoch : Uuid)
    (found : List (NoticeLevel × String)) (inputs : List Input) (input : Input) (s₀ s : Session)
    (hbegun : exec (opening world found) (Session.new config epoch) = (.ok (), s₀))
    (hrun : Run (Continues world decode) s₀ inputs s) :
    ∃ flow s', exec (handle world decode input) s = (.ok flow, s') ∧
      (∀ permission, permission ∈ s'.asked ↔
        permission ∈ s'.transcript.permissions.map fun shown => shown.id) ∧
      (∀ request, (s'.outbox.filterMap Outbound.answers).count request +
          (s'.asked.entries.map fun entry => entry.2.request).count request ≤
        (inputs ++ [input]).countP (Input.asksFor request)) ∧
      (s'.transcript.status = .working → s'.turn.isSome = true) ∧
      s'.transcript.turn.isSome = s'.turn.isSome ∧
      (flow = .goOn → s'.transcript.clients =
        min (s'.subscribers.filter fun subscriber => !subscriber.isLocal).length (2 ^ 32 - 1)) ∧
      (flow = .exit → s'.subscribers = []) := by
  obtain ⟨hs, hcounted⟩ := conversation_between hbegun hrun
  obtain ⟨flow, s', hx⟩ := handle_total world decode input s
  have h := (handle_handles world decode hs.sound hs.settled input).of_exec hx
  have hs' := h.between hs
  exact ⟨flow, s', hx, hs'.sound.asked, hs'.owed, hs'.sound.working, hs'.sound.running,
    fun hflow => (h.tally hflow).counted hcounted, h.left⟩

section Sample

def calm : World where
  takes _ := true
  agentFails _ := none
  now _ := 0
  readable _ _ := true
  prepare _ attachment _ := ⟨.text attachment.path, none⟩
  linked _ := []
  picture _ _ := none
  ofTool _ _ := []

def garbled : Wire.Decoders where
  initialized _ := .error ""
  newSession _ := .error ""
  loadSession _ := none
  prompt _ := none
  tokens _ := none
  notification _ := none
  permission _ := none
  configOption _ := none
  tag _ := none

def exitingPane : Config := ⟨"agent", "/", true, none, none, none, none, false⟩

def paneBegun : Session := (exec (opening calm []) (Session.new exitingPane 0)).2

def paneAttached : Session := (exec (handle calm garbled (.attach ⟨1, false, none⟩)) paneBegun).2

def paneExited : Session := (exec (handle calm garbled (.agentExited (some 0) [])) paneAttached).2

lemma paneBegun_eq : exec (opening calm []) (Session.new exitingPane 0) = (.ok (), paneBegun) :=
  exec_eq_ok (by decide +kernel)

lemma paneAttached_run :
    Run (Continues calm garbled) paneBegun [.attach ⟨1, false, none⟩] paneAttached :=
  Run.nil.snoc (exec_eq_ok (by decide +kernel))

def accepting : Wire.Decoders where
  initialized _ := .ok ⟨false, false, false⟩
  newSession _ := .ok ⟨"s", none⟩
  loadSession _ := none
  prompt _ := some .endTurn
  tokens _ := none
  notification _ := none
  permission _ := some ⟨"s", ⟨"call", ⟨none, none, none, none, none, none⟩, none⟩, []⟩
  configOption _ := none
  tag _ := none

def after (s : Session) (input : Input) : Session := (exec (handle calm accepting input) s).2

def goesOn : Session → List Input → Bool
  | _, [] => true
  | s, input :: inputs =>
      decide ((exec (handle calm accepting input) s).1.toOption = some .goOn) &&
        goesOn (after s input) inputs

lemma run_of_goesOn {s : Session} {inputs : List Input} (h : goesOn s inputs = true) :
    Run (Continues calm accepting) s inputs (inputs.foldl after s) := by
  induction inputs generalizing s with
  | nil => exact .nil
  | cons input inputs ih =>
    rw [goesOn, Bool.and_eq_true, decide_eq_true_eq] at h
    exact .cons (exec_eq_ok h.1) (ih h.2)

def answered (id : ℤ) : Input := .agent (.response (.number id) (.ok .null))

def asksPermission : Input := .agent (.request (.number 5) "session/request_permission" .null)

def paneInputs : List Input :=
  [answered 1, answered 2, .attach ⟨1, false, none⟩, .command (.prompt "one" []) 1 7, asksPermission]

def paneAsked : Session := paneInputs.foldl after paneBegun

lemma paneAsked_run : Run (Continues calm accepting) paneBegun paneInputs paneAsked :=
  run_of_goesOn (by decide +kernel)

end Sample

theorem bookkeeping_agrees_asked :
    paneAsked.transcript.permissions.length = 1 ∧ paneAsked.turn = some 3 ∧
      ∃ flow s', exec (handle calm accepting (answered 3)) paneAsked = (.ok flow, s') ∧
      (∀ permission, permission ∈ s'.asked ↔
        permission ∈ s'.transcript.permissions.map fun shown => shown.id) ∧
      (∀ request, (s'.outbox.filterMap Outbound.answers).count request +
          (s'.asked.entries.map fun entry => entry.2.request).count request ≤
        (paneInputs ++ [answered 3]).countP (Input.asksFor request)) ∧
      (s'.transcript.status = .working → s'.turn.isSome = true) ∧
      s'.transcript.turn.isSome = s'.turn.isSome ∧
      (flow = .goOn → s'.transcript.clients =
        min (s'.subscribers.filter fun subscriber => !subscriber.isLocal).length (2 ^ 32 - 1)) ∧
      (flow = .exit → s'.subscribers = []) :=
  ⟨by decide +kernel, by decide +kernel, bookkeeping_agrees calm accepting exitingPane 0 [] paneInputs
    (answered 3) paneBegun paneAsked paneBegun_eq paneAsked_run⟩

theorem count_after_exit :
    exec (opening calm []) (Session.new exitingPane 0) = (.ok (), paneBegun) ∧
      Run (Continues calm garbled) paneBegun [.attach ⟨1, false, none⟩] paneAttached ∧
      exec (handle calm garbled (.agentExited (some 0) [])) paneAttached = (.ok .exit, paneExited) ∧
      paneExited.transcript.clients = 1 ∧
      (paneExited.subscribers.filter fun subscriber => !subscriber.isLocal).length = 0 :=
  ⟨paneBegun_eq, paneAttached_run, exec_eq_ok (by decide +kernel), by decide +kernel, by decide +kernel⟩

end Sheprd.Acp
