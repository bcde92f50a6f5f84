import Mathlib.Data.List.ModifyLast
import Sheprd.Client.Upload
import Sheprd.Lib.Fold

namespace Sheprd.Client.Upload

open Lib Lib.Exec Lib.Text

section Leads

variable {α β : Type} {P : Record → Prop} {w : World}

def Leads (P : Record → Prop) (Q : α → Record → Prop) (m : Uploading α) (w : World) : Prop :=
  Upholds (fun w => P w.record) (fun _ => True) (fun a w' => Q a w'.record) m w

namespace Leads

variable {Q : α → Record → Prop} {R : β → Record → Prop}

lemma pure {a : α} (h : P w.record) (hQ : Q a w.record) : Leads P Q (pure a) w := Upholds.pure h hQ

lemma throw {e : Error} (h : P w.record) : Leads P Q (throw e) w := Upholds.throw h trivial

lemma bind {m : Uploading α} {f : α → Uploading β} (hm : Leads P Q m w)
    (hf : ∀ a w', P w'.record → Q a w'.record → Leads P R (f a) w') : Leads P R (m >>= f) w :=
  Upholds.bind hm hf

lemma get_bind {f : World → Uploading α} (h : Leads P Q (f w) w) : Leads P Q (get >>= f) w := h

lemma env_bind {g : World → World} {f : PUnit → Uploading α} (hg : (g w).record = w.record)
    (hf : ∀ w' : World, w'.record = w.record → Leads P Q (f ⟨⟩) w') :
    Leads P Q (modify g >>= f) w :=
  hf (g w) hg

lemma set_bind {t : World} {f : PUnit → Uploading α} (h : Leads P Q (f ⟨⟩) t) :
    Leads P Q (set t >>= f) w := h

lemma recording_bind {g : Record → Record} {f : PUnit → Uploading α}
    (hf : ∀ w' : World, w'.record = g w.record → Leads P Q (f ⟨⟩) w') :
    Leads P Q (recording g >>= f) w :=
  hf { w with record := g w.record } rfl

lemma recording {g : Record → Record} {Q : PUnit → Record → Prop} (h : P (g w.record))
    (hQ : Q ⟨⟩ (g w.record)) : Leads P Q (recording g) w := by
  refine ⟨h, fun a ha => ?_, nofun⟩
  cases ha
  exact hQ

lemma refuse {p : Prop} [Decidable p] {e : Error} {Q : Unit → Record → Prop} (h : P w.record)
    (hQ : ¬p → Q () w.record) : Leads P Q (refuse p e) w :=
  Upholds.refuse h (fun _ => trivial) hQ

lemma refuse_bind {p : Prop} [Decidable p] {e : Error} {f : Unit → Uploading α} (h : P w.record)
    (hf : ¬p → Leads P Q (f ()) w) : Leads P Q (Exec.refuse p e >>= f) w := by
  by_cases hp : p
  · rw [Exec.refuse, if_pos hp]
    exact throw h
  · rw [Exec.refuse, if_neg hp]
    exact hf hp

lemma mono {P' : Record → Prop} {Q' : α → Record → Prop} {m : Uploading α} (h : Leads P Q m w)
    (hP : ∀ r, P r → P' r) (hQ : ∀ a r, P r → Q a r → Q' a r) : Leads P' Q' m w :=
  Upholds.mono h (fun w => hP w.record) (fun _ _ => trivial) fun a w => hQ a w.record

end Leads

lemma check_leads (cancellable : Bool) (h : P w.record) :
    Leads P (fun _ r => r = w.record) (check cancellable) w := by
  rw [check]
  refine Leads.get_bind ?_
  split
  · exact Leads.pure h rfl
  · refine Leads.set_bind (Leads.refuse_bind h fun _ => ?_)
    exact Leads.refuse h fun _ => rfl

lemma check_bind {Q : α → Record → Prop} {cancellable : Bool} {f : Unit → Uploading α}
    (h : P w.record) (hf : ∀ w' : World, w'.record = w.record → Leads P Q (f ()) w') :
    Leads P Q (check cancellable >>= f) w :=
  (check_leads cancellable h).bind fun _ w' _ hw => hf w' hw

lemma spawn_leads (order : Order) (h : P w.record) (hopens : P (w.record.opens order)) :
    Leads P (fun _ r => r = w.record.opens order) (spawn order) w := by
  rw [spawn]
  refine Leads.get_bind ?_
  split
  · exact Leads.throw h
  · exact Leads.set_bind (Leads.throw h)
  · exact Upholds.set hopens rfl

lemma readLine_leads (reads : List Read) (bytes : List UInt8) (h : P w.record) :
    Leads P (fun _ r => r = w.record) (readLine reads bytes) w := by
  induction reads generalizing bytes w with
  | nil =>
    unfold readLine
    exact check_bind h fun w' hw => Leads.throw (hw ▸ h)
  | cons read reads ih =>
    unfold readLine
    refine check_bind h fun w' hw => Leads.env_bind rfl fun w'' hw' => ?_
    rw [← hw, ← hw'] at h ⊢
    cases read with
    | closed => exact Leads.throw h
    | byte byte =>
      dsimp only
      split
      · exact Upholds.require h trivial fun _ _ => rfl
      · split
        · exact Leads.throw h
        · exact ih (bytes ++ [byte]) h
    | again => exact ih bytes h
    | failed error => exact Leads.throw h

lemma line_leads (h : P w.record) (hhears : ∀ text, P (w.record.hears text)) :
    Leads P (fun text r => r = w.record.hears text) line w := by
  rw [line]
  refine Leads.get_bind ((readLine_leads _ _ h).bind fun text w' _ hw => ?_)
  rw [← hw] at hhears ⊢
  refine Leads.recording_bind fun w'' hw' => ?_
  exact Leads.pure (hw' ▸ hhears text) hw'

lemma shutdown_leads (h : P w.record) : Leads P (fun _ r => r = w.record) shutdown w := by
  rw [shutdown]
  refine Leads.get_bind ?_
  split
  · exact Leads.pure h rfl
  · exact Leads.throw h

lemma readEnd_leads (waiting : Bool) (h : P w.record) :
    Leads P (fun _ r => r = w.record) (readEnd waiting) w := by
  rw [readEnd]
  refine Leads.get_bind ?_
  split
  · exact Leads.pure h rfl
  · rename_i read reads _
    refine Leads.env_bind rfl fun w' hw => ?_
    rw [← hw] at h ⊢
    cases read with
    | closed => exact Leads.pure h rfl
    | byte byte => exact Leads.throw h
    | again => exact Leads.pure h rfl
    | failed error => exact Leads.throw h

lemma readUnless_leads (eof waiting : Bool) (h : P w.record) :
    Leads P (fun _ r => r = w.record) (readUnless eof waiting) w := by
  rw [readUnless]
  split
  · exact Leads.pure h rfl
  · exact readEnd_leads waiting h

lemma finishWith_leads (cancellable : Bool) (waits : List Wait) (eof : Bool) (h : P w.record) :
    Leads P (fun _ r => r = w.record) (finishWith cancellable waits eof) w := by
  induction waits generalizing eof w with
  | nil => exact Leads.throw h
  | cons wait waits ih =>
    unfold finishWith
    refine check_bind h fun w' hw => ?_
    rw [← hw] at h ⊢
    refine (readUnless_leads eof false h).bind fun eof w'' _ hw' => ?_
    rw [← hw'] at h ⊢
    refine Leads.env_bind rfl fun w''' hw'' => ?_
    rw [← hw''] at h ⊢
    cases wait with
    | failed error => exact Leads.throw h
    | running => exact ih eof h
    | exited success =>
      refine Leads.refuse_bind h fun _ => ?_
      exact (readUnless_leads eof true h).bind fun _ _ hP hw => Leads.pure hP hw

lemma finish_leads (cancellable : Bool) (h : P w.record) (hfinishes : P w.record.finishes) :
    Leads P (fun _ r => r = w.record.finishes) (finish cancellable) w := by
  rw [finish]
  refine Leads.get_bind ((finishWith_leads cancellable _ false h).bind fun _ w' _ hw => ?_)
  rw [← hw] at hfinishes ⊢
  exact Leads.recording hfinishes rfl

lemma writeWith_leads {J : List UInt8 → Record → Prop} {written : ℕ → Record → Record}
    (hJ : ∀ rest r, J rest r → P r)
    (hstep : ∀ rest r n, n ≤ rest.length → J rest r →
      J (rest.drop n) (written n (r.writes (rest.take n))))
    (cancellable : Bool) (answers : List Write) {bytes : List UInt8} (h : J bytes w.record) :
    Leads P (fun _ r => J [] r) (writeWith cancellable written answers bytes) w := by
  induction answers generalizing bytes w with
  | nil =>
    cases bytes with
    | nil => exact Leads.pure (hJ _ _ h) h
    | cons byte bytes =>
      unfold writeWith
      exact check_bind (hJ _ _ h) fun w' hw => Leads.throw (hw ▸ hJ _ _ h)
  | cons answer answers ih =>
    cases bytes with
    | nil => exact Leads.pure (hJ _ _ h) h
    | cons byte bytes =>
      unfold writeWith
      refine check_bind (hJ _ _ h) fun w' hw => Leads.env_bind rfl fun w'' hw' => ?_
      rw [← hw, ← hw'] at h
      cases answer with
      | took count =>
        dsimp only
        split
        · exact Leads.throw (hJ _ _ h)
        · refine Leads.recording_bind fun w'' hw' => ih ?_
          rw [hw']
          exact hstep _ _ _ (Nat.min_le_right _ _) h
      | again => exact ih h
      | failed error => exact Leads.throw (hJ _ _ h)

lemma writeBytes_leads {J : List UInt8 → Record → Prop} {written : ℕ → Record → Record}
    (hJ : ∀ rest r, J rest r → P r)
    (hstep : ∀ rest r n, n ≤ rest.length → J rest r →
      J (rest.drop n) (written n (r.writes (rest.take n))))
    (cancellable : Bool) {bytes : List UInt8} (h : J bytes w.record) :
    Leads P (fun _ r => J [] r) (writeBytes cancellable bytes written) w :=
  Leads.get_bind (writeWith_leads hJ hstep cancellable _ h)

lemma copy_leads {J : ℕ → Record → Prop} {total : ℕ} (hJ : ∀ left r, J left r → P r)
    (hstep : ∀ left r bytes, J (left + bytes.length) r →
      J left ((r.writes bytes).counts total bytes.length))
    (reads : List SourceRead) {left : ℕ} (h : J left w.record) :
    Leads P (fun _ r => J 0 r) (copy total reads left) w := by
  induction reads generalizing left w with
  | nil =>
    unfold copy
    refine check_bind (hJ _ _ h) fun w' hw => ?_
    rw [← hw] at h
    refine Leads.refuse (hJ _ _ h) fun hleft => ?_
    rwa [not_not.mp hleft] at h
  | cons read reads ih =>
    unfold copy
    refine check_bind (hJ _ _ h) fun w' hw => ?_
    rw [← hw] at h
    cases read with
    | chunk bytes =>
      dsimp only
      have hlength : left ≠ 0 → (bytes.take (max (min left chunk) 1)).length ≤ left := by
        have := List.length_take_le (max (min left chunk) 1) bytes
        omega
      generalize bytes.take (max (min left chunk) 1) = buffer at hlength ⊢
      split
      · refine Leads.refuse (hJ _ _ h) fun hleft => ?_
        rwa [not_not.mp hleft] at h
      · split
        · exact Leads.throw (hJ _ _ h)
        · rename_i hleft
          refine check_bind (hJ _ _ h) fun w'' hw' => ?_
          rw [← hw'] at h
          have hbuffer : J (left - buffer.length + buffer.length) w''.record := by
            rwa [Nat.sub_add_cancel (hlength hleft)]
          refine Leads.bind (Q := fun _ r => J (left - buffer.length) r) ?_
            fun _ w''' _ hwritten => ih hwritten
          refine writeBytes_leads (J := fun rest r => J (left - buffer.length + rest.length) r)
            (fun _ _ => hJ _ _) ?_ true hbuffer
          intro rest r n hn hrest
          rw [List.length_drop]
          have hsplit : left - buffer.length + rest.length =
              left - buffer.length + (rest.length - n) + (rest.take n).length := by
            rw [List.length_take, Nat.min_eq_left hn]
            omega
          rw [hsplit] at hrest
          have hwrites := hstep _ _ _ hrest
          rwa [List.length_take, Nat.min_eq_left hn] at hwrites
    | again => exact ih h
    | failed error => exact Leads.throw (hJ _ _ h)

end Leads

section Tracked

variable {plan : List Order} {total : ℕ} {source : Source} {before r : Record}
  {owned : List StagedUpload} {lines : List String} {written : List UInt8} {finished : Bool}

def Source.order (source : Source) : Order := .receive source.name source.len

def StagedUpload.announcement (staged : StagedUpload) : List String :=
  ready :: staged.directory :: staged.file.toList.flatMap fun file => [created, file]

def Connection.Bounded (c : Connection) : Prop :=
  ∀ name len, c.order = .receive name len →
    (c.written <+: accept ∨ accept <+: c.written) ∧ c.written.length ≤ accept.length + len

structure Reported (total sent : ℕ) (progress : List (ℕ × ℕ)) : Prop where
  sorted : progress.Pairwise fun p q => p.1 ≤ q.1
  below : ∀ p ∈ progress, p.1 ≤ sent ∧ p.2 = total

structure Tracked (plan : List Order) (total : ℕ) (r : Record) : Prop where
  planned : r.connections.map Connection.order <+: plan
  bounded : ∀ c ∈ r.connections, c.Bounded
  owned : ∀ staged ∈ r.owned, staged.validate = true ∧
    ∃ c ∈ r.connections, staged.announcement <+: c.lines
  reported : Reported total r.sent r.progress
  sent : r.sent ≤ total

structure Serving (before : Record) (source : Source) (total : ℕ) (owned : List StagedUpload)
    (lines : List String) (written : List UInt8) (finished : Bool) (r : Record) : Prop where
  past : r.past = before.connections
  now : r.now = some ⟨source.order, lines, written, finished⟩
  owned : r.owned = owned
  sent : r.sent = before.sent + (written.length - accept.length)
  reported : Reported total r.sent r.progress

namespace Serving

lemma opens (h : Reported total before.sent before.progress) :
    Serving before source total before.owned [] [] false (before.opens source.order) :=
  ⟨rfl, rfl, rfl, rfl, h⟩

lemma hears (h : Serving before source total owned lines written finished r) (text : String) :
    Serving before source total owned (lines ++ [text]) written finished (r.hears text) :=
  ⟨h.past, by simp [Record.hears, Record.onNow, h.now], h.owned, h.sent, h.reported⟩

lemma finishes (h : Serving before source total owned lines written finished r) :
    Serving before source total owned lines written true r.finishes :=
  ⟨h.past, by simp [Record.finishes, Record.onNow, h.now], h.owned, h.sent, h.reported⟩

lemma owns (h : Serving before source total owned lines written finished r) (dir : String) :
    Serving before source total (owned ++ [⟨dir, none⟩]) lines written finished (r.owns dir) :=
  ⟨h.past, h.now, by simp [Record.owns, h.owned], h.sent, h.reported⟩

lemma ownsFile {dir : String}
    (h : Serving before source total (owned ++ [⟨dir, none⟩]) lines written finished r)
    (file : String) : Serving before source total (owned ++ [⟨dir, some file⟩]) lines written
      finished (r.ownsFile file) :=
  ⟨h.past, h.now, by simp [Record.ownsFile, h.owned, List.modifyLast_concat], h.sent, h.reported⟩

lemma accepts {front bytes : List UInt8}
    (h : Serving before source total owned lines front finished r)
    (hfront : front ++ bytes <+: accept) :
    Serving before source total owned lines (front ++ bytes) finished (r.writes bytes) := by
  refine ⟨h.past, by simp [Record.writes, Record.onNow, h.now], h.owned, ?_, h.reported⟩
  have hle := hfront.length_le
  have hle' : front.length ≤ accept.length :=
    (List.prefix_append front bytes).length_le.trans hle
  change r.sent = _
  rw [h.sent, Nat.sub_eq_zero_of_le hle, Nat.sub_eq_zero_of_le hle']

lemma streams (h : Serving before source total owned lines written finished r)
    (haccept : accept.length ≤ written.length) (bytes : List UInt8) :
    Serving before source total owned lines (written ++ bytes) finished
      ((r.writes bytes).counts total bytes.length) := by
  refine ⟨h.past, by simp [Record.counts, Record.reports, Record.writes, Record.onNow, h.now],
    h.owned, ?_, ?_, ?_⟩
  · change r.sent + bytes.length = _
    rw [h.sent, List.length_append]
    omega
  · refine List.pairwise_append.mpr ⟨h.reported.sorted, List.pairwise_singleton _ _, ?_⟩
    intro p hp q hq
    rw [List.mem_singleton.mp hq]
    exact (h.reported.below p hp).1.trans (Nat.le_add_right _ _)
  · intro p hp
    rcases List.mem_append.mp hp with hp | hp
    · obtain ⟨hle, htotal⟩ := h.reported.below p hp
      exact ⟨hle.trans (Nat.le_add_right _ _), htotal⟩
    · rw [List.mem_singleton.mp hp]
      exact ⟨le_rfl, rfl⟩

lemma connections (h : Serving before source total owned lines written finished r) :
    r.connections = before.connections ++ [⟨source.order, lines, written, finished⟩] := by
  rw [Record.connections, h.past, h.now]
  rfl

end Serving

def Announced (before : Record) (lines : List String) (owned : List StagedUpload) : Prop :=
  ∀ staged ∈ owned, staged ∈ before.owned ∨ staged.validate = true ∧ staged.announcement <+: lines

lemma Announced.mono {lines' : List String} (h : Announced before lines owned)
    (hlines : lines <+: lines') : Announced before lines' owned := fun staged hstaged =>
  (h staged hstaged).imp_right fun h => ⟨h.1, h.2.trans hlines⟩

lemma Announced.snoc (h : Announced before lines owned) {staged : StagedUpload}
    (hvalid : staged.validate = true) (hlines : staged.announcement <+: lines) :
    Announced before lines (owned ++ [staged]) := by
  intro staged' hstaged
  rcases List.mem_append.mp hstaged with hstaged | hstaged
  · exact h staged' hstaged
  · rw [List.mem_singleton.mp hstaged]
    exact .inr ⟨hvalid, hlines⟩

lemma Tracked.serving (h : Tracked plan total before)
    (hplan : before.connections.map Connection.order ++ [source.order] <+: plan)
    (hsent : before.sent + source.len ≤ total) (hannounced : Announced before lines owned)
    (haccept : written <+: accept ∨ accept <+: written)
    (hwritten : written.length ≤ accept.length + source.len)
    (hserving : Serving before source total owned lines written finished r) :
    Tracked plan total r where
  planned := by
    rw [hserving.connections, List.map_append]
    exact hplan
  bounded c hc := by
    rw [hserving.connections] at hc
    rcases List.mem_append.mp hc with hc | hc
    · exact h.bounded c hc
    · rw [List.mem_singleton.mp hc]
      intro name len horder
      obtain ⟨-, rfl⟩ := Order.receive.inj horder
      exact ⟨haccept, hwritten⟩
  owned staged hstaged := by
    rw [hserving.owned] at hstaged
    rw [hserving.connections]
    rcases hannounced staged hstaged with hbefore | ⟨hvalid, hlines⟩
    · obtain ⟨hvalid, c, hc, hlines⟩ := h.owned staged hbefore
      exact ⟨hvalid, c, List.mem_append_left _ hc, hlines⟩
    · exact ⟨hvalid, _, List.mem_append_right _ (List.mem_singleton_self _), hlines⟩
  reported := hserving.reported
  sent := by
    rw [hserving.sent]
    omega

structure Delivered (name : String) (len : ℕ) (remote : String) (c : Connection) : Prop where
  order : c.order = .receive name len
  finished : c.finished = true
  staged : ∃ dir, validDirectory dir = true ∧ remote = dir ++ "/" ++ name ∧
    c.lines = [ready, dir, created, remote, complete, remote]
  fits : remote.utf8ByteSize ≤ lineLimit

lemma line_bind {α : Type} {P : Record → Prop} {Q : α → Record → Prop} {w : World}
    {f : String → Uploading α}
    (hserving : Serving before source total owned lines written finished w.record)
    (hP : ∀ lines' r, lines <+: lines' →
      Serving before source total owned lines' written finished r → P r)
    (hf : ∀ text w', Serving before source total owned (lines ++ [text]) written finished w'.record →
      Leads P Q (f text) w') : Leads P Q (line >>= f) w := by
  refine Leads.bind (line_leads (hP _ _ (List.prefix_refl _) hserving) fun text => ?_) ?_
  · exact hP _ _ (List.prefix_append _ _) (hserving.hears text)
  · intro text w' _ hw
    refine hf text w' ?_
    rw [hw]
    exact hserving.hears text

lemma accept_bind {α : Type} {P : Record → Prop} {Q : α → Record → Prop} {w : World}
    {f : Unit → Uploading α}
    (hserving : Serving before source total owned lines [] finished w.record)
    (hP : ∀ front r, front <+: accept →
      Serving before source total owned lines front finished r → P r)
    (hf : ∀ w', Serving before source total owned lines accept finished w'.record →
      Leads P Q (f ()) w') :
    Leads P Q (writeBytes true accept (fun _ record => record) >>= f) w := by
  have hwritten : Leads P (fun _ r => ∃ front, front ++ [] = accept ∧
      Serving before source total owned lines front finished r)
      (writeBytes true accept fun _ record => record) w := by
    refine writeBytes_leads (J := fun rest r => ∃ front, front ++ rest = accept ∧
      Serving before source total owned lines front finished r) ?_ ?_ true ?_
    · rintro rest r ⟨front, hfront, hserving⟩
      exact hP front r ⟨rest, hfront⟩ hserving
    · rintro rest r n - ⟨front, hfront, hserving⟩
      have hsplit : front ++ rest.take n ++ rest.drop n = accept := by
        rw [List.append_assoc, List.take_append_drop, hfront]
      exact ⟨front ++ rest.take n, hsplit, hserving.accepts ⟨_, hsplit⟩⟩
    · exact ⟨[], List.nil_append accept, hserving⟩
  refine hwritten.bind fun _ w' _ hw => hf w' ?_
  obtain ⟨front, hfront, hserving⟩ := hw
  rwa [← hfront, List.append_nil]

lemma copy_bind {α : Type} {P : Record → Prop} {Q : α → Record → Prop} {w : World}
    {f : Unit → Uploading α}
    (hserving : Serving before source total owned lines accept finished w.record)
    (hP : ∀ written r, accept <+: written → written.length ≤ accept.length + source.len →
      Serving before source total owned lines written finished r → P r)
    (hf : ∀ written w', accept <+: written → written.length ≤ accept.length + source.len →
      Serving before source total owned lines written finished w'.record → Leads P Q (f ()) w') :
    Leads P Q (copy total source.reads source.len >>= f) w := by
  have hcopied : Leads P (fun _ r => ∃ written, accept <+: written ∧
      written.length + 0 = accept.length + source.len ∧
      Serving before source total owned lines written finished r)
      (copy total source.reads source.len) w := by
    refine copy_leads (J := fun left r => ∃ written, accept <+: written ∧
      written.length + left = accept.length + source.len ∧
      Serving before source total owned lines written finished r) ?_ ?_ source.reads ?_
    · rintro left r ⟨written, haccept, hlength, hserving⟩
      exact hP written r haccept (by omega) hserving
    · rintro left r bytes ⟨written, haccept, hlength, hserving⟩
      refine ⟨written ++ bytes, haccept.trans (List.prefix_append _ _), ?_,
        hserving.streams haccept.length_le bytes⟩
      rw [List.length_append]
      omega
    · exact ⟨accept, List.prefix_refl _, rfl, hserving⟩
  refine hcopied.bind fun _ w' _ hw => ?_
  obtain ⟨written, haccept, hlength, hserving⟩ := hw
  exact hf written w' haccept (Nat.le_of_eq hlength) hserving

lemma uploadOne_leads {w : World} (h : Tracked plan total w.record) (hname : IsName source.name)
    (hplan : w.record.connections.map Connection.order ++ [source.order] <+: plan)
    (hsent : w.record.sent + source.len ≤ total) :
    Leads (Tracked plan total) (fun remote r => ∃ c, r.connections = w.record.connections ++ [c] ∧
      Delivered source.name source.len remote c ∧ r.sent ≤ w.record.sent + source.len)
      (uploadOne total source) w := by
  generalize hbefore : w.record = before at h hplan hsent ⊢
  have htracked {owned lines written} (hannounced : Announced before lines owned)
      (haccept : written <+: accept ∨ accept <+: written)
      (hwritten : written.length ≤ accept.length + source.len) lines' r (hlines : lines <+: lines')
      (hserving : Serving before source total owned lines' written false r) :
      Tracked plan total r :=
    h.serving hplan hsent (hannounced.mono hlines) haccept hwritten hserving
  have hnil : ([] : List UInt8) <+: accept ∨ accept <+: [] := .inl List.nil_prefix
  have hzero : ([] : List UInt8).length ≤ accept.length + source.len := Nat.zero_le _
  have hkept : Announced before [] before.owned := fun staged hstaged => .inl hstaged
  rw [uploadOne]
  refine check_bind (hbefore ▸ h) fun w hw => ?_
  rw [hbefore] at hw
  have hopens : Serving before source total before.owned [] [] false (w.record.opens source.order) := by
    rw [hw]
    exact .opens h.reported
  have hopened := htracked hkept hnil hzero _ _ List.nil_prefix hopens
  refine (spawn_leads source.order (hw ▸ h) hopened).bind fun _ w _ hw => ?_
  rw [← hw] at hopens
  refine line_bind hopens (htracked hkept hnil hzero) fun greeting w hserving => ?_
  have hgreeted := hkept.mono (List.nil_prefix (l := [greeting]))
  refine Leads.refuse_bind (htracked hgreeted hnil hzero _ _ (List.prefix_refl _) hserving)
    fun hready => ?_
  obtain rfl := not_not.mp hready
  refine line_bind hserving (htracked hgreeted hnil hzero) fun dir w hserving => ?_
  have hdir := hgreeted.mono (List.prefix_append [ready] [dir])
  refine Leads.refuse_bind (htracked hdir hnil hzero _ _ (List.prefix_refl _) hserving)
    fun hvalid => ?_
  rw [Bool.not_eq_false] at hvalid
  refine Leads.recording_bind fun w' hw => ?_
  have hserving := hserving.owns dir
  rw [← hw] at hserving
  have hvalidate : StagedUpload.validate ⟨dir, none⟩ = true := by
    simp [StagedUpload.validate, hvalid]
  have howned := hdir.snoc hvalidate (List.prefix_refl _)
  refine Leads.refuse_bind (htracked howned hnil hzero _ _ (List.prefix_refl _) hserving)
    fun hfits => ?_
  rw [not_lt] at hfits
  refine accept_bind hserving (fun front r hfront hserving => ?_) fun w hserving => ?_
  · exact htracked howned (.inl hfront) (hfront.length_le.trans (Nat.le_add_right _ _)) _ _
      (List.prefix_refl _) hserving
  have haccept : accept <+: accept ∨ accept <+: accept := .inl (List.prefix_refl _)
  have hlength : accept.length ≤ accept.length + source.len := Nat.le_add_right _ _
  refine line_bind hserving (htracked howned haccept hlength) fun answer w hserving => ?_
  have howned := howned.mono (List.prefix_append _ [answer])
  refine Leads.refuse_bind (htracked howned haccept hlength _ _ (List.prefix_refl _) hserving)
    fun hcreated => ?_
  obtain rfl := not_not.mp hcreated
  refine line_bind hserving (htracked howned haccept hlength) fun file w hserving => ?_
  have howned := howned.mono (List.prefix_append _ [file])
  refine Leads.refuse_bind (htracked howned haccept hlength _ _ (List.prefix_refl _) hserving)
    fun hfile => ?_
  obtain rfl := not_not.mp hfile
  refine Leads.recording_bind fun w' hw => ?_
  have hserving := hserving.ownsFile (dir ++ "/" ++ source.name)
  rw [← hw] at hserving
  have howned : Announced before [ready, dir, created, dir ++ "/" ++ source.name]
      (before.owned ++ [⟨dir, some (dir ++ "/" ++ source.name)⟩]) :=
    (hkept.mono List.nil_prefix).snoc (validate_join hvalid hname hfits) (List.prefix_refl _)
  refine copy_bind hserving (fun written r haccept hlength hserving => ?_)
    fun written w haccept hlength hserving => ?_
  · exact htracked howned (.inr haccept) hlength _ _ (List.prefix_refl _) hserving
  have htold := htracked howned (.inr haccept) hlength
  refine check_bind (htold _ _ (List.prefix_refl _) hserving) fun w' hw => ?_
  rw [← hw] at hserving
  refine (shutdown_leads (htold _ _ (List.prefix_refl _) hserving)).bind fun _ w' _ hw => ?_
  rw [← hw] at hserving
  refine line_bind hserving htold fun answer w hserving => ?_
  have howned := howned.mono (List.prefix_append _ [answer])
  have htold := htracked howned (.inr haccept) hlength
  refine Leads.refuse_bind (htold _ _ (List.prefix_refl _) hserving) fun hcomplete => ?_
  obtain rfl := not_not.mp hcomplete
  refine line_bind hserving htold fun file w hserving => ?_
  have howned := howned.mono (List.prefix_append _ [file])
  have htold := htracked howned (.inr haccept) hlength
  refine Leads.refuse_bind (htold _ _ (List.prefix_refl _) hserving) fun hfile => ?_
  obtain rfl := not_not.mp hfile
  have hfinishes := h.serving hplan hsent howned (.inr haccept) hlength hserving.finishes
  refine (finish_leads true (htold _ _ (List.prefix_refl _) hserving) hfinishes).bind
    fun _ w hw hfinished => Leads.pure hw ?_
  have hserving := hserving.finishes
  rw [← hfinished] at hserving
  refine ⟨_, hserving.connections, ⟨rfl, rfl, ⟨dir, hvalid, rfl, rfl⟩, hfits⟩, ?_⟩
  rw [hserving.sent]
  omega

lemma uploadAll_leads {w : World} {sources : List Source} (paths : List String)
    (h : Tracked plan total w.record) (hnames : ∀ source ∈ sources, IsName source.name)
    (hplan : w.record.connections.map Connection.order ++ sources.map Source.order = plan)
    (hsent : w.record.sent + (sources.map Source.len).sum ≤ total) :
    Leads (Tracked plan total) (fun all r => ∃ remotes connections, all = paths ++ remotes ∧
      r.connections = w.record.connections ++ connections ∧
      List.Forall₂ (fun source (sent : String × Connection) =>
        Delivered source.name source.len sent.1 sent.2) sources (remotes.zip connections) ∧
      remotes.length = connections.length) (uploadAll total sources paths) w := by
  induction sources generalizing w paths with
  | nil =>
    rw [uploadAll]
    refine check_bind h fun w' hw => Leads.pure (hw ▸ h) ?_
    exact ⟨[], [], by simp, by simp [hw], .nil, rfl⟩
  | cons source sources ih =>
    rw [List.map_cons] at hplan hsent
    rw [List.sum_cons] at hsent
    rw [uploadAll]
    refine (uploadOne_leads h (hnames source List.mem_cons_self) ?_ (by omega)).bind ?_
    · rw [← hplan]
      exact (List.prefix_append_right_inj _).mpr (List.prefix_append [source.order] _)
    · rintro remote w' h' ⟨c, hconnections, hdelivered, hsent'⟩
      refine (ih (paths ++ [remote]) h' (fun source hsource => hnames source (List.mem_cons_of_mem _ hsource)) ?_
        (by omega)).mono (fun _ h => h) ?_
      · rw [hconnections, ← hplan]
        simp [hdelivered.order, Source.order]
      · rintro all r - ⟨remotes, connections, rfl, hr, hall, hlength⟩
        refine ⟨remote :: remotes, c :: connections, by simp, ?_, .cons hdelivered hall, ?_⟩
        · rw [hr, hconnections, List.append_assoc]
          rfl
        · rw [List.length_cons, List.length_cons, hlength]

end Tracked

section Cleanup

variable {start r : Record} {all sent : List UInt8} {finished : Bool}

structure Cleaning (start : Record) (sent : List UInt8) (finished : Bool) (r : Record) : Prop where
  past : r.past = start.connections
  now : r.now = some ⟨.cleanup, [], sent, finished⟩
  owned : r.owned = start.owned
  sent : r.sent = start.sent
  progress : r.progress = start.progress

def Cleans (start : Record) (all : List UInt8) (r : Record) : Prop :=
  ∃ sent finished, sent <+: all ∧ Cleaning start sent finished r

lemma Cleaning.writes (h : Cleaning start sent finished r) (bytes : List UInt8) :
    Cleaning start (sent ++ bytes) finished (r.writes bytes) :=
  ⟨h.past, by simp [Record.writes, Record.onNow, h.now], h.owned, h.sent, h.progress⟩

lemma Cleaning.finishes (h : Cleaning start sent finished r) :
    Cleaning start sent true r.finishes :=
  ⟨h.past, by simp [Record.finishes, Record.onNow, h.now], h.owned, h.sent, h.progress⟩

lemma writeStaged_leads {w : World} (owned : List StagedUpload)
    (hall : sent ++ owned.flatMap StagedUpload.lines <+: all)
    (h : Cleaning start sent finished w.record) :
    Leads (Cleans start all)
      (fun _ r => Cleaning start (sent ++ owned.flatMap StagedUpload.lines) finished r)
      (writeStaged owned) w := by
  induction owned generalizing sent w with
  | nil =>
    rw [List.flatMap_nil, List.append_nil] at hall ⊢
    exact Leads.pure ⟨sent, finished, hall, h⟩ h
  | cons staged owned ih =>
    rw [List.flatMap_cons, ← List.append_assoc] at hall ⊢
    have hfirst : sent ++ staged.lines <+: all := (List.prefix_append _ _).trans hall
    refine Leads.bind (Q := fun _ r => Cleaning start (sent ++ staged.lines) finished r) ?_
      fun _ w' _ hw => ih hall hw
    have hwritten : Leads (Cleans start all) (fun _ r => ∃ front, front ++ [] = staged.lines ∧
        Cleaning start (sent ++ front) finished r)
        (writeBytes false staged.lines fun _ record => record) w := by
      refine writeBytes_leads (J := fun rest r => ∃ front, front ++ rest = staged.lines ∧
        Cleaning start (sent ++ front) finished r) ?_ ?_ false ?_
      · rintro rest r ⟨front, hfront, hcleaning⟩
        refine ⟨sent ++ front, finished, List.IsPrefix.trans ?_ hfirst, hcleaning⟩
        exact (List.prefix_append_right_inj _).mpr ⟨rest, hfront⟩
      · rintro rest r n - ⟨front, hfront, hcleaning⟩
        refine ⟨front ++ rest.take n, ?_, ?_⟩
        · rw [List.append_assoc, List.take_append_drop, hfront]
        · rw [← List.append_assoc]
          exact hcleaning.writes _
      · exact ⟨[], List.nil_append _, by rwa [List.append_nil]⟩
    refine hwritten.mono (fun _ h => h) ?_
    rintro - r - ⟨front, hfront, hcleaning⟩
    rwa [← hfront, List.append_nil]

lemma cleanup_leads {w : World} :
    Leads (fun r => r = w.record ∨ Cleans w.record (w.record.owned.flatMap StagedUpload.lines) r)
      (fun _ _ => True) (cleanup w.record.owned) w := by
  have hstart (r : Record) (h : r = w.record) : r = w.record ∨
      Cleans w.record (w.record.owned.flatMap StagedUpload.lines) r := .inl h
  rw [cleanup]
  refine Leads.refuse_bind (hstart _ rfl) fun _ => ?_
  split
  · exact Leads.pure (hstart _ rfl) trivial
  · have hopens : Cleaning w.record [] false (w.record.opens .cleanup) := ⟨rfl, rfl, rfl, rfl, rfl⟩
    refine Leads.bind (spawn_leads .cleanup (hstart _ rfl)
      (.inr ⟨[], false, List.nil_prefix, hopens⟩)) fun _ w' _ hw => ?_
    rw [← hw] at hopens
    have hwritten := writeStaged_leads w.record.owned (List.prefix_refl _) hopens
    rw [List.nil_append] at hwritten
    refine Leads.bind (hwritten.mono (fun _ h => .inr h) fun _ _ _ h => h) fun _ w'' _ hcleaning => ?_
    have hcleans : Cleans w.record (w.record.owned.flatMap StagedUpload.lines) w''.record :=
      ⟨_, _, List.prefix_refl _, hcleaning⟩
    refine Leads.bind (shutdown_leads (.inr hcleans)) fun _ w₃ _ hw => ?_
    rw [← hw] at hcleaning hcleans
    refine (finish_leads false (.inr hcleans) (.inr ?_)).mono (fun _ h => h) fun _ _ _ _ => trivial
    exact ⟨_, _, List.prefix_refl _, hcleaning.finishes⟩

lemma cleanup_checks {owned : List StagedUpload} {staged : StagedUpload} (h : staged ∈ owned)
    (hbad : staged.validate = false) (w : World) :
    exec (cleanup owned) w = (.error .cleanupPath, w) := by
  have hall : owned.all StagedUpload.validate = false := by
    rw [List.all_eq_false]
    exact ⟨staged, h, by simp [hbad]⟩
  rw [cleanup, hall]
  rfl

end Cleanup

section Prepare

variable {P : Record → Prop} {w : World}

def Input.order (input : Input) : Option Order :=
  match input.name, input.metadata with
  | some name, .ok (_, len) => some (.receive name len)
  | _, _ => none

lemma isName_of_name {input : Input} {name : String} (h : input.name = some name) : IsName name := by
  rw [Input.name, Option.filter_eq_some_iff] at h
  obtain ⟨h, hname⟩ := h
  obtain ⟨bytes, hbytes, hdecode⟩ := Option.bind_eq_some_iff.mp h
  simp only [Bool.and_eq_true, Bool.not_eq_true'] at hname
  exact isName_of_fileName hbytes hdecode hname.1 hname.2

lemma prepareOne_leads (h : P w.record) (input : Input) :
    Leads P (fun source r => r = w.record ∧ input.order = some source.order ∧ IsName source.name)
      (prepareOne input) w := by
  rw [prepareOne]
  refine check_bind h fun w' hw => ?_
  rw [← hw] at h ⊢
  cases hname : input.name with
  | none => exact Leads.throw h
  | some name =>
    cases input.opened with
    | error error => exact Leads.throw h
    | ok _ =>
      refine check_bind h fun w'' hw' => ?_
      rw [← hw'] at h ⊢
      cases hmetadata : input.metadata with
      | error error => exact Leads.throw h
      | ok metadata =>
        refine Leads.refuse_bind h fun _ => Leads.pure h ⟨rfl, ?_, isName_of_name hname⟩
        simp [Input.order, hname, hmetadata, Source.order]

lemma prepareAll_leads (h : P w.record) (inputs : List Input) (sources : List Source) :
    Leads P (fun all r => r = w.record ∧ ∃ rest, all = sources ++ rest ∧
      List.Forall₂ (fun input source => input.order = some source.order ∧ IsName source.name)
        inputs rest) (prepareAll inputs sources) w := by
  induction inputs generalizing sources w with
  | nil =>
    rw [prepareAll]
    exact Leads.pure h ⟨rfl, [], by simp, .nil⟩
  | cons input inputs ih =>
    rw [prepareAll]
    refine (prepareOne_leads h input).bind ?_
    rintro source w' h' ⟨hw, horder, hname⟩
    rw [← hw]
    refine (ih h' (sources ++ [source])).mono (fun _ h => h) ?_
    rintro all r - ⟨hr, rest, rfl, hrest⟩
    exact ⟨hr, source :: rest, by simp, .cons ⟨horder, hname⟩ hrest⟩

lemma totalSize_eq {sizes : List ℕ} {total : ℕ} (h : totalSize sizes = .ok total) :
    total = sizes.sum := by
  have hfold {sizes : List ℕ} {start : ℕ} (h : sizes.foldlM (fun total size =>
      if total + size ≤ u64Max then Except.ok (total + size) else .error Error.sizeOverflow) start =
      .ok total) : total = start + sizes.sum := by
    induction sizes generalizing start with
    | nil =>
      cases h
      rfl
    | cons size sizes ih =>
      rw [List.foldlM_cons] at h
      split at h
      · rw [ih h, List.sum_cons, Nat.add_assoc]
      · cases h
  simpa using hfold h

lemma prepare_leads (h : P w.record) (inputs : List Input) :
    Leads P (fun prepared r => r = w.record ∧ prepared.2 = (prepared.1.map Source.len).sum ∧
      List.Forall₂ (fun input source => input.order = some source.order ∧ IsName source.name)
        inputs prepared.1) (prepare inputs) w := by
  rw [prepare]
  refine (prepareAll_leads h inputs []).bind ?_
  rintro all w' h' ⟨hw, _, rfl, hrest⟩
  rw [← hw]
  refine check_bind h' fun w'' hw' => ?_
  rw [← hw'] at h' ⊢
  cases htotal : totalSize (all.map Source.len) with
  | error error => exact Leads.throw h'
  | ok total => exact Leads.pure h' ⟨rfl, totalSize_eq htotal, hrest⟩

end Prepare

section Safe

variable {inputs : List Input} {sources : List Source} {total : ℕ} {start r : Record} {w : World}

def Input.len (input : Input) : ℕ :=
  match input.metadata with
  | .ok (_, len) => len
  | .error _ => 0

structure Safe (inputs : List Input) (r : Record) : Prop where
  planned : (r.connections.map Connection.order).filter (fun order => decide (order ≠ .cleanup)) <+:
    inputs.filterMap Input.order
  bounded : ∀ c ∈ r.connections, c.Bounded
  sorted : r.progress.Pairwise fun p q => p.1 ≤ q.1
  below : ∀ p ∈ r.progress, p.1 ≤ p.2 ∧ p.2 = (inputs.map Input.len).sum
  owned : ∀ staged ∈ r.owned, staged.validate = true ∧
    ∃ c ∈ r.connections, staged.announcement <+: c.lines
  cleaned : ∀ c ∈ r.connections, c.order = .cleanup →
    c.written <+: r.owned.flatMap StagedUpload.lines

structure Returned (inputs : List Input) (paths : List String) (r : Record) : Prop where
  length : paths.length = r.connections.length
  delivered : List.Forall₂ (fun (input : Input) (sent : String × Connection) =>
    ∃ name len, input.order = some (.receive name len) ∧ Delivered name len sent.1 sent.2)
    inputs (paths.zip r.connections)
  accepted : ∃ staged, cleanupPaths paths = .ok staged ∧
    staged.map StagedUpload.file = paths.map some

lemma filterMap_order (h : List.Forall₂ (fun (input : Input) (source : Source) =>
    input.order = some source.order ∧ IsName source.name) inputs sources) :
    inputs.filterMap Input.order = sources.map Source.order := by
  induction h with
  | nil => rfl
  | cons hfirst _ ih => rw [List.filterMap_cons_some hfirst.1, ih, List.map_cons]

lemma sum_len (h : List.Forall₂ (fun (input : Input) (source : Source) =>
    input.order = some source.order ∧ IsName source.name) inputs sources) :
    (inputs.map Input.len).sum = (sources.map Source.len).sum := by
  induction h with
  | nil => rfl
  | @cons input source _ _ hfirst _ ih =>
    have hlen : input.len = source.len := by
      have horder := hfirst.1
      rw [Input.order] at horder
      split at horder
      · rename_i name b len hname hmetadata
        obtain ⟨-, rfl⟩ := Order.receive.inj (Option.some.inj horder)
        rw [Input.len, hmetadata]
      · cases horder
    rw [List.map_cons, List.map_cons, List.sum_cons, List.sum_cons, ih, hlen]

lemma ne_cleanup_of_planned {plan : List Order} (h : Tracked plan total r)
    (hplan : plan = sources.map Source.order) {c : Connection} (hc : c ∈ r.connections) :
    c.order ≠ .cleanup := by
  have hmem := h.planned.subset (List.mem_map_of_mem hc)
  rw [hplan] at hmem
  obtain ⟨source, -, hsource⟩ := List.mem_map.mp hmem
  rw [← hsource]
  exact nofun

lemma Tracked.safe (h : Tracked (sources.map Source.order) total r)
    (horder : inputs.filterMap Input.order = sources.map Source.order)
    (hsum : (inputs.map Input.len).sum = total) : Safe inputs r where
  planned := by
    have hall : ∀ order ∈ r.connections.map Connection.order,
        decide (order ≠ Order.cleanup) = true := by
      intro order hmem
      obtain ⟨c, hc, rfl⟩ := List.mem_map.mp hmem
      exact decide_eq_true (ne_cleanup_of_planned h rfl hc)
    rw [List.filter_eq_self.mpr hall, horder]
    exact h.planned
  bounded := h.bounded
  sorted := h.reported.sorted
  below p hp := by
    obtain ⟨hle, htotal⟩ := h.reported.below p hp
    rw [htotal, hsum]
    exact ⟨hle.trans h.sent, rfl⟩
  owned := h.owned
  cleaned c hc horder := absurd horder (ne_cleanup_of_planned h rfl hc)

lemma Safe.cleans (h : Safe inputs start) (hnone : ∀ c ∈ start.connections, c.order ≠ .cleanup)
    (hcleans : Cleans start (start.owned.flatMap StagedUpload.lines) r) : Safe inputs r := by
  obtain ⟨sent, finished, hsent, hcleaning⟩ := hcleans
  have hconnections : r.connections = start.connections ++ [⟨.cleanup, [], sent, finished⟩] := by
    rw [Record.connections, hcleaning.past, hcleaning.now]
    rfl
  refine
    { planned := by simpa [hconnections] using h.planned
      bounded := fun c hc => ?_
      sorted := hcleaning.progress ▸ h.sorted
      below := hcleaning.progress ▸ h.below
      owned := fun staged hstaged => ?_
      cleaned := fun c hc horder => ?_ }
  · rw [hconnections] at hc
    rcases List.mem_append.mp hc with hc | hc
    · exact h.bounded c hc
    · rw [List.mem_singleton.mp hc]
      exact fun name len horder => by cases horder
  · rw [hcleaning.owned] at hstaged
    obtain ⟨hvalid, c, hc, hlines⟩ := h.owned staged hstaged
    exact ⟨hvalid, c, hconnections ▸ List.mem_append_left _ hc, hlines⟩
  · rw [hconnections] at hc
    rw [hcleaning.owned]
    rcases List.mem_append.mp hc with hc | hc
    · exact absurd horder (hnone c hc)
    · rw [List.mem_singleton.mp hc]
      exact hsent

lemma mapM_cleanupPath {paths : List String} (h : ∀ path ∈ paths, ∃ staged,
    cleanupPath path = .ok staged ∧ staged.file = some path) :
    ∃ staged, paths.mapM cleanupPath = .ok staged ∧
      staged.map StagedUpload.file = paths.map some := by
  induction paths with
  | nil => exact ⟨[], rfl, rfl⟩
  | cons path paths ih =>
    obtain ⟨first, hfirst, hfile⟩ := h path List.mem_cons_self
    obtain ⟨rest, hrest, hfiles⟩ := ih fun path hpath => h path (List.mem_cons_of_mem _ hpath)
    refine ⟨first :: rest, ?_, by simp [hfile, hfiles]⟩
    rw [List.mapM_cons, hfirst, hrest]
    rfl

lemma delivered_inputs {all : List (String × Connection)}
    (hprepared : List.Forall₂ (fun (input : Input) (source : Source) =>
      input.order = some source.order ∧ IsName source.name) inputs sources)
    (hdelivered : List.Forall₂ (fun source (sent : String × Connection) =>
      Delivered source.name source.len sent.1 sent.2) sources all) :
    List.Forall₂ (fun (input : Input) (sent : String × Connection) =>
      ∃ name len, input.order = some (.receive name len) ∧ IsName name ∧
        Delivered name len sent.1 sent.2) inputs all := by
  induction hprepared generalizing all with
  | nil =>
    cases hdelivered
    exact .nil
  | @cons input source _ _ hfirst _ ih =>
    cases hdelivered with
    | cons hsent hrest => exact .cons ⟨_, _, hfirst.1, hfirst.2, hsent⟩ (ih hrest)

lemma returned_of_delivered {paths : List String}
    (hdelivered : List.Forall₂ (fun (input : Input) (sent : String × Connection) =>
      ∃ name len, input.order = some (.receive name len) ∧ IsName name ∧
        Delivered name len sent.1 sent.2) inputs (paths.zip r.connections))
    (hlength : paths.length = r.connections.length) (hlimit : inputs.length ≤ pathLimit) :
    Returned inputs paths r where
  length := hlength
  delivered := hdelivered.imp fun _ _ ⟨name, len, horder, _, hsent⟩ => ⟨name, len, horder, hsent⟩
  accepted := by
    have hzip : paths.length = inputs.length := by
      rw [hdelivered.length_eq, List.length_zip, ← hlength, Nat.min_self]
    have hpaths : ∀ path ∈ paths, ∃ staged,
        cleanupPath path = .ok staged ∧ staged.file = some path := by
      intro path hpath
      have hfst : (paths.zip r.connections).map Prod.fst = paths := List.map_fst_zip hlength.le
      rw [← hfst] at hpath
      obtain ⟨sent, hsent, rfl⟩ := List.mem_map.mp hpath
      obtain ⟨input, -, name, len, -, hname, hdelivered⟩ := exists_of_forall₂ hdelivered hsent
      obtain ⟨dir, hdir, hremote, -⟩ := hdelivered.staged
      have hfits := hdelivered.fits
      rw [hremote] at hfits ⊢
      exact ⟨_, cleanupPath_join hdir hname hfits, rfl⟩
    obtain ⟨staged, hstaged, hfiles⟩ := mapM_cleanupPath hpaths
    refine ⟨staged, ?_, hfiles⟩
    rw [cleanupPaths, if_neg (by omega), hstaged]

lemma safe_empty (inputs : List Input) : Safe inputs Record.empty where
  planned := List.nil_prefix
  bounded _ hc := absurd hc List.not_mem_nil
  sorted := .nil
  below _ hp := absurd hp List.not_mem_nil
  owned _ hstaged := absurd hstaged List.not_mem_nil
  cleaned _ hc := absurd hc List.not_mem_nil

lemma rollback_leads (h : Safe inputs w.record)
    (hnone : ∀ c ∈ w.record.connections, c.order ≠ .cleanup) :
    Leads (Safe inputs) (fun _ _ => True)
      (attempt (cleanup w.record.owned) : Uploading (Except Error Unit)) w := by
  have hcleanup : Leads (Safe inputs) (fun _ _ => True) (cleanup w.record.owned) w := by
    refine cleanup_leads.mono ?_ fun _ _ _ _ => trivial
    rintro r (rfl | hcleans)
    · exact h
    · exact h.cleans hnone hcleans
  exact (Upholds.attempt hcleanup).mono (fun _ h => h) (fun _ h => h) fun _ _ _ _ => trivial

lemma upload_leads (hlimit : inputs.length ≤ pathLimit) (hempty : w.record = Record.empty) :
    Leads (Safe inputs) (Returned inputs) (upload inputs) w := by
  rw [upload]
  refine (prepare_leads (hempty ▸ safe_empty inputs) inputs).bind ?_
  rintro ⟨sources, total⟩ w - ⟨hw, htotal, hprepared⟩
  rw [hempty] at hw
  have horder := filterMap_order hprepared
  have hsum := (sum_len hprepared).trans htotal.symm
  refine Leads.recording_bind fun w' hw' => ?_
  rw [hw] at hw'
  have htracked : Tracked (sources.map Source.order) total w'.record := by
    rw [hw']
    exact
      { planned := List.nil_prefix
        bounded := fun c hc => absurd hc List.not_mem_nil
        owned := fun staged hstaged => absurd hstaged List.not_mem_nil
        reported := ⟨List.pairwise_singleton _ _, fun p hp => by
          rw [List.mem_singleton.mp hp]
          exact ⟨le_rfl, rfl⟩⟩
        sent := Nat.zero_le _ }
  have hnames : ∀ source ∈ sources, IsName source.name := fun source hsource => by
    obtain ⟨input, -, -, hname⟩ := exists_of_forall₂ hprepared hsource
    exact hname
  have hplan : w'.record.connections.map Connection.order ++ sources.map Source.order =
      sources.map Source.order := by
    rw [hw']
    rfl
  have hsent : w'.record.sent + (sources.map Source.len).sum ≤ total := by
    rw [hw']
    exact (Nat.zero_add _).trans_le htotal.ge
  have huploaded := uploadAll_leads [] htracked hnames hplan hsent
  have hsafe r (h : Tracked (sources.map Source.order) total r) := h.safe horder hsum
  have hattempted : Leads (Safe inputs) (fun result r =>
      Tracked (sources.map Source.order) total r ∧ ∀ paths, result = .ok paths →
        Returned inputs paths r)
      (attempt (uploadAll total sources []) : Uploading (Except Error (List String))) w' := by
    refine Upholds.mono (Upholds.attempt huploaded) (fun w => hsafe w.record) (fun _ h => h) ?_
    intro result w'' htracked hresult
    refine ⟨htracked, fun paths hpaths => ?_⟩
    obtain ⟨remotes, connections, rfl, hconnections, hdelivered, hlength⟩ := hresult paths hpaths
    have hnone : w'.record.connections = [] := by
      rw [hw']
      rfl
    rw [hnone, List.nil_append] at hconnections
    rw [← hconnections] at hdelivered hlength
    exact returned_of_delivered (delivered_inputs hprepared hdelivered) hlength hlimit
  refine hattempted.bind ?_
  rintro (source | paths) w'' hsafe ⟨htracked, hreturned⟩
  · refine Leads.get_bind ?_
    split
    · exact Leads.throw hsafe
    · have hrolled := rollback_leads hsafe fun c hc => ne_cleanup_of_planned htracked rfl hc
      refine hrolled.bind ?_
      rintro (error | -) w₃ hsafe -
      · exact Leads.throw hsafe
      · exact Leads.throw hsafe
  · exact Leads.pure hsafe (hreturned paths rfl)

theorem uploadFiles_safe (inputs : List Input) (checks : List Stop)
    (remotes : List (Except String Remote)) (remote : Remote) :
    (Safe inputs (exec (uploadFiles inputs) ⟨checks, remotes, remote, .empty⟩).2.record ∧
      ∀ paths, (exec (uploadFiles inputs) ⟨checks, remotes, remote, .empty⟩).1 = .ok paths →
        Returned inputs paths (exec (uploadFiles inputs) ⟨checks, remotes, remote, .empty⟩).2.record) ∧
    ∀ owned (staged : StagedUpload) w, staged ∈ owned → staged.validate = false →
      exec (cleanup owned) w = (.error .cleanupPath, w) := by
  refine ⟨?_, fun owned staged w h hbad => cleanup_checks h hbad w⟩
  have hleads : Leads (Safe inputs) (Returned inputs) (uploadFiles inputs)
      ⟨checks, remotes, remote, .empty⟩ := by
    rw [uploadFiles]
    refine Leads.refuse_bind (safe_empty inputs) fun hlimit => ?_
    exact upload_leads (not_lt.mp hlimit) rfl
  obtain ⟨hsafe, hreturned, -⟩ := hleads
  exact ⟨hsafe, hreturned⟩

end Safe

def notePath : String := "/tmp/herdr-upload.abcdefghijkl/a.txt"

def noteInputs : List Input := [⟨ascii "a.txt", .ok (), .ok (true, 3), [.chunk (ascii "abc"), .chunk []]⟩]

def noteRemote : Remote where
  reads := (ascii (ready ++ "\n/tmp/herdr-upload.abcdefghijkl\n" ++ created ++ "\n" ++ notePath ++ "\n" ++
    complete ++ "\n" ++ notePath ++ "\n")).map .byte ++ [.closed]
  writes := [.took 7, .took 3]
  shutdown := none
  waits := [.exited true]

def noteEnded : Except Error (List String) × World :=
  exec (uploadFiles noteInputs) ⟨[], [.ok noteRemote], noteRemote, .empty⟩

lemma noteEnded_ok : noteEnded.1 = .ok [notePath] := by
  have hok : noteEnded.1.toOption = some [notePath] := by decide +kernel
  cases hresult : noteEnded.1 with
  | error error => rw [hresult] at hok; cases hok
  | ok paths => rw [hresult] at hok; exact congrArg Except.ok (Option.some.inj hok)

theorem uploadFiles_safe_note : Returned noteInputs [notePath] noteEnded.2.record := by
  have hreturned (inputs remotes remote paths ended)
      (hended : ended = exec (uploadFiles inputs) ⟨[], remotes, remote, .empty⟩)
      (hok : ended.1 = .ok paths) : Returned inputs paths ended.2.record := by
    subst hended
    exact (uploadFiles_safe inputs [] remotes remote).1.2 paths hok
  exact hreturned noteInputs [.ok noteRemote] noteRemote [notePath] noteEnded rfl noteEnded_ok

end Sheprd.Client.Upload
