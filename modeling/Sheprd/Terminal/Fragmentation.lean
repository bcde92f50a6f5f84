import Sheprd.Terminal.Scan

namespace Sheprd.Terminal

open Sheprd.Lib

inductive Letter where
  | byte (byte : UInt8)
  | osc (string : List UInt8)

def Forward.spell : Forward → List Letter
  | .text bytes => bytes.map .byte
  | .osc string => [.osc string]

namespace Letter

def bytes : Letter → List UInt8
  | .byte b => [b]
  | .osc string => string

def osc? : Letter → Option (List UInt8)
  | .byte _ => none
  | .osc string => some string

end Letter

lemma Forward.spell_bytes (calls : List Forward) :
    (calls.flatMap Forward.spell).flatMap Letter.bytes = calls.flatMap Forward.bytes := by
  induction calls with
  | nil => rfl
  | cons call calls ih =>
    rw [List.flatMap_cons, List.flatMap_append, ih, List.flatMap_cons]
    congr 1
    cases call with
    | text bytes => simp [spell, Forward.bytes, Letter.bytes, List.flatMap_map]
    | osc string => simp [spell, Forward.bytes, Letter.bytes]

lemma Forward.spell_osc (calls : List Forward) :
    (calls.flatMap Forward.spell).filterMap Letter.osc? = calls.filterMap Forward.osc? := by
  induction calls with
  | nil => rfl
  | cons call calls ih =>
    rw [List.flatMap_cons, List.filterMap_append, ih]
    cases call with
    | text bytes =>
      have hn : bytes.filterMap (Letter.osc? ∘ Letter.byte) = [] :=
        List.filterMap_eq_nil_iff.mpr fun _ _ => rfl
      rw [spell, List.filterMap_map, hn]
      rfl
    | osc string => simp [spell, Forward.osc?, Letter.osc?]

namespace Scanner

def ended (s : Scanner) (state : State) : Scanner := { s with osc := [], state := state }

def escapeByte (s : Scanner) (byte : UInt8) : Scanner × List Letter :=
  if byte = 0x5b then ({ s with state := .csi {} }, [.byte byte])
  else if byte = 0x5d then ({ s with osc := [byte], state := .osc }, [])
  else if byte = 0x63 then ({ s with win32Input := false, state := .ground }, [.byte byte])
  else if byte = esc ∨ control byte then ({ s with state := .escape }, [.byte byte])
  else ({ s with state := .ground }, [.byte byte])

def scanByte (s : Scanner) (byte : UInt8) : Scanner × List Letter :=
  match s.state with
  | .ground => (if byte = esc then { s with state := .escape } else s, [.byte byte])
  | .escape => s.escapeByte byte
  | .csi csi =>
      let next := csiByte csi byte s.win32Input
      ({ s with state := next.1, win32Input := next.2 }, [.byte byte])
  | .osc =>
      if byte = bel ∨ byte = can ∨ byte = sub then (s.ended .ground, [.osc (s.osc ++ [byte])])
      else if byte = esc then ({ s with state := .oscEscape }, [])
      else if maxOscBytes ≤ s.osc.length then (s.ended .overflow, [.byte backslash])
      else ({ s with osc := s.osc ++ [byte] }, [])
  | .oscEscape =>
      if byte = backslash then (s.ended .ground, [.osc (s.osc ++ [esc] ++ [byte])])
      else
        let next := (s.ended .escape).escapeByte byte
        (next.1, .osc (s.osc ++ [esc]) :: next.2)
  | .overflow =>
      if byte = esc then ({ s with state := .overflowEscape }, [])
      else if byte = bel ∨ byte = can ∨ byte = sub then (s.ended .ground, [])
      else (s, [])
  | .overflowEscape =>
      if byte = backslash then (s.ended .ground, [])
      else
        let next := (s.ended .escape).escapeByte byte
        (next.1, .byte esc :: next.2)

def machine : Transducer Scanner UInt8 Letter := ⟨scanByte⟩

end Scanner

namespace Feed

variable {bytes : List UInt8} {f g : Feed} {byte : UInt8}

def pending (bytes : List UInt8) (f : Feed) : List UInt8 :=
  if f.scanner.holding then [] else (bytes.take f.index).drop f.run

def written (bytes : List UInt8) (f : Feed) : List Letter :=
  f.forwarded.flatMap Forward.spell ++ (f.pending bytes).map .byte

def outcome (bytes : List UInt8) (f : Feed) : Scanner × List Letter :=
  let rest := Scanner.machine.run f.scanner (bytes.drop f.index)
  (rest.1, f.written bytes ++ rest.2)

def InStep (f : Feed) : Prop := f.scanner.holding = false → f.run ≤ f.index

lemma written_of_held (h : f.scanner.holding = true) :
    f.written bytes = f.forwarded.flatMap Forward.spell := by
  rw [written, pending, if_pos h, List.map_nil, List.append_nil]

lemma written_of_caughtUp (h : f.index ≤ f.run) :
    f.written bytes = f.forwarded.flatMap Forward.spell := by
  have hd : (bytes.take f.index).drop f.run = [] := by
    apply List.drop_eq_nil_of_le
    rw [List.length_take]
    omega
  rw [written, pending, hd, ite_self, List.map_nil, List.append_nil]

lemma take_succ_drop {i run : ℕ} (hi : i < bytes.length) (hr : run ≤ i) :
    (bytes.take (i + 1)).drop run = (bytes.take i).drop run ++ [bytes[i]] := by
  rw [List.take_succ_eq_append_getElem hi, List.drop_append_of_le_length]
  rw [List.length_take]
  omega

lemma written_of_plain (hi : f.index < bytes.length) (hf : f.scanner.holding = false)
    (hs : f.InStep) (hg : g.scanner.holding = false) (hrun : g.run = f.run)
    (hindex : g.index = f.index + 1) (hfwd : g.forwarded = f.forwarded) :
    g.written bytes = f.written bytes ++ [.byte bytes[f.index]] := by
  have hp : g.pending bytes = f.pending bytes ++ [bytes[f.index]] := by
    rw [pending, pending, hf, hg, hrun, hindex]
    exact take_succ_drop hi (hs hf)
  rw [written, written, hp, hfwd, List.map_append, List.append_assoc]
  rfl

lemma outcome_of_advanced (hi : f.index < bytes.length) (hindex : g.index = f.index + 1)
    {out : List Letter} (hstep : f.scanner.scanByte bytes[f.index] = (g.scanner, out))
    (hw : g.written bytes = f.written bytes ++ out) : g.outcome bytes = f.outcome bytes := by
  have hstep' : Scanner.machine.step f.scanner bytes[f.index] = (g.scanner, out) := hstep
  rw [outcome, outcome, List.drop_eq_getElem_cons hi, Transducer.run_cons, hstep', hw, hindex,
    List.append_assoc]

lemma outcome_of_reread (hi : f.index < bytes.length) (hindex : g.index = f.index)
    {letter : Letter}
    (hstep : f.scanner.scanByte bytes[f.index] =
      ((g.scanner.scanByte bytes[f.index]).1, letter :: (g.scanner.scanByte bytes[f.index]).2))
    (hw : g.written bytes = f.written bytes ++ [letter]) : g.outcome bytes = f.outcome bytes := by
  have hf : Scanner.machine.step f.scanner bytes[f.index] = _ := hstep
  have hg : Scanner.machine.step g.scanner bytes[f.index] = g.scanner.scanByte bytes[f.index] := rfl
  rw [outcome, outcome, hindex, List.drop_eq_getElem_cons hi, Transducer.run_cons,
    Transducer.run_cons, hf, hg, hw]
  simp only [List.append_assoc, List.cons_append, List.nil_append]

lemma written_forward_of_held {call : Forward} (h : f.scanner.holding = true)
    (hg : g.scanner.holding = true ∨ g.index ≤ g.run)
    (hfwd : g.forwarded = f.forwarded ++ [call]) :
    g.written bytes = f.written bytes ++ call.spell := by
  have hw : g.written bytes = g.forwarded.flatMap Forward.spell := by
    obtain hh | hc := hg
    · exact written_of_held hh
    · exact written_of_caughtUp hc
  rw [hw, hfwd, written_of_held h, List.flatMap_append, List.flatMap_singleton]

lemma written_quiet_of_held (h : f.scanner.holding = true)
    (hg : g.scanner.holding = true ∨ g.index ≤ g.run) (hfwd : g.forwarded = f.forwarded) :
    g.written bytes = f.written bytes ++ [] := by
  have hw : g.written bytes = g.forwarded.flatMap Forward.spell := by
    obtain hh | hc := hg
    · exact written_of_held hh
    · exact written_of_caughtUp hc
  rw [hw, hfwd, written_of_held h, List.append_nil]

lemma written_of_opened (hf : f.scanner.holding = false) (hg : g.scanner.holding = true)
    (hfwd : g.forwarded = (if f.run < f.index then
      f.forward (.text ((bytes.take f.index).drop f.run)) else f).forwarded) :
    g.written bytes = f.written bytes ++ [] := by
  rw [written_of_held hg, hfwd, List.append_nil]
  by_cases hr : f.run < f.index
  · rw [if_pos hr, forward, List.flatMap_append, List.flatMap_singleton, written, pending, hf]
    rfl
  · rw [if_neg hr, written_of_caughtUp (by omega)]

def Turned (bytes : List UInt8) (f g : Feed) : Prop :=
  g.outcome bytes = f.outcome bytes ∧ g.InStep

lemma Turned.plain (hi : f.index < bytes.length) (hs : f.InStep)
    (hf : f.scanner.holding = false) (hg : g.scanner.holding = false) (hrun : g.run = f.run)
    (hindex : g.index = f.index + 1) (hfwd : g.forwarded = f.forwarded)
    (hstep : f.scanner.scanByte bytes[f.index] = (g.scanner, [.byte bytes[f.index]])) :
    Turned bytes f g := by
  refine ⟨outcome_of_advanced hi hindex hstep (written_of_plain hi hf hs hg hrun hindex hfwd), ?_⟩
  intro _
  have := hs hf
  omega

lemma Turned.forwarded (call : Forward) (hi : f.index < bytes.length)
    (hf : f.scanner.holding = true) (hindex : g.index = f.index + 1)
    (hg : g.scanner.holding = true ∨ g.run = f.index + 1)
    (hfwd : g.forwarded = f.forwarded ++ [call])
    (hstep : f.scanner.scanByte bytes[f.index] = (g.scanner, call.spell)) : Turned bytes f g := by
  refine ⟨outcome_of_advanced hi hindex hstep (written_forward_of_held hf ?_ hfwd), ?_⟩
  · exact hg.imp_right fun h => by omega
  · intro hn
    obtain hh | hr := hg
    · exact absurd hh (by rw [hn]; decide)
    · omega

lemma Turned.quiet (hi : f.index < bytes.length)
    (hf : f.scanner.holding = true) (hindex : g.index = f.index + 1)
    (hg : g.scanner.holding = true ∨ g.run = f.index + 1) (hfwd : g.forwarded = f.forwarded)
    (hstep : f.scanner.scanByte bytes[f.index] = (g.scanner, [])) : Turned bytes f g := by
  refine ⟨outcome_of_advanced hi hindex hstep (written_quiet_of_held hf ?_ hfwd), ?_⟩
  · exact hg.imp_right fun h => by omega
  · intro hn
    obtain hh | hr := hg
    · exact absurd hh (by rw [hn]; decide)
    · omega

lemma Turned.reread (call : Forward) {letter : Letter} (hi : f.index < bytes.length)
    (hf : f.scanner.holding = true) (hindex : g.index = f.index) (hrun : g.run = f.index)
    (hfwd : g.forwarded = f.forwarded ++ [call]) (hcall : call.spell = [letter])
    (hstep : f.scanner.scanByte bytes[f.index] =
      ((g.scanner.scanByte bytes[f.index]).1, letter :: (g.scanner.scanByte bytes[f.index]).2)) :
    Turned bytes f g := by
  have hg : g.index ≤ g.run := by omega
  refine ⟨outcome_of_reread hi hindex hstep ?_, fun _ => by omega⟩
  rw [written_forward_of_held hf (.inr hg) hfwd, hcall]

lemma turn_ground (hi : f.index < bytes.length) (hs : f.InStep) (hf : f.scanner.state = .ground) :
    Turned bytes f (turn bytes f bytes[f.index]) := by
  have hn : f.scanner.holding = false := by rw [Scanner.holding, hf]
  simp only [turn, hf]
  by_cases he : bytes[f.index] = esc
  · rw [if_pos he]
    exact .plain hi hs hn rfl rfl rfl rfl (by simp only [Scanner.scanByte, hf, if_pos he]; rfl)
  · rw [if_neg he]
    exact .plain hi hs hn hn rfl rfl rfl (by simp only [Scanner.scanByte, hf, if_neg he]; rfl)

def Unheld (next : State × Bool) : Prop := ∀ s : Scanner, s.state = next.1 → s.holding = false

lemma csiByte_unheld (csi : Csi) (byte : UInt8) (win32Input : Bool) : Unheld (csiByte csi byte win32Input) := by
  have hescape : ∀ w, Unheld (.escape, w) := fun w s h => by rw [Scanner.holding, h]
  have hground : ∀ w, Unheld (.ground, w) := fun w s h => by rw [Scanner.holding, h]
  have hcsi : ∀ next w, Unheld (.csi next, w) := fun next w s h => by rw [Scanner.holding, h]
  rw [csiByte]
  repeat' first
    | exact hescape _
    | exact hground _
    | exact hcsi _ _
    | refine iteInduction (fun _ => ?_) fun _ => ?_

lemma turn_csi {csi : Csi} (hi : f.index < bytes.length) (hs : f.InStep)
    (hf : f.scanner.state = .csi csi) : Turned bytes f (turn bytes f bytes[f.index]) := by
  have hn : f.scanner.holding = false := by rw [Scanner.holding, hf]
  simp only [turn, hf]
  refine .plain hi hs hn ?_ rfl rfl rfl (by simp only [Scanner.scanByte, hf]; rfl)
  exact csiByte_unheld csi bytes[f.index] f.scanner.win32Input _ rfl

lemma turn_escape (hi : f.index < bytes.length) (hs : f.InStep) (hf : f.scanner.state = .escape) :
    Turned bytes f (turn bytes f bytes[f.index]) := by
  have hn : f.scanner.holding = false := by rw [Scanner.holding, hf]
  have hb : f.scanner.scanByte bytes[f.index] = f.scanner.escapeByte bytes[f.index] := by
    rw [Scanner.scanByte, hf]
  simp only [turn, hf]
  by_cases h1 : bytes[f.index] = 0x5b
  · rw [escape, if_pos h1]
    exact .plain hi hs hn rfl rfl rfl rfl (by rw [hb, Scanner.escapeByte, if_pos h1]; rfl)
  by_cases h2 : bytes[f.index] = 0x5d
  · rw [escape, if_neg h1, if_pos h2]
    refine ⟨outcome_of_advanced hi ?_ ?_ (written_of_opened hn rfl rfl), ?_⟩
    · split <;> rfl
    · rw [hb, Scanner.escapeByte, if_neg h1, if_pos h2]
      split <;> rfl
    · exact fun hh => absurd hh Bool.noConfusion
  by_cases h3 : bytes[f.index] = 0x63
  · rw [escape, if_neg h1, if_neg h2, if_pos h3]
    refine .plain hi hs hn rfl rfl rfl rfl ?_
    rw [hb, Scanner.escapeByte, if_neg h1, if_neg h2, if_pos h3]
    rfl
  by_cases h4 : bytes[f.index] = esc
  · rw [escape, if_neg h1, if_neg h2, if_neg h3, if_pos h4]
    refine .plain hi hs hn rfl rfl rfl rfl ?_
    rw [hb, Scanner.escapeByte, if_neg h1, if_neg h2, if_neg h3, if_pos (.inl h4)]
    rfl
  by_cases h5 : Scanner.control bytes[f.index] = true
  · rw [escape, if_neg h1, if_neg h2, if_neg h3, if_neg h4, if_pos h5]
    refine .plain hi hs hn rfl rfl rfl rfl ?_
    rw [hb, Scanner.escapeByte, if_neg h1, if_neg h2, if_neg h3, if_pos (.inr h5)]
    rfl
  · rw [escape, if_neg h1, if_neg h2, if_neg h3, if_neg h4, if_neg h5]
    refine .plain hi hs hn rfl rfl rfl rfl ?_
    rw [hb, Scanner.escapeByte, if_neg h1, if_neg h2, if_neg h3, if_neg (not_or.mpr ⟨h4, h5⟩)]
    rfl

lemma turn_osc (hi : f.index < bytes.length) (hf : f.scanner.state = .osc) :
    Turned bytes f (turn bytes f bytes[f.index]) := by
  have hh : f.scanner.holding = true := by rw [Scanner.holding, hf]
  simp only [turn, hf]
  split_ifs with h1 h2 h3
  · refine .forwarded (.osc (f.scanner.osc ++ [bytes[f.index]])) hi hh rfl (.inr rfl) rfl ?_
    simp only [Scanner.scanByte, hf, if_pos h1]
    rfl
  · refine .quiet hi hh rfl (.inl rfl) rfl ?_
    simp only [Scanner.scanByte, hf, if_neg h1, if_pos h2]
    rfl
  · refine .forwarded (.text [backslash]) hi hh rfl (.inl rfl) rfl ?_
    simp only [Scanner.scanByte, hf, if_neg h1, if_neg h2, if_pos h3]
    rfl
  · refine .quiet hi hh rfl (.inl ?_) rfl ?_
    · rw [Scanner.holding]
      simp only [advance, pushOsc, hf]
    · simp only [Scanner.scanByte, hf, if_neg h1, if_neg h2, if_neg h3, advance, pushOsc]

lemma turn_oscEscape (hi : f.index < bytes.length) (hf : f.scanner.state = .oscEscape) :
    Turned bytes f (turn bytes f bytes[f.index]) := by
  have hh : f.scanner.holding = true := by rw [Scanner.holding, hf]
  simp only [turn, hf]
  split_ifs with h1
  · refine .forwarded (.osc (f.scanner.osc ++ [esc] ++ [bytes[f.index]])) hi hh rfl (.inr rfl) rfl ?_
    simp only [Scanner.scanByte, hf, if_pos h1]
    rfl
  · refine .reread (.osc (f.scanner.osc ++ [esc])) hi hh rfl rfl rfl rfl ?_
    simp only [Scanner.scanByte, hf, if_neg h1]
    rfl

lemma turn_overflow (hi : f.index < bytes.length) (hf : f.scanner.state = .overflow) :
    Turned bytes f (turn bytes f bytes[f.index]) := by
  have hh : f.scanner.holding = true := by rw [Scanner.holding, hf]
  simp only [turn, hf]
  split_ifs with h1 h2
  · refine .quiet hi hh rfl (.inl rfl) rfl ?_
    simp only [Scanner.scanByte, hf, if_pos h1]
    rfl
  · refine .quiet hi hh rfl (.inr rfl) rfl ?_
    simp only [Scanner.scanByte, hf, if_neg h1, if_pos h2]
    rfl
  · refine .quiet hi hh rfl (.inl hh) rfl ?_
    simp only [Scanner.scanByte, hf, if_neg h1, if_neg h2]
    rfl

lemma turn_overflowEscape (hi : f.index < bytes.length) (hf : f.scanner.state = .overflowEscape) :
    Turned bytes f (turn bytes f bytes[f.index]) := by
  have hh : f.scanner.holding = true := by rw [Scanner.holding, hf]
  simp only [turn, hf]
  split_ifs with h1
  · refine .quiet hi hh rfl (.inr rfl) rfl ?_
    simp only [Scanner.scanByte, hf, if_pos h1]
    rfl
  · refine .reread (.text [esc]) hi hh rfl rfl rfl rfl ?_
    simp only [Scanner.scanByte, hf, if_neg h1]
    rfl

lemma turn_turned (hi : f.index < bytes.length) (hs : f.InStep) :
    Turned bytes f (turn bytes f bytes[f.index]) := by
  cases hf : f.scanner.state with
  | ground => exact turn_ground hi hs hf
  | escape => exact turn_escape hi hs hf
  | csi csi => exact turn_csi hi hs hf
  | osc => exact turn_osc hi hf
  | oscEscape => exact turn_oscEscape hi hf
  | overflow => exact turn_overflow hi hf
  | overflowEscape => exact turn_overflowEscape hi hf

lemma loop_outcome (bytes : List UInt8) (f : Feed) (hs : f.InStep) :
    (loop bytes f).outcome bytes = f.outcome bytes ∧ bytes.length ≤ (loop bytes f).index := by
  fun_induction loop bytes f with
  | case1 f hi ih =>
    obtain ⟨ho, hs⟩ := turn_turned hi hs
    obtain ⟨iho, ihi⟩ := ih hs
    exact ⟨iho.trans ho, ihi⟩
  | case2 f hi => exact ⟨rfl, Nat.le_of_not_lt hi⟩

end Feed

namespace Scanner

lemma feed_realised : machine.Realised Forward.spell feed := by
  intro s bytes
  obtain ⟨ho, hi⟩ := Feed.loop_outcome bytes { scanner := s } fun _ => Nat.le_refl 0
  have hw : ({ scanner := s } : Feed).written bytes = [] := Feed.written_of_caughtUp (Nat.le_refl 0)
  have hr : machine.run s (bytes.drop 0) = Feed.outcome bytes { scanner := s } := by
    rw [Feed.outcome, hw]
    rfl
  rw [List.drop_zero] at hr
  rw [hr, ← ho, feed, Feed.outcome, List.drop_eq_nil_of_le hi]
  refine ⟨rfl, ?_⟩
  rw [Transducer.run_nil, List.flatMap_append, List.append_nil, Feed.written, Feed.pending,
    List.take_of_length_le hi]
  congr 1
  cases hh : (Feed.loop bytes { scanner := s }).scanner.holding with
  | true => rfl
  | false =>
    by_cases hrun : (Feed.loop bytes { scanner := s }).run < bytes.length
    · simp [hrun, Forward.spell]
    · simp [hrun, List.drop_eq_nil_of_le (Nat.le_of_not_lt hrun)]

theorem feed_fragmentation (s : Scanner) (chunks : List (List UInt8)) :
    let split := feedAll feed s chunks
    let whole := s.feed chunks.flatten
    split.2.flatMap Forward.bytes = whole.2.flatMap Forward.bytes ∧
      split.1 = whole.1 ∧
      split.1.win32Input = whole.1.win32Input ∧
      split.2.filterMap Forward.osc? = whole.2.filterMap Forward.osc? := by
  obtain ⟨hs, ho⟩ := feed_realised.feedAll_flatten s chunks
  refine ⟨?_, hs, congrArg win32Input hs, ?_⟩
  · rw [← Forward.spell_bytes, ho, Forward.spell_bytes]
  · rw [← Forward.spell_osc, ho, Forward.spell_osc]

end Scanner

end Sheprd.Terminal
