import Sheprd.Review.Hunks

namespace Sheprd.Review

open Lib

variable {repair : List UInt8 → Chars}

structure GitName where
  text : Chars
  nonempty : text ≠ []
  noNul : '\x00' ∉ text

def digit (n : UInt8) : Char := Char.ofNat (48 + n.toNat)

def octalText (byte : UInt8) : Chars :=
  ['\\', digit (byte / 64), digit (byte / 8 % 8), digit (byte % 8)]

def isAscii (c : Char) : Bool := c.toNat < 128

def quoteChar (quotePath : Bool) (c : Char) : Chars :=
  if c = '"' then ['\\', '"']
  else if c = '\\' then ['\\', '\\']
  else if c = '\x07' then ['\\', 'a']
  else if c = '\x08' then ['\\', 'b']
  else if c = '\t' then ['\\', 't']
  else if c = '\n' then ['\\', 'n']
  else if c = '\x0b' then ['\\', 'v']
  else if c = '\x0c' then ['\\', 'f']
  else if c = '\r' then ['\\', 'r']
  else if c.toNat < 32 ∨ c.toNat = 127 ∨ quotePath = true ∧ ¬ isAscii c then
    (String.utf8EncodeChar c).flatMap octalText
  else [c]

def mustQuote (quotePath : Bool) (text : Chars) : Bool := text.any fun c => quoteChar quotePath c ≠ [c]

def label (quotePath : Bool) (lead text : Chars) : Chars :=
  if mustQuote quotePath text then '"' :: lead ++ text.flatMap (quoteChar quotePath) ++ ['"'] else lead ++ text

section Unquote

lemma unquoteBytes_plain {byte : UInt8} (h : byte ≠ 92) (rest : List UInt8) :
    unquoteBytes (byte :: rest) = byte :: unquoteBytes rest := by
  match rest with
  | [] => rfl
  | [_] => exact if_neg h
  | [_, _] => exact if_neg h
  | _ :: _ :: _ :: _ => exact if_neg h

lemma unquoteBytes_escape {escape : UInt8} (h : ¬ (48 ≤ escape ∧ escape ≤ 51)) (rest : List UInt8) :
    unquoteBytes (92 :: escape :: rest) = escaped escape :: unquoteBytes rest := by
  match rest with
  | [] => rfl
  | [_] => rfl
  | second :: third :: rest =>
    have hoctal : ¬ (48 ≤ escape ∧ escape ≤ 51 ∧ octal second = true ∧ octal third = true) := fun hall =>
      h ⟨hall.1, hall.2.1⟩
    exact if_neg hoctal

def octalBytes (byte : UInt8) : List UInt8 := [92, 48 + byte / 64, 48 + byte / 8 % 8, 48 + byte % 8]

lemma unquoteBytes_octal (byte : UInt8) (rest : List UInt8) :
    unquoteBytes (octalBytes byte ++ rest) = byte :: unquoteBytes rest := by
  have hdigits : ∀ n : Fin 256, (48 ≤ 48 + UInt8.ofFin n / 64 ∧ 48 + UInt8.ofFin n / 64 ≤ 51 ∧
      octal (48 + UInt8.ofFin n / 8 % 8) = true ∧ octal (48 + UInt8.ofFin n % 8) = true) ∧
      ((48 + UInt8.ofFin n / 64 - 48) <<< 6 ||| (48 + UInt8.ofFin n / 8 % 8 - 48) <<< 3 |||
        (48 + UInt8.ofFin n % 8 - 48)) = UInt8.ofFin n := by decide +kernel
  obtain ⟨hoctal, hbyte⟩ := hdigits byte.toFin
  refine Eq.trans (if_pos hoctal) ?_
  exact congrArg (· :: unquoteBytes rest) hbyte

lemma high_byte {n : ℕ} (h : 128 ≤ n) (h' : n < 256) : UInt8.ofNat n ≠ 92 := by
  intro heq
  have hnat := congrArg UInt8.toNat heq
  simp [UInt8.toNat_ofNat'] at hnat
  omega

lemma encode_ne {c : Char} (h : c ≠ '\\') : ∀ byte ∈ String.utf8EncodeChar c, byte ≠ 92 := by
  rw [String.utf8EncodeChar]
  split
  · rename_i hle
    intro byte hbyte
    obtain rfl := List.mem_singleton.mp hbyte
    intro heq
    have hnat := congrArg UInt8.toNat heq
    simp only [UInt8.toNat_ofNat'] at hnat
    have hval : c.val.toNat = 92 := by
      have hsmall : c.val.toNat % 2 ^ 8 = c.val.toNat := Nat.mod_eq_of_lt (by omega)
      rw [hsmall] at hnat
      exact hnat
    exact h (Char.toNat_inj.mp hval)
  · split
    · intro byte hbyte
      simp only [List.mem_cons, List.not_mem_nil, or_false] at hbyte
      obtain rfl | rfl := hbyte <;> exact high_byte (by omega) (by omega)
    · split
      · intro byte hbyte
        simp only [List.mem_cons, List.not_mem_nil, or_false] at hbyte
        obtain rfl | rfl | rfl := hbyte <;> exact high_byte (by omega) (by omega)
      · intro byte hbyte
        simp only [List.mem_cons, List.not_mem_nil, or_false] at hbyte
        obtain rfl | rfl | rfl | rfl := hbyte <;> exact high_byte (by omega) (by omega)

lemma unquoteBytes_append {bytes : List UInt8} (h : ∀ byte ∈ bytes, byte ≠ 92) (rest : List UInt8) :
    unquoteBytes (bytes ++ rest) = bytes ++ unquoteBytes rest := by
  induction bytes with
  | nil => rfl
  | cons byte bytes ih =>
    obtain ⟨hbyte, hbytes⟩ := List.forall_mem_cons.mp h
    rw [List.cons_append, unquoteBytes_plain hbyte, ih hbytes, List.cons_append]

lemma unquoteBytes_octals (bytes rest : List UInt8) :
    unquoteBytes (bytes.flatMap octalBytes ++ rest) = bytes ++ unquoteBytes rest := by
  induction bytes with
  | nil => rfl
  | cons byte bytes ih =>
    rw [List.flatMap_cons, List.append_assoc, unquoteBytes_octal, ih, List.cons_append]

lemma encode_octalText (byte : UInt8) : (octalText byte).flatMap String.utf8EncodeChar = octalBytes byte := by
  have hall : ∀ n : Fin 256, (octalText (UInt8.ofFin n)).flatMap String.utf8EncodeChar =
      octalBytes (UInt8.ofFin n) := by decide +kernel
  exact hall byte.toFin

lemma unquoteBytes_quoteChar (quotePath : Bool) (c : Char) (rest : List UInt8) :
    unquoteBytes ((quoteChar quotePath c).flatMap String.utf8EncodeChar ++ rest) =
      String.utf8EncodeChar c ++ unquoteBytes rest := by
  have hescape : ∀ {escape : Char} {byte : UInt8}, String.utf8EncodeChar escape = [byte] →
      ¬ (48 ≤ byte ∧ byte ≤ 51) → String.utf8EncodeChar c = [escaped byte] →
      unquoteBytes (['\\', escape].flatMap String.utf8EncodeChar ++ rest) =
        String.utf8EncodeChar c ++ unquoteBytes rest := by
    intro escape byte hencode hdigit hc
    have hbytes : ['\\', escape].flatMap String.utf8EncodeChar ++ rest = 92 :: byte :: rest := by
      rw [List.flatMap_cons, List.flatMap_cons, hencode]
      rfl
    rw [hbytes, unquoteBytes_escape hdigit, hc]
    rfl
  unfold quoteChar
  split
  · rename_i hc
    exact hescape (show String.utf8EncodeChar _ = [34] from rfl) (by decide) (hc ▸ rfl)
  split
  · rename_i hc
    exact hescape (show String.utf8EncodeChar _ = [92] from rfl) (by decide) (hc ▸ rfl)
  split
  · rename_i hc
    exact hescape (show String.utf8EncodeChar _ = [97] from rfl) (by decide) (hc ▸ rfl)
  split
  · rename_i hc
    exact hescape (show String.utf8EncodeChar _ = [98] from rfl) (by decide) (hc ▸ rfl)
  split
  · rename_i hc
    exact hescape (show String.utf8EncodeChar _ = [116] from rfl) (by decide) (hc ▸ rfl)
  split
  · rename_i hc
    exact hescape (show String.utf8EncodeChar _ = [110] from rfl) (by decide) (hc ▸ rfl)
  split
  · rename_i hc
    exact hescape (show String.utf8EncodeChar _ = [118] from rfl) (by decide) (hc ▸ rfl)
  split
  · rename_i hc
    exact hescape (show String.utf8EncodeChar _ = [102] from rfl) (by decide) (hc ▸ rfl)
  split
  · rename_i hc
    exact hescape (show String.utf8EncodeChar _ = [114] from rfl) (by decide) (hc ▸ rfl)
  split
  · rw [List.flatMap_assoc]
    simp only [encode_octalText]
    exact unquoteBytes_octals _ rest
  · rename_i hslash _ _ _ _ _ _ _ _
    rw [List.flatMap_singleton]
    exact unquoteBytes_append (encode_ne hslash) rest

lemma unquoteBytes_quoted (quotePath : Bool) (text : Chars) :
    unquoteBytes ((text.flatMap (quoteChar quotePath)).flatMap String.utf8EncodeChar) =
      text.flatMap String.utf8EncodeChar := by
  induction text with
  | nil => rfl
  | cons c text ih =>
    rw [List.flatMap_cons, List.flatMap_append, unquoteBytes_quoteChar, ih, List.flatMap_cons]

lemma fromUtf8Lossy_encode (text : Chars) : fromUtf8Lossy repair (text.flatMap String.utf8EncodeChar) = text := by
  have hvalid : String.fromUTF8? ⟨(text.flatMap String.utf8EncodeChar).toArray⟩ = some (String.ofList text) := by
    have hbytes : (⟨(text.flatMap String.utf8EncodeChar).toArray⟩ : ByteArray) = (String.ofList text).toByteArray := by
      change _ = text.utf8Encode
      refine ByteArray.ext ?_
      simp [List.utf8Encode]
    rw [hbytes]
    simp only [String.fromUTF8?, (String.ofList text).isValidUTF8, dif_pos]
    rfl
  rw [fromUtf8Lossy, hvalid]
  exact String.toList_ofList

lemma unquote_quoted (quotePath : Bool) {lead : Chars} (hlead : ∀ c ∈ lead, c ≠ '\\') (text : Chars) :
    unquote repair (lead ++ text.flatMap (quoteChar quotePath)) = lead ++ text := by
  have hbytes : ∀ byte ∈ lead.flatMap String.utf8EncodeChar, byte ≠ 92 := by
    intro byte hbyte
    obtain ⟨c, hc, hbyte⟩ := List.mem_flatMap.mp hbyte
    exact encode_ne (hlead c hc) byte hbyte
  rw [unquote, List.flatMap_append, unquoteBytes_append hbytes, unquoteBytes_quoted, ← List.flatMap_append,
    fromUtf8Lossy_encode]

end Unquote

section Path

variable {quotePath : Bool} {text lead : Chars}

def Plain (text : Chars) : Prop := ∀ c ∈ text, c ≠ '"' ∧ c ≠ '\\' ∧ c ≠ '\t' ∧ c ≠ '\r' ∧ c ≠ '\n'

lemma plain_of_quoteChar {c : Char} (h : quoteChar quotePath c = [c]) :
    c ≠ '"' ∧ c ≠ '\\' ∧ c ≠ '\t' ∧ c ≠ '\r' ∧ c ≠ '\n' := by
  refine ⟨?_, ?_, ?_, ?_, ?_⟩ <;> rintro rfl <;> exact absurd h (by simp [quoteChar])

lemma plain_of_unquoted (h : mustQuote quotePath text = false) : Plain text := by
  intro c hc
  have hsame := List.any_eq_false.mp h c hc
  exact plain_of_quoteChar (by simpa using hsame)

lemma Plain.append {front back : Chars} (h : Plain front) (h' : Plain back) : Plain (front ++ back) := by
  intro c hc
  exact (List.mem_append.mp hc).elim (h c) (h' c)

lemma Plain.sublist {front back : Chars} (h : Plain back) (hsub : front.Sublist back) : Plain front :=
  fun c hc => h c (hsub.subset hc)

lemma stripPrefix_plain (h : Plain text) (tab : Chars) (hne : text ≠ []) : Text.stripPrefix ['"'] (text ++ tab) = none := by
  obtain ⟨c, rest, rfl⟩ := List.exists_cons_of_ne_nil hne
  rw [List.cons_append, Text.stripPrefix, if_neg]
  simpa using (h c List.mem_cons_self).1

lemma exists_last {text : Chars} (h : text ≠ []) : ∃ front last, text = front ++ [last] :=
  ⟨text.dropLast, text.getLast h, (List.dropLast_append_getLast h).symm⟩

lemma trimEnd_last {c : Char} (hc : c ≠ '\r') (front : Chars) :
    Text.trimEndMatches '\r' (front ++ [c]) = front ++ [c] := Text.trimEndMatches_other hc front

lemma stripSuffix_last (mark : Char) (front : Chars) : Text.stripSuffix [mark] (front ++ [mark]) = some front := by
  simp [Text.stripSuffix, Text.stripPrefix]

lemma stripSuffix_other {mark c : Char} (h : c ≠ mark) (front : Chars) :
    Text.stripSuffix [mark] (front ++ [c]) = none := by
  simp [Text.stripSuffix, Text.stripPrefix, h]

lemma path_plain (hlead : Plain lead) (htext : Plain text) (hne : lead ++ text ≠ []) {tab : Chars}
    (htab : tab = [] ∨ tab = ['\t']) : path repair (lead ++ text ++ tab) lead = text := by
  have hplain := hlead.append htext
  obtain ⟨front, last, hlast⟩ := exists_last hne
  have hc := hplain last (hlast ▸ List.mem_append_right _ List.mem_cons_self)
  have htrim : Text.trimEndMatches '\r' (lead ++ text ++ tab) = lead ++ text ++ tab := by
    obtain rfl | rfl := htab
    · rw [List.append_nil, hlast]
      exact trimEnd_last hc.2.2.2.1 front
    · exact trimEnd_last (by simp) _
  have hcut : (Text.stripSuffix ['\t'] (lead ++ text ++ tab)).getD (lead ++ text ++ tab) = lead ++ text := by
    obtain rfl | rfl := htab
    · rw [List.append_nil, hlast, stripSuffix_other hc.2.2.1]
      rfl
    · rw [stripSuffix_last]
      rfl
  simp only [path, htrim, stripPrefix_plain hplain tab hne, Option.bind_none]
  rw [hcut, strip_append]
  rfl

lemma path_quoted (hlead : Plain lead) :
    path repair ('"' :: lead ++ text.flatMap (quoteChar quotePath) ++ ['"']) lead = text := by
  have hprefix' : Text.stripPrefix ['"'] ('"' :: lead ++ text.flatMap (quoteChar quotePath) ++ ['"']) =
      some (lead ++ text.flatMap (quoteChar quotePath) ++ ['"']) := by
    rw [List.cons_append, List.cons_append, Text.stripPrefix, if_pos List.mem_cons_self]
  have htrim : Text.trimEndMatches '\r' ('"' :: lead ++ text.flatMap (quoteChar quotePath) ++ ['"']) =
      '"' :: lead ++ text.flatMap (quoteChar quotePath) ++ ['"'] := trimEnd_last (by simp) _
  simp only [path, htrim, hprefix', Option.bind_some, stripSuffix_last]
  rw [unquote_quoted quotePath fun c hc => (hlead c hc).2.1, strip_append]
  rfl

lemma path_quoted_tab {c : Char} {rest : Chars} (hlead : c ≠ '"') :
    path repair ('"' :: (c :: rest) ++ text.flatMap (quoteChar quotePath) ++ ['"'] ++ ['\t']) (c :: rest) =
      '"' :: (c :: rest) ++ text.flatMap (quoteChar quotePath) ++ ['"'] := by
  have hprefix' : Text.stripPrefix ['"']
      ('"' :: (c :: rest) ++ text.flatMap (quoteChar quotePath) ++ ['"'] ++ ['\t']) =
      some ((c :: rest) ++ text.flatMap (quoteChar quotePath) ++ ['"'] ++ ['\t']) := by
    rw [List.cons_append, List.cons_append, List.cons_append, Text.stripPrefix, if_pos List.mem_cons_self]
  have hstrip : strip (c :: rest) ('"' :: (c :: rest) ++ text.flatMap (quoteChar quotePath) ++ ['"']) = none := by
    rw [strip, if_neg]
    simp [List.isPrefixOf, hlead]
  have htab := stripSuffix_other (show '\t' ≠ '"' by simp)
    ((c :: rest) ++ text.flatMap (quoteChar quotePath) ++ ['"'])
  have htrim : Text.trimEndMatches '\r' ('"' :: (c :: rest) ++ text.flatMap (quoteChar quotePath) ++ ['"'] ++ ['\t']) =
      '"' :: (c :: rest) ++ text.flatMap (quoteChar quotePath) ++ ['"'] ++ ['\t'] := trimEnd_last (by simp) _
  simp only [path, htrim, hprefix', Option.bind_some, htab, stripSuffix_last, Option.getD_some, hstrip, Option.getD_none]

end Path

section Header

variable {pattern text found : Chars} {c : Char}

lemma rfind_append (front : Chars) (h : rfind pattern text = some found) : rfind pattern (front ++ text) = some found := by
  induction front with
  | nil => exact h
  | cons c front ih => rw [List.cons_append, rfind, ih]

lemma rfind_here (h : rfind pattern text = none) (hprefix' : pattern <+: c :: text) :
    rfind pattern (c :: text) = some (c :: text) := by
  rw [rfind, h]
  exact if_pos (List.isPrefixOf_iff_prefix.mpr hprefix')

lemma rfind_skip (h : ¬ pattern <+: c :: text) : rfind pattern (c :: text) = rfind pattern text := by
  rw [rfind]
  split
  · rename_i hfound
    rw [hfound]
  · rename_i hnone
    rw [if_neg (mt List.isPrefixOf_iff_prefix.mp h), hnone]

lemma rfind_some (h : rfind pattern text = some found) : found <:+ text ∧ pattern <+: found := by
  induction text with
  | nil => exact absurd h (by simp [rfind])
  | cons c text ih =>
    rw [rfind] at h
    split at h
    · rename_i hrest
      obtain ⟨hsuffix, hprefix'⟩ := ih (hrest.trans h)
      exact ⟨hsuffix.trans (List.suffix_cons c text), hprefix'⟩
    · split at h
      · rename_i hhere
        obtain rfl := Option.some.inj h
        exact ⟨List.suffix_refl _, List.isPrefixOf_iff_prefix.mp hhere⟩
      · exact absurd h (by simp)

lemma rfind_none_iff (hne : pattern ≠ []) : rfind pattern text = none ↔ ¬ pattern <:+: text := by
  induction text with
  | nil => simp [rfind, hne]
  | cons c text ih =>
    rw [List.infix_cons_iff, not_or]
    by_cases hhere : pattern <+: c :: text
    · refine iff_of_false ?_ fun h => h.1 hhere
      intro hnone
      rw [rfind] at hnone
      split at hnone
      · exact absurd hnone (by simp)
      · exact absurd hnone (by rw [if_pos (List.isPrefixOf_iff_prefix.mpr hhere)]; simp)
    · rw [rfind_skip hhere, ih]
      exact ⟨fun h => ⟨hhere, h⟩, fun h => h.2⟩

def separator : Chars := [' ', 'b', '/']

def quotedSeparator : Chars := [' ', '"', 'b', '/']

lemma newLead_plain : Plain ['b', '/'] := by
  intro c hc
  simp only [List.mem_cons, List.not_mem_nil, or_false] at hc
  obtain rfl | rfl := hc <;> simp

variable {quotePath : Bool} {name : Chars}

lemma headerName_plain (front : Chars) (hplain : Plain name) (hne : name ≠ []) :
    headerName repair (front ++ ' ' :: (['b', '/'] ++ name)) = name ↔ ¬ separator <:+: name := by
  have hlast : (front ++ ' ' :: (['b', '/'] ++ name)).getLast? ≠ some '"' := by
    obtain ⟨start, last, rfl⟩ := exists_last hne
    have hc := (hplain last (List.mem_append_right _ List.mem_cons_self)).1
    have hjoin : front ++ ' ' :: (['b', '/'] ++ (start ++ [last])) = (front ++ ' ' :: (['b', '/'] ++ start)) ++ [last] := by
      simp
    rw [hjoin, List.getLast?_concat]
    simpa using hc
  have hskip : ∀ text, rfind separator ('b' :: '/' :: text) = rfind separator text := by
    intro text
    rw [rfind_skip (by simp [separator]), rfind_skip (by simp [separator])]
  rw [← rfind_none_iff (by simp [separator])]
  unfold headerName
  rw [if_neg hlast]
  change path repair (((rfind separator _).map (List.drop 1)).getD _) _ = name ↔ _
  cases hfound : rfind separator name with
  | none =>
    have hhere : rfind separator (' ' :: (['b', '/'] ++ name)) = some (' ' :: (['b', '/'] ++ name)) :=
      rfind_here ((hskip name).trans hfound) ⟨name, rfl⟩
    refine iff_of_true ?_ rfl
    rw [rfind_append front hhere]
    have hpath : path repair (['b', '/'] ++ name ++ []) ['b', '/'] = name :=
      path_plain newLead_plain hplain (by simp) (Or.inl rfl)
    simpa using hpath
  | some found =>
    have hthere : rfind separator (' ' :: (['b', '/'] ++ name)) = some found := by
      rw [rfind]
      have hrest : rfind separator (['b', '/'] ++ name) = some found := (hskip name).trans hfound
      rw [hrest]
    obtain ⟨hsuffix, rest, hrest⟩ := rfind_some hfound
    refine iff_of_false ?_ (by simp)
    rw [rfind_append front hthere, ← hrest]
    have hsub : rest.Sublist name := (hrest ▸ List.sublist_append_right separator rest).trans hsuffix.sublist
    have hpath : path repair (['b', '/'] ++ rest ++ []) ['b', '/'] = rest :=
      path_plain newLead_plain (hplain.sublist hsub) (by simp) (Or.inl rfl)
    rw [List.append_nil] at hpath
    intro hname
    have heq : rest = name := hpath.symm.trans hname
    have hlength := hsuffix.length_le
    rw [← hrest, List.length_append, heq] at hlength
    simp [separator] at hlength

lemma octal_spaceless (byte : UInt8) : ' ' ∉ octalText byte := by
  have hall : ∀ n : Fin 256, ' ' ∉ octalText (UInt8.ofFin n) := by decide +kernel
  exact hall byte.toFin

lemma quoteChar_cases (quotePath : Bool) (c : Char) :
    (' ' ∉ quoteChar quotePath c ∨ c = ' ') ∧ (quoteChar quotePath c).head? ≠ some '"' := by
  have hescape : ∀ letter, letter ≠ ' ' → (' ' ∉ ['\\', letter] ∨ c = ' ') ∧ ['\\', letter].head? ≠ some '"' := by
    intro letter hletter
    refine ⟨Or.inl ?_, by simp⟩
    simpa using hletter.symm
  unfold quoteChar
  split
  · exact hescape '"' (by simp)
  split
  · exact hescape '\\' (by simp)
  split
  · exact hescape 'a' (by simp)
  split
  · exact hescape 'b' (by simp)
  split
  · exact hescape 't' (by simp)
  split
  · exact hescape 'n' (by simp)
  split
  · exact hescape 'v' (by simp)
  split
  · exact hescape 'f' (by simp)
  split
  · exact hescape 'r' (by simp)
  split
  · refine ⟨Or.inl ?_, ?_⟩
    · intro hmem
      obtain ⟨byte, -, hbyte⟩ := List.mem_flatMap.mp hmem
      exact octal_spaceless byte hbyte
    · cases String.utf8EncodeChar c with
      | nil => simp
      | cons byte bytes => simp [octalText]
  · rename_i hquote _ _ _ _ _ _ _ _ _
    refine ⟨?_, by simpa using hquote⟩
    by_cases hc : c = ' '
    · exact Or.inr hc
    · exact Or.inl (by simpa using Ne.symm hc)

lemma rfind_spaceless {front : Chars} (h : ' ' ∉ front) (rest back : Chars) :
    rfind (' ' :: rest) (front ++ back) = rfind (' ' :: rest) back := by
  induction front with
  | nil => rfl
  | cons c front ih =>
    obtain ⟨hc, hfront⟩ := not_or.mp (mt List.mem_cons.mpr h)
    rw [List.cons_append, rfind_skip (fun hhere => hc (List.cons_prefix_cons.mp hhere).1), ih hfront]

lemma rfind_quoted (quotePath : Bool) (name : Chars) :
    rfind quotedSeparator (name.flatMap (quoteChar quotePath) ++ ['"']) = none := by
  induction name with
  | nil => simp [rfind, quotedSeparator]
  | cons c name ih =>
    rw [List.flatMap_cons, List.append_assoc]
    obtain hspace | rfl := (quoteChar_cases quotePath c).1
    · exact (rfind_spaceless hspace _ _).trans ih
    · have hsame : quoteChar quotePath ' ' = [' '] := by simp [quoteChar, isAscii]
      rw [hsame, List.singleton_append]
      refine (rfind_skip ?_).trans ih
      intro hhere
      have hnext := (List.cons_prefix_cons.mp hhere).2
      cases name with
      | nil => simp at hnext
      | cons next name =>
        rw [List.flatMap_cons, List.append_assoc] at hnext
        have hhead := (quoteChar_cases quotePath next).2
        cases hquoted : quoteChar quotePath next with
        | nil =>
          have hbytes := unquoteBytes_quoteChar quotePath next []
          rw [hquoted] at hbytes
          simp [unquoteBytes] at hbytes
        | cons first others =>
          rw [hquoted] at hnext hhead
          have hfirst := (List.cons_prefix_cons.mp hnext).1
          exact hhead (congrArg some hfirst.symm)

lemma headerName_quoted (front : Chars) :
    headerName repair (front ++ ' ' :: ('"' :: ['b', '/'] ++ name.flatMap (quoteChar quotePath) ++ ['"'])) = name := by
  have hend : (front ++ ' ' :: ('"' :: ['b', '/'] ++ name.flatMap (quoteChar quotePath) ++ ['"'])).getLast? = some '"' := by
    have hjoin : front ++ ' ' :: ('"' :: ['b', '/'] ++ name.flatMap (quoteChar quotePath) ++ ['"']) =
        (front ++ ' ' :: ('"' :: ['b', '/'] ++ name.flatMap (quoteChar quotePath))) ++ ['"'] := by simp
    rw [hjoin, List.getLast?_concat]
  have hhere : rfind quotedSeparator (' ' :: ('"' :: ['b', '/'] ++ name.flatMap (quoteChar quotePath) ++ ['"'])) =
      some (' ' :: ('"' :: ['b', '/'] ++ name.flatMap (quoteChar quotePath) ++ ['"'])) := by
    refine rfind_here ?_ ?_
    · have hlead : ' ' ∉ ['"', 'b', '/'] := by simp
      have hskip := rfind_spaceless hlead ['"', 'b', '/'] (name.flatMap (quoteChar quotePath) ++ ['"'])
      exact hskip.trans (rfind_quoted quotePath name)
    · exact ⟨name.flatMap (quoteChar quotePath) ++ ['"'], rfl⟩
  have hname : headerName repair (front ++ ' ' :: ('"' :: ['b', '/'] ++ name.flatMap (quoteChar quotePath) ++ ['"'])) =
      path repair (((rfind quotedSeparator
        (front ++ ' ' :: ('"' :: ['b', '/'] ++ name.flatMap (quoteChar quotePath) ++ ['"']))).map (List.drop 1)).getD
        (front ++ ' ' :: ('"' :: ['b', '/'] ++ name.flatMap (quoteChar quotePath) ++ ['"']))) ['b', '/'] := by
    rw [headerName, if_pos hend]
    rfl
  rw [hname, rfind_append front hhere]
  exact path_quoted newLead_plain

end Header

end Sheprd.Review

namespace Sheprd.Review

open Lib

inductive Extended where
  | index
  | oldMode
  | newMode
  | similarity
  | dissimilarity

def Extended.mark : Extended → Chars
  | index => "index ".toList
  | oldMode => "old mode ".toList
  | newMode => "new mode ".toList
  | similarity => "similarity index ".toList
  | dissimilarity => "dissimilarity index ".toList

structure Extension where
  kind : Extended
  text : Chars
  clean : ∀ c ∈ text, c ≠ '\n' ∧ c ≠ '\r'

def Extension.raw (line : Extension) : Chars := line.kind.mark ++ line.text

inductive Origin where
  | modified
  | added (mode : ℕ)
  | deleted (mode : ℕ)
  | renamed (old : GitName)
  | copied (old : GitName)

inductive Mark where
  | context
  | added
  | removed
  | remark

def Mark.char : Mark → Char
  | context => ' '
  | added => '+'
  | removed => '-'
  | remark => '\\'

structure PrintedLine where
  mark : Mark
  text : Chars
  whole : '\n' ∉ text

def PrintedLine.raw (line : PrintedLine) : Chars := line.mark.char :: line.text

structure PrintedHunk where
  old : UInt32
  oldLength : Option ℕ
  new : UInt32
  newLength : Option ℕ
  tail : Chars
  whole : '\n' ∉ tail
  lines : List PrintedLine

def rangeText (start : UInt32) (length : Option ℕ) : Chars :=
  start.toNat.repr.toList ++
    match length with
    | none => []
    | some length => ',' :: length.repr.toList

namespace PrintedHunk

def header (hunk : PrintedHunk) : Chars :=
  hunkMark ++ ('-' :: rangeText hunk.old hunk.oldLength ++
    ' ' :: ('+' :: rangeText hunk.new hunk.newLength ++ ' ' :: '@' :: '@' :: hunk.tail))

def raws (hunk : PrintedHunk) : List Chars := hunk.header :: hunk.lines.map PrintedLine.raw

end PrintedHunk

inductive Contents where
  | nothing
  | binary
  | text (hunks : List PrintedHunk)

structure Section where
  name : GitName
  origin : Origin
  before : List Extension
  after : List Extension
  contents : Contents

namespace Section

def oldName (part : Section) : Chars :=
  match part.origin with
  | .renamed old => old.text
  | .copied old => old.text
  | _ => part.name.text

def status (part : Section) : Status :=
  match part.origin with
  | .modified => .modified
  | .added _ => .added
  | .deleted _ => .deleted
  | .renamed _ => .renamed
  | .copied _ => .added

def oldPath (part : Section) : Option Chars :=
  match part.origin with
  | .renamed old => some old.text
  | _ => none

section Render

variable (quotePath : Bool) (part : Section)

def oldLabel : Chars := label quotePath ['a', '/'] part.oldName

def newLabel : Chars := label quotePath ['b', '/'] part.name.text

def head : Chars := part.oldLabel quotePath ++ ' ' :: part.newLabel quotePath

def oldSide : Chars :=
  match part.origin with
  | .added _ => "/dev/null".toList
  | _ => part.oldLabel quotePath

def newSide : Chars :=
  match part.origin with
  | .deleted _ => "/dev/null".toList
  | _ => part.newLabel quotePath

def changeLines : List Chars :=
  match part.origin with
  | .modified => []
  | .added mode => ["new file mode ".toList ++ mode.repr.toList]
  | .deleted mode => ["deleted file mode ".toList ++ mode.repr.toList]
  | .renamed old =>
      ["rename from ".toList ++ label quotePath [] old.text, "rename to ".toList ++ label quotePath [] part.name.text]
  | .copied old =>
      ["copy from ".toList ++ label quotePath [] old.text, "copy to ".toList ++ label quotePath [] part.name.text]

def tabbed (name : Chars) : Chars := if ' ' ∈ name then name ++ ['\t'] else name

def contentLines : List Chars :=
  match part.contents with
  | .nothing => []
  | .binary =>
      ["Binary files ".toList ++ part.oldSide quotePath ++ " and ".toList ++ part.newSide quotePath ++ " differ".toList]
  | .text hunks =>
      ("--- ".toList ++ tabbed (part.oldSide quotePath)) :: ("+++ ".toList ++ tabbed (part.newSide quotePath)) ::
        hunks.flatMap PrintedHunk.raws

def body : List Chars :=
  part.before.map Extension.raw ++ part.changeLines quotePath ++ part.after.map Extension.raw ++
    part.contentLines quotePath

def raws : List Chars := (fileMark ++ part.head quotePath) :: part.body quotePath

end Render

end Section

def render (quotePath : Bool) (parts : List Section) : Chars :=
  (parts.flatMap (Section.raws quotePath)).flatMap fun raw => raw ++ ['\n']

def cutReturn (raw : Chars) : Chars := (Text.stripSuffix ['\r'] raw).getD raw

section Clean

variable {quotePath : Bool} {part : Section}

def Clean (raw : Chars) : Prop := ∀ c ∈ raw, c ≠ '\n' ∧ c ≠ '\r'

lemma Clean.append {front back : Chars} (h : Clean front) (h' : Clean back) : Clean (front ++ back) := by
  intro c hc
  exact (List.mem_append.mp hc).elim (h c) (h' c)

lemma clean_of_plain {text : Chars} (h : Plain text) : Clean text := fun c hc => ⟨(h c hc).2.2.2.2, (h c hc).2.2.2.1⟩

lemma clean_digits (n : ℕ) : Clean n.repr.toList := by
  intro c hc
  have hdigit := Text.isDigit_of_repr hc
  refine ⟨?_, ?_⟩ <;> rintro rfl <;> exact absurd hdigit (by decide)

lemma octal_clean (byte : UInt8) : Clean (octalText byte) := by
  have hall : ∀ n : Fin 256, (octalText (UInt8.ofFin n)).all (fun c => decide (c ≠ '\n' ∧ c ≠ '\r')) = true := by
    decide +kernel
  exact fun c hc => of_decide_eq_true (List.all_eq_true.mp (hall byte.toFin) c hc)

lemma quoteChar_clean (c : Char) : Clean (quoteChar quotePath c) := by
  have hescape : ∀ letter, letter ≠ '\n' ∧ letter ≠ '\r' → Clean ['\\', letter] := by
    intro letter hletter d hd
    simp only [List.mem_cons, List.not_mem_nil, or_false] at hd
    obtain rfl | rfl := hd
    · simp
    · exact hletter
  unfold quoteChar
  split
  · exact hescape '"' (by simp)
  split
  · exact hescape '\\' (by simp)
  split
  · exact hescape 'a' (by simp)
  split
  · exact hescape 'b' (by simp)
  split
  · exact hescape 't' (by simp)
  split
  · exact hescape 'n' (by simp)
  split
  · exact hescape 'v' (by simp)
  split
  · exact hescape 'f' (by simp)
  split
  · exact hescape 'r' (by simp)
  split
  · intro d hd
    obtain ⟨byte, -, hbyte⟩ := List.mem_flatMap.mp hd
    exact octal_clean byte d hbyte
  · rename_i hline _ _ hreturn _
    intro d hd
    obtain rfl := List.mem_singleton.mp hd
    exact ⟨hline, hreturn⟩

lemma clean_label {lead : Chars} (hlead : Clean lead) (text : Chars) : Clean (label quotePath lead text) := by
  rw [label]
  split
  · have hquote : Clean ['"'] := by
      intro c hc
      obtain rfl := List.mem_singleton.mp hc
      simp
    have hlead : Clean ('"' :: lead) := hquote.append hlead
    refine (hlead.append ?_).append hquote
    intro c hc
    obtain ⟨d, -, hd⟩ := List.mem_flatMap.mp hc
    exact quoteChar_clean d c hd
  · rename_i hplain
    exact hlead.append (clean_of_plain (plain_of_unquoted (by simpa using hplain)))

lemma clean_side {name : Chars} (h : Clean name) : Clean (Section.tabbed name) := by
  rw [Section.tabbed]
  split
  · refine h.append ?_
    intro c hc
    obtain rfl := List.mem_singleton.mp hc
    simp
  · exact h

lemma cutReturn_clean {raw : Chars} (h : Clean raw) : cutReturn raw = raw := by
  rw [cutReturn]
  cases hraw : raw.reverse with
  | nil => simp [Text.stripSuffix, hraw, Text.stripPrefix]
  | cons c rest =>
    have hc : c ∈ raw := List.mem_reverse.mp (hraw ▸ List.mem_cons_self)
    simp [Text.stripSuffix, hraw, Text.stripPrefix, (h c hc).2]

lemma cutReturn_append {c : Char} (hc : c ≠ '\r') (front text : Chars) :
    ∃ rest, cutReturn (front ++ c :: text) = front ++ c :: rest := by
  rw [cutReturn]
  cases htext : text.reverse with
  | nil =>
    obtain rfl := List.reverse_eq_nil_iff.mp htext
    refine ⟨[], ?_⟩
    rw [stripSuffix_other hc]
    rfl
  | cons last rest =>
    have heq : text = rest.reverse ++ [last] := by rw [← List.reverse_reverse text, htext, List.reverse_cons]
    have hjoin : front ++ c :: text = (front ++ c :: rest.reverse) ++ [last] := by rw [heq]; simp
    rw [hjoin]
    by_cases hlast : last = '\r'
    · refine ⟨rest.reverse, ?_⟩
      rw [hlast, stripSuffix_last]
      rfl
    · refine ⟨rest.reverse ++ [last], ?_⟩
      rw [stripSuffix_other hlast]
      simp

end Clean

end Sheprd.Review
