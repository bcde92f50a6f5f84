import Sheprd.Lib.Base64
import Sheprd.Lib.Bincode
import Sheprd.Protocol.SurfaceEncodings

namespace Sheprd.Protocol

open Sheprd.Lib Sheprd.Lib.Bincode

namespace Encode

open Sheprd.Lib.Bincode.Encode

def cellData (cell : CellData) : List UInt8 :=
  [string cell.symbol, u32 cell.fg, u32 cell.bg, u16 cell.modifier, bool cell.skip,
    option u32 cell.hyperlink].flatten

def cursorState (cursor : CursorState) : List UInt8 :=
  [u16 cursor.x, u16 cursor.y, bool cursor.visible, u8 cursor.shape].flatten

def surfaceRect (rect : SurfaceRect) : List UInt8 :=
  [u16 rect.x, u16 rect.y, u16 rect.width, u16 rect.height].flatten

def scrollMetrics (scroll : PaneSurfaceScrollMetrics) : List UInt8 :=
  [u64 scroll.offsetFromBottom, u64 scroll.maxOffsetFromBottom, u64 scroll.viewportRows].flatten

def surfacePane (pane : PaneSurfacePane) : List UInt8 :=
  [string pane.paneId, u64 pane.contentRevision, surfaceRect pane.rect, surfaceRect pane.innerRect,
    option surfaceRect pane.scrollbarRect, option scrollMetrics pane.scroll, bool pane.focused,
    bool pane.mouseReporting, bool pane.sgrPixelMouse, bool pane.alternateScreenActive,
    u32 pane.pixelWidth, u32 pane.pixelHeight].flatten

def patchRow (row : PaneSurfacePatchRow) : List UInt8 :=
  [u16 row.x, u16 row.y, vec cellData row.cells].flatten

def paneSurfacePatch (patch : PaneSurfacePatch) : List UInt8 :=
  [string patch.bootId, u64 patch.projectionRevision, u64 patch.baseSurfaceRevision,
    u64 patch.surfaceRevision, vec patchRow patch.rows, vec surfacePane patch.panes,
    option cursorState patch.cursor].flatten

def patchMessage (patch : PaneSurfacePatch) : List UInt8 := u32 19 ++ paneSurfacePatch patch

end Encode

def encodeMessage (payload : List UInt8) (limit : ℕ) : Except Error (List UInt8) :=
  if min limit (2 ^ 32 - 1) < payload.length then .error .encode
  else if payload = [] then .error .emptyFrame
  else .ok (Encode.littleEndian 4 payload.length ++ payload)

def scrollHeader (scroll : SurfaceScroll) : List UInt8 :=
  [scroll.rect.x, scroll.rect.y, scroll.rect.width, scroll.rect.height, scroll.shift.toUInt16].flatMap
    fun n => Encode.littleEndian 2 n.toNat

def ScrollPatch.encode (base64 : List UInt8 → String) (scroll : ScrollPatch) :
    Except Error String :=
  if 255 < scroll.scrolls.length then .error .scrollCount
  else do
    let framed ← encodeMessage (Encode.patchMessage scroll.patch) maxFrameSize
    return base64 (UInt8.ofNat scroll.scrolls.length :: scroll.scrolls.flatMap scrollHeader ++ framed)

section Reads

lemma reads_cellData (cell : CellData) : Reads Decode.cellData (Encode.cellData cell) cell :=
  (Reads.string _).field <| (Reads.u32 _).field <| (Reads.u32 _).field <| (Reads.u16 _).field <|
    (Reads.bool _).field <| (Reads.option fun _ _ => Reads.u32 _).field <| .pure _

lemma reads_cursorState (cursor : CursorState) :
    Reads Decode.cursorState (Encode.cursorState cursor) cursor :=
  (Reads.u16 _).field <| (Reads.u16 _).field <| (Reads.bool _).field <| (Reads.u8 _).field <| .pure _

lemma reads_surfaceRect (rect : SurfaceRect) :
    Reads Decode.surfaceRect (Encode.surfaceRect rect) rect :=
  (Reads.u16 _).field <| (Reads.u16 _).field <| (Reads.u16 _).field <| (Reads.u16 _).field <| .pure _

lemma reads_scrollMetrics (scroll : PaneSurfaceScrollMetrics) :
    Reads Decode.scrollMetrics (Encode.scrollMetrics scroll) scroll :=
  (Reads.u64 _).field <| (Reads.u64 _).field <| (Reads.u64 _).field <| .pure _

lemma reads_surfacePane (pane : PaneSurfacePane) :
    Reads Decode.surfacePane (Encode.surfacePane pane) pane :=
  (Reads.string _).field <| (Reads.u64 _).field <| (reads_surfaceRect _).field <|
    (reads_surfaceRect _).field <| (Reads.option fun _ _ => reads_surfaceRect _).field <|
    (Reads.option fun _ _ => reads_scrollMetrics _).field <| (Reads.bool _).field <|
    (Reads.bool _).field <| (Reads.bool _).field <| (Reads.bool _).field <| (Reads.u32 _).field <|
    (Reads.u32 _).field <| .pure _

lemma string_pos (s : String) : 0 < (Bincode.Encode.string s).length := by
  have := Encode.varint_pos s.toByteArray.data.toList.length
  rw [Encode.string, List.length_append]
  omega

lemma cellData_pos (cell : CellData) : 0 < (Encode.cellData cell).length := by
  have := string_pos cell.symbol
  rw [Encode.cellData, List.flatten_cons, List.length_append]
  omega

lemma surfacePane_pos (pane : PaneSurfacePane) : 0 < (Encode.surfacePane pane).length := by
  have := string_pos pane.paneId
  rw [Encode.surfacePane, List.flatten_cons, List.length_append]
  omega

lemma patchRow_pos (row : PaneSurfacePatchRow) : 0 < (Encode.patchRow row).length := by
  have := Encode.varint_pos row.x.toNat
  rw [Encode.patchRow, List.flatten_cons, List.length_append, Encode.u16]
  omega

lemma reads_patchRow (row : PaneSurfacePatchRow) :
    Reads Decode.patchRow (Encode.patchRow row) row :=
  (Reads.u16 _).field <| (Reads.u16 _).field <|
    (Reads.vec (fun _ _ => reads_cellData _) fun _ _ => cellData_pos _).field <| .pure _

lemma reads_paneSurfacePatch (patch : PaneSurfacePatch) :
    Reads Decode.paneSurfacePatch (Encode.paneSurfacePatch patch) patch :=
  (Reads.string _).field <| (Reads.u64 _).field <| (Reads.u64 _).field <| (Reads.u64 _).field <|
    (Reads.vec (fun _ _ => reads_patchRow _) fun _ _ => patchRow_pos _).field <|
    (Reads.vec (fun _ _ => reads_surfacePane _) fun _ _ => surfacePane_pos _).field <|
    (Reads.option fun _ _ => reads_cursorState _).field <| .pure _

lemma reads_patchMessage (patch : PaneSurfacePatch) :
    Reads Decode.serverMessage (Encode.patchMessage patch) (.paneSurfacePatch patch) :=
  (Reads.u32 19).bind ((reads_paneSurfacePatch patch).last rfl)

end Reads

lemma encodeMessage_ok {payload framed : List UInt8} {limit : ℕ}
    (h : encodeMessage payload limit = .ok framed) :
    payload ≠ [] ∧ payload.length ≤ limit ∧ payload.length < 2 ^ 32 ∧
      framed = Encode.littleEndian 4 payload.length ++ payload := by
  rw [encodeMessage] at h
  split_ifs at h with long nothing
  · rw [not_lt, le_min_iff] at long
    exact ⟨nothing, long.1, by omega, (Except.ok.inj h).symm⟩

lemma readMessage_framed {α : Type} {d : Decoder α} {a : α} {payload : List UInt8} {limit : ℕ}
    (reads : Reads d payload a) (nonempty : payload ≠ []) (within : payload.length ≤ limit)
    (small : 8 * payload.length ≤ maxGraphicsFrameSize) :
    readMessage d limit (Encode.littleEndian 4 payload.length ++ payload) = .ok (a, []) := by
  simp only [maxGraphicsFrameSize] at small
  have head : (Encode.littleEndian 4 payload.length).length = 4 := Encode.length_littleEndian _ _
  have pos := List.length_pos_of_ne_nil nonempty
  obtain ⟨claimed, -, taken⟩ := reads [] 0 maxGraphicsFrameSize
    (by rw [maxGraphicsFrameSize]; omega) (by decide)
  rw [List.append_nil] at taken
  have decoded : decodePayload d payload = .ok a := by
    have empty : payload.isEmpty = false := by simpa using nonempty
    have wide : ¬maxGraphicsFrameSize < payload.length := by
      rw [maxGraphicsFrameSize]
      omega
    rw [decodePayload, empty, taken]
    simp [wide]
  rw [readMessage, List.length_append, head, if_neg (by omega), List.take_left' head,
    List.drop_left' head, Encode.littleEndian_read (by omega)]
  simp only
  rw [if_neg (by rw [maxGraphicsFrameSize]; omega), if_neg (by omega), List.take_length,
    List.drop_length, decoded]
  rfl

lemma scrollHeader_length (scroll : SurfaceScroll) : (scrollHeader scroll).length = scrollBytes := by
  simp [scrollHeader, Encode.length_littleEndian, scrollBytes]

lemma scrollAt_header (scroll : SurfaceScroll) (more : List UInt8) :
    scrollAt (scrollHeader scroll ++ more) = scroll := by
  have two (n : UInt16) : Encode.littleEndian 2 n.toNat =
      [UInt8.ofNat (n.toNat % 256), UInt8.ofNat (n.toNat / 256 % 256)] := rfl
  have read (n : UInt16) : UInt16.ofNat (littleEndian
      [UInt8.ofNat (n.toNat % 256), UInt8.ofNat (n.toNat / 256 % 256)]) = n := by
    rw [← two, Encode.littleEndian_read n.toNat_lt, UInt16.ofNat_toNat]
  simp [scrollAt, scrollHeader, two, read]

lemma scrolls_read (scrolls : List SurfaceScroll) (more : List UInt8) :
    ((List.range scrolls.length).map fun i =>
      scrollAt ((scrolls.flatMap scrollHeader ++ more).drop (i * scrollBytes))) = scrolls := by
  induction scrolls with
  | nil => rfl
  | cons scroll scrolls ih =>
    have later (i : ℕ) : ((scrollHeader scroll ++ (scrolls.flatMap scrollHeader ++ more)).drop
        ((i + 1) * scrollBytes)) = (scrolls.flatMap scrollHeader ++ more).drop (i * scrollBytes) := by
      rw [Nat.succ_mul, Nat.add_comm, ← List.drop_drop, List.drop_left' (scrollHeader_length scroll)]
    rw [List.length_cons, List.range_succ_eq_map, List.map_cons, List.map_map, List.flatMap_cons,
      List.append_assoc, Nat.zero_mul, List.drop_zero, scrollAt_header]
    congr 1
    simpa only [Function.comp_def, later] using ih

lemma scrolls_length (scrolls : List SurfaceScroll) :
    (scrolls.flatMap scrollHeader).length = scrolls.length * scrollBytes := by
  induction scrolls with
  | nil => simp
  | cons scroll scrolls ih =>
    rw [List.flatMap_cons, List.length_append, scrollHeader_length, ih, List.length_cons, Nat.succ_mul,
      Nat.add_comm]

lemma encodedLen_le_iff (n m : ℕ) : encodedLen n ≤ encodedLen m ↔ n ≤ m := by
  rw [encodedLen, encodedLen]
  split_ifs <;> omega

section Codec

variable {encode : List UInt8 → String} {decode : String → Option (List UInt8)} {scroll : ScrollPatch}
  {data : String}

lemma encode_ok (h : scroll.encode encode = .ok data) :
    Encode.patchMessage scroll.patch ≠ [] ∧
      (Encode.patchMessage scroll.patch).length ≤ maxFrameSize ∧
      data = encode (UInt8.ofNat scroll.scrolls.length :: scroll.scrolls.flatMap scrollHeader ++
        (Encode.littleEndian 4 (Encode.patchMessage scroll.patch).length ++
          Encode.patchMessage scroll.patch)) := by
  rw [ScrollPatch.encode] at h
  split_ifs at h
  · obtain ⟨framed, hf, h⟩ := bind_eq_ok.mp h
    obtain ⟨nonempty, within, -, rfl⟩ := encodeMessage_ok hf
    exact ⟨nonempty, within, (Except.ok.inj h).symm⟩

def ScrollPatch.size (scroll : ScrollPatch) : ℕ :=
  1 + scroll.scrolls.length * scrollBytes + 4 + (Encode.patchMessage scroll.patch).length

lemma decode_encoded (h : scroll.encode encode = .ok data)
    (decodes : ∀ bytes, decode (encode bytes) = some bytes)
    (sized : ∀ bytes, (encode bytes).utf8ByteSize = encodedLen bytes.length)
    (some_scrolls : 0 < scroll.scrolls.length) (few : scroll.scrolls.length ≤ maxScrolls) :
    decodeScroll decode data =
      if scroll.size ≤ maxFrameSize then .ok scroll else .error .encodingLimit := by
  obtain ⟨nonempty, within, rfl⟩ := encode_ok h
  have count : (UInt8.ofNat scroll.scrolls.length).toNat = scroll.scrolls.length := by
    rw [UInt8.toNat_ofNat']
    rw [maxScrolls] at few
    omega
  have size := scrolls_length scroll.scrolls
  have limit : encodedLen maxFrameSize < (encode (UInt8.ofNat scroll.scrolls.length ::
      scroll.scrolls.flatMap scrollHeader ++ (Encode.littleEndian 4
        (Encode.patchMessage scroll.patch).length ++ Encode.patchMessage scroll.patch))).utf8ByteSize ↔
      ¬scroll.size ≤ maxFrameSize := by
    rw [sized, ← not_le, encodedLen_le_iff, ScrollPatch.size]
    simp only [List.length_append, List.length_cons, size, Encode.length_littleEndian]
    omega
  rw [decodeScroll]
  by_cases fits : scroll.size ≤ maxFrameSize
  · rw [if_neg (by rw [limit]; exact not_not.mpr fits), if_pos fits, decodes]
    simp only [List.cons_append, count]
    rw [if_neg (by omega), if_neg (by rw [List.length_append]; omega), scrolls_read,
      List.drop_left' size, readMessage_framed (reads_patchMessage scroll.patch) nonempty within (by
        simp only [maxFrameSize, maxGraphicsFrameSize] at within ⊢
        omega)]
    rfl
  · rw [if_pos (limit.mpr fits), if_neg fits]

theorem decode_encode_iff (h : scroll.encode encode = .ok data)
    (decodes : ∀ bytes, decode (encode bytes) = some bytes)
    (sized : ∀ bytes, (encode bytes).utf8ByteSize = encodedLen bytes.length)
    (some_scrolls : 1 ≤ scroll.scrolls.length) (few : scroll.scrolls.length ≤ 64) :
    decodeScroll decode data = .ok scroll ↔ scroll.size ≤ maxFrameSize := by
  rw [decode_encoded h decodes sized some_scrolls few]
  split_ifs with fits
  · exact iff_of_true rfl fits
  · exact iff_of_false nofun fits

end Codec

def oneScroll : SurfaceScroll := ⟨⟨0, 0, 80, 24⟩, 1⟩

def named (letters : ℕ) : ScrollPatch where
  scrolls := [oneScroll]
  patch := {
    bootId := String.ofList (List.replicate letters 'a')
    projectionRevision := 0
    baseSurfaceRevision := 0
    surfaceRevision := 0
    rows := []
    panes := []
    cursor := none }

theorem decode_encode_short : ∃ data, (named 4).encode Base64.encode = .ok data ∧
    decodeScroll Base64.decode data = .ok (named 4) :=
  ⟨_, rfl, (decode_encode_iff rfl Base64.decode_encode Base64.encode_size (by decide)
    (by decide)).mpr (by decide)⟩

lemma named_length (letters : ℕ) (long : 2 ^ 16 ≤ letters) (short : letters < 2 ^ 32) :
    (Encode.patchMessage (named letters).patch).length = letters + 12 := by
  have name : (String.ofList (List.replicate letters 'a')).toByteArray.data.toList.length =
      letters := by
    have size : (String.ofList (List.replicate letters 'a')).utf8ByteSize = letters := by
      rw [Base64.ofList_size, List.length_replicate]
      intro c hc
      rw [List.eq_of_mem_replicate hc]
      decide
    exact size
  have prefixed : (Encode.varint letters).length = 5 := by
    rw [Encode.varint, if_neg (by omega), if_neg (by omega), if_pos short]
    rfl
  have tag : (Encode.u32 19).length = 1 := rfl
  have revision : (Encode.u64 0).length = 1 := rfl
  have rows : (Encode.vec Encode.patchRow []).length = 1 := rfl
  have panes : (Encode.vec Encode.surfacePane []).length = 1 := rfl
  have cursor : (Encode.option Encode.cursorState none).length = 1 := rfl
  simp only [Encode.patchMessage, Encode.paneSurfacePatch, named, Encode.string, name, tag, revision,
    rows, panes, cursor, List.length_append, List.flatten_cons, List.flatten_nil, List.length_nil,
    prefixed]
  omega

theorem full_frame_refused : ∃ data, (named 2097140).encode Base64.encode = .ok data ∧
    decodeScroll Base64.decode data = .error .encodingLimit := by
  have length := named_length 2097140 (by decide) (by decide)
  have framed : encodeMessage (Encode.patchMessage (named 2097140).patch) maxFrameSize =
      .ok (Encode.littleEndian 4 (Encode.patchMessage (named 2097140).patch).length ++
        Encode.patchMessage (named 2097140).patch) := by
    rw [encodeMessage, if_neg (by rw [length]; decide), if_neg]
    intro nothing
    rw [nothing] at length
    exact absurd length (by decide)
  have encoded : ∃ data, (named 2097140).encode Base64.encode = .ok data := by
    rw [ScrollPatch.encode, if_neg (by decide), framed]
    exact ⟨_, rfl⟩
  obtain ⟨data, encoded⟩ := encoded
  refine ⟨data, encoded, ?_⟩
  rw [decode_encoded encoded Base64.decode_encode Base64.encode_size Nat.one_pos (by decide), if_neg]
  rw [ScrollPatch.size, length]
  decide

end Sheprd.Protocol
