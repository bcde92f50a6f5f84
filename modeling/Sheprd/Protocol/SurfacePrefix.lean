import Sheprd.Protocol.Codec
import Sheprd.Protocol.Frame

namespace Sheprd.Protocol

open Sheprd.Lib.Bincode

def maxHeaderBytes : ℕ := 512
def surfaceTag : UInt32 := 13
def patchTag : UInt32 := 19

def identityHeader : Decoder (UInt32 × String × UInt64 × UInt64) := do
  return (← u32, ← string, ← u64, ← u64)

def hasCurrentSurfacePrefix (payload : List UInt8) (snapshot : ClientShellSnapshot)
    (surface : PaneSurfaceFrame) : Bool :=
  if surface.bootId ≠ snapshot.bootId ∨ surface.popup.isSome then false
  else
    match identityHeader ⟨payload.take maxHeaderBytes, 0, maxHeaderBytes⟩ with
    | none => false
    | some ((tag, bootId, projection, revision), rest) =>
        if bootId ≠ snapshot.bootId ∨ projection ≠ snapshot.revision then false
        else if tag = surfaceTag then decide (surface.surfaceRevision < revision)
        else if tag = patchTag then
          match u64 ⟨rest.input, 0, maxHeaderBytes⟩ with
          | none => false
          | some (next, _) =>
              decide (surface.projectionRevision = projection ∧
                revision = surface.surfaceRevision ∧ checkedSucc revision = some next)
        else false

lemma identityHeader_grows : Grows identityHeader :=
  .bind .u32 fun _ => .bind .string fun _ => .bind .u64 fun _ => .bind .u64 fun _ => .pure _

def Announces (payload : List UInt8) (snapshot : ClientShellSnapshot) (surface : PaneSurfaceFrame)
    (tag : UInt32) (rest : Reader) (revision : UInt64) : Prop :=
  surface.bootId = snapshot.bootId ∧ surface.popup = none ∧
    identityHeader ⟨payload.take maxHeaderBytes, 0, maxHeaderBytes⟩ =
      some ((tag, snapshot.bootId, snapshot.revision, revision), rest) ∧
    ((tag = surfaceTag ∧ surface.surfaceRevision < revision) ∨
      (tag = patchTag ∧ surface.projectionRevision = snapshot.revision ∧
        revision = surface.surfaceRevision ∧
        ∃ next rest', u64 ⟨rest.input, 0, maxHeaderBytes⟩ = some (next, rest') ∧
          checkedSucc revision = some next))

lemma hasCurrentSurfacePrefix_iff (payload : List UInt8) (snapshot : ClientShellSnapshot)
    (surface : PaneSurfaceFrame) :
    hasCurrentSurfacePrefix payload snapshot surface = true ↔
      ∃ tag rest revision, Announces payload snapshot surface tag rest revision := by
  rw [hasCurrentSurfacePrefix]
  constructor
  · intro h
    split at h
    · exact absurd h (by simp)
    · rename_i hid
      simp only [not_or, not_not, Option.isSome_iff_ne_none] at hid
      split at h
      · exact absurd h (by simp)
      · rename_i tag bootId projection revision rest hh
        split at h
        · exact absurd h (by simp)
        · rename_i hcur
          simp only [not_or, not_not] at hcur
          obtain ⟨rfl, rfl⟩ := hcur
          refine ⟨tag, rest, revision, hid.1, hid.2, hh, ?_⟩
          split at h
          · rename_i htag
            exact Or.inl ⟨htag, by simpa using h⟩
          · split at h
            · rename_i htag
              split at h
              · exact absurd h (by simp)
              · rename_i next rest' hn
                simp only [decide_eq_true_eq] at h
                exact Or.inr ⟨htag, h.1, h.2.1, next, rest', hn, h.2.2⟩
            · exact absurd h (by simp)
  · rintro ⟨tag, rest, revision, hb, hp, hh, hkind⟩
    rw [if_neg (by simp [hb, hp]), hh]
    simp only [ne_eq, not_true_eq_false, or_self, if_false]
    rcases hkind with ⟨rfl, hr⟩ | ⟨rfl, hproj, hrev, next, rest', hn, hs⟩
    · rw [if_pos rfl, decide_eq_true hr]
    · rw [if_neg (by decide), if_pos rfl, hn]
      simp only [decide_eq_true_eq]
      exact ⟨hproj, hrev, hs⟩

lemma take_take_append (payload : List UInt8) {n m k : ℕ} (h : n ≤ m) :
    ∃ more, (payload.take m).take k = (payload.take n).take k ++ more := by
  rw [List.take_take, List.take_take]
  have hle : min k n ≤ min k m := by omega
  refine ⟨(payload.drop (min k n)).take (min k m - min k n), ?_⟩
  rw [← List.take_add, Nat.add_sub_cancel' hle]

lemma prefix_grows (payload : List UInt8) (snapshot : ClientShellSnapshot)
    (surface : PaneSurfaceFrame) {n m : ℕ} (hnm : n ≤ m)
    (h : hasCurrentSurfacePrefix (payload.take n) snapshot surface = true) :
    hasCurrentSurfacePrefix (payload.take m) snapshot surface = true := by
  obtain ⟨tag, rest, revision, hb, hp, hh, hkind⟩ := (hasCurrentSurfacePrefix_iff _ _ _).mp h
  obtain ⟨more, hmore⟩ := take_take_append payload (k := maxHeaderBytes) hnm
  obtain ⟨k, -, -, -, hg⟩ := identityHeader_grows _ _ _ hh
  refine (hasCurrentSurfacePrefix_iff _ _ _).mpr
    ⟨tag, rest.grown more (0 + k) maxHeaderBytes, revision, hb, hp, ?_, ?_⟩
  · rw [hmore]
    exact hg more 0 maxHeaderBytes le_rfl
  · rcases hkind with hs | ⟨htag, hproj, hrev, next, rest', hn, hs⟩
    · exact Or.inl hs
    · obtain ⟨k', -, -, -, hg'⟩ := Grows.u64 _ _ _ hn
      exact Or.inr ⟨htag, hproj, hrev, next, _, hg' more 0 maxHeaderBytes le_rfl, hs⟩

lemma identityHeader_eq_some {r r' : Reader} {tag : UInt32} {bootId : String}
    {projection revision : UInt64}
    (h : identityHeader r = some ((tag, bootId, projection, revision), r')) :
    ∃ r₁ r₂ r₃, u32 r = some (tag, r₁) ∧ string r₁ = some (bootId, r₂) ∧
      u64 r₂ = some (projection, r₃) ∧ u64 r₃ = some (revision, r') := by
  obtain ⟨t, r₁, h₁, h⟩ := bind_eq_some.mp h
  obtain ⟨b, r₂, h₂, h⟩ := bind_eq_some.mp h
  obtain ⟨p, r₃, h₃, h⟩ := bind_eq_some.mp h
  obtain ⟨v, r₄, h₄, h⟩ := bind_eq_some.mp h
  obtain ⟨he, rfl⟩ := pure_eq_some.mp h
  simp only [Prod.mk.injEq] at he
  obtain ⟨rfl, rfl, rfl, rfl⟩ := he
  exact ⟨r₁, r₂, r₃, h₁, h₂, h₃, h₄⟩

lemma same_value {α : Type} {d : Decoder α} {r r₁ r₂ : Reader} {a b : α}
    (h : d r = some (a, r₁)) (h' : d r = some (b, r₂)) : a = b ∧ r₁ = r₂ := by
  have he := Option.some.inj (h.symm.trans h')
  exact ⟨congrArg Prod.fst he, congrArg Prod.snd he⟩

lemma serverMessage_surface {r r₁ r' : Reader} {message : ServerMessage}
    (ht : u32 r = some (surfaceTag, r₁)) (h : Decode.serverMessage r = some (message, r')) :
    ∃ next r₂ r₃ r₄, message = .paneSurface next ∧ string r₁ = some (next.bootId, r₂) ∧
      u64 r₂ = some (next.projectionRevision, r₃) ∧ u64 r₃ = some (next.surfaceRevision, r₄) := by
  obtain ⟨t, q, hq, h⟩ := bind_eq_some.mp h
  obtain ⟨rfl, rfl⟩ := same_value ht hq
  obtain ⟨next, r₅, hd, hp⟩ := bind_eq_some.mp (show (Decode.paneSurfaceFrame >>= fun x =>
    pure (ServerMessage.paneSurface x)) r₁ = some (message, r') from h)
  obtain ⟨rfl, rfl⟩ := pure_eq_some.mp hp
  obtain ⟨b, r₂, h₂, h⟩ := bind_eq_some.mp hd
  obtain ⟨p, r₃, h₃, h⟩ := bind_eq_some.mp h
  obtain ⟨v, r₄, h₄, h⟩ := bind_eq_some.mp h
  obtain ⟨f, q₁, -, h⟩ := bind_eq_some.mp h
  obtain ⟨ps, q₂, -, h⟩ := bind_eq_some.mp h
  obtain ⟨ss, q₃, -, h⟩ := bind_eq_some.mp h
  obtain ⟨pp, q₄, -, h⟩ := bind_eq_some.mp h
  obtain ⟨g, q₅, -, h⟩ := bind_eq_some.mp h
  obtain ⟨rfl, -⟩ := pure_eq_some.mp h
  exact ⟨_, r₂, r₃, r₄, rfl, h₂, h₃, h₄⟩

lemma serverMessage_patch {r r₁ r' : Reader} {message : ServerMessage}
    (ht : u32 r = some (patchTag, r₁)) (h : Decode.serverMessage r = some (message, r')) :
    ∃ patch r₂ r₃ r₄ r₅, message = .paneSurfacePatch patch ∧
      string r₁ = some (patch.bootId, r₂) ∧ u64 r₂ = some (patch.projectionRevision, r₃) ∧
      u64 r₃ = some (patch.baseSurfaceRevision, r₄) ∧
      u64 r₄ = some (patch.surfaceRevision, r₅) := by
  obtain ⟨t, q, hq, h⟩ := bind_eq_some.mp h
  obtain ⟨rfl, rfl⟩ := same_value ht hq
  obtain ⟨patch, r₆, hd, hp⟩ := bind_eq_some.mp (show (Decode.paneSurfacePatch >>= fun x =>
    pure (ServerMessage.paneSurfacePatch x)) r₁ = some (message, r') from h)
  obtain ⟨rfl, rfl⟩ := pure_eq_some.mp hp
  obtain ⟨b, r₂, h₂, h⟩ := bind_eq_some.mp hd
  obtain ⟨p, r₃, h₃, h⟩ := bind_eq_some.mp h
  obtain ⟨v, r₄, h₄, h⟩ := bind_eq_some.mp h
  obtain ⟨w, r₅, h₅, h⟩ := bind_eq_some.mp h
  obtain ⟨rs, q₁, -, h⟩ := bind_eq_some.mp h
  obtain ⟨ps, q₂, -, h⟩ := bind_eq_some.mp h
  obtain ⟨c, q₃, -, h⟩ := bind_eq_some.mp h
  obtain ⟨rfl, -⟩ := pure_eq_some.mp h
  exact ⟨_, r₂, r₃, r₄, r₅, rfl, h₂, h₃, h₄, h₅⟩

lemma decodePayload_ok {α : Type} {d : Decoder α} {payload : List UInt8} {message : α}
    (h : decodePayload d payload = .ok message) :
    ∃ rest, d ⟨payload, 0, maxGraphicsFrameSize⟩ = some (message, rest) := by
  rw [decodePayload] at h
  split at h
  · exact absurd h (by simp)
  · split at h
    · exact absurd h (by simp)
    · rename_i m rest hd
      split at h
      · cases h
        exact ⟨rest, hd⟩
      · exact absurd h (by simp)

lemma announced_identity {payload : List UInt8} {snapshot : ClientShellSnapshot}
    {surface : PaneSurfaceFrame} {n : ℕ} {message : ServerMessage}
    (h : hasCurrentSurfacePrefix (payload.take n) snapshot surface = true)
    (hm : decodePayload Decode.serverMessage payload = .ok message) :
    (∃ next, message = .paneSurface next ∧ next.bootId = snapshot.bootId ∧
      next.projectionRevision = snapshot.revision ∧
      surface.surfaceRevision < next.surfaceRevision) ∨
    ∃ patch, message = .paneSurfacePatch patch ∧ PatchFollows surface patch := by
  obtain ⟨tag, rest, revision, hb, hp, hh, hkind⟩ := (hasCurrentSurfacePrefix_iff _ _ _).mp h
  obtain ⟨rest', hd⟩ := decodePayload_ok hm
  obtain ⟨k, hk, hl, hle, hg⟩ := identityHeader_grows _ _ _ hh
  have hfull : ∃ more, payload = (payload.take n).take maxHeaderBytes ++ more := by
    refine ⟨payload.drop (min maxHeaderBytes n), ?_⟩
    rw [List.take_take, List.take_append_drop]
  obtain ⟨more, hmore⟩ := hfull
  have hhead := hg more 0 maxGraphicsFrameSize (show maxHeaderBytes + 0 ≤ maxGraphicsFrameSize + 0 by decide)
  simp only [Reader.grown, ← hmore, Nat.zero_add] at hhead
  obtain ⟨r₁, r₂, r₃, h₁, h₂, h₃, h₄⟩ := identityHeader_eq_some hhead
  rcases hkind with ⟨rfl, hr⟩ | ⟨rfl, hproj, hrev, next, rest₂, hn, hs⟩
  · obtain ⟨surf, q₂, q₃, q₄, rfl, e₂, e₃, e₄⟩ := serverMessage_surface h₁ hd
    obtain ⟨hb', rfl⟩ := same_value h₂ e₂
    obtain ⟨hp', rfl⟩ := same_value h₃ e₃
    obtain ⟨hv', -⟩ := same_value h₄ e₄
    exact Or.inl ⟨surf, rfl, hb'.symm, hp'.symm, hv' ▸ hr⟩
  · obtain ⟨patch, q₂, q₃, q₄, q₅, rfl, e₂, e₃, e₄, e₅⟩ := serverMessage_patch h₁ hd
    obtain ⟨hb', rfl⟩ := same_value h₂ e₂
    obtain ⟨hp', rfl⟩ := same_value h₃ e₃
    obtain ⟨hv', rfl⟩ := same_value h₄ e₄
    obtain ⟨k', -, -, -, hg'⟩ := Grows.u64 _ _ _ hn
    have hroom : k ≤ maxHeaderBytes := by
      have := hle (Nat.zero_le _)
      rw [hk, hl] at this
      simpa using this
    have hnext := hg' more k maxGraphicsFrameSize (by
      simp only [maxHeaderBytes, maxGraphicsFrameSize] at *
      omega)
    obtain ⟨hw', -⟩ := same_value hnext e₅
    refine Or.inr ⟨patch, rfl, ?_⟩
    exact ⟨hb'.symm.trans hb.symm, hp'.symm.trans hproj.symm, hv'.symm.trans hrev,
      by rw [← hrev, hs, hw'], hp⟩

end Sheprd.Protocol
