import Sheprd.Lib.Dict
import Sheprd.Protocol.Wire

namespace Sheprd.Client

open Sheprd.Lib Sheprd.Protocol

def maxPlacements : ℕ := 4096
def maxImageSide : UInt32 := 10000
def maxImages : ℕ := 256
def maxImageBytes : ℕ := 256 * 1024 * 1024

structure SurfaceImage where
  serial : UInt64
  data : List UInt8

abbrev SurfaceImages := Dict SurfaceGraphicsAssetKey SurfaceImage

def validAsset (key : SurfaceGraphicsAssetKey) (data : List UInt8) : Bool :=
  if data.isEmpty || decide (data.length ≠ key.dataLen.toNat) ||
      !(decide (1 ≤ key.imageWidth) && decide (key.imageWidth ≤ maxImageSide)) ||
      !(decide (1 ≤ key.imageHeight) && decide (key.imageHeight ≤ maxImageSide)) then false
  else
    let pixels := key.imageWidth.toNat * key.imageHeight.toNat
    match key.format with
    | .rgb => decide (pixels * 3 = key.dataLen.toNat)
    | .rgba => decide (pixels * 4 = key.dataLen.toNat)
    | .png => true

def referenced (scene : SurfaceGraphicsScene) : Finset SurfaceGraphicsAssetKey :=
  (scene.placements.map (fun placement => placement.asset) ++ scene.retainedAssets).toFinset

structure ImageStore where
  images : SurfaceImages
  bytes : ℕ
  latest : Finset SurfaceGraphicsAssetKey
  shown : Finset SurfaceGraphicsAssetKey
  nextSerial : UInt64

namespace ImageStore

def empty : ImageStore := ⟨∅, 0, ∅, ∅, 1⟩

def keeps (store : ImageStore) (key : SurfaceGraphicsAssetKey) : Bool :=
  decide (key ∈ store.latest) || decide (key ∈ store.shown)

def imageBytes (images : SurfaceImages) : ℕ := Dict.weight (fun image => image.data.length) images

def freed (store : ImageStore) : ℕ :=
  imageBytes (Dict.retain (fun key => !store.keeps key) store.images)

def prune (store : ImageStore) : Bool × ImageStore :=
  let images := Dict.retain store.keeps store.images
  (decide (images.entries.length ≠ store.images.entries.length),
    { store with images, bytes := store.bytes - store.freed })

def receiveAsset (state : Bool × ImageStore) (asset : SurfaceGraphicsAsset) : Bool × ImageStore :=
  let store := state.2
  if asset.key ∈ store.images ∨ asset.key ∉ store.latest then state
  else if !validAsset asset.key asset.data then state
  else if maxImages ≤ store.images.entries.length ∨
      maxImageBytes - store.bytes < asset.data.length then state
  else
    (true, { store with
      bytes := store.bytes + asset.data.length
      images := store.images.insert asset.key ⟨store.nextSerial, asset.data⟩
      nextSerial := store.nextSerial + 1 })

def stripped (surface : PaneSurfaceFrame) : PaneSurfaceFrame :=
  { surface with graphics :=
      { surface.graphics with
        placements := surface.graphics.placements.take maxPlacements
        assets := [] } }

def receive (store : ImageStore) (surface : PaneSurfaceFrame) :
    Bool × ImageStore × PaneSurfaceFrame :=
  let next := stripped surface
  let pruned := { store with latest := referenced next.graphics }.prune
  let received := surface.graphics.assets.foldl receiveAsset pruned
  (received.1, received.2, next)

def showLatest (store : ImageStore) : Bool × ImageStore := { store with shown := store.latest }.prune

structure Sound (store : ImageStore) : Prop where
  bytes_eq : store.bytes = imageBytes store.images
  count_le : store.images.entries.length ≤ maxImages
  bytes_le : store.bytes ≤ maxImageBytes
  kept : ∀ key ∈ store.images, key ∈ store.latest ∨ key ∈ store.shown

lemma sound_empty : empty.Sound := by
  refine ⟨rfl, Nat.zero_le _, Nat.zero_le _, ?_⟩
  intro key h
  exact absurd h (AList.notMem_empty key)

lemma keeps_iff (store : ImageStore) (key : SurfaceGraphicsAssetKey) :
    store.keeps key = true ↔ key ∈ store.latest ∨ key ∈ store.shown := by
  simp [keeps]

lemma freed_le {store : ImageStore} (h : store.bytes = imageBytes store.images) :
    store.freed ≤ store.bytes := by
  rw [h, imageBytes, ← Dict.weight_retain _ store.keeps]
  exact Nat.le_add_left _ _

lemma prune_sound {store : ImageStore} (hb : store.bytes = imageBytes store.images)
    (hc : store.images.entries.length ≤ maxImages) (hl : store.bytes ≤ maxImageBytes) :
    store.prune.2.Sound := by
  refine ⟨?_, (Dict.length_retain_le _ _).trans hc, (Nat.sub_le _ _).trans hl, ?_⟩
  · have hw := Dict.weight_retain (fun image => image.data.length) store.keeps store.images
    change store.bytes - store.freed = imageBytes _
    rw [hb]
    exact Nat.sub_eq_of_eq_add hw.symm
  · intro key h
    exact (keeps_iff store key).mp (Dict.mem_retain h).2

lemma prune_unchanged {store : ImageStore} (h : store.prune.1 = false) :
    store.prune.2.images = store.images :=
  Dict.retain_eq_self (by simpa [prune] using h)

lemma prune_lookup {store : ImageStore} {key : SurfaceGraphicsAssetKey}
    (h : key ∈ store.latest ∨ key ∈ store.shown) :
    store.prune.2.images.lookup key = store.images.lookup key :=
  Dict.lookup_retain _ ((keeps_iff store key).mpr h)

lemma showLatest_sound {store : ImageStore} (h : store.Sound) : store.showLatest.2.Sound :=
  prune_sound h.bytes_eq h.count_le h.bytes_le

structure Grown (before after : Bool × ImageStore) : Prop where
  latest : after.2.latest = before.2.latest
  shown : after.2.shown = before.2.shown
  lookup : ∀ key image, before.2.images.lookup key = some image →
    after.2.images.lookup key = some image
  unchanged : after.1 = false → before.1 = false ∧ after.2.images = before.2.images
  sound : before.2.Sound → after.2.Sound

lemma Grown.refl (state : Bool × ImageStore) : Grown state state :=
  ⟨rfl, rfl, fun _ _ h => h, fun h => ⟨h, rfl⟩, id⟩

lemma Grown.trans {a b c : Bool × ImageStore} (h : Grown a b) (h' : Grown b c) : Grown a c where
  latest := h'.latest.trans h.latest
  shown := h'.shown.trans h.shown
  lookup key image hk := h'.lookup key image (h.lookup key image hk)
  unchanged hc :=
    ⟨(h.unchanged (h'.unchanged hc).1).1,
      (h'.unchanged hc).2.trans (h.unchanged (h'.unchanged hc).1).2⟩
  sound hs := h'.sound (h.sound hs)

lemma insert_sound {store : ImageStore} {key : SurfaceGraphicsAssetKey} {data : List UInt8}
    (h : store.Sound) (hk : key ∉ store.images) (hl : key ∈ store.latest)
    (hc : ¬maxImages ≤ store.images.entries.length)
    (hb : ¬maxImageBytes - store.bytes < data.length) (serial next : UInt64) :
    ImageStore.Sound { store with
      bytes := store.bytes + data.length
      images := store.images.insert key ⟨serial, data⟩
      nextSerial := next } := by
  have hroom := h.bytes_le
  refine ⟨?_, ?_, ?_, ?_⟩
  · rw [imageBytes, Dict.weight_insert _ _ hk, Nat.add_comm, h.bytes_eq]
    rfl
  · rw [Dict.length_insert _ hk]
    omega
  · dsimp only
    omega
  · intro key' h'
    rcases (AList.mem_insert _).mp h' with rfl | h'
    · exact Or.inl hl
    · exact h.kept key' h'

lemma receiveAsset_grown (state : Bool × ImageStore) (asset : SurfaceGraphicsAsset) :
    Grown state (receiveAsset state asset) := by
  rw [receiveAsset]
  split
  · exact .refl state
  · rename_i hnew
    push Not at hnew
    split
    · exact .refl state
    · split
      · exact .refl state
      · rename_i hroom
        rw [not_or] at hroom
        refine ⟨rfl, rfl, ?_, fun h => absurd h (by simp), ?_⟩
        · intro key image h
          rw [← h]
          apply AList.lookup_insert_ne
          rintro rfl
          exact hnew.1 (AList.lookup_isSome.mp (by rw [h]; rfl))
        · intro hs
          exact insert_sound hs hnew.1 hnew.2 hroom.1 hroom.2 _ _

lemma foldl_receiveAsset_grown (assets : List SurfaceGraphicsAsset) (state : Bool × ImageStore) :
    Grown state (assets.foldl receiveAsset state) := by
  induction assets generalizing state with
  | nil => exact .refl state
  | cons asset assets ih => exact (receiveAsset_grown state asset).trans (ih _)

structure Received (store after : ImageStore) (changed : Bool) (next : PaneSurfaceFrame) :
    Prop where
  sound : after.Sound
  latest : after.latest = referenced next.graphics
  shown : after.shown = store.shown
  lookup : ∀ key ∈ store.shown, ∀ image, store.images.lookup key = some image →
    after.images.lookup key = some image
  unchanged : changed = false → after.images = store.images

lemma receive_spec {store : ImageStore} (h : store.Sound) (surface : PaneSurfaceFrame) :
    Received store (store.receive surface).2.1 (store.receive surface).1
      (store.receive surface).2.2 := by
  set pruned := ImageStore.prune { store with latest := referenced (stripped surface).graphics }
  have hg := foldl_receiveAsset_grown surface.graphics.assets pruned
  have hs : pruned.2.Sound := prune_sound h.bytes_eq h.count_le h.bytes_le
  refine ⟨hg.sound hs, hg.latest, hg.shown, ?_, ?_⟩
  · intro key hk image hi
    apply hg.lookup
    rw [← hi]
    exact prune_lookup (Or.inr hk)
  · intro hc
    obtain ⟨hc', hi⟩ := hg.unchanged hc
    exact hi.trans (prune_unchanged hc')

end ImageStore

end Sheprd.Client
