import Sheprd.Updater.Release

namespace Sheprd.Updater.Releases

open Sheprd.Lib Sheprd.Lib.Exec

section

variable {Key : Type} {out : Outside Key} {server : ℕ → String → String → Except Error Response}
  {cancels : ℕ → Bool} {s : Net}

def Trivial (_ : Error) : Prop := True

def Approved (out : Outside Key) (s : Net) : Prop :=
  ∀ hops ∈ s.requests, hops.length ≤ MAX_REDIRECTS + 1 ∧ ∀ url ∈ hops, allowedUrl out url = true

def Held (out : Outside Key) (got : List (String × Bytes)) (s : Net) : Prop :=
  Approved out s ∧ got ⊆ s.got

variable {got : List (String × Bytes)}

lemma Held.less {more : List (String × Bytes)} (h : Held out more s) (less : got ⊆ more) : Held out got s :=
  ⟨h.1, List.Subset.trans less h.2⟩

lemma cancelled_upholds (h : Held out got s) {requests : List (List String)} (same : s.requests = requests) :
    Upholds (Held out got) Trivial (fun _ s => s.requests = requests) (cancelled cancels) s := by
  refine Upholds.get_bind (Upholds.set_bind ?_)
  exact .refuse h (fun _ => trivial) fun _ => same

lemma hop_upholds (h : Held out got s) {sent : List String} {requests : List (List String)}
    (same : s.requests = sent :: requests) (few : sent.length ≤ MAX_REDIRECTS) (accept url : String) :
    Upholds (Held out got) Trivial (fun _ s => ∃ url, s.requests = (sent ++ [url]) :: requests)
      (hop out server cancels accept url) s := by
  refine (cancelled_upholds h same).bind fun _ s h same => ?_
  refine (Upholds.refuse (Q := fun _ s => s.requests = sent :: requests ∧ allowedUrl out url = true) h
    (fun _ => trivial) fun fine => ⟨same, by simpa using fine⟩).bind ?_
  rintro - s h ⟨same, allowed⟩
  have requests' : (s.sent url).requests = (sent ++ [url]) :: requests := by
    rw [Net.sent, same]
  have got' : (s.sent url).got = s.got := by
    rw [Net.sent, same]
  have next : Held out got (s.sent url) := by
    refine ⟨fun hops hh => ?_, got' ▸ h.2⟩
    rw [requests'] at hh
    obtain rfl | hh := List.mem_cons.mp hh
    · obtain ⟨-, before⟩ := h.1 sent (same ▸ List.mem_cons_self ..)
      refine ⟨by rw [List.length_append, List.length_singleton]; omega, fun u hu => ?_⟩
      obtain hu | hu := List.mem_append.mp hu
      · exact before u hu
      · rw [List.mem_singleton.mp hu]
        exact allowed
    · exact h.1 hops (same ▸ List.mem_cons_of_mem _ hh)
  refine Upholds.bind (Q := fun _ s => s.requests = (sent ++ [url]) :: requests) ?_ fun response s h same => ?_
  · exact Upholds.get_bind (Upholds.set_bind (.lift next (fun _ _ => trivial) fun _ _ => requests'))
  · split
    · exact .pure h ⟨url, same⟩
    · split
      · exact .pure h ⟨url, same⟩
      · exact .throw h trivial

lemma hops_upholds (left : ℕ) (h : Held out got s) {sent : List String} {requests : List (List String)}
    (same : s.requests = sent :: requests) (few : sent.length + left ≤ MAX_REDIRECTS)
    (original accept url : String) :
    Upholds (Held out got) Trivial (fun _ _ => True) (hops out server cancels original accept left url) s := by
  induction left generalizing s sent url with
  | zero =>
    unfold hops
    refine (hop_upholds h same (by omega) accept url).bind ?_
    rintro (response | response) s h -
    · exact .pure h trivial
    · exact .throw h trivial
  | succ left ih =>
    unfold hops
    refine (hop_upholds h same (by omega) accept url).bind ?_
    rintro (response | response) s h ⟨u, same⟩
    · exact .pure h trivial
    · refine (Upholds.require (Q := fun _ s => s.requests = (sent ++ [u]) :: requests) h trivial
        fun _ _ => same).bind fun next s h same => ?_
      refine (Upholds.lift (Q := fun _ s => s.requests = (sent ++ [u]) :: requests) h (fun _ _ => trivial)
        fun _ _ => same).bind fun url s h same => ?_
      refine ih h same ?_ url
      rw [List.length_append, List.length_singleton]
      omega

lemma requestWith_upholds (h : Held out got s) (original : String) :
    Upholds (Held out got) Trivial (fun _ _ => True) (requestWith out server cancels original) s := by
  refine (Upholds.require (Q := fun _ _ => True) h trivial fun _ _ => trivial).bind fun _ s h _ => ?_
  have fresh : Held out got { s with requests := [] :: s.requests } := by
    refine ⟨fun hops hh => ?_, h.2⟩
    obtain rfl | hh := List.mem_cons.mp hh
    · exact ⟨Nat.zero_le _, nofun⟩
    · exact h.1 hops hh
  exact hops_upholds (s := { s with requests := [] :: s.requests }) MAX_REDIRECTS fresh rfl (by simp) ..

lemma readBounded_upholds (h : Held out got s) (limit : ℕ) (bytes : Bytes) (reads : List (Option Bytes)) :
    Upholds (Held out got) Trivial (fun _ _ => True) (readBounded cancels limit bytes reads) s := by
  induction reads generalizing s bytes with
  | nil =>
    refine (cancelled_upholds h rfl).bind fun _ s h _ => ?_
    exact (cancelled_upholds h rfl).bind fun _ s h _ => .pure h trivial
  | cons read reads ih =>
    refine (cancelled_upholds h rfl).bind fun _ s h _ => ?_
    refine (Upholds.require (Q := fun _ _ => True) h trivial fun _ _ => trivial).bind fun chunk s h _ => ?_
    split
    · exact (cancelled_upholds h rfl).bind fun _ s h _ => .pure h trivial
    · exact (Upholds.refuse (Q := fun _ _ => True) h (fun _ => trivial) fun _ => trivial).bind
        fun _ s h _ => ih h _

lemma fetchExact_upholds (h : Held out got s) (url : String) (limit : ℕ) :
    Upholds (Held out got) Trivial (fun bytes s => (url, bytes) ∈ s.got)
      (fetchExact out server cancels url limit) s := by
  refine (requestWith_upholds h url).bind fun response s h _ => ?_
  refine (readBounded_upholds h limit [] response.reads).bind fun bytes s h _ => ?_
  have more : Held out got { s with got := (url, bytes) :: s.got } :=
    ⟨h.1, List.Subset.trans h.2 (List.subset_cons_self _ _)⟩
  exact Upholds.modify_bind (.pure more (List.mem_cons_self ..))

def Source (out : Outside Key) (url u : String) : Prop :=
  u = url ∨ ∃ r, resource out url = some (.herdr, r) ∧ u = r.url .sheprd

def Fetched (out : Outside Key) (got : List (String × Bytes)) (url : String) (bytes : Bytes) : Prop :=
  ∃ u, Source out url u ∧ (u, bytes) ∈ got

lemma fetchMoved_upholds (h : Held out got s) (url : String) (limit : ℕ) :
    Upholds (Held out got) Trivial (fun bytes s => Fetched out s.got url bytes)
      (fetchMoved out (fun url => fetchExact out server cancels url limit) url) s := by
  refine (Upholds.require (Q := fun r _ => resource out url = some r) h trivial fun _ here => here).bind
    fun r s h here => ?_
  obtain ⟨repository, resource⟩ := r
  refine ((fetchExact_upholds h url limit).attempt).bind fun result s h first => ?_
  dsimp only
  split
  · split
    · next moved =>
      refine (fetchExact_upholds h _ limit).mono (fun _ h => h) (fun _ h => h) fun bytes s _ second => ?_
      exact ⟨_, .inr ⟨resource, moved ▸ here, rfl⟩, second⟩
    · exact .throw h trivial
  · exact .lift h (fun _ _ => trivial) fun bytes ok => ⟨url, .inl rfl, first bytes ok⟩

lemma validateAssets_digest {manifest : Manifest} {formats : List Format} {earlier assets : List Asset}
    (h : validateAssets manifest formats earlier assets = .ok ()) {asset : Asset} (ha : asset ∈ assets) :
    ∃ digest, validateDigest asset = .ok digest := by
  induction assets generalizing earlier with
  | nil => cases ha
  | cons a assets ih =>
    unfold validateAssets at h
    split at h
    · cases h
    · obtain ⟨digest, valid, rest⟩ := bind_eq_ok.mp h
      obtain rfl | ha := List.mem_cons.mp ha
      · exact ⟨digest, valid⟩
      · exact ih rest ha

lemma validateManifest_digest {manifest : Manifest} (h : validateManifest manifest = .ok ()) {asset : Asset}
    (ha : asset ∈ manifest.assets) : ∃ digest, validateDigest asset = .ok digest := by
  unfold validateManifest at h
  split at h
  · cases h
  · split at h
    · cases h
    · split at h
      · cases h
      · exact validateAssets_digest h ha

lemma elim_ok {α : Type} {o : Option α} {e : Error} {a : α}
    (h : (o.elim (.error e) .ok : Except Error α) = .ok a) : o = some a := by
  cases o with
  | none => cases h
  | some b => exact congrArg some (Except.ok.inj h)

lemma verifyManifest_ok {bytes signature : Bytes} {keyHex expected : String} {manifest : Manifest}
    (h : verifyManifest out bytes signature keyHex expected = .ok manifest) :
    (∃ keyBytes key, hex32 keyHex = .ok keyBytes ∧ out.keyFromBytes keyBytes = some key ∧
      out.verifyStrict key bytes signature = true) ∧
      out.manifestFromSlice bytes = some manifest ∧ validateManifest manifest = .ok () ∧
      manifest.version = expected := by
  unfold verifyManifest at h
  split at h
  · cases h
  · obtain ⟨keyBytes, hex, h⟩ := bind_eq_ok.mp h
    obtain ⟨key, read, h⟩ := bind_eq_ok.mp h
    split at h
    · cases h
    · split at h
      · cases h
      · next verified =>
        obtain ⟨decoded, json, h⟩ := bind_eq_ok.mp h
        obtain ⟨⟨⟩, valid, h⟩ := bind_eq_ok.mp h
        split at h
        · cases h
        · next same =>
          cases h
          exact ⟨⟨keyBytes, key, hex, elim_ok read, by simpa using verified⟩, elim_ok json, valid, by simpa using same⟩

lemma select_ok {format : Format} {manifest : Manifest} {target : String} {asset : Asset}
    (h : format.select manifest target = .ok asset) :
    asset ∈ manifest.assets ∧ asset.target = target ∧
      format.accepts manifest.version target asset.name = true := by
  unfold Format.select at h
  split at h
  · next found =>
    cases h
    have fits := List.find?_some found
    rw [Bool.and_eq_true, decide_eq_true_eq] at fits
    exact ⟨List.mem_of_find?_eq_some found, fits⟩
  · cases h

lemma validateRelease_ok {release checked : Release} {channel : UpdateChannel}
    (h : validateRelease release channel = .ok checked) :
    checked.draft = false ∧ (channel = .stable → checked.prerelease = false) := by
  unfold validateRelease at h
  split at h
  · cases h
  · split at h
    · cases h
    · next fine =>
      split at h
      · cases h
      · split at h
        · cases h
        · cases h
          simp only [Bool.or_eq_true, Bool.and_eq_true, decide_eq_true_eq, not_or, not_and] at fine
          refine ⟨by simpa using fine.1.1, fun stable => ?_⟩
          cases published : release.prerelease with
          | false => rfl
          | true => exact absurd stable (fine.1.2 published)

lemma parseListing_ok {channel : UpdateChannel} {bytes : Bytes} {release : Release}
    (h : parseListing out channel bytes = .ok release) :
    release.draft = false ∧ (channel = .stable → release.prerelease = false) := by
  cases channel with
  | stable =>
    change parseRelease out bytes = .ok release at h
    unfold parseRelease at h
    split at h
    · cases h
    · split at h
      · cases h
      · exact validateRelease_ok h
  | beta =>
    change parseReleases out bytes = .ok release at h
    unfold parseReleases at h
    split at h
    · cases h
    · split at h
      · cases h
      · split at h
        · cases h
        · exact validateRelease_ok h

lemma source_listing {channel : UpdateChannel} {u : String}
    (h : Source out (channelListing channel).1 u) : u = (channelListing channel).1 := by
  obtain rfl | ⟨r, moved, -⟩ := h
  · rfl
  · have apart : ∀ channel, resourceOf (channelListing channel).1 .herdr = none := fun channel => by
      cases channel <;> decide +kernel
    unfold resource at moved
    split at moved
    · rw [Repository.ALL, List.findSome?_cons, apart] at moved
      rw [Option.map_none, List.findSome?_cons] at moved
      cases here : (resourceOf (channelListing channel).1 .sheprd) with
      | none =>
        rw [here] at moved
        cases moved
      | some found =>
        rw [here] at moved
        cases moved
    · cases moved

structure Offered (out : Outside Key) (Signed : Key → Bytes → Prop) (current keyHex : String)
    (channel : UpdateChannel) (format : Format) (target : String) (got : List (String × Bytes))
    (offer : Offer) : Prop where
  newer : ∃ v c, parseVersion offer.manifest.version = some v ∧ parseVersion current = some c ∧ Newer v c
  signed : ∃ keyBytes key, hex32 keyHex = .ok keyBytes ∧ out.keyFromBytes keyBytes = some key ∧
    out.verifyStrict key offer.manifestBytes offer.signature = true ∧ Signed key offer.manifestBytes
  manifest : out.manifestFromSlice offer.manifestBytes = some offer.manifest ∧
    offer.manifest.schema = format.schema
  asset : offer.asset ∈ offer.manifest.assets ∧ offer.asset.target = target ∧
    format.accepts offer.manifest.version target offer.asset.name = true ∧
    ∃ digest, validateDigest offer.asset = .ok digest
  listed : ∃ metadata release, ((channelListing channel).1, metadata) ∈ got ∧
    parseListing out channel metadata = .ok release ∧ release.draft = false ∧
    (channel = .stable → release.prerelease = false) ∧ release.version = offer.manifest.version ∧
    (∃ listed ∈ release.assets, listed.name = offer.asset.name ∧ listed.size = offer.asset.size) ∧
    (∃ url, release.assetUrl format.manifest.1 = .ok url ∧ Fetched out got url offer.manifestBytes) ∧
    ∃ url, release.assetUrl format.manifest.2 = .ok url ∧ Fetched out got url offer.signature

lemma notesFor_upholds (h : Held out got s) (current : ℕ × ℕ) (channel : UpdateChannel) (release : Release) :
    Upholds (Held out got) Trivial (fun _ _ => True)
      (notesFor out (fun url limit => fetchMoved out (fun url => fetchExact out server cancels url limit) url)
        current channel release) s :=
  ((fetchMoved_upholds h _ _).attempt).bind fun _ _ h _ => .pure h trivial

lemma check_upholds {Signed : Key → Bytes → Prop}
    (genuine : ∀ key bytes signature, out.verifyStrict key bytes signature = true → Signed key bytes)
    (h : Held out [] s) (currentVersion keyHex : String) (channel : UpdateChannel) (format : Format)
    (target : String) :
    Upholds (Held out []) Trivial
      (fun offer s => ∀ o, offer = some o →
        Offered out Signed currentVersion keyHex channel format target s.got o)
      (check out cancels server currentVersion keyHex channel format target) s := by
  have less : ∀ {more : List (String × Bytes)} s, Held out more s → Held out [] s := fun _ h =>
    h.less (List.nil_subset _)
  unfold check checkWith
  refine (cancelled_upholds h rfl).bind fun _ s h _ => ?_
  refine (Upholds.require (Q := fun current _ => parseVersion currentVersion = some current) h trivial
    fun _ here => here).bind fun current s h running => ?_
  refine (Upholds.lift (Q := fun _ _ => True) h (fun _ _ => trivial) fun _ _ => trivial).bind fun _ s h _ => ?_
  refine (Upholds.require (Q := fun _ _ => True) h trivial fun _ _ => trivial).bind fun _ s h _ => ?_
  refine (fetchMoved_upholds h _ _).bind fun metadata s h ⟨u, source, here⟩ => ?_
  rw [source_listing source] at here
  have h : Held out [((channelListing channel).1, metadata)] s := ⟨h.1, by simpa using here⟩
  refine Upholds.seq (Q := fun release _ => parseListing out channel metadata = .ok release) less
    (.lift h (fun _ _ => trivial) fun _ ok => ok) fun release s h parsed => ?_
  refine Upholds.seq (Q := fun version _ => parseVersion release.version = some version) less
    (.require h trivial fun _ here => here) fun version s h tag => ?_
  split
  · exact .pure (less s h) nofun
  next later =>
  have later : Newer version current := not_not.mp later
  refine Upholds.seq (Q := fun _ _ => True) less (.lift h (fun _ _ => trivial) fun _ _ => trivial) fun _ s h _ => ?_
  refine Upholds.seq (Q := fun _ _ => True) less (.lift h (fun _ _ => trivial) fun _ _ => trivial) fun _ s h _ => ?_
  refine Upholds.seq (Q := fun url _ => release.assetUrl format.manifest.1 = .ok url) less
    (.lift h (fun _ _ => trivial) fun _ ok => ok) fun manifestUrl s h listedManifest => ?_
  refine Upholds.seq less (fetchMoved_upholds h manifestUrl _) fun manifestBytes s h ⟨um, sourceManifest, gotManifest⟩ => ?_
  have h : Held out [(um, manifestBytes), ((channelListing channel).1, metadata)] s :=
    ⟨h.1, List.cons_subset.mpr ⟨gotManifest, h.2⟩⟩
  refine Upholds.seq (Q := fun url _ => release.assetUrl format.manifest.2 = .ok url) less
    (.lift h (fun _ _ => trivial) fun _ ok => ok) fun signatureUrl s h listedSignature => ?_
  refine Upholds.seq less (fetchMoved_upholds h signatureUrl _) fun signature s h ⟨us, sourceSignature, gotSignature⟩ => ?_
  have h : Held out [(us, signature), (um, manifestBytes), ((channelListing channel).1, metadata)] s :=
    ⟨h.1, List.cons_subset.mpr ⟨gotSignature, h.2⟩⟩
  refine Upholds.seq (Q := fun manifest _ =>
      verifyManifest out manifestBytes signature keyHex release.version = .ok manifest) less
    (.lift h (fun _ _ => trivial) fun _ ok => ok) fun manifest s h verified => ?_
  refine Upholds.seq (Q := fun _ _ => manifest.schema = format.schema) less
    (.refuse h (fun _ => trivial) fun same => not_not.mp same) fun _ s h schema => ?_
  refine Upholds.seq (Q := fun asset _ => format.select manifest target = .ok asset) less
    (.lift h (fun _ _ => trivial) fun _ ok => ok) fun asset s h selected => ?_
  refine Upholds.seq (Q := fun _ _ => ∃ listed ∈ release.assets, listed.name = asset.name ∧ listed.size = asset.size)
    less (.refuse h (fun _ => trivial) fun some => by simpa using some) fun _ s h listed => ?_
  refine Upholds.seq less (cancelled_upholds h rfl) fun _ s h _ => ?_
  refine Upholds.seq less (notesFor_upholds h current channel release) fun notes s h _ => ?_
  refine Upholds.seq less (cancelled_upholds h rfl) fun _ s h _ => ?_
  refine .pure (less s h) ?_
  rintro _ ⟨⟩
  obtain ⟨⟨keyBytes, key, hex, read, checked⟩, json, valid, same⟩ := verifyManifest_ok verified
  obtain ⟨held, fits, accepts⟩ := select_ok selected
  obtain ⟨published, onChannel⟩ := parseListing_ok parsed
  exact {
    newer := ⟨version, current, same ▸ tag, running, later⟩
    signed := ⟨keyBytes, key, hex, read, checked, genuine _ _ _ checked⟩
    manifest := ⟨json, schema⟩
    asset := ⟨held, fits, accepts, validateManifest_digest valid held⟩
    listed := ⟨metadata, release, h.2 (by simp), parsed, published, onChannel, same.symm, listed,
      ⟨manifestUrl, listedManifest, um, sourceManifest, h.2 (by simp)⟩,
      ⟨signatureUrl, listedSignature, us, sourceSignature, h.2 (by simp)⟩⟩ }

theorem check_sound (out : Outside Key) (Signed : Key → Bytes → Prop)
    (genuine : ∀ key bytes signature, out.verifyStrict key bytes signature = true → Signed key bytes)
    (server : ℕ → String → String → Except Error Response) (cancels : ℕ → Bool)
    (currentVersion keyHex : String) (channel : UpdateChannel) (format : Format) (target : String) :
    let ended := exec (check out cancels server currentVersion keyHex channel format target) .start
    (∀ hops ∈ ended.2.requests, hops.length ≤ MAX_REDIRECTS + 1 ∧ ∀ url ∈ hops, allowedUrl out url = true) ∧
      ∀ offer, ended.1 = .ok (some offer) →
        Offered out Signed currentVersion keyHex channel format target ended.2.got offer := by
  have fresh : Held out [] .start := ⟨nofun, List.nil_subset _⟩
  have upheld : Upholds (Held out []) Trivial _
      (check out cancels server currentVersion keyHex channel format target) .start :=
    check_upholds genuine fresh currentVersion keyHex channel format target
  obtain ⟨held, offered, -⟩ := upheld
  exact ⟨held.1, fun offer ok => offered _ ok offer rfl⟩

end

namespace Sample

def bytes (text : String) : Bytes := text.toByteArray.data.toList

def publicKey : Bytes :=
  [215, 90, 152, 1, 130, 177, 10, 183, 213, 75, 254, 211, 201, 100, 7, 58, 14, 225, 114, 243,
    218, 166, 35, 37, 175, 2, 26, 104, 247, 7, 81, 26]

def keyHex : String := "d75a980182b10ab7d54bfed3c964073a0ee172f3daa62325af021a68f707511a"

def signature : Bytes :=
  [158, 113, 250, 5, 235, 31, 80, 225, 235, 239, 220, 66, 24, 124, 59, 68, 193, 109, 192, 179,
    30, 11, 144, 90, 158, 216, 58, 129, 127, 61, 162, 26, 220, 8, 198, 111, 85, 246, 209, 57,
    38, 172, 213, 158, 110, 247, 107, 27, 70, 48, 216, 138, 28, 146, 163, 114, 252, 175, 1, 253,
    49, 194, 101, 0]

def archive : Asset where
  target := "universal-apple-darwin"
  name := "sheprd-20260920.2-macos-universal.app.tar.gz"
  size := 3
  sha256 := "ba7816bf8f01cfea414140de5dae2223b00361a396177a9cb410ff61f20015ad"

def manifest : Manifest where
  schema := 1
  version := "20260920.2"
  assets := [archive]

def manifestText : Bytes :=
  bytes ("\x7b\"schema\":1,\"version\":\"20260920.2\",\"assets\":[\x7b\"target\":\"universal-apple-darwin\"," ++
    "\"name\":\"sheprd-20260920.2-macos-universal.app.tar.gz\",\"size\":3,\"sha256\":\"ba7816b" ++
    "f8f01cfea414140de5dae2223b00361a396177a9cb410ff61f20015ad\"\x7d]\x7d")

def listed (name : String) (size : ℕ) : ReleaseAsset where
  name := name
  size := size
  browserDownloadUrl := Repository.asset .sheprd "20260920.2" name

def release : Release where
  version := "v20260920.2"
  draft := false
  prerelease := false
  assets := [listed "update-manifest.json" 221, listed "update-manifest.sig" 64, listed archive.name 3]
  body := some "Fixes."

def listingText : Bytes :=
  bytes ("\x7b\"tag_name\":\"v20260920.2\",\"draft\":false,\"prerelease\":false,\"body\":\"Fixes.\",\"asse" ++
    "ts\":[\x7b\"name\":\"update-manifest.json\",\"size\":221,\"browser_download_url\":\"https://g" ++
    "ithub.com/sheprd-labs/sheprd/releases/download/v20260920.2/update-manifest.json\"" ++
    "\x7d,\x7b\"name\":\"update-manifest.sig\",\"size\":64,\"browser_download_url\":\"https://github" ++
    ".com/sheprd-labs/sheprd/releases/download/v20260920.2/update-manifest.sig\"\x7d,\x7b\"na" ++
    "me\":\"sheprd-20260920.2-macos-universal.app.tar.gz\",\"size\":3,\"browser_download_ur" ++
    "l\":\"https://github.com/sheprd-labs/sheprd/releases/download/v20260920.2/sheprd-2" ++
    "0260920.2-macos-universal.app.tar.gz\"\x7d]\x7d")

def outside : Outside Bytes where
  keyFromBytes key := if key = publicKey then some key else none
  verifyStrict key message signed := decide (key = publicKey ∧ message = manifestText ∧ signed = signature)
  manifestFromSlice text := if text = manifestText then some manifest else none
  releaseFromSlice text := if text = listingText then some release else none
  releasesFromSlice _ := none
  parseUri url :=
    (stripFront "https://" url).map fun rest =>
      { scheme := some "https", authority := some (.ofList (rest.toList.takeWhile (· ≠ '/'))) }

def answer (body : Bytes) : Response where
  status := 200
  location := none
  quotaExhausted := false
  reset := none
  reads := [some body]

def server (_ : ℕ) (url _ : String) : Except Error Response :=
  if url = LATEST_URL then .ok (answer listingText)
  else if url = Repository.asset .sheprd "20260920.2" "update-manifest.json" then
    .ok { answer [] with status := 302, location := some "https://release-assets.githubusercontent.com/manifest" }
  else if url = "https://release-assets.githubusercontent.com/manifest" then .ok (answer manifestText)
  else if url = Repository.asset .sheprd "20260920.2" "update-manifest.sig" then .ok (answer signature)
  else .error .http

end Sample

namespace Sample

def checked : Exec Error Net (Option Offer) :=
  check outside (fun _ => false) server "20260919.1" keyHex .stable .archive "universal-apple-darwin"

def Returns {α : Type} (m : Exec Error Net α) (a : α) : Prop := ∀ s, Gives (fun b _ => b = a) m s

namespace Returns

variable {α β : Type} {a : α}

lemma bind {m : Exec Error Net α} {f : α → Exec Error Net β} {Q : β → Net → Prop} (h : Returns m a)
    (next : ∀ s, Gives Q (f a) s) (s : Net) : Gives Q (m >>= f) s := by
  refine Gives.bind (h s) ?_
  rintro _ s' rfl
  exact next s'

lemma lift {r : Except Error α} (h : r = .ok a) : Returns (Exec.lift id r) a := by
  subst h
  exact fun _ => Gives.pure rfl

lemma require {o : Option α} {e : Error} (h : o = some a) : Returns (Exec.require o e) a :=
  fun _ => Gives.require ⟨a, h, rfl⟩

lemma refuse {p : Prop} [Decidable p] {e : Error} (h : ¬p) : Returns (Exec.refuse p e) () := by
  rw [Exec.refuse, if_neg h]
  exact fun _ => Gives.pure rfl

end Returns

def never (_ : ℕ) : Bool := false

lemma cancelled_returns : Returns (cancelled never) () := fun _ => Gives.get_bind (Gives.pure rfl)

lemma hop_returns {url : String} {response : Response} (allowed : allowedUrl outside url = true)
    (answers : ∀ k accept, server k url accept = .ok response)
    (status : response.status = 200 ∨ response.status = 302) (accept : String) :
    Returns (hop outside server never accept url)
      (if response.status = 200 then .done response else .moved response) := by
  have sent : Returns (send server url accept) response :=
    fun s => Gives.get_bind (Returns.lift (answers s.clock accept) (s.sent url))
  refine Returns.bind cancelled_returns ?_
  refine Returns.bind (.refuse (by simp [allowed])) ?_
  refine Returns.bind sent fun _ => ?_
  obtain found | moved := status
  · rw [if_pos found, if_pos found]
    exact Gives.pure rfl
  · rw [moved, if_neg (by decide), if_neg (by decide), if_pos (by decide)]
    exact Gives.pure rfl

lemma hops_returns {url : String} {body : Bytes} (allowed : allowedUrl outside url = true)
    (answers : ∀ k accept, server k url accept = .ok (answer body)) (original accept : String) (left : ℕ) :
    Returns (hops outside server never original accept left url) (answer body) := by
  rw [hops.eq_def]
  exact Returns.bind (hop_returns allowed answers (.inl rfl) accept) fun _ => Gives.pure rfl

def Fetches (fetch : String → ℕ → Exec Error Net Bytes) (url : String) (limit : ℕ) (body : Bytes) : Prop :=
  Returns (fetchMoved outside (fun url => fetch url limit) url) body

lemma fetched {url : String} {limit : ℕ} {body : Bytes} (known : (resource outside url).isSome = true)
    (requested : ∀ accept, Returns (hops outside server never url accept MAX_REDIRECTS url) (answer body))
    (filled : body ≠ []) (fits : ¬body.length > limit) :
    Fetches (fetchExact outside server never) url limit body := by
  obtain ⟨r, hr⟩ := Option.isSome_iff_exists.mp known
  have request : Returns (requestWith outside server never url) (answer body) :=
    Returns.bind (.require hr) fun _ => Gives.modify_bind (requested _ _)
  have read : Returns (readBounded never limit [] [some body]) body := by
    refine Returns.bind cancelled_returns ?_
    refine Returns.bind (.require rfl) fun s => ?_
    rw [if_neg filled]
    refine Returns.bind (.refuse fits) ?_ s
    exact Returns.bind cancelled_returns (Returns.bind cancelled_returns fun _ => Gives.pure rfl)
  have whole : Returns (fetchExact outside server never url limit) body :=
    Returns.bind request (Returns.bind read fun _ => Gives.modify_bind (Gives.pure rfl))
  have attempted : Returns (attempt (fetchExact outside server never url limit)) (.ok body) := by
    intro s
    obtain ⟨_, ended, rfl⟩ := whole s
    exact ⟨_, rfl, ended⟩
  exact Returns.bind (.require hr) (Returns.bind attempted (Returns.lift rfl))

def manifestUrl : String := Repository.asset .sheprd "20260920.2" "update-manifest.json"

def movedUrl : String := "https://release-assets.githubusercontent.com/manifest"

def signatureUrl : String := Repository.asset .sheprd "20260920.2" "update-manifest.sig"

lemma latest_fetched :
    Fetches (fetchExact outside server never) LATEST_URL METADATA_LIMIT listingText := by
  refine fetched (by decide +kernel) (fun _ => ?_) (by decide +kernel) (by decide +kernel)
  exact hops_returns (by decide +kernel) (fun _ _ => if_pos rfl) _ _ _

lemma manifest_fetched :
    Fetches (fetchExact outside server never) manifestUrl MANIFEST_LIMIT manifestText := by
  have first : ∀ k accept, server k manifestUrl accept =
      .ok { answer [] with status := 302, location := some movedUrl } :=
    fun _ _ => (if_neg (by decide +kernel)).trans (if_pos rfl)
  have second : ∀ k accept, server k movedUrl accept = .ok (answer manifestText) :=
    fun _ _ => (if_neg (by decide +kernel)).trans ((if_neg (by decide +kernel)).trans (if_pos rfl))
  have leads : redirect outside manifestUrl movedUrl = .ok movedUrl := by decide +kernel
  refine fetched (by decide +kernel) (fun accept => ?_) (by decide +kernel) (by decide +kernel)
  rw [show MAX_REDIRECTS = 4 + 1 from rfl, hops]
  refine Returns.bind (hop_returns (by decide +kernel) first (.inr rfl) accept) fun s => ?_
  rw [if_neg (by decide)]
  refine Returns.bind (a := movedUrl) (.require (by decide +kernel)) ?_ s
  exact Returns.bind (.lift leads) (hops_returns (by decide +kernel) second _ _ _)

lemma signature_fetched : Fetches (fetchExact outside server never) signatureUrl 64 signature := by
  have answers : ∀ k accept, server k signatureUrl accept = .ok (answer signature) :=
    fun _ _ => (if_neg (by decide +kernel)).trans ((if_neg (by decide +kernel)).trans
      ((if_neg (by decide +kernel)).trans (if_pos rfl)))
  refine fetched (by decide +kernel) (fun _ => ?_) (by decide) (by decide)
  exact hops_returns (by decide +kernel) answers _ _ _

def published : Release := { release with version := "20260920.2" }

lemma check_offers (fetch : String → ℕ → Exec Error Net Bytes)
    (latest : Fetches fetch LATEST_URL METADATA_LIMIT listingText)
    (manifest' : Fetches fetch manifestUrl MANIFEST_LIMIT manifestText)
    (signature' : Fetches fetch signatureUrl 64 signature) (s : Net) :
    Gives (fun found _ => ∃ offer, found = some offer)
      (checkWith outside never "20260919.1" keyHex .stable .archive "universal-apple-darwin" fetch) s := by
  have running : parseVersion "20260919.1" = some (20260919, 1) := by decide +kernel
  have newest : parseVersion "20260920.2" = some (20260920, 2) := by decide +kernel
  have hex : hex32 keyHex = .ok publicKey := by decide +kernel
  have key : outside.keyFromBytes publicKey = some publicKey := by decide +kernel
  have parsed : parseListing outside .stable listingText = .ok published := by decide +kernel
  have first : checkListed published .archive "update-manifest.json" MANIFEST_LIMIT false = .ok () := by
    decide +kernel
  have second : checkListed published .archive "update-manifest.sig" 64 true = .ok () := by decide +kernel
  have manifestAt : published.assetUrl "update-manifest.json" = .ok manifestUrl := by decide +kernel
  have signatureAt : published.assetUrl "update-manifest.sig" = .ok signatureUrl := by decide +kernel
  have verified : verifyManifest outside manifestText signature keyHex "20260920.2" = .ok manifest := by
    decide +kernel
  have selected : Format.archive.select manifest "universal-apple-darwin" = .ok archive := by decide +kernel
  have sized : ¬(!published.assets.any fun listed =>
      decide (listed.name = archive.name) && decide (listed.size = archive.size)) = true := by decide +kernel
  rw [checkWith]
  refine Returns.bind cancelled_returns ?_ s
  refine Returns.bind (.require running) ?_
  refine Returns.bind (.lift hex) ?_
  refine Returns.bind (.require key) ?_
  refine Returns.bind latest ?_
  refine Returns.bind (.lift parsed) ?_
  refine Returns.bind (.require newest) fun s => ?_
  rw [if_neg (by decide)]
  refine Returns.bind (.lift first) ?_ s
  refine Returns.bind (.lift second) ?_
  refine Returns.bind (.lift manifestAt) ?_
  refine Returns.bind manifest' ?_
  refine Returns.bind (.lift signatureAt) ?_
  refine Returns.bind signature' ?_
  refine Returns.bind (.lift verified) ?_
  refine Returns.bind (.refuse (by decide)) ?_
  refine Returns.bind (.lift selected) ?_
  refine Returns.bind (.refuse sized) ?_
  refine Returns.bind cancelled_returns fun s => ?_
  refine Gives.bind (Q := fun _ _ => True) ?_ fun notes s' _ => ?_
  · exact Gives.bind (Q := fun _ _ => True) ⟨_, rfl, trivial⟩ fun _ _ _ => Gives.pure trivial
  · refine Returns.bind cancelled_returns (fun _ => ?_) s'
    exact Gives.pure ⟨_, rfl⟩

end Sample

theorem check_sound_sample :
    Approved Sample.outside (exec Sample.checked .start).2 ∧
      ∃ offer, (exec Sample.checked .start).1 = .ok (some offer) ∧
        Offered Sample.outside (fun key message => key = Sample.publicKey ∧ message = Sample.manifestText)
          "20260919.1" Sample.keyHex .stable .archive "universal-apple-darwin"
          (exec Sample.checked .start).2.got offer := by
  obtain ⟨_, ended, offer, rfl⟩ := Sample.check_offers _ Sample.latest_fetched Sample.manifest_fetched
    Sample.signature_fetched .start
  have sound := check_sound Sample.outside
    (fun key message => key = Sample.publicKey ∧ message = Sample.manifestText)
    (fun _ _ _ verified => ⟨(of_decide_eq_true verified).1, (of_decide_eq_true verified).2.1⟩) Sample.server
    (fun _ => false) "20260919.1" Sample.keyHex .stable .archive "universal-apple-darwin"
  exact ⟨sound.1, offer, ended, sound.2 offer ended⟩

end Sheprd.Updater.Releases
