import Sheprd.Lib.Exec
import Sheprd.Lib.Text

namespace Sheprd.Updater.Releases

open Sheprd.Lib Sheprd.Lib.Exec

abbrev Bytes := List UInt8

def MANIFEST_LIMIT : ℕ := 64 * 1024

def ARCHIVE_LIMIT : ℕ := 256 * 1024 * 1024

def METADATA_LIMIT : ℕ := 1024 * 1024

def RELEASE_LIST_LIMIT : ℕ := 4 * 1024 * 1024

def HISTORY_LIMIT : ℕ := 12 * 1024 * 1024

def RELEASES_PAGE : String := "https://github.com/sheprd-labs/sheprd/releases"

def LATEST_URL : String := "https://api.github.com/repos/sheprd-labs/sheprd/releases/latest"

def RELEASES_URL : String := "https://api.github.com/repos/sheprd-labs/sheprd/releases?per_page=10"

def HISTORY_URL : String := "https://api.github.com/repos/sheprd-labs/sheprd/releases?per_page=20"

def MAX_GROUPED_RELEASES : ℕ := 20

def MAX_GROUPED_LINES : ℕ := 360

def MAX_GROUPED_BYTES : ℕ := 48 * 1024

inductive Error where
  | cancelled
  | currentVersion
  | invalidHex
  | publicKey
  | unsupportedTarget
  | manifestSchema
  | manifestAssetCount
  | manifestAsset
  | archiveSize
  | manifestBounds
  | signatureLength
  | signature
  | manifestJson
  | manifestVersion
  | missingPlatformAsset
  | untrustedUrl
  | invalidRedirect
  | redirectLimit
  | httpStatus (status : ℕ)
  | rateLimited (reset : Option ℕ)
  | http
  | readUpdate
  | responseLimit
  | missingSignedMetadata
  | missingInstallerMetadata
  | missingPackageMetadata
  | metadataLimit
  | releaseJson
  | noPublishedRelease
  | releaseVersion
  | unstableRelease
  | releaseAssetCount
  | releaseAsset
  | signedMetadataSize
  | archiveMetadata
  deriving DecidableEq

inductive UpdateChannel where
  | stable
  | beta
  deriving DecidableEq

inductive Format where
  | archive
  | deb
  | rpm
  | arch
  | installer

structure Asset where
  target : String
  name : String
  size : ℕ
  sha256 : String
  deriving DecidableEq

structure Manifest where
  schema : ℕ
  version : String
  assets : List Asset
  deriving DecidableEq

structure Offer where
  manifest : Manifest
  asset : Asset
  manifestBytes : Bytes
  signature : Bytes
  notes : String

structure ReleaseAsset where
  name : String
  size : ℕ
  browserDownloadUrl : String
  deriving DecidableEq

structure Release where
  version : String
  draft : Bool
  prerelease : Bool
  assets : List ReleaseAsset
  body : Option String
  deriving DecidableEq

structure Uri where
  scheme : Option String
  authority : Option String

structure Response where
  status : ℕ
  location : Option String
  -- What the headers tell of an exhausted quota.
  quotaExhausted : Bool
  reset : Option ℕ
  -- None for a read that fails.
  reads : List (Option Bytes)

structure Outside (Key : Type) where
  keyFromBytes : Bytes → Option Key
  verifyStrict : Key → Bytes → Bytes → Bool
  manifestFromSlice : Bytes → Option Manifest
  releaseFromSlice : Bytes → Option Release
  releasesFromSlice : Bytes → Option (List Release)
  parseUri : String → Option Uri

def utf8Length (text : List Char) : ℕ := (text.map Char.utf8Size).sum

def allDigits (text : List Char) : Bool := text.all Char.isDigit

def parseU64 (text : List Char) : Option ℕ :=
  let n := Nat.ofDigitChars 10 text 0
  if n < 2 ^ 64 then some n else none

def parseVersion (value : String) : Option (ℕ × ℕ) := do
  let (date, counter) ← Text.splitOnce '.' value.toList
  if utf8Length date ≠ 8 ∨ date.head? = some '0' ∨ !allDigits date ∨ counter = [] ∨
      counter.head? = some '0' ∨ !allDigits counter then none
  else return (← parseU64 date, ← parseU64 counter)

def Newer (v w : ℕ × ℕ) : Prop := w.1 < v.1 ∨ w.1 = v.1 ∧ w.2 < v.2

instance (v w : ℕ × ℕ) : Decidable (Newer v w) := by
  unfold Newer
  infer_instance

def hexDigit (c : Char) : Option ℕ :=
  if '0' ≤ c ∧ c ≤ '9' then some (c.toNat - 48)
  else if 'a' ≤ c ∧ c ≤ 'f' then some (c.toNat - 97 + 10)
  else none

def hexBytes : List Char → Option Bytes
  | a :: b :: rest => do
      let high ← hexDigit a
      let low ← hexDigit b
      return UInt8.ofNat (high * 16 + low) :: (← hexBytes rest)
  | [_] => none
  | [] => some []

def hex32 (value : String) : Except Error Bytes :=
  if utf8Length value.toList ≠ 64 then .error .invalidHex
  else (hexBytes value.toList).elim (.error .invalidHex) .ok

def replaceFirst (mark put : List Char) : List Char → List Char
  | [] => []
  | c :: rest =>
      if mark.isPrefixOf (c :: rest) then put ++ (c :: rest).drop mark.length
      else c :: replaceFirst mark put rest

def spell (legacy : String) : String :=
  .ofList (replaceFirst "herdr-remote-control-".toList "sheprd-remote-control-".toList
    (replaceFirst "Herdr-".toList "Sheprd-".toList
      (replaceFirst "herdr-gpui-".toList "sheprd-".toList legacy.toList)))

inductive Naming where
  | herdr
  | sheprd

def Naming.ALL : List Naming := [.herdr, .sheprd]

def Naming.name : Naming → String → String
  | .herdr, legacy => legacy
  | .sheprd, legacy => spell legacy

def accepted (legacy : Except Error String) (name : String) : Bool :=
  match legacy with
  | .ok legacy => Naming.ALL.any fun naming => decide (naming.name legacy = name)
  | .error _ => false

def assetName (version target : String) : Except Error String :=
  let named suffix : Except Error String := .ok ("herdr-gpui-" ++ version ++ "-" ++ suffix ++ ".tar.gz")
  if target = "universal-apple-darwin" then named "macos-universal.app"
  else if target = "x86_64-unknown-linux-gnu" then named "x86_64-unknown-linux-gnu-update"
  else if target = "aarch64-unknown-linux-gnu" then named "aarch64-unknown-linux-gnu-update"
  else .error .unsupportedTarget

def WINDOWS_TARGETS : List String := ["x86_64-pc-windows-msvc", "aarch64-pc-windows-msvc"]

def LINUX_TARGETS : List String := ["x86_64-unknown-linux-gnu", "aarch64-unknown-linux-gnu"]

def HOST_TARGETS : List String := ["x86_64-unknown-linux-musl", "aarch64-unknown-linux-musl"]

def HOST_SCHEMA : ℕ := 4

def hostName (version target : String) : Except Error String :=
  if target ∈ HOST_TARGETS then .ok ("herdr-remote-control-" ++ version ++ "-" ++ target)
  else .error .unsupportedTarget

def hostAccepts (version target name : String) : Bool := accepted (hostName version target) name

namespace Format

def packageName (extension version target : String) : Except Error String :=
  if target ∈ LINUX_TARGETS then .ok ("Herdr-" ++ version ++ "-" ++ target ++ "." ++ extension)
  else .error .unsupportedTarget

def name (format : Format) (version target : String) : Except Error String :=
  match format with
  | archive => assetName version target
  | installer =>
      if target ∈ WINDOWS_TARGETS then .ok ("Herdr-" ++ version ++ "-" ++ target ++ "-setup.exe")
      else .error .unsupportedTarget
  | deb => packageName "deb" version target
  | rpm => packageName "rpm" version target
  | arch => packageName "pkg.tar.zst" version target

def accepts (format : Format) (version target name : String) : Bool :=
  accepted (format.name version target) name

def select (format : Format) (manifest : Manifest) (target : String) : Except Error Asset :=
  match manifest.assets.find? fun asset =>
      decide (asset.target = target) && format.accepts manifest.version target asset.name with
  | some asset => .ok asset
  | none => .error .missingPlatformAsset

def manifest : Format → String × String
  | archive => ("update-manifest.json", "update-manifest.sig")
  | installer => ("windows-manifest.json", "windows-manifest.sig")
  | deb | rpm | arch => ("package-manifest.json", "package-manifest.sig")

def schema : Format → ℕ
  | archive => 1
  | deb | rpm | arch => 2
  | installer => 3

def missingMetadata : Format → Error
  | archive => .missingSignedMetadata
  | installer => .missingInstallerMetadata
  | deb | rpm | arch => .missingPackageMetadata

end Format

def validateDigest (asset : Asset) : Except Error Bytes :=
  if asset.size = 0 ∨ asset.size > ARCHIVE_LIMIT then .error .archiveSize else hex32 asset.sha256

def family (schema : ℕ) : Option (List Format × ℕ) :=
  if schema = 1 then some ([.archive], 3)
  else if schema = 2 then some ([.deb, .rpm, .arch], 6)
  else if schema = 3 then some ([.installer], WINDOWS_TARGETS.length)
  else if schema = HOST_SCHEMA then some ([], HOST_TARGETS.length)
  else none

def validName (manifest : Manifest) (formats : List Format) (asset : Asset) : Bool :=
  if manifest.schema = 1 then Format.archive.accepts manifest.version asset.target asset.name
  else if manifest.schema = HOST_SCHEMA then hostAccepts manifest.version asset.target asset.name
  else formats.any fun format => format.accepts manifest.version asset.target asset.name

def clashes (manifest : Manifest) (formats : List Format) (asset other : Asset) : Bool :=
  decide (other.name = asset.name) ||
    (decide (other.target = asset.target) &&
      (decide (manifest.schema ≠ 2) ||
        formats.any fun format =>
          format.accepts manifest.version asset.target asset.name &&
            format.accepts manifest.version other.target other.name))

def validateAssets (manifest : Manifest) (formats : List Format) (earlier : List Asset) :
    List Asset → Except Error Unit
  | [] => .ok ()
  | asset :: assets =>
      if !validName manifest formats asset || earlier.any (clashes manifest formats asset) then
        .error .manifestAsset
      else do
        let _ ← validateDigest asset
        validateAssets manifest formats (earlier ++ [asset]) assets

def validateManifest (manifest : Manifest) : Except Error Unit :=
  match family manifest.schema with
  | none => .error .manifestSchema
  | some (formats, maximum) =>
      if (parseVersion manifest.version).isNone then .error .manifestSchema
      else if manifest.assets = [] ∨ manifest.assets.length > maximum then .error .manifestAssetCount
      else validateAssets manifest formats [] manifest.assets

section

variable {Key : Type} (out : Outside Key)

def verifyManifest (bytes signature : Bytes) (keyHex expected : String) : Except Error Manifest :=
  if bytes.length > MANIFEST_LIMIT ∨ (parseVersion expected).isNone then .error .manifestBounds
  else do
    let keyBytes ← hex32 keyHex
    let key ← (out.keyFromBytes keyBytes).elim (.error .publicKey) .ok
    if signature.length ≠ 64 then .error .signatureLength
    else if !out.verifyStrict key bytes signature then .error .signature
    else do
      let manifest ← (out.manifestFromSlice bytes).elim (.error .manifestJson) .ok
      validateManifest manifest
      if manifest.version ≠ expected then .error .manifestVersion else .ok manifest

def allowedHosts : List String := ["api.github.com", "github.com", "release-assets.githubusercontent.com"]

def allowedUrl (value : String) : Bool :=
  match out.parseUri value with
  | none => false
  | some uri =>
      decide (uri.scheme = some "https") && uri.authority.any (fun authority => authority ∈ allowedHosts) &&
        !value.toList.contains '#'

end

inductive Repository where
  | herdr
  | sheprd
  deriving DecidableEq

namespace Repository

def ALL : List Repository := [herdr, sheprd]

def path : Repository → String
  | herdr => "penso/herdr-gpui"
  | sheprd => "sheprd-labs/sheprd"

def asset (repository : Repository) (version name : String) : String :=
  "https://github.com/" ++ repository.path ++ "/releases/download/v" ++ version ++ "/" ++ name

end Repository

inductive Resource where
  | metadata (suffix : String)
  | asset (version name : String)
  deriving DecidableEq

def Resource.url : Resource → Repository → String
  | metadata suffix, repository =>
      "https://api.github.com/repos/" ++ repository.path ++ "/releases" ++ suffix
  | asset version name, repository => repository.asset version name

def stripFront (front text : String) : Option String :=
  if front.toList.isPrefixOf text.toList then some (.ofList (text.toList.drop front.toList.length)) else none

def stripBack (back text : String) : Option String :=
  if back.toList.isSuffixOf text.toList then
    some (.ofList (text.toList.take (text.toList.length - back.toList.length)))
  else none

def nameByte (c : Char) : Bool := c.isAlphanum || c = '-' || c = '_' || c = '.'

def plainName (name : String) : Bool :=
  !name.isEmpty && decide (utf8Length name.toList ≤ 255) && name ∉ [".", ".."] && name.toList.all nameByte

def resourceOf (url : String) (repository : Repository) : Option Resource :=
  let metadata := (stripFront ("https://api.github.com/repos/" ++ repository.path ++ "/releases") url).filter
    fun suffix => suffix ∈ ["/latest", "?per_page=10", "?per_page=20"]
  let download := do
    let rest ← stripFront ("https://github.com/" ++ repository.path ++ "/releases/download/v") url
    let (version, name) ← Text.splitOnce '/' rest.toList
    if (parseVersion (.ofList version)).isSome && plainName (.ofList name) then
      some (Resource.asset (.ofList version) (.ofList name))
    else none
  metadata.map .metadata <|> download

section

variable {Key : Type} (out : Outside Key)

def resource (url : String) : Option (Repository × Resource) :=
  if allowedUrl out url then
    Repository.ALL.findSome? fun repository => (resourceOf url repository).map fun r => (repository, r)
  else none

def isMetadata (url : String) : Bool :=
  match resource out url with
  | some (_, .metadata _) => true
  | _ => false

def redirect (original next : String) : Except Error String :=
  match resource out original with
  | none => .error .untrustedUrl
  | some (repository, expected) =>
      if !allowedUrl out next then .error .untrustedUrl
      else if (resource out next).any fun actual => decide (actual.2 = expected) then .ok next
      else
        match expected with
        | .asset .. =>
            if (stripFront "https://release-assets.githubusercontent.com/" next).isSome then .ok next
            else .error .untrustedUrl
        | .metadata suffix =>
            if repository = .herdr then
              let id := (stripFront "https://api.github.com/repositories/" next).bind
                (stripBack ("/releases" ++ suffix))
              if id.any fun id => !id.isEmpty && allDigits id.toList then .ok (expected.url .sheprd)
              else .error .untrustedUrl
            else .error .untrustedUrl

end

structure Net where
  clock : ℕ
  requests : List (List String)
  got : List (String × Bytes)

def Net.start : Net where
  clock := 0
  requests := []
  got := []

def Net.sent (s : Net) (url : String) : Net :=
  match s.requests with
  | [] => { s with clock := s.clock + 1, requests := [[url]] }
  | hops :: requests => { s with clock := s.clock + 1, requests := (hops ++ [url]) :: requests }

inductive Answer where
  | done (response : Response)
  | moved (response : Response)

def statusError (response : Response) : Error :=
  if ¬ (response.status = 403 ∨ response.status = 429) ∨ !response.quotaExhausted then
    .httpStatus response.status
  else .rateLimited response.reset

section

variable {Key : Type} (out : Outside Key) (server : ℕ → String → String → Except Error Response)
  (cancels : ℕ → Bool)

def cancelled : Exec Error Net Unit := do
  let s ← get
  set { s with clock := s.clock + 1 }
  refuse (cancels s.clock = true) .cancelled

def send (url accept : String) : Exec Error Net Response := do
  let s ← get
  set (s.sent url)
  lift id (server s.clock url accept)

def hop (accept url : String) : Exec Error Net Answer := do
  cancelled cancels
  refuse (!allowedUrl out url) .untrustedUrl
  let response ← send server url accept
  if response.status = 200 then return .done response
  else if response.status ∈ [301, 302, 303, 307, 308] then return .moved response
  else throw (statusError response)

def hops (original accept : String) : ℕ → String → Exec Error Net Response
  | left, url => do
      match ← hop out server cancels accept url with
      | .done response => return response
      | .moved response =>
          match left with
          | 0 => throw .redirectLimit
          | left + 1 =>
              let next ← require (response.location.filter fun value => utf8Length value.toList ≤ 8192)
                .invalidRedirect
              let url ← lift id (redirect out original next)
              hops original accept left url

def MAX_REDIRECTS : ℕ := 5

def requestWith (original : String) : Exec Error Net Response := do
  let _ ← require (resource out original) .untrustedUrl
  modify fun s => { s with requests := [] :: s.requests }
  let accept := if isMetadata out original then "application/vnd.github+json" else "application/octet-stream"
  hops out server cancels original accept MAX_REDIRECTS original

def readBounded (limit : ℕ) (bytes : Bytes) : List (Option Bytes) → Exec Error Net Bytes
  | [] => do
      cancelled cancels
      cancelled cancels
      return bytes
  | read :: reads => do
      cancelled cancels
      let chunk ← require read .readUpdate
      if chunk = [] then
        cancelled cancels
        return bytes
      else
        refuse (chunk.length > limit - bytes.length) .responseLimit
        readBounded limit (bytes ++ chunk) reads

def fetchExact (url : String) (limit : ℕ) : Exec Error Net Bytes := do
  let response ← requestWith out server cancels url
  let bytes ← readBounded cancels limit [] response.reads
  modify fun s => { s with got := (url, bytes) :: s.got }
  return bytes

def fetchMoved (fetch : String → Exec Error Net Bytes) (url : String) : Exec Error Net Bytes := do
  let (repository, resource) ← require (resource out url) .untrustedUrl
  match ← attempt (fetch url) with
  | .error (.httpStatus 404) =>
      if repository = .herdr then fetch (resource.url .sheprd) else throw (.httpStatus 404)
  | result => lift id result

end

def assetFits (version : String) (earlier : List ReleaseAsset) (asset : ReleaseAsset) : Bool :=
  plainName asset.name && decide (asset.size ≠ 0) && decide (asset.size ≤ ARCHIVE_LIMIT) &&
    Repository.ALL.any (fun repository => decide (asset.browserDownloadUrl = repository.asset version asset.name)) &&
    !earlier.any fun other => decide (other.name = asset.name)

def assetsFit (version : String) (earlier : List ReleaseAsset) : List ReleaseAsset → Bool
  | [] => true
  | asset :: assets => assetFits version earlier asset && assetsFit version (earlier ++ [asset]) assets

def validateRelease (release : Release) (channel : UpdateChannel) : Except Error Release :=
  match stripFront "v" release.version with
  | none => .error .releaseVersion
  | some version =>
      if release.draft || (release.prerelease && decide (channel = .stable)) || (parseVersion version).isNone then
        .error .unstableRelease
      else if release.assets.length > 128 then .error .releaseAssetCount
      else if !assetsFit version [] release.assets then .error .releaseAsset
      else .ok { release with version }

def maxByVersion : List ((ℕ × ℕ) × Release) → Option ((ℕ × ℕ) × Release)
  | [] => none
  | entry :: entries =>
      match maxByVersion entries with
      | none => some entry
      | some best => if Newer entry.1 best.1 then some entry else some best

def tagged (release : Release) : Option ((ℕ × ℕ) × Release) := do
  let version ← (stripFront "v" release.version).bind parseVersion
  return (version, release)

section

variable {Key : Type} (out : Outside Key)

def parseRelease (bytes : Bytes) : Except Error Release :=
  if bytes.length > METADATA_LIMIT then .error .metadataLimit
  else
    match out.releaseFromSlice bytes with
    | none => .error .releaseJson
    | some release => validateRelease release .stable

def parseReleases (bytes : Bytes) : Except Error Release :=
  if bytes.length > RELEASE_LIST_LIMIT then .error .metadataLimit
  else
    match out.releasesFromSlice bytes with
    | none => .error .releaseJson
    | some releases =>
        match maxByVersion ((releases.filter fun release => !release.draft).filterMap tagged) with
        | none => .error .noPublishedRelease
        | some (_, newest) => validateRelease newest .beta

def channelListing (channel : UpdateChannel) : String × ℕ :=
  match channel with
  | .stable => (LATEST_URL, METADATA_LIMIT)
  | .beta => (RELEASES_URL, RELEASE_LIST_LIMIT)

def parseListing (channel : UpdateChannel) (bytes : Bytes) : Except Error Release :=
  match channel with
  | .stable => parseRelease out bytes
  | .beta => parseReleases out bytes

end

def Release.assetUrl (release : Release) (name : String) : Except Error String :=
  match release.assets.find? fun asset => asset.name = name with
  | some asset => .ok asset.browserDownloadUrl
  | none => .error .missingSignedMetadata

def trimmed (text : String) : String := Text.trim text

def noteOf (current target : ℕ × ℕ) (release : Release) : Option ((ℕ × ℕ) × String × String) := do
  let version ← (stripFront "v" release.version).bind parseVersion
  let body := trimmed (release.body.getD "")
  if Newer version current ∧ Newer target version ∧ body ≠ "" then
    return (version, .ofList (release.version.toList.dropWhile (· = 'v')), body)
  else none

def noteSection (version body : String) : String := "## " ++ version ++ "\n\n" ++ body

def joinNotes : List ((ℕ × ℕ) × String × String) → String → ℕ → String × ℕ
  | [], notes, kept => (notes, kept)
  | (_, version, body) :: shown, notes, kept =>
      let text := noteSection version body
      let lines := (Text.lines notes).length + (Text.lines text).length + 2
      let bytes := utf8Length notes.toList + utf8Length text.toList + 2
      if kept > 0 ∧ (kept = MAX_GROUPED_RELEASES ∨ lines > MAX_GROUPED_LINES ∨ bytes > MAX_GROUPED_BYTES) then
        (notes, kept)
      else joinNotes shown ((if kept > 0 then notes ++ "\n\n" else notes) ++ text) (kept + 1)

section

variable {Key : Type} (out : Outside Key)

def historyNotes (metadata : Bytes) (current : ℕ × ℕ) (target : String) (targetBody : Option String)
    (channel : UpdateChannel) : Option String := do
  if metadata.length > HISTORY_LIMIT then none
  else
    let targetVersion ← parseVersion target
    let releases ← out.releasesFromSlice metadata
    let shown := ((releases.filter fun release => !release.draft &&
      (decide (channel = .beta) || !release.prerelease)).filterMap (noteOf current targetVersion)).mergeSort
        fun a b => !decide (Newer b.1 a.1)
    let shown :=
      match (targetBody.map trimmed).filter (· ≠ "") with
      | some body => (targetVersion, target, body) :: shown
      | none => shown
    let (notes, kept) := joinNotes shown "" 0
    if kept < 2 then none
    else if kept < shown.length then
      some (notes ++ "\n\n> Showing the newest " ++ toString kept ++ " releases. [All releases](" ++
        RELEASES_PAGE ++ ")")
    else some notes

end

def checkListed (release : Release) (format : Format) (name : String) (limit : ℕ) (exact : Bool) :
    Except Error Unit :=
  match release.assets.find? fun asset => asset.name = name with
  | none => .error format.missingMetadata
  | some asset =>
      if asset.size > limit ∨ (exact = true ∧ asset.size ≠ 64) then .error .signedMetadataSize else .ok ()

section

variable {Key : Type} (out : Outside Key) (cancels : ℕ → Bool)

def notesFor (fetch : String → ℕ → Exec Error Net Bytes) (current : ℕ × ℕ) (channel : UpdateChannel)
    (release : Release) : Exec Error Net String := do
  let listing ← attempt (fetch HISTORY_URL HISTORY_LIMIT)
  let grouped := listing.toOption.bind fun listing =>
    historyNotes out listing current release.version release.body channel
  return grouped.getD (release.body.getD "")

def checkWith (currentVersion keyHex : String) (channel : UpdateChannel) (format : Format) (target : String)
    (fetch : String → ℕ → Exec Error Net Bytes) : Exec Error Net (Option Offer) := do
  let fetch url limit := fetchMoved out (fun url => fetch url limit) url
  cancelled cancels
  let current ← require (parseVersion currentVersion) .currentVersion
  let keyBytes ← lift id (hex32 keyHex)
  let _ ← require (out.keyFromBytes keyBytes) .publicKey
  let metadata ← fetch (channelListing channel).1 (channelListing channel).2
  let release ← lift id (parseListing out channel metadata)
  let version ← require (parseVersion release.version) .releaseVersion
  if ¬ Newer version current then return none
  else
    lift id (checkListed release format format.manifest.1 MANIFEST_LIMIT false)
    lift id (checkListed release format format.manifest.2 64 true)
    let manifestUrl ← lift id (release.assetUrl format.manifest.1)
    let manifestBytes ← fetch manifestUrl MANIFEST_LIMIT
    let signatureUrl ← lift id (release.assetUrl format.manifest.2)
    let signature ← fetch signatureUrl 64
    let manifest ← lift id (verifyManifest out manifestBytes signature keyHex release.version)
    refuse (manifest.schema ≠ format.schema) .manifestSchema
    let asset ← lift id (format.select manifest target)
    refuse (!release.assets.any fun listed => decide (listed.name = asset.name) && decide (listed.size = asset.size))
      .archiveMetadata
    cancelled cancels
    let notes ← notesFor out fetch current channel release
    cancelled cancels
    return some { manifest, asset, manifestBytes, signature, notes }

def check (server : ℕ → String → String → Except Error Response) (currentVersion keyHex : String)
    (channel : UpdateChannel) (format : Format) (target : String) : Exec Error Net (Option Offer) :=
  checkWith out cancels currentVersion keyHex channel format target (fetchExact out server cancels)

end

end Sheprd.Updater.Releases
