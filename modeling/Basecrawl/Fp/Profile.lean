/-
  The seeded fingerprint of the `fp` crate.

  1. **The tables** — the values a seed may select; rows of paired tables belong together.
  2. **The stream** — each field draws from a lane of its own, a chain of SHA-256 blocks.
  3. **The profile** — `generate`; an index out of bounds would be a panic.
  4. **The parameter space** — `isWithinParameterSpace`, and `effectiveFingerprintHeaders`, the
     fields a profile puts in front of those of the caller.

  The product version comes from the environment variable `CHROMIUM_VERSION`, or is the pinned one.
  SHA-256 is any function to 32 bytes.
-/
import Mathlib.Data.List.Sort
import Basecrawl.Lib.Frames
import Basecrawl.Lib.Hex
import Basecrawl.Lib.Numerals
import Basecrawl.Lib.Shuffle

namespace Basecrawl.Fp

open Text Hex Outcome Panic Frames LittleEndian Numerals Shuffle

/-- What may go wrong is a panic. -/
abbrev Drawn (α : Type) := Checked Empty α

/-- A SHA-256 digest. -/
abbrev Block := Vector UInt8 32

/-- The environment variables. -/
abbrev Vars := String → Option String

/-! ## Parts of texts -/

/-- The first place of a pattern: what stands before it and behind it. -/
def splitOnceChars (pat : List Char) : List Char → Option (List Char × List Char)
  | [] => if pat = [] then some ([], []) else none
  | c :: cs =>
    if pat.isPrefixOf (c :: cs) then some ([], (c :: cs).drop pat.length)
    else (splitOnceChars pat cs).map fun parts => (c :: parts.1, parts.2)

/-- `str::split_once` with a string pattern. -/
def splitOnceText (s pat : String) : Option (String × String) :=
  (splitOnceChars pat.toList s.toList).map fun parts =>
    (String.ofList parts.1, String.ofList parts.2)

/-- `str::split(pat).nth(1)`. -/
def splitSecond (s pat : String) : Option String :=
  (splitOnceText s pat).map fun parts => ((splitOnceText parts.2 pat).map Prod.fst).getD parts.2

/-- The digits in front, and what follows them. -/
def leadingDigits (s : String) : String := String.ofList (s.toList.takeWhile Char.isDigit)

def afterDigits (s : String) : String := String.ofList (s.toList.dropWhile Char.isDigit)

/-- `str::parse::<u32>()`. -/
def parseU32 : String → Option Nat := parseUnsigned (2 ^ 32)

/-! ## The tables -/

/-- `PINNED_CHROMIUM_VERSION`. -/
def pinnedChromiumVersion : String := "145.0.7632.46"

/-- `PINNED_CHROMIUM_MAJOR`. -/
def pinnedChromiumMajor : Nat := 145

/-- The text that the user agents have in common. -/
def chrome145 (platform : String) : String :=
  "Mozilla/5.0 (" ++ platform ++
    ") AppleWebKit/537.36 (KHTML, like Gecko) Chrome/145.0.0.0 Safari/537.36"

/-- `USER_AGENTS`. -/
def userAgents : List String :=
  [chrome145 "X11; Linux x86_64",
    chrome145 "Windows NT 10.0; Win64; x64",
    chrome145 "Macintosh; Intel Mac OS X 10_15_7",
    chrome145 "X11; Ubuntu; Linux x86_64",
    chrome145 "Windows NT 11.0; Win64; x64",
    chrome145 "X11; Fedora; Linux x86_64",
    chrome145 "Windows NT 10.0; WOW64",
    chrome145 "Macintosh; Intel Mac OS X 13_6_0"]

/-- `HARDWARE_CONCURRENCY`. -/
def hardwareConcurrencies : List Nat := [2, 4, 6, 8, 12, 16]

/-- `DEVICE_MEMORY`. -/
def deviceMemories : List Nat := [2, 4, 8]

/-- `VIEWPORTS`. -/
def viewports : List (Nat × Nat) :=
  [(1280, 800), (1366, 768), (1440, 900), (1536, 864), (1920, 1080), (1280, 720), (1600, 900),
    (1680, 1050)]

/-- A row of `SCREEN_GEOMETRY`. -/
structure Screen where
  width : Nat
  height : Nat
  availWidth : Nat
  availHeight : Nat
  colorDepth : Nat
deriving DecidableEq

/-- `SCREEN_GEOMETRY`, by the rows of `VIEWPORTS`. -/
def screenGeometry : List Screen :=
  [⟨1280, 800, 1280, 760, 24⟩, ⟨1366, 768, 1366, 728, 24⟩, ⟨1440, 900, 1440, 860, 24⟩,
    ⟨1536, 864, 1536, 824, 24⟩, ⟨1920, 1080, 1920, 1040, 24⟩, ⟨1280, 720, 1280, 680, 24⟩,
    ⟨1600, 900, 1600, 860, 24⟩, ⟨1680, 1050, 1680, 1010, 24⟩]

/-- `PLUGIN_INVENTORY`. -/
def pluginInventory : List String :=
  ["PDF Viewer", "Chrome PDF Viewer", "Chromium PDF Viewer", "Microsoft Edge PDF Viewer",
    "WebKit built-in PDF"]

/-- `TIMEZONES`. -/
def timezones : List String :=
  ["UTC", "America/New_York", "America/Los_Angeles", "America/Chicago", "Europe/London",
    "Europe/Paris", "Europe/Berlin", "Asia/Tokyo", "Asia/Shanghai", "Asia/Singapore",
    "Australia/Sydney", "America/Sao_Paulo"]

/-- `LOCALES`. -/
def locales : List String :=
  ["en-US", "en-GB", "de-DE", "fr-FR", "ja-JP", "es-ES", "pt-BR", "zh-CN", "ko-KR", "it-IT"]

/-- `HEADER_ORDERS`. -/
def headerOrders : List (List String) :=
  [["user-agent", "accept", "accept-language", "accept-encoding"],
    ["user-agent", "accept-language", "accept", "accept-encoding"],
    ["user-agent", "accept-encoding", "accept", "accept-language"],
    ["user-agent", "accept", "accept-encoding", "accept-language"],
    ["accept", "user-agent", "accept-language", "accept-encoding"],
    ["accept-language", "user-agent", "accept", "accept-encoding"]]

/-- `TLS13_CIPHER_SUITES`. -/
def tls13CipherSuites : List Nat := [0x1302, 0x1301, 0x1303]

/-- `TLS13_CIPHER_NAMES`, by the rows of `TLS13_CIPHER_SUITES`. -/
def tls13CipherNames : List String :=
  ["TLS13_AES_256_GCM_SHA384", "TLS13_AES_128_GCM_SHA256", "TLS13_CHACHA20_POLY1305_SHA256"]

/-- `TLS_GROUPS`. -/
def tlsGroups : List String := ["X25519", "secp256r1", "secp384r1"]

/-- `WEBGL_RENDERERS`. -/
def webglRenderers : List String :=
  ["ANGLE (Intel, Mesa Intel(R) UHD Graphics 620 (KBL GT2), OpenGL 4.6)",
    "ANGLE (NVIDIA, NVIDIA GeForce GTX 1660/PCIe/SSE2, OpenGL 4.5.0)",
    "ANGLE (AMD, AMD Radeon RX 580 Series, OpenGL 4.6)",
    "ANGLE (Apple, Apple M1, OpenGL 4.1)",
    "ANGLE (Google, Vulkan 1.3.0 (SwiftShader Device (Subzero)), SwiftShader)",
    "ANGLE (Intel, Intel(R) Iris(R) Xe Graphics, OpenGL 4.6)"]

/-- `WEBGL_VENDORS`, by the rows of `WEBGL_RENDERERS`. -/
def webglVendors : List String :=
  ["Google Inc. (Intel)", "Google Inc. (NVIDIA)", "Google Inc. (AMD)", "Google Inc. (Apple)",
    "Google Inc. (Google)", "Google Inc. (Intel)"]

/-! ## The product version -/

/-- `product_chromium_version`. -/
def productChromiumVersion (vars : Vars) : String :=
  (((vars "CHROMIUM_VERSION").map trim).filter (· != "")).getD pinnedChromiumVersion

/-- `product_chromium_major`. -/
def productChromiumMajor (vars : Vars) : Nat :=
  ((split (productChromiumVersion vars) '.').head?.bind parseU32).getD pinnedChromiumMajor

/-- `chrome_versions_for_ua`. -/
def chromeVersionsForUa (vars : Vars) (userAgent : String) : Nat × String :=
  let parsedMajor := ((splitSecond userAgent "Chrome/").bind fun rest =>
    parseU32 (leadingDigits rest)).getD (productChromiumMajor vars)
  let major := if parsedMajor ≠ productChromiumMajor vars then productChromiumMajor vars
    else parsedMajor
  let full := if major = productChromiumMajor vars then productChromiumVersion vars
    else Nat.repr major ++ ".0.0.0"
  (major, full)

/-- `coerce_user_agent_to_product_pin`. -/
def coerceUserAgentToProductPin (vars : Vars) (userAgent : String) : String :=
  match splitOnceText userAgent "Chrome/" with
  | some (before, rest) =>
    match parseU32 (leadingDigits rest) with
    | some parsed =>
      if parsed ≠ productChromiumMajor vars then
        before ++ "Chrome/" ++ Nat.repr (productChromiumMajor vars) ++ afterDigits rest
      else userAgent
    | none => userAgent
  | none => userAgent

/-! ## The stream -/

section Stream

variable (sha256 : Bytes → Block)

/-- `is_hex64`. -/
def isHex64 (value : String) : Bool :=
  (utf8 value).length == 64 && (utf8 value).all isAsciiHexdigit

/-- `SEED_DOMAIN_TAG`. -/
def seedDomainTag : Bytes := utf8 "basecrawl/fingerprint-seed/v1\x00"

/-- `hex` of a digest. -/
def hexDigest (bytes : Bytes) : String := hexEncode (sha256 bytes).toList

/-- `normalize_seed`. -/
def normalizeSeed (input : String) : String :=
  let trimmed := trim input
  if isHex64 trimmed then asciiLower trimmed else hexDigest sha256 (seedDomainTag ++ utf8 trimmed)

/-- `SeedStream`. -/
structure SeedStream where
  seed : Bytes

/-- `SeedStream::new`: the 32 bytes that the seed spells, or its digest. -/
def SeedStream.new (seedHex : String) : SeedStream where
  seed := ((hexBytes (utf8 seedHex)).filter fun bytes => bytes.length == 32).getD
    (sha256 (utf8 seedHex)).toList

/-- `Lane`. -/
structure Lane where
  state : Block
  offset : Nat

/-- `SeedStream::lane`. -/
def SeedStream.lane (stream : SeedStream) (lane : Nat) : Lane where
  state := sha256 (utf8 "basecrawl/fp-stream/v1\x00" ++ stream.seed ++ leBytes 8 lane)
  offset := 0

/-- `Lane::refill`. -/
def Lane.refill (lane : Lane) : Lane where
  state := sha256 (utf8 "basecrawl/fp-stream-block/v1\x00" ++ lane.state.toList)
  offset := 0

/-- `Lane::next_u64`. -/
def Lane.nextU64 (lane : Lane) : Nat × Lane :=
  let lane := if lane.offset + 8 > 32 then lane.refill sha256 else lane
  (le lane.state.toList lane.offset 8, { lane with offset := lane.offset + 8 })

/-- `Lane::next_usize`. -/
def Lane.nextUsize (lane : Lane) (bound : Nat) : Nat × Lane :=
  if bound = 0 then (0, lane)
  else
    let drawn := lane.nextU64 sha256
    (drawn.1 % bound, drawn.2)

/-- `pick`. -/
def pick {α : Type} (lane : Lane) (items : List α) : Drawn α :=
  index items (lane.nextUsize sha256 items.length).1

/-- `permutation`. -/
def permutation (lane : Lane) (n : Nat) : Drawn (List Nat) := do
  let items ← shuffle (fun bound (lane : Lane) => lane.nextUsize sha256 bound) (n - 1) lane
    (Array.range n)
  .ok items.toList

end Stream

/-! ## The profile -/

/-- `FingerprintProfile`. -/
structure FingerprintProfile where
  seed : String
  userAgent : String
  viewportWidth : Nat
  viewportHeight : Nat
  timezone : String
  locale : String
  headerNames : List String
  acceptLanguage : String
  accept : String
  acceptEncoding : String
  tls13CipherOrder : List Nat
  tls13CipherNames : List String
  tlsGroupOrder : List String
  canvasFingerprint : String
  webglFingerprint : String
  webglVendor : String
  webglRenderer : String
  canvasNoise : Nat
  ja3 : String
  ja4 : String
  platform : String
  hardwareConcurrency : Nat
  deviceMemory : Nat
  screenWidth : Nat
  screenHeight : Nat
  screenAvailWidth : Nat
  screenAvailHeight : Nat
  screenColorDepth : Nat
  pluginsLength : Nat
  chromeMajor : Nat
  chromeFullVersion : String
deriving DecidableEq, Inhabited

/-- `accept_language_for`. -/
def acceptLanguageFor (locale : String) : String :=
  let short := (split locale '-').head?.getD locale
  if short = locale then locale ++ ",en;q=0.8" else locale ++ "," ++ short ++ ";q=0.9,en;q=0.8"

/-- `platform_for`. -/
def platformFor (userAgent : String) : String :=
  if contains userAgent "Windows" then "Win32"
  else if contains userAgent "Macintosh" || contains userAgent "Mac OS" then "MacIntel"
  else "Linux x86_64"

/-- A suite as `{suite:04x}`. -/
def suiteHex (suite : Nat) : String := hexEncode (beBytes 2 suite)

/-- A number as `{:02}`. -/
def twoDigits (n : Nat) : String := if n < 10 then "0" ++ Nat.repr n else Nat.repr n

section Generate

variable (sha256 : Bytes → Block)

/-- `compute_ja3`. -/
def computeJa3 (ciphers : List Nat) (groups headerNames : List String) : String :=
  hexDigest sha256 (utf8 ("basecrawl/ja3/v1\x00" ++ "771," ++
    String.intercalate "-" (ciphers.map suiteHex) ++ "," ++ "0-11-10-35-16-13" ++ "," ++
    String.intercalate "-" groups ++ ",0" ++ "|headers:" ++
    String.join (headerNames.map fun name => name ++ ",")))

/-- `compute_ja4`. -/
def computeJa4 (ciphers : List Nat) (groups : List String) (locale : String) : String :=
  hexDigest sha256 (utf8 ("basecrawl/ja4/v1\x00" ++ "t13d" ++ twoDigits ciphers.length ++ "_" ++
    String.intercalate "," (ciphers.map suiteHex) ++ "_" ++ String.intercalate "," groups ++ "_" ++
    locale))

/-- `compute_canvas_fingerprint`. -/
def computeCanvasFingerprint (seed : String) (noise : Nat) : String :=
  hexDigest sha256 (utf8 ("basecrawl/canvas-fp/v1\x00" ++ seed) ++ leBytes 8 noise)

/-- `compute_webgl_fingerprint`. -/
def computeWebglFingerprint (seed vendor renderer : String) : String :=
  hexDigest sha256 (utf8 ("basecrawl/webgl-fp/v1\x00" ++ seed ++ vendor ++ "\x00" ++ renderer))

/-- The place of a viewport in its table, or the first. -/
def viewportIndex (viewport : Nat × Nat) : Nat := (viewports.idxOf? viewport).getD 0

/-- `generate`. -/
def generate (vars : Vars) (seedInput : String) : Drawn FingerprintProfile := do
  let seed := normalizeSeed sha256 seedInput
  let stream := SeedStream.new sha256 seed
  let chosenAgent ← pick sha256 (stream.lane sha256 0) userAgents
  let userAgent := coerceUserAgentToProductPin vars chosenAgent
  let viewport ← pick sha256 (stream.lane sha256 1) viewports
  let timezone ← pick sha256 (stream.lane sha256 2) timezones
  let locale ← pick sha256 (stream.lane sha256 3) locales
  let headerNames ← pick sha256 (stream.lane sha256 4) headerOrders
  let cipherPerm ← permutation sha256 (stream.lane sha256 5) tls13CipherSuites.length
  let cipherOrder ← cipherPerm.mapM (index tls13CipherSuites)
  let cipherNames ← cipherPerm.mapM (index Fp.tls13CipherNames)
  let groupPerm ← permutation sha256 (stream.lane sha256 6) tlsGroups.length
  let groupOrder ← groupPerm.mapM (index tlsGroups)
  let webglIdx := ((stream.lane sha256 7).nextUsize sha256 webglRenderers.length).1
  let webglRenderer ← index webglRenderers webglIdx
  let webglVendor ← index webglVendors webglIdx
  let canvasNoise := ((stream.lane sha256 8).nextU64 sha256).1
  let hardwareConcurrency ← pick sha256 (stream.lane sha256 9) hardwareConcurrencies
  let screen ← index screenGeometry (min (viewportIndex viewport) (screenGeometry.length - 1))
  let deviceMemory ← pick sha256 (stream.lane sha256 10) deviceMemories
  let versions := chromeVersionsForUa vars userAgent
  .ok
    { seed := seed
      userAgent := userAgent
      viewportWidth := viewport.1
      viewportHeight := viewport.2
      timezone := timezone
      locale := locale
      headerNames := headerNames
      acceptLanguage := acceptLanguageFor locale
      accept :=
        "text/html,application/xhtml+xml,application/xml;q=0.9,image/avif,image/webp,*/*;q=0.8"
      acceptEncoding := "gzip, deflate, br"
      tls13CipherOrder := cipherOrder
      tls13CipherNames := cipherNames
      tlsGroupOrder := groupOrder
      canvasFingerprint := computeCanvasFingerprint sha256 seed canvasNoise
      webglFingerprint := computeWebglFingerprint sha256 seed webglVendor webglRenderer
      webglVendor := webglVendor
      webglRenderer := webglRenderer
      canvasNoise := canvasNoise
      ja3 := computeJa3 sha256 cipherOrder groupOrder headerNames
      ja4 := computeJa4 sha256 cipherOrder groupOrder locale
      platform := platformFor userAgent
      hardwareConcurrency := hardwareConcurrency
      deviceMemory := deviceMemory
      screenWidth := screen.width
      screenHeight := screen.height
      screenAvailWidth := screen.availWidth
      screenAvailHeight := screen.availHeight
      screenColorDepth := screen.colorDepth
      pluginsLength := pluginInventory.length
      chromeMajor := versions.1
      chromeFullVersion := versions.2 }

end Generate

/-- The profile of every seed, when SHA-256 is zero throughout. -/
def zeroProfile : FingerprintProfile :=
  match generate (fun _ => Vector.replicate 32 0) (fun _ => none) "" with
  | .ok profile => profile
  | .error _ => default

/-! ## The parameter space -/

/-- `is_within_parameter_space`: every field is in its table, or agrees with another field. -/
def isWithinParameterSpace (vars : Vars) (profile : FingerprintProfile) : Bool :=
  decide (
    profile.userAgent ∈ userAgents ∧
    (profile.viewportWidth, profile.viewportHeight) ∈ viewports ∧
    profile.timezone ∈ timezones ∧
    profile.locale ∈ locales ∧
    profile.headerNames ∈ headerOrders ∧
    profile.tls13CipherOrder.length = tls13CipherSuites.length ∧
    (∀ suite ∈ profile.tls13CipherOrder, suite ∈ tls13CipherSuites) ∧
    profile.tls13CipherOrder.insertionSort (· ≤ ·) = tls13CipherSuites.insertionSort (· ≤ ·) ∧
    profile.tlsGroupOrder.length = tlsGroups.length ∧
    (∀ group ∈ profile.tlsGroupOrder, group ∈ tlsGroups) ∧
    profile.webglRenderer ∈ webglRenderers ∧
    profile.webglVendor ∈ webglVendors ∧
    profile.hardwareConcurrency ∈ hardwareConcurrencies ∧
    0 < profile.hardwareConcurrency ∧
    profile.deviceMemory ∈ deviceMemories ∧
    0 < profile.deviceMemory ∧
    profile.viewportWidth ≤ profile.screenWidth ∧
    profile.viewportHeight ≤ profile.screenHeight ∧
    0 < profile.screenAvailWidth ∧
    0 < profile.screenAvailHeight ∧
    0 < profile.screenColorDepth ∧
    profile.pluginsLength = pluginInventory.length ∧
    0 < profile.chromeMajor ∧
    chromeVersionsForUa vars profile.userAgent =
      (profile.chromeMajor, profile.chromeFullVersion) ∧
    isHex64 profile.seed = true ∧
    isHex64 profile.ja3 = true ∧
    isHex64 profile.ja4 = true ∧
    isHex64 profile.canvasFingerprint = true ∧
    isHex64 profile.webglFingerprint = true)

/-! ## The fields of a request -/

/-- The value a profile has for a slot of its header order. -/
def FingerprintProfile.slotValue (profile : FingerprintProfile) (name : String) : Option String :=
  if eqIgnoreAsciiCase name "user-agent" then some profile.userAgent
  else if eqIgnoreAsciiCase name "accept" then some profile.accept
  else if eqIgnoreAsciiCase name "accept-language" then some profile.acceptLanguage
  else if eqIgnoreAsciiCase name "accept-encoding" then some profile.acceptEncoding
  else none

/-- The names that belong to the seed. -/
def isSeedOwned (name : String) : Bool :=
  eqIgnoreAsciiCase name "user-agent" || eqIgnoreAsciiCase name "accept" ||
    eqIgnoreAsciiCase name "accept-language" || eqIgnoreAsciiCase name "accept-encoding"

/-- `effective_fingerprint_headers`. -/
def effectiveFingerprintHeaders (profile : FingerprintProfile)
    (callerHeaders : List (String × String)) : List (String × String) :=
  (profile.headerNames.filterMap fun name =>
    (profile.slotValue name).map fun value => (name, value)) ++
  (callerHeaders.filter fun header => !isSeedOwned header.1).map fun header =>
    (asciiLower header.1, header.2)

end Basecrawl.Fp
