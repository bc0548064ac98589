/-
  Every seed yields a safe fingerprint.

  1. **Security** — `assertSecurityInvariants`, and `generateValidated` behind it.
  2. **What a seed selects** — `generate_selected`: rows of the tables, permutations of the closed
     sets, and nothing out of bounds, whatever SHA-256 returns.
  3. **The product version** — the user agent carries the major version of the environment, the
     table that of the pin; `safeFingerprint_iff` is where they meet.
-/
import Mathlib.Data.List.Sort
import Mathlib.Data.String.Basic
import Basecrawl.Fp.Profile

namespace Basecrawl.Fp

open Text Hex Outcome Panic Frames LittleEndian Numerals Shuffle

/-! ## Security -/

/-- `SecurityCriticalTlsParams`, the fields that are checked. -/
structure SecurityCriticalTlsParams where
  seedMayWeakenCertValidation : Bool
  requiredNegotiatedVersion : String
  certChainCaptureEnabled : Bool
  transcriptCaptureEnabled : Bool
  l2BindingIncludesCertAndTranscript : Bool

/-- `REQUIRED_NEGOTIATED_TLS_VERSION`. -/
def requiredNegotiatedTlsVersion : String := "1.3"

/-- `security_critical_tls_params`. -/
def securityCriticalTlsParams : SecurityCriticalTlsParams where
  seedMayWeakenCertValidation := false
  requiredNegotiatedVersion := requiredNegotiatedTlsVersion
  certChainCaptureEnabled := true
  transcriptCaptureEnabled := true
  l2BindingIncludesCertAndTranscript := true

/-- `SECURITY_TLS13_CIPHER_SUITE_IANA`. -/
def securityTls13CipherSuiteIana : List Nat := [0x1301, 0x1302, 0x1303]

/-- `SECURITY_TLS_GROUP_ALLOWLIST`. -/
def securityTlsGroupAllowlist : List String := ["X25519", "secp256r1", "secp384r1"]

/-- The first item that is not allowed is the error. -/
def requireEach {α : Type} (allowed : α → Bool) (text : α → String) (items : List α) :
    Except String Unit :=
  match items.find? fun item => !allowed item with
  | some item => .error (text item)
  | none => .ok ()

/-- `assert_security_invariants`; `debug` is `Debug` of `str`. -/
def assertSecurityInvariants (debug : String → String) (profile : FingerprintProfile) :
    Except String Unit := do
  let fixed := securityCriticalTlsParams
  require (!fixed.seedMayWeakenCertValidation)
    "measured image must never allow seeds to weaken cert validation"
  require (fixed.requiredNegotiatedVersion == requiredNegotiatedTlsVersion)
    ("required negotiated TLS version must be " ++ requiredNegotiatedTlsVersion)
  require (fixed.certChainCaptureEnabled && fixed.transcriptCaptureEnabled)
    "in-enclave cert/transcript capture must stay enabled under every seed"
  require fixed.l2BindingIncludesCertAndTranscript
    "L2 report_data binding must include cert + transcript under every seed"
  require (profile.tls13CipherOrder.length == securityTls13CipherSuiteIana.length)
    ("seed emitted " ++ Nat.repr profile.tls13CipherOrder.length ++
      " cipher suites; expected exactly " ++ Nat.repr securityTls13CipherSuiteIana.length)
  requireEach securityTls13CipherSuiteIana.contains
    (fun suite => "seed emitted non-TLS-1.3 / non-allowlisted cipher suite 0x" ++ suiteHex suite)
    profile.tls13CipherOrder
  require (profile.tls13CipherOrder.insertionSort (· ≤ ·) ==
      securityTls13CipherSuiteIana.insertionSort (· ≤ ·))
    "seed must re-order the closed TLS 1.3 cipher set, not drop or duplicate"
  require (profile.tlsGroupOrder.length == securityTlsGroupAllowlist.length)
    ("seed emitted " ++ Nat.repr profile.tlsGroupOrder.length ++
      " groups; expected exactly " ++ Nat.repr securityTlsGroupAllowlist.length)
  requireEach securityTlsGroupAllowlist.contains
    (fun group => "seed emitted non-allowlisted TLS group " ++ debug group) profile.tlsGroupOrder
  require (profile.tlsGroupOrder.insertionSort (· ≤ ·) ==
      securityTlsGroupAllowlist.insertionSort (· ≤ ·))
    "seed must re-order the closed modern group set, not drop or duplicate"
  requireEach (fun name => (stripPrefix name "TLS13_").isSome)
    (fun name => "seed emitted non-TLS-1.3 cipher name " ++ debug name) profile.tls13CipherNames

/-- `generate_validated`. -/
def generateValidated (sha256 : Bytes → Block) (debug : String → String) (vars : Vars)
    (seedInput : String) : Drawn (Except String FingerprintProfile) := do
  let profile ← generate sha256 vars seedInput
  .ok ((assertSecurityInvariants debug profile).map fun _ => profile)

/-! ## What a seed selects -/

section Select

variable {sha256 : Bytes → Block} {vars : Vars}

theorem nextUsize_lt : Bounded fun bound (lane : Lane) => lane.nextUsize sha256 bound := by
  intro bound lane hbound
  simp only [Lane.nextUsize, if_neg (Nat.ne_of_gt hbound)]
  exact Nat.mod_lt _ hbound

/-- A pick is a row of its table. -/
theorem pick_mem (lane : Lane) {α : Type} (items : List α) (h : items ≠ []) :
    ∃ a, pick sha256 lane items = .ok a ∧ a ∈ items := by
  have hlt := @nextUsize_lt sha256 items.length lane (List.length_pos_iff.mpr h)
  exact ⟨_, index_eq hlt, List.getElem_mem hlt⟩

theorem permutation_perm (lane : Lane) (n : Nat) :
    ∃ order, permutation sha256 lane n = .ok order ∧ order.Perm (List.range n) := by
  have hsize : n - 1 = 0 ∨ n - 1 < (Array.range n).size := by
    rw [Array.size_range]
    omega
  obtain ⟨items, hitems, hperm⟩ := shuffle_perm (ε := Empty) nextUsize_lt lane hsize
  rw [Array.toList_range] at hperm
  exact ⟨items.toList, by rw [permutation, hitems, ok_bind], hperm⟩

theorem isHex64_hexEncode {bytes : Bytes} (h : bytes.length = 32) :
    isHex64 (hexEncode bytes) = true := by
  obtain ⟨hlen, hall, -⟩ := hexEncode_spec bytes
  rw [isHex64, hlen, h, Bool.and_eq_true]
  refine ⟨rfl, List.all_eq_true.mpr fun b hb => ?_⟩
  rw [isAsciiHexdigit_eq]
  exact hexValue_isSome (List.all_eq_true.mp hall b hb)

theorem isHex64_hexDigest (bytes : Bytes) : isHex64 (hexDigest sha256 bytes) = true :=
  isHex64_hexEncode (Vector.length_toList ..)

/-- 64 digits spell 32 bytes, which are written back in lower case. -/
theorem asciiLower_of_isHex64 {value : String} (h : isHex64 value = true) :
    ∃ bytes : Bytes, bytes.length = 32 ∧ asciiLower value = hexEncode bytes := by
  rw [isHex64, Bool.and_eq_true, beq_iff_eq] at h
  obtain ⟨hlen, hall⟩ := h
  obtain ⟨bytes, hbytes⟩ := @hexBytes_isSome (utf8 value) (by rw [hlen]) fun c hc => by
    rw [← isAsciiHexdigit_eq]
    exact List.all_eq_true.mp hall c hc
  have hhalf := length_of_hexBytes hbytes
  exact ⟨bytes, by omega, (hexBytes_utf8 hbytes).2⟩

theorem isHex64_normalizeSeed (input : String) : isHex64 (normalizeSeed sha256 input) = true := by
  rw [normalizeSeed]
  split
  · next htrimmed =>
    obtain ⟨bytes, hlen, hlower⟩ := asciiLower_of_isHex64 htrimmed
    rw [hlower]
    exact isHex64_hexEncode hlen
  · exact isHex64_hexDigest _

/-- The name of a suite. -/
def suiteNames : List (Nat × String) :=
  [(0x1301, "TLS13_AES_128_GCM_SHA256"), (0x1302, "TLS13_AES_256_GCM_SHA384"),
    (0x1303, "TLS13_CHACHA20_POLY1305_SHA256")]

def suiteName (suite : Nat) : String := (suiteNames.lookup suite).getD ""

/-- What is known of a generated profile. -/
structure Selected (vars : Vars) (profile : FingerprintProfile) : Prop where
  agent : ∃ row ∈ userAgents, profile.userAgent = coerceUserAgentToProductPin vars row
  viewport : (profile.viewportWidth, profile.viewportHeight) ∈ viewports
  timezone : profile.timezone ∈ timezones
  locale : profile.locale ∈ locales
  headerNames : profile.headerNames ∈ headerOrders
  ciphers : profile.tls13CipherOrder.Perm tls13CipherSuites
  names : profile.tls13CipherNames = profile.tls13CipherOrder.map suiteName
  groups : profile.tlsGroupOrder.Perm tlsGroups
  renderer : profile.webglRenderer ∈ webglRenderers
  vendor : profile.webglVendor ∈ webglVendors
  concurrency : profile.hardwareConcurrency ∈ hardwareConcurrencies
  memory : profile.deviceMemory ∈ deviceMemories
  screen : screenGeometry[min (viewportIndex (profile.viewportWidth, profile.viewportHeight))
      (screenGeometry.length - 1)]? =
    some ⟨profile.screenWidth, profile.screenHeight, profile.screenAvailWidth,
      profile.screenAvailHeight, profile.screenColorDepth⟩
  plugins : profile.pluginsLength = pluginInventory.length
  versions : chromeVersionsForUa vars profile.userAgent =
    (profile.chromeMajor, profile.chromeFullVersion)
  seed : isHex64 profile.seed = true
  ja3 : isHex64 profile.ja3 = true
  ja4 : isHex64 profile.ja4 = true
  canvas : isHex64 profile.canvasFingerprint = true
  webgl : isHex64 profile.webglFingerprint = true

theorem tls13CipherNames_eq : tls13CipherNames = tls13CipherSuites.map suiteName := by decide

/-- The suites and their names, in one order. -/
theorem ciphers_drawn {order : List Nat} (h : order.Perm (List.range tls13CipherSuites.length)) :
    ∃ suites, (order.mapM (index tls13CipherSuites) : Drawn (List Nat)) = .ok suites ∧
      suites.Perm tls13CipherSuites ∧
      (order.mapM (index tls13CipherNames) : Drawn (List String)) =
        .ok (suites.map suiteName) := by
  obtain ⟨suites, hsuites, hperm⟩ := mapM_index_perm (ε := Empty) h
  refine ⟨suites, hsuites, hperm, ?_⟩
  rw [tls13CipherNames_eq, mapM_index_map, hsuites]
  rfl

/-- **Whatever SHA-256 returns**, a seed selects rows of the tables and permutes the closed sets. -/
theorem generate_selected (sha256 : Bytes → Block) (vars : Vars) (seedInput : String) :
    ∃ profile, generate sha256 vars seedInput = .ok profile ∧ Selected vars profile := by
  rw [generate]
  dsimp only
  generalize hseed : normalizeSeed sha256 seedInput = seed
  have hhex : isHex64 seed = true := hseed ▸ isHex64_normalizeSeed seedInput
  generalize SeedStream.new sha256 seed = stream
  obtain ⟨agent, hagent, hagent'⟩ := pick_mem (stream.lane sha256 0) userAgents (by decide)
  rw [hagent, ok_bind]
  obtain ⟨viewport, hviewport, hviewport'⟩ := pick_mem (stream.lane sha256 1) viewports (by decide)
  rw [hviewport, ok_bind]
  obtain ⟨timezone, htimezone, htimezone'⟩ := pick_mem (stream.lane sha256 2) timezones (by decide)
  rw [htimezone, ok_bind]
  obtain ⟨locale, hlocale, hlocale'⟩ := pick_mem (stream.lane sha256 3) locales (by decide)
  rw [hlocale, ok_bind]
  obtain ⟨names, hnames, hnames'⟩ := pick_mem (stream.lane sha256 4) headerOrders (by decide)
  rw [hnames, ok_bind]
  obtain ⟨cipherPerm, hcipherPerm, hcipherPerm'⟩ :=
    permutation_perm (stream.lane sha256 5) tls13CipherSuites.length
  obtain ⟨suites, hsuites, hsuites', hsuiteNames⟩ := ciphers_drawn hcipherPerm'
  rw [hcipherPerm, ok_bind, hsuites, ok_bind, hsuiteNames, ok_bind]
  obtain ⟨groupPerm, hgroupPerm, hgroupPerm'⟩ :=
    permutation_perm (stream.lane sha256 6) tlsGroups.length
  obtain ⟨groups, hgroups, hgroups'⟩ := mapM_index_perm (ε := Empty) hgroupPerm'
  rw [hgroupPerm, ok_bind, hgroups, ok_bind]
  have hrow := @nextUsize_lt sha256 webglRenderers.length (stream.lane sha256 7) (by decide)
  have hrow' : ((stream.lane sha256 7).nextUsize sha256 webglRenderers.length).1 <
      webglVendors.length := hrow
  -- the renderer and its vendor are drawn by one index, and the tables have one length
  rw [index_eq hrow, ok_bind, index_eq hrow', ok_bind]
  obtain ⟨concurrency, hconcurrency, hconcurrency'⟩ :=
    pick_mem (stream.lane sha256 9) hardwareConcurrencies (by decide)
  rw [hconcurrency, ok_bind]
  -- the screen is not drawn: its row is that of the viewport
  have hplace : min (viewportIndex viewport) (screenGeometry.length - 1) < screenGeometry.length :=
    Nat.lt_of_le_of_lt (Nat.min_le_right ..) (by decide)
  obtain ⟨screen, hindex, hscreen⟩ : ∃ screen,
      (index screenGeometry (min (viewportIndex viewport) (screenGeometry.length - 1)) :
        Drawn Screen) = .ok screen ∧
      screenGeometry[min (viewportIndex viewport) (screenGeometry.length - 1)]? = some screen :=
    ⟨_, index_eq hplace, List.getElem?_eq_getElem hplace⟩
  rw [hindex, ok_bind]
  obtain ⟨memory, hmemory, hmemory'⟩ := pick_mem (stream.lane sha256 10) deviceMemories (by decide)
  rw [hmemory, ok_bind]
  generalize hversions : chromeVersionsForUa vars (coerceUserAgentToProductPin vars agent) = versions
  refine ⟨_, rfl, ?_⟩
  exact
    { agent := ⟨agent, hagent', rfl⟩
      viewport := hviewport'
      timezone := htimezone'
      locale := hlocale'
      headerNames := hnames'
      ciphers := hsuites'
      names := rfl
      groups := hgroups'
      renderer := List.getElem_mem hrow
      vendor := List.getElem_mem hrow'
      concurrency := hconcurrency'
      memory := hmemory'
      screen := hscreen
      plugins := rfl
      versions := hversions
      seed := hhex
      ja3 := isHex64_hexDigest _
      ja4 := isHex64_hexDigest _
      canvas := isHex64_hexDigest _
      webgl := isHex64_hexDigest _ }

end Select

/-! ## The product version -/

/-- A first place stays the first when what stands behind it changes. -/
theorem splitOnceChars_rest {pat : List Char} (hpat : pat ≠ []) (rest' : List Char) :
    ∀ {cs before rest : List Char}, splitOnceChars pat cs = some (before, rest) →
      cs = before ++ pat ++ rest ∧
        splitOnceChars pat (before ++ pat ++ rest') = some (before, rest')
  | [], before, rest, h => by
    rw [splitOnceChars, if_neg hpat] at h
    cases h
  | c :: cs, before, rest, h => by
    rw [splitOnceChars] at h
    split at h
    · next hprefix =>
      cases h
      obtain ⟨tail, htail⟩ := List.isPrefixOf_iff_prefix.mp hprefix
      refine ⟨by rw [List.nil_append, ← htail, List.drop_left], ?_⟩
      obtain ⟨p, ps, rfl⟩ := List.exists_cons_of_ne_nil hpat
      have hfirst : (p :: ps).isPrefixOf (p :: (ps ++ rest')) = true :=
        List.isPrefixOf_iff_prefix.mpr ⟨rest', rfl⟩
      rw [List.nil_append, List.cons_append, splitOnceChars, if_pos hfirst]
      have hdrop : (p :: (ps ++ rest')).drop (p :: ps).length = rest' := List.drop_left
      rw [hdrop]
    · next hprefix =>
      obtain ⟨⟨before, rest⟩, hparts, hcons⟩ := Option.map_eq_some_iff.mp h
      cases hcons
      obtain ⟨hcs, hrest⟩ := splitOnceChars_rest hpat rest' hparts
      refine ⟨by rw [hcs]; rfl, ?_⟩
      have hlater : ¬ pat.isPrefixOf (c :: (before ++ pat ++ rest')) = true := by
        intro hearly
        refine hprefix (List.isPrefixOf_iff_prefix.mpr ?_)
        -- the place would lie before the one that was found
        have hinside : pat <+: c :: before ++ pat :=
          List.prefix_of_prefix_length_le (List.isPrefixOf_iff_prefix.mp hearly)
            ⟨rest', by simp only [List.cons_append, List.append_assoc]⟩
            (by rw [List.length_append]; omega)
        rw [hcs]
        exact hinside.trans ⟨rest, by simp only [List.cons_append, List.append_assoc]⟩
      rw [List.cons_append, List.cons_append, splitOnceChars, if_neg hlater, hrest]
      rfl

theorem splitOnceText_rest {s pat before rest : String} (hpat : pat.toList ≠ [])
    (h : splitOnceText s pat = some (before, rest)) (rest' : String) :
    splitOnceText (before ++ pat ++ rest') pat = some (before, rest') := by
  obtain ⟨⟨front, back⟩, hparts, hsame⟩ := Option.map_eq_some_iff.mp h
  cases hsame
  have hlist : (String.ofList front ++ pat ++ rest').toList = front ++ pat.toList ++ rest'.toList := by
    rw [String.toList_append, String.toList_append, String.toList_ofList]
  rw [splitOnceText, hlist, (splitOnceChars_rest hpat rest'.toList hparts).2, Option.map_some,
    String.ofList_toList]

section Version

variable {vars : Vars} {row : String}

theorem chromeVersionsForUa_eq (userAgent : String) :
    chromeVersionsForUa vars userAgent =
      (productChromiumMajor vars, productChromiumVersion vars) := by
  rw [chromeVersionsForUa]
  generalize ((splitSecond userAgent "Chrome/").bind fun rest =>
    parseU32 (leadingDigits rest)).getD (productChromiumMajor vars) = parsedMajor
  by_cases hsame : parsedMajor = productChromiumMajor vars
  · rw [if_neg (not_not.mpr hsame), if_pos hsame, hsame]
  · rw [if_pos hsame, if_pos rfl]

/-- Text that has no first character of the separator stands in front of its first place. -/
theorem splitOnceChars_front {c : Char} {pat rest : List Char} :
    ∀ {front : List Char}, c ∉ front →
      splitOnceChars (c :: pat) (front ++ (c :: pat ++ rest)) = some (front, rest)
  | [], _ => by
    have hprefix : (c :: pat).isPrefixOf (c :: (pat ++ rest)) = true :=
      List.isPrefixOf_iff_prefix.mpr ⟨rest, rfl⟩
    have hdrop : (c :: (pat ++ rest)).drop (c :: pat).length = rest := List.drop_left
    rw [List.nil_append, List.cons_append, splitOnceChars, if_pos hprefix, hdrop]
  | d :: front, h => by
    have hne : c ≠ d := fun heq => h (heq ▸ List.mem_cons_self)
    have hprefix : ¬ (c :: pat).isPrefixOf (d :: (front ++ (c :: pat ++ rest))) = true := by
      intro hp
      exact hne (List.cons_prefix_cons.mp (List.isPrefixOf_iff_prefix.mp hp)).1
    rw [List.cons_append, splitOnceChars, if_neg hprefix,
      splitOnceChars_front fun hmem => h (List.mem_cons_of_mem d hmem)]
    rfl

/-- Behind `Chrome/` every row of the table has the pinned version. -/
theorem splitOnceText_row (h : row ∈ userAgents) :
    ∃ before, splitOnceText row "Chrome/" = some (before, "145.0.0.0 Safari/537.36") := by
  have hplatform : ∃ platform, 'C' ∉ platform.toList ∧ row = chrome145 platform := by
    simp only [userAgents, List.mem_cons, List.not_mem_nil, or_false] at h
    rcases h with rfl | rfl | rfl | rfl | rfl | rfl | rfl | rfl <;>
      exact ⟨_, by decide, rfl⟩
  obtain ⟨platform, hC, rfl⟩ := hplatform
  have hfront : 'C' ∉ "Mozilla/5.0 (".toList ++ platform.toList ++
      ") AppleWebKit/537.36 (KHTML, like Gecko) ".toList := by
    rw [List.mem_append, List.mem_append]
    rintro ((hmem | hmem) | hmem)
    · exact absurd hmem (by decide)
    · exact hC hmem
    · exact absurd hmem (by decide)
  have htail : ") AppleWebKit/537.36 (KHTML, like Gecko) Chrome/145.0.0.0 Safari/537.36" =
      ") AppleWebKit/537.36 (KHTML, like Gecko) " ++
        ("Chrome/" ++ "145.0.0.0 Safari/537.36") := by decide
  have hpat : "Chrome/".toList = 'C' :: "hrome/".toList := by decide
  refine ⟨String.ofList ("Mozilla/5.0 (".toList ++ platform.toList ++
    ") AppleWebKit/537.36 (KHTML, like Gecko) ".toList), ?_⟩
  have hrow : (chrome145 platform).toList = "Mozilla/5.0 (".toList ++ platform.toList ++
      ") AppleWebKit/537.36 (KHTML, like Gecko) ".toList ++
        ('C' :: "hrome/".toList ++ "145.0.0.0 Safari/537.36".toList) := by
    rw [chrome145, htail]
    simp only [String.toList_append, hpat, List.append_assoc]
  rw [splitOnceText, hrow, hpat, splitOnceChars_front hfront, Option.map_some, String.ofList_toList]

theorem coerceUserAgent_row {before : String}
    (h : splitOnceText row "Chrome/" = some (before, "145.0.0.0 Safari/537.36")) :
    coerceUserAgentToProductPin vars row =
      if pinnedChromiumMajor ≠ productChromiumMajor vars then
        before ++ "Chrome/" ++ Nat.repr (productChromiumMajor vars) ++ ".0.0.0 Safari/537.36"
      else row := by
  have hparsed : parseU32 (leadingDigits "145.0.0.0 Safari/537.36") = some pinnedChromiumMajor := by
    decide
  have hafter : afterDigits "145.0.0.0 Safari/537.36" = ".0.0.0 Safari/537.36" := by decide
  rw [coerceUserAgentToProductPin, h]
  simp only [hparsed, hafter]

/-- **The user agent stays in the table exactly under the pinned major version.** -/
theorem coerceUserAgent_mem_iff (h : row ∈ userAgents) :
    coerceUserAgentToProductPin vars row ∈ userAgents ↔
      productChromiumMajor vars = pinnedChromiumMajor := by
  obtain ⟨before, hbefore⟩ := splitOnceText_row h
  rw [coerceUserAgent_row hbefore]
  constructor
  · intro hmem
    by_contra hother
    rw [if_pos (Ne.symm hother), String.append_assoc] at hmem
    obtain ⟨front, hfront⟩ := splitOnceText_row hmem
    rw [splitOnceText_rest (by decide) hbefore] at hfront
    have hversion : Nat.repr (productChromiumMajor vars) ++ ".0.0.0 Safari/537.36" =
        Nat.repr pinnedChromiumMajor ++ ".0.0.0 Safari/537.36" :=
      (Prod.mk.inj (Option.some.inj hfront)).2.trans (by decide)
    have hchars := congrArg String.toList hversion
    rw [String.toList_append, String.toList_append] at hchars
    exact hother (repr_injective (String.toList_inj.mp (List.append_cancel_right hchars)))
  · intro hpinned
    rw [if_neg (not_not.mpr hpinned.symm)]
    exact h

end Version

/-! ## Every seed -/

section Safe

variable {vars : Vars} {profile : FingerprintProfile} {debug : String → String}

theorem requireEach_ok {α : Type} {allowed : α → Bool} {text : α → String} {items : List α}
    (h : ∀ item ∈ items, allowed item = true) : requireEach allowed text items = .ok () := by
  have hnone : (items.find? fun item => !allowed item) = none := by
    rw [List.find?_eq_none]
    intro item hitem
    rw [h item hitem]
    exact Bool.false_ne_true
  rw [requireEach, hnone]

/-- Permutations sort to the same list. -/
theorem insertionSort_eq_of_perm {α : Type} [LinearOrder α] {xs ys : List α} (h : xs.Perm ys) :
    xs.insertionSort (· ≤ ·) = ys.insertionSort (· ≤ ·) := by
  have hsame : (xs.insertionSort (· ≤ ·)).Perm (ys.insertionSort (· ≤ ·)) :=
    (List.perm_insertionSort _ xs).trans (h.trans (List.perm_insertionSort _ ys).symm)
  exact hsame.eq_of_pairwise' (List.pairwise_insertionSort _ xs) (List.pairwise_insertionSort _ ys)

theorem suites_perm : tls13CipherSuites.Perm securityTls13CipherSuiteIana := by decide

theorem sorted_suites {order : List Nat} (h : order.Perm tls13CipherSuites) :
    order.insertionSort (· ≤ ·) = securityTls13CipherSuiteIana.insertionSort (· ≤ ·) :=
  insertionSort_eq_of_perm (h.trans suites_perm)

theorem sorted_groups {order : List String} (h : order.Perm tlsGroups) :
    order.insertionSort (· ≤ ·) = securityTlsGroupAllowlist.insertionSort (· ≤ ·) :=
  insertionSort_eq_of_perm h

theorem Selected.secure (h : Selected vars profile) :
    assertSecurityInvariants debug profile = .ok () := by
  have hsuites := h.ciphers.trans suites_perm
  have hallowed : ∀ suite ∈ profile.tls13CipherOrder,
      securityTls13CipherSuiteIana.contains suite = true := fun suite hsuite =>
    List.contains_iff_mem.mpr (hsuites.mem_iff.mp hsuite)
  have hgroups : ∀ group ∈ profile.tlsGroupOrder, securityTlsGroupAllowlist.contains group = true :=
    fun group hgroup => List.contains_iff_mem.mpr (h.groups.mem_iff.mp hgroup)
  have hprefix : ∀ suite ∈ tls13CipherSuites,
      (stripPrefix (suiteName suite) "TLS13_").isSome = true := by decide
  have hnames : ∀ name ∈ profile.tls13CipherNames, (stripPrefix name "TLS13_").isSome = true := by
    intro name hname
    rw [h.names] at hname
    obtain ⟨suite, hsuite, rfl⟩ := List.mem_map.mp hname
    exact hprefix suite (h.ciphers.mem_iff.mp hsuite)
  have hsorted := beq_iff_eq.mpr (sorted_suites h.ciphers)
  have hsorted' := beq_iff_eq.mpr (sorted_groups h.groups)
  have hlen := beq_iff_eq.mpr hsuites.length_eq
  have hlen' : (profile.tlsGroupOrder.length == securityTlsGroupAllowlist.length) = true :=
    beq_iff_eq.mpr h.groups.length_eq
  rw [assertSecurityInvariants]
  simp only [hlen, hlen', hsorted, hsorted', requireEach_ok hallowed, requireEach_ok hgroups,
    requireEach_ok hnames]
  rfl

/-- Each row of the screen table has room for the viewport of its place. -/
theorem Selected.screen_ge (h : Selected vars profile) :
    profile.viewportWidth ≤ profile.screenWidth ∧ profile.viewportHeight ≤ profile.screenHeight := by
  have hall : ∀ viewport ∈ viewports,
      (screenGeometry[min (viewportIndex viewport) (screenGeometry.length - 1)]?).all
        fun screen => viewport.1 ≤ screen.width && viewport.2 ≤ screen.height := by decide
  have hroom := hall _ h.viewport
  rw [h.screen, Option.all_some, Bool.and_eq_true, decide_eq_true_eq, decide_eq_true_eq] at hroom
  exact hroom

/-- The dimensions that must not vanish. -/
theorem Selected.positive (h : Selected vars profile) :
    0 < profile.hardwareConcurrency ∧ 0 < profile.deviceMemory ∧ 0 < profile.screenAvailWidth ∧
      0 < profile.screenAvailHeight ∧ 0 < profile.screenColorDepth := by
  have hconcurrency : ∀ n ∈ hardwareConcurrencies, 0 < n := by decide
  have hmemory : ∀ n ∈ deviceMemories, 0 < n := by decide
  have hscreen : ∀ screen ∈ screenGeometry,
      0 < screen.availWidth ∧ 0 < screen.availHeight ∧ 0 < screen.colorDepth := by decide
  exact ⟨hconcurrency _ h.concurrency, hmemory _ h.memory,
    hscreen _ (List.mem_of_getElem? h.screen)⟩

theorem Selected.pinned_iff (h : Selected vars profile) :
    profile.userAgent ∈ userAgents ↔ productChromiumMajor vars = pinnedChromiumMajor := by
  obtain ⟨row, hrow, hagent⟩ := h.agent
  rw [hagent]
  exact coerceUserAgent_mem_iff hrow

/-- **What a seed selects is in the parameter space exactly when its user agent is.** -/
theorem Selected.within_iff (h : Selected vars profile) :
    isWithinParameterSpace vars profile = true ↔ profile.userAgent ∈ userAgents := by
  rw [isWithinParameterSpace, decide_eq_true_eq]
  refine ⟨fun hall => hall.1, fun hagent => ?_⟩
  obtain ⟨hwidth, hheight⟩ := h.screen_ge
  obtain ⟨hconcurrency, hmemory, hscreenWidth, hscreenHeight, hdepth⟩ := h.positive
  have hmajor : 0 < profile.chromeMajor := by
    have hversions := h.versions
    rw [chromeVersionsForUa_eq] at hversions
    rw [← (Prod.mk.inj hversions).1, h.pinned_iff.mp hagent]
    decide
  exact ⟨hagent, h.viewport, h.timezone, h.locale, h.headerNames, h.ciphers.length_eq,
    fun suite hsuite => h.ciphers.mem_iff.mp hsuite, sorted_suites h.ciphers, h.groups.length_eq,
    fun group hgroup => h.groups.mem_iff.mp hgroup, h.renderer, h.vendor, h.concurrency,
    hconcurrency, h.memory, hmemory, hwidth, hheight, hscreenWidth, hscreenHeight, hdepth,
    h.plugins, hmajor, h.versions, h.seed, h.ja3, h.ja4, h.canvas, h.webgl⟩

/-- Suites that are all of the closed set have names. -/
theorem Selected.named (h : Selected vars profile) :
    profile.tls13CipherNames.map some =
      profile.tls13CipherOrder.map fun suite => suiteNames.lookup suite := by
  have hall : ∀ suite ∈ tls13CipherSuites, some (suiteName suite) = suiteNames.lookup suite := by
    decide
  rw [h.names, List.map_map]
  exact List.map_congr_left fun suite hsuite => hall suite (h.ciphers.mem_iff.mp hsuite)

end Safe

/-- A fingerprint that may drive TLS: in the parameter space, with nothing dropped, doubled or
weakened in the closed sets. -/
structure SafeFingerprint (debug : String → String) (vars : Vars)
    (profile : FingerprintProfile) : Prop where
  within : isWithinParameterSpace vars profile = true
  secure : assertSecurityInvariants debug profile = .ok ()
  ciphers : profile.tls13CipherOrder.Perm securityTls13CipherSuiteIana
  groups : profile.tlsGroupOrder.Perm securityTlsGroupAllowlist
  named : profile.tls13CipherNames.map some =
    profile.tls13CipherOrder.map fun suite => suiteNames.lookup suite
  width : profile.viewportWidth ≤ profile.screenWidth
  height : profile.viewportHeight ≤ profile.screenHeight

/-- **A seed yields a safe fingerprint exactly under the pinned major version**, and always one
that is validated. -/
theorem safeFingerprint_iff (sha256 : Bytes → Block) (debug : String → String) (vars : Vars)
    (seedInput : String) :
    ∃ profile, generate sha256 vars seedInput = .ok profile ∧
      generateValidated sha256 debug vars seedInput = .ok (.ok profile) ∧
      (SafeFingerprint debug vars profile ↔ productChromiumMajor vars = pinnedChromiumMajor) := by
  obtain ⟨profile, hprofile, h⟩ := generate_selected sha256 vars seedInput
  have hvalid : generateValidated sha256 debug vars seedInput = .ok (.ok profile) := by
    rw [generateValidated, hprofile, ok_bind, h.secure]
    rfl
  refine ⟨profile, hprofile, hvalid, fun hsafe => ?_, fun hpinned => ?_⟩
  · exact h.pinned_iff.mp (h.within_iff.mp hsafe.within)
  · exact
      { within := h.within_iff.mpr (h.pinned_iff.mpr hpinned)
        secure := h.secure
        ciphers := h.ciphers.trans suites_perm
        groups := h.groups
        named := h.named
        width := h.screen_ge.1
        height := h.screen_ge.2 }

/-- The environment of an image whose Chromium was rotated to the next major version. -/
def rotated : Vars := fun name => if name = "CHROMIUM_VERSION" then some "146.0.7700.1" else none

/-- Its fingerprints are not in the parameter space. -/
theorem safeFingerprint_rotated :
    ∃ profile, generate (fun _ => Vector.replicate 32 0) rotated "task-1" = .ok profile ∧
      ¬ SafeFingerprint (fun text => text) rotated profile := by
  obtain ⟨profile, hprofile, h⟩ :=
    generate_selected (fun _ => Vector.replicate 32 0) rotated "task-1"
  have hmajor : ¬ productChromiumMajor rotated = pinnedChromiumMajor := by decide
  refine ⟨profile, hprofile, fun hsafe => hmajor ?_⟩
  exact h.pinned_iff.mp (h.within_iff.mp hsafe.within)

end Basecrawl.Fp
