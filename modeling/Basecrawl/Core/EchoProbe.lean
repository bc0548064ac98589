/-
  An RTT probe and its echo.

  The enclave asks a landmark with a nonce in the query, and takes the nonce back out of the reply:

  1. **The decoder** — `percent_decode` undoes the form encoding, byte by byte, so every text comes
     back (`percentDecode_form`), and no other name is written like `nonce` (`form_eq_nonce`).
  2. **The query** — the first field of that name is the one the probe appended
     (`queryNonce_probeQuery`), and the target splits at the mark in front of the query.
  3. **The request** — the first line of what the server read has the target as its second word
     (`requestTarget_eq`), however the read ended behind it.
  4. **The reply** — the body stands behind the first blank line, on one line of its own
     (`readReply_writeHttp`), and its member is the nonce (`readReply_echo`).
-/
import Basecrawl.Fp.Profile
import Basecrawl.Lib.Chars
import Basecrawl.Lib.Json
import Basecrawl.Lib.JsonText
import Basecrawl.Lib.Lossy
import Basecrawl.Lib.Outcome
import Basecrawl.Lib.Percent
import Basecrawl.Lib.TextLines

namespace Basecrawl.Core.RttEcho

open Text Hex Outcome Percent

/-! ## Signing -/

/-- `RTT_ECHO_DOMAIN_TAG`. -/
def rttEchoDomainTag : Bytes := utf8 "basecrawl/rtt-echo/v1" ++ [0]

/-- `echo_signing_payload`. -/
def echoSigningPayload (nonce : String) : Bytes := rttEchoDomainTag ++ utf8 nonce

/-- `EchoResponse`. -/
structure EchoResponse where
  nonce : String
  signature : String
  enclavePubkey : Option String
deriving DecidableEq

/-- `EchoSignError`. -/
inductive EchoSignError where
  | emptyPayload
  | guestAgent (detail : String)
deriving DecidableEq

/-- `EchoSigner`; the key is the one it names when it has signed. -/
structure EchoSigner where
  publicKeyHex : String
  signEchoPayload : Bytes → Except EchoSignError String

/-- `sign_echo_with`. -/
def signEchoWith (signer : EchoSigner) (nonce : String) : Except EchoSignError EchoResponse :=
  if nonce = "" then .error .emptyPayload
  else do
    let signature ← signer.signEchoPayload (echoSigningPayload nonce)
    return ⟨nonce, signature, some signer.publicKeyHex⟩

/-- The members of a response as they are serialized. -/
def EchoResponse.members (response : EchoResponse) : List (String × String) :=
  [("nonce", response.nonce), ("signature", response.signature)] ++
    (response.enclavePubkey.map fun key => ("enclave_pubkey", key)).toList

/-- What the two ends call of `serde_json`: it prints a structure of texts on one line between its
braces, and reads the members it printed. -/
structure SerdeJson where
  toVec : List (String × String) → Option Bytes
  fromStr : String → Option Json.Tree
  prints : ∀ members, (members.map Prod.fst).Nodup →
    ∃ text parsed, toVec members = some (utf8 text) ∧ fromStr text = some (.object parsed) ∧
      (∀ key, parsed.lookup key = (members.lookup key).map Json.Tree.string) ∧
      text.toList.head? = some '\x7b' ∧ text.toList.getLast? = some '\x7d' ∧
      ∀ c ∈ text.toList, 0x20 ≤ c.toNat

/-! ## The server -/

/-- `from_hex_nibble`. -/
def fromHexNibble (b : UInt8) : Option UInt8 := (hexValue b).map UInt8.ofNat

/-- The loop of `percent_decode`. -/
def percentDecodeBytes : Bytes → Bytes
  | [] => []
  | 0x25 :: h :: l :: rest =>
    match fromHexNibble h, fromHexNibble l with
    | some hi, some lo => ((hi <<< 4) ||| lo) :: percentDecodeBytes rest
    | _, _ => 0x25 :: percentDecodeBytes (h :: l :: rest)
  | b :: rest => (if b = 0x2b then 0x20 else b) :: percentDecodeBytes rest

/-- `percent_decode`. -/
def percentDecode (input : String) : String := fromUtf8Lossy (percentDecodeBytes (utf8 input))

/-- `pair.splitn(2, '=')`. -/
def splitPair (pair : String) : String × String := (splitOnce pair '=').getD (pair, "")

/-- The nonce that a query asks for. -/
def queryNonce (query : String) : String :=
  ((split query '&').findSome? fun pair =>
    if (splitPair pair).1 = "nonce" then some (percentDecode (splitPair pair).2) else none).getD ""

/-- The path and the query of a target. -/
def splitTarget (path : String) : String × String := (splitOnce path '?').getD (path, "")

/-- The second word of the first line. -/
def requestTarget (request : String) : String :=
  (splitWhitespace ((lines request).headD ""))[1]?.getD "/"

/-- `trim_end_matches('/')`. -/
def trimEndSlashes (s : String) : String :=
  String.ofList (s.toList.reverse.dropWhile (· == '/')).reverse

/-- The reason of a status. -/
def reason (status : Nat) : String :=
  if status = 200 then "OK"
  else if status = 400 then "Bad Request"
  else if status = 404 then "Not Found"
  else "Error"

/-- `write_http`. -/
def writeHttp (status : Nat) (contentType : String) (body : Bytes) : Bytes :=
  utf8 ("HTTP/1.1 " ++ Nat.repr status ++ " " ++ reason status ++ "\r\nContent-Type: " ++
    contentType ++ "\r\nContent-Length: " ++ Nat.repr body.length ++
    "\r\nConnection: close\r\n\r\n") ++ body

/-- `handle_http_connection` on what its one read got. -/
def handleHttpConnection (json : SerdeJson) (signer : EchoSigner) (read : Bytes) : Bytes :=
  let target := splitTarget (requestTarget (fromUtf8Lossy read))
  if trimEndSlashes target.1 ≠ "/echo" then
    writeHttp 404 "application/json" (utf8 "\x7b\"error\":\"not_found\"\x7d")
  else
    let nonce := queryNonce target.2
    if nonce = "" then
      writeHttp 400 "application/json" (utf8 "\x7b\"error\":\"missing_nonce\"\x7d")
    else
      match signEchoWith signer nonce with
      | .ok response =>
        writeHttp 200 "application/json"
          ((json.toVec response.members).getD (utf8 "\x7b\"error\":\"serialize\"\x7d"))
      | .error _ => writeHttp 500 "application/json" (utf8 "\x7b\"error\":\"sign_failed\"\x7d")

/-! ## The probe -/

/-- A probe URL as it is parsed.  A path is percent-encoded: white space and the mark of the query
are not in it. -/
structure EchoUrl where
  host : Option String
  port : Option Nat
  path : String
  queryPairs : List (String × String)
  plainPath : ∀ c ∈ path.toList, isWhitespace c = false ∧ c ≠ '?'

/-- `append_pair`. -/
def field (pair : String × String) : String := form pair.1 ++ "=" ++ form pair.2

/-- The fields of a query with `&` between them. -/
def fields : List (String × String) → String
  | [] => ""
  | [pair] => field pair
  | pair :: pairs => field pair ++ "&" ++ fields pairs

/-- The query with the nonce in the place of any other. -/
def probeQuery (url : EchoUrl) (nonce : String) : String :=
  fields (url.queryPairs.filter (fun pair => pair.1 != "nonce") ++ [("nonce", nonce)])

/-- The target of a probe; its query is never empty. -/
def probeTarget (url : EchoUrl) (nonce : String) : String := url.path ++ "?" ++ probeQuery url nonce

/-- The request of `http_echo_round_trip`. -/
def probeRequest (url : EchoUrl) (nonce : String) : Except String String := do
  let host ← okOr url.host "echo URL missing host"
  let port ← okOr url.port "echo URL missing port"
  return "GET " ++ probeTarget url nonce ++ " HTTP/1.1\r\nHost: " ++ host ++ ":" ++ Nat.repr port ++
    "\r\nConnection: close\r\nAccept: application/json\r\n\r\n"

/-- `Value::as_object`, and the text of its member `nonce`. -/
def nonceMember : Json.Tree → Option String
  | .object members => (members.lookup "nonce").bind Json.Tree.asStr
  | _ => none

/-- `extract_echoed_nonce`. -/
def extractEchoedNonce (json : SerdeJson) (body : String) : Option String :=
  if body = "" then none
  else
    match json.fromStr body with
    | some value =>
      match nonceMember value with
      | some nonce => some nonce
      | none => some (value.asStr.getD body)
    | none => some body

/-- What `http_echo_round_trip` makes of the reply. -/
def readReply (json : SerdeJson) (raw : Bytes) : Option String :=
  extractEchoedNonce json (trim ((Fp.splitSecond (fromUtf8Lossy raw) "\r\n\r\n").getD ""))

/-! ## The decoder -/

theorem fromHexNibble_digit {n : Nat} (h : n < 16) :
    fromHexNibble (UInt8.ofNat (digit n).toNat) = some (UInt8.ofNat n) := by
  have hall : ∀ n : Fin 16, fromHexNibble (UInt8.ofNat (digit n).toNat) = some (UInt8.ofNat n) := by
    simp only [digit, digits_eq]
    decide
  exact hall ⟨n, h⟩

/-- Two halves of a byte. -/
theorem nibbles_eq (b : UInt8) :
    ((UInt8.ofNat (b.toNat / 16) <<< 4) ||| UInt8.ofNat (b.toNat % 16)) = b := by
  have hb := b.toNat_lt
  apply UInt8.toNat_inj.mp
  rw [UInt8.toNat_or, UInt8.toNat_shiftLeft, UInt8.toNat_ofNat', UInt8.toNat_ofNat',
    Nat.mod_eq_of_lt (by omega : b.toNat / 16 < 2 ^ 8),
    Nat.mod_eq_of_lt (by omega : b.toNat % 16 < 2 ^ 8)]
  show (b.toNat / 16) <<< 4 % 2 ^ 8 ||| b.toNat % 16 = b.toNat
  have hshift : (b.toNat / 16) <<< 4 = 16 * (b.toNat / 16) := by
    rw [Nat.shiftLeft_eq]
    omega
  rw [Nat.mod_eq_of_lt (by omega), ← Nat.shiftLeft_add_eq_or_of_lt (by omega), hshift]
  omega

/-- A byte that is not the mark of an escape. -/
theorem percentDecodeBytes_plain {b : UInt8} (h : b ≠ 0x25) (rest : Bytes) :
    percentDecodeBytes (b :: rest) =
      (if b = 0x2b then 0x20 else b) :: percentDecodeBytes rest := by
  rw [percentDecodeBytes]
  intro hi lo more hb
  exact absurd hb h

/-- **One byte of the form, one byte of the text.** -/
theorem percentDecodeBytes_formByte (b : UInt8) (rest : Bytes) :
    percentDecodeBytes ((formByte b).map (fun c => UInt8.ofNat c.toNat) ++ rest) =
      b :: percentDecodeBytes rest := by
  have hb := b.toNat_lt
  rw [formByte]
  split
  · next hspace =>
    show percentDecodeBytes (0x2b :: rest) = _
    rw [percentDecodeBytes_plain (by decide), if_pos rfl, hspace]
  · split
    · next hplain =>
      have hall : ∀ n : Fin 128, formPlain (UInt8.ofNat n) = true →
          UInt8.ofNat (Char.ofNat n).toNat = UInt8.ofNat n ∧ UInt8.ofNat n ≠ 0x25 ∧
            UInt8.ofNat n ≠ 0x2b := by decide
      have hlow : b.toNat < 128 := by
        simp only [formPlain, Bool.or_eq_true, Bool.and_eq_true, decide_eq_true_eq,
          beq_iff_eq] at hplain
        omega
      have hbyte := hall ⟨b.toNat, hlow⟩
      rw [UInt8.ofNat_toNat] at hbyte
      obtain ⟨hsame, hmark, hplus⟩ := hbyte hplain
      rw [List.map_cons, List.map_nil, List.singleton_append, hsame,
        percentDecodeBytes_plain hmark, if_neg hplus]
    · show percentDecodeBytes (0x25 :: UInt8.ofNat (digit (b.toNat / 16)).toNat ::
        UInt8.ofNat (digit (b.toNat % 16)).toNat :: rest) = _
      have hhi := @fromHexNibble_digit (b.toNat / 16) (by omega)
      have hlo := @fromHexNibble_digit (b.toNat % 16) (by omega)
      rw [percentDecodeBytes, hhi, hlo]
      simp only [nibbles_eq]

theorem percentDecodeBytes_form (bytes : Bytes) :
    percentDecodeBytes (bytes.flatMap fun b => (formByte b).map fun c => UInt8.ofNat c.toNat) =
      bytes := by
  induction bytes with
  | nil => rfl
  | cons b bytes ih => rw [List.flatMap_cons, percentDecodeBytes_formByte, ih]

/-- **The decoder undoes the form encoding.** -/
theorem percentDecode_form (text : String) : percentDecode (form text) = text := by
  rw [percentDecode, utf8_form, percentDecodeBytes_form, fromUtf8Lossy_utf8]

theorem form_injective {a b : String} (h : form a = form b) : a = b := by
  rw [← percentDecode_form a, h, percentDecode_form]

theorem form_nonce : form "nonce" = "nonce" := by
  have hbytes : utf8 "nonce" = [0x6e, 0x6f, 0x6e, 0x63, 0x65] := by decide
  rw [form, hbytes]
  decide

/-- No other name is written like it. -/
theorem form_eq_nonce {name : String} : form name = "nonce" ↔ name = "nonce" := by
  constructor
  · intro h
    exact form_injective (h.trans form_nonce.symm)
  · rintro rfl
    exact form_nonce

/-! ## The query -/

theorem not_mem_field {pair : String × String} : '&' ∉ (field pair).toList := by
  intro h
  rw [field, String.toList_append, String.toList_append] at h
  rcases List.mem_append.mp h with h | h
  · rcases List.mem_append.mp h with h | h
    · exact (mem_form h).2.2.1 rfl
    · exact absurd h (by decide)
  · exact (mem_form h).2.2.1 rfl

theorem splitPair_field (pair : String × String) :
    splitPair (field pair) = (form pair.1, form pair.2) := by
  have hname : '=' ∉ (form pair.1).toList := fun h => (mem_form h).2.2.2 rfl
  have hmark : "=" = String.singleton '=' := rfl
  rw [splitPair, field, hmark, splitOnce_append hname, Option.getD_some]

/-- The pieces of a query are its fields. -/
theorem split_fields : ∀ {pairs : List (String × String)}, pairs ≠ [] →
    split (fields pairs) '&' = pairs.map field
  | [], h => absurd rfl h
  | [pair], _ => split_eq_singleton not_mem_field
  | pair :: pair' :: pairs, _ => by
    have hmark : "&" = String.singleton '&' := rfl
    rw [fields, hmark, split_append_cons not_mem_field, split_fields (List.cons_ne_nil _ _)]
    · rfl
    · exact fun h => by cases h

/-- What a field says of the nonce. -/
theorem nonce_of_field (pair : String × String) :
    (if (splitPair (field pair)).1 = "nonce" then some (percentDecode (splitPair (field pair)).2)
      else none) = if pair.1 = "nonce" then some pair.2 else none := by
  rw [splitPair_field]
  by_cases hname : pair.1 = "nonce"
  · rw [if_pos (form_eq_nonce.mpr hname), if_pos hname, percentDecode_form]
  · rw [if_neg fun h => hname (form_eq_nonce.mp h), if_neg hname]

/-- **The query asks for the nonce of the probe**, whatever else the URL asks for. -/
theorem queryNonce_probeQuery (url : EchoUrl) (nonce : String) :
    queryNonce (probeQuery url nonce) = nonce := by
  have hothers : (url.queryPairs.filter fun pair => pair.1 != "nonce").findSome?
      (fun pair => if pair.1 = "nonce" then some pair.2 else none) = none := by
    rw [List.findSome?_eq_none_iff]
    intro pair hpair
    have hname := (List.mem_filter.mp hpair).2
    exact if_neg (bne_iff_ne.mp hname)
  have hne : url.queryPairs.filter (fun pair => pair.1 != "nonce") ++ [("nonce", nonce)] ≠ [] :=
    List.append_ne_nil_of_right_ne_nil _ (List.cons_ne_nil _ _)
  rw [queryNonce, probeQuery, split_fields hne, List.findSome?_map]
  have hfields : (fun pair => if (splitPair pair).1 = "nonce" then
      some (percentDecode (splitPair pair).2) else none) ∘ field =
      fun pair : String × String => if pair.1 = "nonce" then some pair.2 else none :=
    funext nonce_of_field
  rw [hfields, List.findSome?_append, hothers]
  rfl

/-- What a query is made of. -/
theorem mem_fields {c : Char} : ∀ {pairs : List (String × String)}, c ∈ (fields pairs).toList →
    isWhitespace c = false := by
  have hfield : ∀ pair : String × String, c ∈ (field pair).toList → isWhitespace c = false := by
    intro pair h
    rw [field, String.toList_append, String.toList_append] at h
    rcases List.mem_append.mp h with h | h
    · rcases List.mem_append.mp h with h | h
      · exact (mem_form h).2.1
      · rw [List.mem_singleton.mp h]
        decide
    · exact (mem_form h).2.1
  intro pairs
  induction pairs with
  | nil => exact fun h => absurd h List.not_mem_nil
  | cons pair pairs ih =>
    cases pairs with
    | nil => exact hfield pair
    | cons pair' pairs =>
      intro h
      have hsplit : fields (pair :: pair' :: pairs) =
          field pair ++ "&" ++ fields (pair' :: pairs) := by
        rw [fields]
        exact fun h => by cases h
      rw [hsplit, String.toList_append, String.toList_append] at h
      rcases List.mem_append.mp h with h | h
      · rcases List.mem_append.mp h with h | h
        · exact hfield pair h
        · rw [List.mem_singleton.mp h]
          decide
      · exact ih h

/-- A target has no white space. -/
theorem plain_probeTarget (url : EchoUrl) (nonce : String) :
    ∀ c ∈ (probeTarget url nonce).toList, isWhitespace c = false := by
  intro c hc
  rw [probeTarget, String.toList_append, String.toList_append] at hc
  rcases List.mem_append.mp hc with hc | hc
  · rcases List.mem_append.mp hc with hc | hc
    · exact (url.plainPath c hc).1
    · rw [List.mem_singleton.mp hc]
      decide
  · exact mem_fields hc

/-- It splits where the query starts. -/
theorem splitTarget_probeTarget (url : EchoUrl) (nonce : String) :
    splitTarget (probeTarget url nonce) = (url.path, probeQuery url nonce) := by
  have hpath : '?' ∉ url.path.toList := fun h => (url.plainPath '?' h).2 rfl
  have hmark : "?" = String.singleton '?' := rfl
  rw [splitTarget, probeTarget, hmark, splitOnce_append hpath, Option.getD_some]

/-! ## The request -/

/-- What the line has behind the target: nothing, or a space and more. -/
def Behind (tail : List Char) : Prop := tail = [] ∨ ∃ more, tail = ' ' :: more

/-- The second word of a line. -/
theorem splitWhitespace_second {target : String} {tail : List Char} (hne : target ≠ "")
    (hplain : ∀ c ∈ target.toList, isWhitespace c = false) (htail : Behind tail) :
    (splitWhitespace (String.ofList ("GET ".toList ++ target.toList ++ tail)))[1]? =
      some target := by
  have hall : (['G', 'E', 'T'].all fun c => decide (isWhitespace c = false)) = true := by decide
  have hmethod : ∀ c ∈ ['G', 'E', 'T'], isWhitespace c = false :=
    fun c hc => of_decide_eq_true (List.all_eq_true.mp hall c hc)
  have hlist : target.toList ≠ [] := fun h => hne (String.toList_eq_nil_iff.mp h)
  have hempty : target.toList.isEmpty = false := by
    rw [List.isEmpty_eq_false_iff]
    exact hlist
  have hline : "GET ".toList ++ target.toList ++ tail =
      ['G', 'E', 'T'] ++ ' ' :: (target.toList ++ tail) := by simp
  rw [splitWhitespace, String.toList_ofList, hline,
    List.splitOnP_append_cons_of_forall_mem hmethod ' ' (by decide)]
  rcases htail with rfl | ⟨more, rfl⟩
  · rw [List.append_nil, List.splitOnP_eq_singleton hplain]
    simp [hempty]
  · rw [List.splitOnP_append_cons_of_forall_mem hplain ' ' (by decide)]
    simp [hempty]

/-- The first line of a request. -/
theorem headD_lines_request {front tail : List Char} (hfeed : '\n' ∉ front) (hne : front ≠ [])
    (hreturn : front.getLast? ≠ some '\r') (htail : Behind tail) :
    ∃ tail', Behind tail' ∧
      (lines (String.ofList (front ++ tail))).headD "" = String.ofList (front ++ tail') := by
  by_cases hmem : '\n' ∈ tail
  · obtain ⟨a, b, hsplit, ha⟩ := List.eq_append_cons_of_mem hmem
    have hline : '\n' ∉ (String.ofList (front ++ a)).toList := by
      rw [String.toList_ofList]
      exact fun h => (List.mem_append.mp h).elim hfeed ha
    have htext : String.ofList (front ++ tail) =
        String.ofList (front ++ a) ++ String.singleton '\n' ++ String.ofList b := by
      apply String.toList_injective
      simp [hsplit]
    have hbehind : Behind a := by
      cases a with
      | nil => exact Or.inl rfl
      | cons c a =>
        rcases htail with rfl | ⟨more, rfl⟩
        · cases hmem
        · exact Or.inr ⟨a, by rw [(List.cons.inj hsplit).1]⟩
    rw [htext, headD_lines hline, stripSuffix, String.toList_ofList]
    split
    · next hlast =>
      -- the carriage return is behind the space, so it is not all there is
      cases a with
      | nil =>
        rw [List.append_nil] at hlast
        exact absurd hlast hreturn
      | cons c a =>
        rcases hbehind with hnil | ⟨more, hcons⟩
        · cases hnil
        · cases hcons
          cases a with
          | nil =>
            rw [List.getLast?_append] at hlast
            exact absurd (Option.some.inj hlast) (by decide)
          | cons d a =>
            refine ⟨' ' :: (d :: a).dropLast, Or.inr ⟨_, rfl⟩, ?_⟩
            rw [Option.getD_some, List.dropLast_append_of_ne_nil (List.cons_ne_nil _ _)]
            rfl
    · exact ⟨a, hbehind, rfl⟩
  · have hline : '\n' ∉ (String.ofList (front ++ tail)).toList := by
      rw [String.toList_ofList]
      exact fun h => (List.mem_append.mp h).elim hfeed hmem
    have htext : String.ofList (front ++ tail) ≠ "" := by
      intro h
      have hlist := congrArg String.toList h
      rw [String.toList_ofList] at hlist
      exact hne (List.append_eq_nil_iff.mp hlist).1
    exact ⟨tail, htail, by rw [lines_single hline htext]; rfl⟩

/-- **The target is read**, whatever of the request is behind it. -/
theorem requestTarget_eq {target : String} {tail : List Char} (hne : target ≠ "")
    (hplain : ∀ c ∈ target.toList, isWhitespace c = false) (htail : Behind tail) :
    requestTarget (String.ofList ("GET ".toList ++ target.toList ++ tail)) = target := by
  have hfeed : '\n' ∉ "GET ".toList ++ target.toList := by
    intro h
    rcases List.mem_append.mp h with h | h
    · exact absurd h (by decide)
    · exact absurd (hplain _ h) (by decide)
  have hlist : target.toList ≠ [] := fun h => hne (String.toList_eq_nil_iff.mp h)
  have hreturn : ("GET ".toList ++ target.toList).getLast? ≠ some '\r' := by
    rw [List.getLast?_append_of_ne_nil _ hlist]
    exact fun h => absurd (hplain _ (List.mem_of_getLast? h)) (by decide)
  obtain ⟨tail', htail', hline⟩ := headD_lines_request hfeed
    (List.append_ne_nil_of_right_ne_nil _ hlist) hreturn htail
  rw [requestTarget, hline, splitWhitespace_second hne hplain htail']
  rfl

/-! ## The reply -/

/-- What ends a head. -/
def blankLine : List Char := ['\r', '\n', '\r', '\n']

/-- A text without a carriage return is passed over. -/
theorem splitOnceChars_skip {front rest : List Char} (h : '\r' ∉ front) :
    Fp.splitOnceChars blankLine (front ++ rest) =
      (Fp.splitOnceChars blankLine rest).map fun parts => (front ++ parts.1, parts.2) := by
  induction front with
  | nil =>
    rw [List.nil_append]
    cases Fp.splitOnceChars blankLine rest with
    | none => rfl
    | some parts => rfl
  | cons c front ih =>
    have hne : '\r' ≠ c := fun heq => h (heq ▸ List.mem_cons_self)
    have hlater : ¬ blankLine.isPrefixOf (c :: (front ++ rest)) = true := by
      intro hp
      exact hne (List.cons_prefix_cons.mp (List.isPrefixOf_iff_prefix.mp hp)).1
    rw [List.cons_append, Fp.splitOnceChars, if_neg hlater,
      ih fun hmem => h (List.mem_cons_of_mem c hmem), Option.map_map]
    rfl

/-- A line break before a line that is not empty is passed over. -/
theorem splitOnceChars_break {c : Char} {rest : List Char} (h : c ≠ '\r') :
    Fp.splitOnceChars blankLine ('\r' :: '\n' :: c :: rest) =
      (Fp.splitOnceChars blankLine (c :: rest)).map fun parts =>
        ('\r' :: '\n' :: parts.1, parts.2) := by
  have hfirst : ¬ blankLine.isPrefixOf ('\r' :: '\n' :: c :: rest) = true := by
    intro hp
    have hprefix := List.isPrefixOf_iff_prefix.mp hp
    have htail := (List.cons_prefix_cons.mp (List.cons_prefix_cons.mp hprefix).2).2
    exact h (List.cons_prefix_cons.mp htail).1.symm
  have hsecond : ¬ blankLine.isPrefixOf ('\n' :: c :: rest) = true := by
    intro hp
    have hprefix := List.isPrefixOf_iff_prefix.mp hp
    exact absurd (List.cons_prefix_cons.mp hprefix).1 (by decide)
  rw [Fp.splitOnceChars, if_neg hfirst, Fp.splitOnceChars, if_neg hsecond, Option.map_map]
  rfl

/-- The lines of a head, each with its break. -/
def headText (head : List (List Char)) : List Char := head.flatMap fun line => line ++ ['\r', '\n']

/-- **The body stands behind the first blank line.** -/
theorem splitOnceChars_head (body : List Char) : ∀ {head : List (List Char)}, head ≠ [] →
    (∀ line ∈ head, line ≠ [] ∧ '\r' ∉ line) →
      ∃ before, Fp.splitOnceChars blankLine (headText head ++ '\r' :: '\n' :: body) =
        some (before, body)
  | [], h, _ => absurd rfl h
  | [line], _, hlines => by
    have htext : headText [line] ++ '\r' :: '\n' :: body = line ++ (blankLine ++ body) := by
      simp [headText, blankLine]
    have hhere : Fp.splitOnceChars blankLine (blankLine ++ body) = some ([], body) := rfl
    rw [htext, splitOnceChars_skip (hlines line List.mem_cons_self).2, hhere]
    exact ⟨_, rfl⟩
  | line :: next :: head, _, hlines => by
    obtain ⟨hline, hrest⟩ := List.forall_mem_cons.mp hlines
    obtain ⟨before, hbefore⟩ := splitOnceChars_head body (List.cons_ne_nil next head) hrest
    obtain ⟨c, cs, hnext⟩ := List.exists_cons_of_ne_nil (hrest next List.mem_cons_self).1
    have hc : c ≠ '\r' := by
      rintro rfl
      exact (hrest next List.mem_cons_self).2 (hnext ▸ List.mem_cons_self)
    have htext : headText (line :: next :: head) ++ '\r' :: '\n' :: body =
        line ++ '\r' :: '\n' :: (headText (next :: head) ++ '\r' :: '\n' :: body) := by
      simp [headText]
    have hfirst : headText (next :: head) ++ '\r' :: '\n' :: body =
        c :: (cs ++ '\r' :: '\n' :: (headText head ++ '\r' :: '\n' :: body)) := by
      simp [headText, hnext]
    rw [htext, splitOnceChars_skip hline.2]
    rw [hfirst] at hbefore ⊢
    rw [splitOnceChars_break hc, hbefore]
    exact ⟨_, rfl⟩

/-- The lines of a response head. -/
def responseHead (status : Nat) (contentType : String) (length : Nat) : List (List Char) :=
  [("HTTP/1.1 " ++ Nat.repr status ++ " " ++ reason status).toList,
    ("Content-Type: " ++ contentType).toList, ("Content-Length: " ++ Nat.repr length).toList,
    "Connection: close".toList]

theorem return_not_mem_repr (n : Nat) : '\r' ∉ (Nat.repr n).toList := by
  rw [Nat.toList_repr]
  exact fun h => absurd (Nat.isDigit_of_mem_toDigits (by decide) (by decide) h) (by decide)

theorem responseHead_lines {status length : Nat} {contentType : String}
    (h : '\r' ∉ contentType.toList) :
    ∀ line ∈ responseHead status contentType length, line ≠ [] ∧ '\r' ∉ line := by
  have hreason : '\r' ∉ (reason status).toList := by
    unfold reason
    split
    · decide
    split
    · decide
    split
    · decide
    · decide
  simp only [responseHead, List.forall_mem_cons, String.toList_append, List.mem_append, not_or]
  refine ⟨⟨?_, ⟨⟨by decide, return_not_mem_repr _⟩, by decide⟩, hreason⟩, ⟨?_, by decide, h⟩,
    ⟨?_, by decide, return_not_mem_repr _⟩, ⟨by decide, by decide⟩,
    fun _ hnil => absurd hnil List.not_mem_nil⟩
  · simp
  · simp
  · simp

/-- **A reply is read**: its body is what the echo is taken from. -/
theorem readReply_writeHttp (json : SerdeJson) {status : Nat} {contentType text : String}
    (htype : '\r' ∉ contentType.toList) (hline : ∀ c ∈ text.toList, 0x20 ≤ c.toNat)
    (hsolid : Chars.Solid text.toList) :
    readReply json (writeHttp status contentType (utf8 text)) = extractEchoedNonce json text := by
  have hbody : '\r' ∉ text.toList := fun h => absurd (hline _ h) (by decide)
  have htext : (fromUtf8Lossy (writeHttp status contentType (utf8 text))).toList =
      headText (responseHead status contentType (utf8 text).length) ++
        '\r' :: '\n' :: text.toList := by
    rw [writeHttp, ← utf8_append, fromUtf8Lossy_utf8]
    simp [responseHead, headText]
  have hhead : responseHead status contentType (utf8 text).length ≠ [] := List.cons_ne_nil _ _
  obtain ⟨before, hbefore⟩ := splitOnceChars_head text.toList hhead (responseHead_lines htype)
  have hpat : "\r\n\r\n".toList = blankLine := rfl
  have hrest : Fp.splitOnceChars blankLine text.toList = none := by
    have hskip := @splitOnceChars_skip text.toList [] hbody
    rw [List.append_nil] at hskip
    rw [hskip]
    rfl
  have hsecond : Fp.splitSecond (fromUtf8Lossy (writeHttp status contentType (utf8 text)))
      "\r\n\r\n" = some text := by
    rw [Fp.splitSecond, Fp.splitOnceText, htext, hpat, hbefore, Option.map_some, Option.map_some,
      String.ofList_toList, Fp.splitOnceText, hpat, hrest]
    rfl
  rw [readReply, hsecond, Option.getD_some, trim_solid hsolid]

/-! ## The round trip -/

/-- What the server's one read got of a request: a front of it that the buffer takes, with the target
in it. -/
structure FirstRead (request : String) (target : String) (read : Bytes) : Prop where
  front : read <+: utf8 request
  buffer : read.length ≤ 4096
  reached : (utf8 ("GET " ++ target)).length ≤ read.length

/-- The path of the echo endpoint. -/
def IsEcho (path : String) : Prop := trimEndSlashes path = "/echo"

/-- A request has a space behind its target. -/
theorem probeRequest_eq {url : EchoUrl} {nonce request : String}
    (h : probeRequest url nonce = .ok request) :
    ∃ tail, request = "GET " ++ probeTarget url nonce ++ (" " ++ tail) := by
  obtain ⟨host, -, h⟩ := bind_eq_ok.mp h
  obtain ⟨port, -, h⟩ := bind_eq_ok.mp h
  cases h
  have hversion : " HTTP/1.1\r\nHost: " = " " ++ "HTTP/1.1\r\nHost: " := rfl
  refine ⟨"HTTP/1.1\r\nHost: " ++ host ++ ":" ++ Nat.repr port ++
    "\r\nConnection: close\r\nAccept: application/json\r\n\r\n", ?_⟩
  rw [hversion]
  simp only [String.append_assoc]

/-- A front of a text that goes past some of it. -/
theorem fromUtf8Lossy_front {front tail : String} {read : Bytes}
    (hfront : read <+: utf8 (front ++ (" " ++ tail)))
    (hreached : (utf8 front).length ≤ read.length) :
    ∃ behind, Behind behind ∧ fromUtf8Lossy read = String.ofList (front.toList ++ behind) := by
  rw [utf8_append, utf8_append] at hfront
  obtain ⟨more, rfl⟩ := List.prefix_of_prefix_length_le (List.prefix_append _ _) hfront hreached
  have hmore : more <+: utf8 " " ++ utf8 tail := (List.prefix_append_right_inj _).mp hfront
  have hspace : utf8 " " = String.utf8EncodeChar ' ' := by decide
  refine ⟨lossyChars more 0, ?_, ?_⟩
  · cases more with
    | nil => exact Or.inl rfl
    | cons b more =>
      have hb : b = 0x20 := (List.cons_prefix_cons.mp hmore).1
      have hchar : lossyChars (String.utf8EncodeChar ' ' ++ more) 0 = ' ' :: lossyChars more 0 :=
        lossyChars_encode ' ' more
      exact Or.inr ⟨_, by rw [hb]; exact hchar⟩
  · rw [fromUtf8Lossy, utf8_eq_flatMap, lossyChars_encode_append]

/-- The target is what the server reads. -/
theorem requestTarget_read {url : EchoUrl} {nonce request : String} {read : Bytes}
    (hrequest : probeRequest url nonce = .ok request) (hfront : read <+: utf8 request)
    (hreached : (utf8 ("GET " ++ probeTarget url nonce)).length ≤ read.length) :
    requestTarget (fromUtf8Lossy read) = probeTarget url nonce := by
  obtain ⟨tail, rfl⟩ := probeRequest_eq hrequest
  obtain ⟨behind, hbehind, htext⟩ := fromUtf8Lossy_front hfront hreached
  have hne : probeTarget url nonce ≠ "" := by
    intro h
    have hlist := congrArg String.toList h
    simp [probeTarget] at hlist
  rw [htext, String.toList_append]
  exact requestTarget_eq hne (plain_probeTarget url nonce) hbehind

section Echo

variable {json : SerdeJson} {signer : EchoSigner} {url : EchoUrl} {nonce request : String}
  {read : Bytes}

/-- A probe with an empty nonce is refused. -/
theorem handleHttpConnection_missing (hecho : IsEcho url.path)
    (hrequest : probeRequest url "" = .ok request) (hfront : read <+: utf8 request)
    (hreached : (utf8 ("GET " ++ probeTarget url "")).length ≤ read.length) :
    handleHttpConnection json signer read =
      writeHttp 400 "application/json" (utf8 "\x7b\"error\":\"missing_nonce\"\x7d") := by
  have hpath : ¬ trimEndSlashes url.path ≠ "/echo" := not_not.mpr hecho
  rw [handleHttpConnection, requestTarget_read hrequest hfront hreached, splitTarget_probeTarget]
  simp only [queryNonce_probeQuery]
  rw [if_neg hpath]
  exact if_pos trivial

/-- Any other is signed. -/
theorem handleHttpConnection_signed {signature : String} (hne : nonce ≠ "")
    (hecho : IsEcho url.path) (hrequest : probeRequest url nonce = .ok request)
    (hfront : read <+: utf8 request)
    (hreached : (utf8 ("GET " ++ probeTarget url nonce)).length ≤ read.length)
    (hsign : signer.signEchoPayload (echoSigningPayload nonce) = .ok signature) :
    handleHttpConnection json signer read =
      writeHttp 200 "application/json"
        ((json.toVec (EchoResponse.members ⟨nonce, signature, some signer.publicKeyHex⟩)).getD
          (utf8 "\x7b\"error\":\"serialize\"\x7d")) := by
  have hsigned : signEchoWith signer nonce =
      .ok ⟨nonce, signature, some signer.publicKeyHex⟩ := by
    rw [signEchoWith, if_neg hne, hsign]
    rfl
  have hpath : ¬ trimEndSlashes url.path ≠ "/echo" := not_not.mpr hecho
  rw [handleHttpConnection, requestTarget_read hrequest hfront hreached, splitTarget_probeTarget]
  simp only [queryNonce_probeQuery, hsigned]
  rw [if_neg hpath, if_neg hne]

theorem type_plain : '\r' ∉ "application/json".toList := by decide

/-- The nonce of a signed reply. -/
theorem readReply_echo (response : EchoResponse) :
    readReply json (writeHttp 200 "application/json"
      ((json.toVec response.members).getD (utf8 "\x7b\"error\":\"serialize\"\x7d"))) =
      some response.nonce := by
  have hkeys : (response.members.map Prod.fst).Nodup := by
    cases response with
    | mk nonce signature key =>
      cases key with
      | none => exact (by decide : ["nonce", "signature"].Nodup)
      | some key => exact (by decide : ["nonce", "signature", "enclave_pubkey"].Nodup)
  obtain ⟨text, parsed, hprint, hparse, hlookup, hhead, hlast, hline⟩ :=
    json.prints response.members hkeys
  have hsolid : Chars.Solid text.toList := by
    refine ⟨fun c hc => ?_, fun c hc => ?_⟩
    · rw [hhead] at hc
      rw [← Option.some.inj hc]
      decide
    · rw [hlast] at hc
      rw [← Option.some.inj hc]
      decide
  have hne : text ≠ "" := by
    rintro rfl
    cases hhead
  have hnonce : nonceMember (.object parsed) = some response.nonce := by
    rw [nonceMember, hlookup]
    rfl
  rw [hprint, Option.getD_some, readReply_writeHttp json type_plain hline hsolid,
    extractEchoedNonce, if_neg hne, hparse]
  simp only [hnonce]

/-- **The echo returns the nonce of the probe**: it is what the server takes from the query, and,
unless it is empty, what the probe takes from the reply. -/
theorem echo_returns_nonce (json : SerdeJson) (signer : EchoSigner) (url : EchoUrl)
    (nonce : String) :
    queryNonce (splitTarget (probeTarget url nonce)).2 = nonce ∧
    (IsEcho url.path → ∀ request read, probeRequest url nonce = .ok request →
      FirstRead request (probeTarget url nonce) read →
        (nonce = "" → handleHttpConnection json signer read =
          writeHttp 400 "application/json" (utf8 "\x7b\"error\":\"missing_nonce\"\x7d")) ∧
        (nonce ≠ "" → ∀ signature,
          signer.signEchoPayload (echoSigningPayload nonce) = .ok signature →
            readReply json (handleHttpConnection json signer read) = some nonce)) := by
  refine ⟨by rw [splitTarget_probeTarget, queryNonce_probeQuery], ?_⟩
  intro hecho request read hrequest hread
  constructor
  · rintro rfl
    exact handleHttpConnection_missing hecho hrequest hread.front hread.reached
  · intro hne signature hsign
    rw [handleHttpConnection_signed hne hecho hrequest hread.front hread.reached hsign]
    exact readReply_echo _

end Echo

/-! ## A flat `serde_json` -/

theorem lookup_strings (ms : List (String × String)) (key : String) :
    (ms.map fun m => (m.1, Json.Tree.string m.2)).lookup key =
      (ms.lookup key).map Json.Tree.string := by
  induction ms with
  | nil => rfl
  | cons m ms ih =>
    rw [List.map_cons, List.lookup_cons, List.lookup_cons, ih]
    cases key == m.1 with
    | true => rfl
    | false => rfl

theorem prints_object (ms : List (String × String)) :
    ∃ text parsed, some (utf8 (String.ofList (JsonText.object ms))) = some (utf8 text) ∧
      ((JsonText.readObject text.toList).map fun ms =>
        Json.Tree.object (ms.map fun m => (m.1, .string m.2))) = some (.object parsed) ∧
      (∀ key, parsed.lookup key = (ms.lookup key).map Json.Tree.string) ∧
      text.toList.head? = some '\x7b' ∧ text.toList.getLast? = some '\x7d' ∧
      ∀ c ∈ text.toList, 0x20 ≤ c.toNat := by
  refine ⟨String.ofList (JsonText.object ms), ms.map fun m => (m.1, .string m.2), rfl, ?_,
    lookup_strings ms, ?_⟩
  · rw [String.toList_ofList, JsonText.readObject_object]
    rfl
  · rw [String.toList_ofList]
    exact ⟨JsonText.head_object ms, JsonText.last_object ms, JsonText.not_control_object ms⟩

/-- What there is of `serde_json` for objects of texts. -/
def flatJson : SerdeJson where
  toVec ms := some (utf8 (String.ofList (JsonText.object ms)))
  fromStr text := (JsonText.readObject text.toList).map fun ms =>
    .object (ms.map fun m => (m.1, .string m.2))
  prints ms _ := prints_object ms

theorem plain_localPath : ∀ c ∈ "/echo".toList, isWhitespace c = false ∧ c ≠ '?' := by
  have hall : ("/echo".toList.all fun c => decide (isWhitespace c = false ∧ c ≠ '?')) = true := by
    decide
  exact fun c hc => of_decide_eq_true (List.all_eq_true.mp hall c hc)

/-- The URL of a local endpoint. -/
def localEcho : EchoUrl where
  host := some "127.0.0.1"
  port := some 8080
  path := "/echo"
  queryPairs := [("region", "eu west")]
  plainPath := plain_localPath

/-- A signer that signs everything alike. -/
def anySigner : EchoSigner where
  publicKeyHex := "00"
  signEchoPayload _ := .ok "11"

/-- The request of a local probe. -/
def localRequest (nonce : String) : String :=
  "GET " ++ probeTarget localEcho nonce ++ " HTTP/1.1\r\nHost: " ++ "127.0.0.1" ++ ":" ++
    Nat.repr 8080 ++ "\r\nConnection: close\r\nAccept: application/json\r\n\r\n"

theorem probeRequest_local (nonce : String) :
    probeRequest localEcho nonce = .ok (localRequest nonce) := rfl

theorem isEcho_localEcho : IsEcho localEcho.path := by
  show trimEndSlashes "/echo" = "/echo"
  decide

theorem local_reached (nonce : String) :
    (utf8 ("GET " ++ probeTarget localEcho nonce)).length ≤ (utf8 (localRequest nonce)).length := by
  obtain ⟨tail, htail⟩ := probeRequest_eq (probeRequest_local nonce)
  rw [htail, utf8_append (_ ++ _), List.length_append]
  exact Nat.le_add_right _ _

theorem firstRead_local :
    FirstRead (localRequest "n+1") (probeTarget localEcho "n+1") (utf8 (localRequest "n+1")) where
  front := List.prefix_refl _
  buffer := by decide
  reached := local_reached _

/-- A local probe gets its nonce back. -/
theorem echo_returns_nonce_local :
    readReply flatJson (handleHttpConnection flatJson anySigner (utf8 (localRequest "n+1"))) =
      some "n+1" :=
  ((echo_returns_nonce flatJson anySigner localEcho "n+1").2 isEcho_localEcho _ _
    (probeRequest_local _) firstRead_local).2 (by decide) "11" rfl

/-- An empty nonce does not come back. -/
theorem not_echo_returns_nonce :
    ¬ ∀ (json : SerdeJson) (signer : EchoSigner) (url : EchoUrl) (nonce request : String),
      IsEcho url.path → probeRequest url nonce = .ok request →
        (∀ payload, ∃ signature, signer.signEchoPayload payload = .ok signature) →
          readReply json (handleHttpConnection json signer (utf8 request)) = some nonce := by
  intro h
  have hreply := h flatJson anySigner localEcho "" _ isEcho_localEcho (probeRequest_local "")
    fun _ => ⟨"11", rfl⟩
  have hmissing := @handleHttpConnection_missing flatJson anySigner _ _ (utf8 (localRequest ""))
    isEcho_localEcho (probeRequest_local "") (List.prefix_refl _) (local_reached "")
  have hline : ∀ c ∈ "\x7b\"error\":\"missing_nonce\"\x7d".toList, 0x20 ≤ c.toNat := by
    have hall : ("\x7b\"error\":\"missing_nonce\"\x7d".toList.all fun c =>
        decide (0x20 ≤ c.toNat)) = true := by decide
    exact fun c hc => of_decide_eq_true (List.all_eq_true.mp hall c hc)
  have hsolid : Chars.Solid "\x7b\"error\":\"missing_nonce\"\x7d".toList := by
    refine ⟨fun c hc => ?_, fun c hc => ?_⟩
    · rw [← Option.some.inj hc]
      decide
    · rw [← Option.some.inj hc]
      decide
  have hobject : "\x7b\"error\":\"missing_nonce\"\x7d".toList =
      JsonText.object [("error", "missing_nonce")] := by decide
  rw [hmissing, readReply_writeHttp flatJson type_plain hline hsolid, extractEchoedNonce,
    if_neg (by decide)] at hreply
  have hparse : flatJson.fromStr "\x7b\"error\":\"missing_nonce\"\x7d" =
      some (.object [("error", .string "missing_nonce")]) := by
    show (JsonText.readObject "\x7b\"error\":\"missing_nonce\"\x7d".toList).map (fun ms =>
      Json.Tree.object (ms.map fun m => (m.1, .string m.2))) = _
    rw [hobject, JsonText.readObject_object]
    rfl
  rw [hparse] at hreply
  exact absurd (Option.some.inj hreply) (by decide)

end Basecrawl.Core.RttEcho
