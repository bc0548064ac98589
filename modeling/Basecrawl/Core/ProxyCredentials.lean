/-
  The credentials of a proxy URL, from the URL to the wire.

  1. **Program** — `parseProxy` keeps the user name and the password of the URL as the url crate
     hands them out, and `basicProxyAuthorization` and `socks5UserpassAuth` write what was kept.
  2. **The url crate** — `KeepsUserinfo`: it hands them out percent-encoded.  It is a parameter.
  3. **The wire** — what is kept is what is encoded (`parseProxy_userinfo`), so the upstream is told
     the credentials exactly when nothing of them had to be escaped (`carriesCredentials_iff`).
-/
import Basecrawl.Core.Connect
import Basecrawl.Core.Usernames
import Basecrawl.Lib.Percent
import Basecrawl.Lib.Slices

namespace Basecrawl.Core

open Text Outcome Connection

/-! ## Program -/

/-- What is read off a URL of the url crate. -/
structure ProxyUrl where
  scheme : String
  hostStr : Option String
  portOrKnownDefault : Option Nat
  username : String := ""
  password : Option String := none
deriving DecidableEq

/-- `ProxyConfig`: the kind and the endpoint of an upstream, and what its dialer is told. -/
structure Upstream where
  kind : ProxyKind
  host : String
  port : Nat
  config : ProxyConfig

def proxyKindOf (scheme : String) : Except Error ProxyKind :=
  if scheme = "http" then .ok .http
  else if scheme = "https" then .ok .https
  else if scheme = "socks5" ∨ scheme = "socks5h" then .ok .socks5
  else .error (.invalidProxy ("unsupported proxy scheme '" ++ scheme ++
    "' (supported: http, https, socks5)"))

/-- `ProxyConfig::parse`. -/
def parseProxy (parseUrl : String → Option ProxyUrl) (raw : String) : Except Error Upstream := do
  let trimmed := trim raw
  require (trimmed != "") (.invalidProxy "proxy URL must not be empty")
  let url ← okOr (parseUrl trimmed) (.invalidProxy "proxy URL is not a valid absolute URL")
  let kind ← proxyKindOf url.scheme
  let host ← okOr url.hostStr (.invalidProxy "proxy URL is missing a host")
  let port ← okOr url.portOrKnownDefault (.invalidProxy "proxy URL is missing a port")
  .ok
    { kind := kind
      host := host
      port := port
      config :=
        { endpoint := host ++ ":" ++ Nat.repr port
          username := if url.username = "" then none else some url.username
          password := url.password
          proxyClass := some .datacenter } }

/-! ## The url crate -/

/-- The USERINFO set: what the url crate encodes in a user name or a password. -/
def userinfoSet (c : Char) : Bool :=
  decide (c.toNat ≤ 0x20) || decide (0x7f ≤ c.toNat) ||
    " \"<>\x60#?\x7b\x7d/:;=@[\\]^|".toList.contains c

/-- Nothing that the url crate would encode: percent signs and digits are fine. -/
def Userinfo (text : String) : Prop := ∀ c ∈ text.toList, userinfoSet c = false

/-- A host and a port, without white space and without the marks that end an authority. -/
def PlainHost (hostPort : String) : Prop :=
  ∀ c ∈ hostPort.toList, isWhitespace c = false ∧ c ∉ "/\\?#@".toList

def proxySchemes : List String := ["http", "https", "socks5", "socks5h"]

/-- A proxy URL without credentials, and one with. -/
def bareUrl (scheme hostPort : String) : String := scheme ++ "://" ++ hostPort

def urlWith (scheme user pass hostPort : String) : String :=
  scheme ++ "://" ++ user ++ ":" ++ pass ++ "@" ++ hostPort

/-- `Url::username` and `Url::password` are percent-encoded, and an empty password is none. -/
def KeepsUserinfo (parseUrl : String → Option ProxyUrl) : Prop :=
  ∀ scheme ∈ proxySchemes, ∀ hostPort user pass, PlainHost hostPort → Userinfo user →
    Userinfo pass →
    parseUrl (urlWith scheme user pass hostPort) =
      (parseUrl (bareUrl scheme hostPort)).map fun url =>
        { url with username := user, password := if pass = "" then none else some pass }

/-! ## The wire -/

/-- The message of the user name and password authentication, as its receiver reads it. -/
def readUserPass : Bytes → Option (Bytes × Bytes)
  | 0x01 :: ulen :: rest =>
    match rest.drop ulen.toNat with
    | plen :: pass =>
      if pass.length = plen.toNat then some (rest.take ulen.toNat, pass) else none
    | [] => none
  | _ => none

/-- Both kinds of upstream are told these credentials. -/
structure CarriesCredentials (config : ProxyConfig) (user pass : String) : Prop where
  basic : ∃ token, basicProxyAuthorization config = some ("Basic " ++ token) ∧
    Base64Url.decodeStandard token.toList = some (utf8 (user ++ ":" ++ pass))
  socks5 : ∃ message, Runs (socks5UserpassAuth config) [0x01, 0x00] message [] (.ok ()) ∧
    readUserPass message = some (utf8 user, utf8 pass)

/-- Credentials with a percent-encoder. -/
def encoded (escapes : Char → Bool) (text : String) : String :=
  String.ofList (Percent.encode escapes text.toList)

/-- **Credentials reach the upstream as configured.** -/
def CredentialsCarried (parseUrl : String → Option ProxyUrl) : Prop :=
  ∀ escapes : Char → Bool, (∀ c, userinfoSet c = true ∨ c = '%' → escapes c = true) →
    ∀ scheme ∈ proxySchemes, ∀ hostPort bare, PlainHost hostPort →
      parseProxy parseUrl (bareUrl scheme hostPort) = .ok bare →
      ∀ user pass, ∃ upstream,
        parseProxy parseUrl
            (urlWith scheme (encoded escapes user) (encoded escapes pass) hostPort) =
          .ok upstream ∧ CarriesCredentials upstream.config user pass

/-- What the upstream is configured with, for credentials as they stand in the URL. -/
def credentials (config : ProxyConfig) (user pass : String) : ProxyConfig :=
  { config with
    username := if user = "" then none else some user
    password := if pass = "" then none else some pass }

section Parsing

variable {parseUrl : String → Option ProxyUrl} {scheme hostPort user pass : String}

/-- No scheme starts with white space. -/
theorem head_scheme (h : scheme ∈ proxySchemes) :
    ∃ c cs, scheme.toList = c :: cs ∧ isWhitespace c = false := by
  have hall : ∀ s ∈ proxySchemes, ∃ c cs, s.toList = c :: cs ∧ isWhitespace c = false := by
    simp only [proxySchemes, List.forall_mem_cons]
    exact ⟨⟨'h', _, rfl, by decide⟩, ⟨'h', _, rfl, by decide⟩, ⟨'s', _, rfl, by decide⟩,
      ⟨'s', _, rfl, by decide⟩, fun _ hnil => (List.not_mem_nil hnil).elim⟩
  exact hall scheme h

/-- A proxy URL has no white ends. -/
theorem trim_url {text : String} (mid : Chars) (c : Char) (hscheme : scheme ∈ proxySchemes)
    (htext : text.toList = scheme.toList ++ (mid ++ c :: hostPort.toList))
    (hc : isWhitespace c = false) (hhost : PlainHost hostPort) : trim text = text := by
  obtain ⟨d, cs, hcs, hd⟩ := head_scheme hscheme
  refine trim_solid ⟨fun e he => ?_, fun e he => ?_⟩
  · rw [htext, hcs] at he
    obtain rfl := Option.some.inj he
    exact hd
  · rw [htext, ← List.append_assoc, List.getLast?_append_of_ne_nil _ (List.cons_ne_nil _ _)] at he
    rcases List.mem_cons.mp (List.mem_of_getLast? he) with rfl | hmem
    · exact hc
    · exact (hhost e hmem).1

/-- The credentials of the URL are what the upstream is configured with. -/
theorem parseProxy_userinfo (hparse : KeepsUserinfo parseUrl) (hscheme : scheme ∈ proxySchemes)
    (hhost : PlainHost hostPort) (huser : Userinfo user) (hpass : Userinfo pass) {bare : Upstream}
    (hbare : parseProxy parseUrl (bareUrl scheme hostPort) = .ok bare) :
    parseProxy parseUrl (urlWith scheme user pass hostPort) =
      .ok { bare with config := credentials bare.config user pass } := by
  have htrimBare : trim (bareUrl scheme hostPort) = bareUrl scheme hostPort := by
    refine trim_url [':', '/'] '/' hscheme ?_ (by decide) hhost
    simp [bareUrl]
  have htrim : trim (urlWith scheme user pass hostPort) = urlWith scheme user pass hostPort := by
    refine trim_url ("://".toList ++ user.toList ++ ":".toList ++ pass.toList) '@' hscheme ?_
      (by decide) hhost
    simp [urlWith]
  have hne : (urlWith scheme user pass hostPort != "") = true := by
    obtain ⟨c, cs, hcs, -⟩ := head_scheme hscheme
    rw [bne_iff_ne]
    intro hempty
    have hlist := congrArg String.toList hempty
    simp [urlWith, hcs] at hlist
  unfold parseProxy at hbare ⊢
  rw [htrimBare] at hbare
  rw [htrim]
  obtain ⟨_, -, hbare⟩ := bind_eq_ok.mp hbare
  obtain ⟨url, hurl, hbare⟩ := bind_eq_ok.mp hbare
  rw [okOr_eq_ok] at hurl
  have hwith := hparse scheme hscheme hostPort user pass hhost huser hpass
  rw [hurl, Option.map_some] at hwith
  obtain ⟨kind, hkind, hbare⟩ := bind_eq_ok.mp hbare
  obtain ⟨host, hstr, hbare⟩ := bind_eq_ok.mp hbare
  obtain ⟨port, hport, hbare⟩ := bind_eq_ok.mp hbare
  obtain rfl := Except.ok.inj hbare
  show (require (urlWith scheme user pass hostPort != "") _ >>= _) = _
  rw [hne, require_true, ok_bind, hwith, okOr_some, ok_bind]
  show (proxyKindOf url.scheme >>= _) = _
  rw [hkind, ok_bind]
  show (okOr url.hostStr _ >>= _) = _
  rw [hstr, ok_bind]
  show (okOr url.portOrKnownDefault _ >>= _) = _
  rw [hport, ok_bind]
  rfl

end Parsing

/-! ## What the upstream is told -/

section Wire

variable {config : ProxyConfig} {user pass : String}

/-- The message that goes out, when both texts fit. -/
def userPassMessage (user pass : String) : Bytes :=
  [0x01, UInt8.ofNat (utf8 user).length] ++ utf8 user ++
    [UInt8.ofNat (utf8 pass).length] ++ utf8 pass

theorem getD_credential (text : String) :
    ((if text = "" then none else some text).getD "") = text := by
  split
  · next h => exact h.symm
  · rfl

theorem runs_userpassAuth (huser : (utf8 user).length ≤ 255) (hpass : (utf8 pass).length ≤ 255) :
    Runs (socks5UserpassAuth (credentials config user pass)) [0x01, 0x00]
      (userPassMessage user pass) [] (.ok ()) := by
  unfold socks5UserpassAuth credentials
  dsimp only
  rw [getD_credential, getD_credential]
  refine runs_ofResult_bind (a := ()) ?_ ?_
  · rw [require_eq_ok, decide_eq_true_eq]
    exact ⟨huser, hpass⟩
  · rw [← List.append_nil (userPassMessage user pass)]
    refine runs_send_bind _ ?_
    exact runs_recv_bind [0x01, 0x00] rfl (runs_ofResult _)

/-- Texts that do not fit are never sent. -/
theorem not_runs_userpassAuth {message : Bytes}
    (h : Runs (socks5UserpassAuth (credentials config user pass)) [0x01, 0x00] message []
      (.ok ())) :
    (utf8 user).length ≤ 255 ∧ (utf8 pass).length ≤ 255 := by
  by_contra hlong
  have hport : Holds (⟨[[0x01, 0x00]], [], []⟩ : Port Seal.Call) ([0x01, 0x00] ++ []) :=
    ⟨fun segment hsegment => List.mem_singleton.mp hsegment ▸ List.cons_ne_nil _ _, rfl⟩
  have hok := (h _ _ hport).1
  unfold socks5UserpassAuth credentials at hok
  dsimp only at hok
  rw [getD_credential, getD_credential, decide_eq_false hlong] at hok
  cases hok

/-- **The receiver reads what was written.** -/
theorem readUserPass_message (huser : (utf8 user).length ≤ 255) (hpass : (utf8 pass).length ≤ 255) :
    readUserPass (userPassMessage user pass) = some (utf8 user, utf8 pass) := by
  have hu : (UInt8.ofNat (utf8 user).length).toNat = (utf8 user).length := by
    rw [UInt8.toNat_ofNat']
    omega
  have hp : (UInt8.ofNat (utf8 pass).length).toNat = (utf8 pass).length := by
    rw [UInt8.toNat_ofNat']
    omega
  have hmessage : userPassMessage user pass = 0x01 :: UInt8.ofNat (utf8 user).length ::
      (utf8 user ++ UInt8.ofNat (utf8 pass).length :: utf8 pass) := by
    simp [userPassMessage]
  rw [hmessage, readUserPass, hu, List.drop_left, List.take_left]
  exact if_pos hp.symm

/-- The token says what is configured. -/
theorem basic_credentials (hsome : user ≠ "" ∨ pass ≠ "") :
    basicProxyAuthorization (credentials config user pass) =
      some ("Basic " ++ Base64Url.encodeStandard (utf8 (user ++ ":" ++ pass))) := by
  have hhas : (credentials config user pass).hasCredentials = true := by
    rw [ProxyConfig.hasCredentials, credentials, Bool.or_eq_true]
    exact hsome.imp (fun h => by rw [if_neg h]; rfl) fun h => by rw [if_neg h]; rfl
  rw [basicProxyAuthorization, if_pos hhas, credentials, getD_credential, getD_credential]

theorem basic_none (huser : user = "") (hpass : pass = "") :
    basicProxyAuthorization (credentials config user pass) = none := by
  subst huser hpass
  rfl

end Wire

/-! ## Escapes -/

/-- Nothing of a text has to be escaped. -/
def Unescaped (escapes : Char → Bool) (text : String) : Prop :=
  ∀ c ∈ text.toList, escapes c = false

section Escapes

variable {escapes : Char → Bool}

theorem encoded_eq_self {text : String} (h : Unescaped escapes text) :
    encoded escapes text = text := by
  rw [encoded, Percent.encode_eq_self h, String.ofList_toList]

theorem length_le_encoded (text : String) :
    text.toList.length ≤ (encoded escapes text).toList.length := by
  rw [encoded, String.toList_ofList]
  exact Percent.length_le_encode _

theorem unescaped_of_length {text : String}
    (h : (encoded escapes text).toList.length ≤ text.toList.length) : Unescaped escapes text := by
  intro c hc
  cases hescapes : escapes c with
  | false => rfl
  | true =>
    have hlt := Percent.length_lt_encode hc hescapes
    rw [encoded, String.toList_ofList] at h
    omega

/-- Encoded credentials go into a URL as they are. -/
theorem userinfo_encoded (h : ∀ c, userinfoSet c = true ∨ c = '%' → escapes c = true)
    (text : String) : Userinfo (encoded escapes text) := by
  have hmarks : ('%' :: "0123456789ABCDEF".toList).all (fun c => !userinfoSet c) = true := by
    rw [Percent.digits_eq]
    decide +kernel
  intro c hc
  rw [encoded, String.toList_ofList] at hc
  have hmark : c ∈ '%' :: "0123456789ABCDEF".toList → userinfoSet c = false := fun hmem => by
    have hc := List.all_eq_true.mp hmarks c hmem
    rwa [Bool.not_eq_true'] at hc
  rcases Percent.mem_encode hc with hplain | rfl | hdigit
  · cases hset : userinfoSet c with
    | false => rfl
    | true =>
      rw [h c (Or.inl hset)] at hplain
      cases hplain
  · exact hmark List.mem_cons_self
  · exact hmark (List.mem_cons_of_mem _ hdigit)

/-- The same text around a colon, so nothing of it got longer. -/
theorem unescaped_of_pair {user pass : String}
    (h : encoded escapes user ++ ":" ++ encoded escapes pass = user ++ ":" ++ pass) :
    Unescaped escapes user ∧ Unescaped escapes pass := by
  have hlen := congrArg (fun s => s.toList.length) h
  simp only [String.toList_append, List.length_append] at hlen
  have huser : user.toList.length ≤ (encoded escapes user).toList.length := length_le_encoded user
  have hpass : pass.toList.length ≤ (encoded escapes pass).toList.length := length_le_encoded pass
  exact ⟨unescaped_of_length (by omega), unescaped_of_length (by omega)⟩

end Escapes

/-- **Credentials reach the upstream** exactly when there are any, none of their characters has to
    be escaped, and both fit into a SOCKS5 message. -/
theorem carriesCredentials_iff (parseUrl : String → Option ProxyUrl)
    (hparse : KeepsUserinfo parseUrl) (escapes : Char → Bool)
    (hescapes : ∀ c, userinfoSet c = true ∨ c = '%' → escapes c = true) (scheme : String)
    (hscheme : scheme ∈ proxySchemes) (hostPort : String)
    (hhost : PlainHost hostPort) (bare : Upstream)
    (hbare : parseProxy parseUrl (bareUrl scheme hostPort) = .ok bare) (user pass : String) :
    (∃ upstream, parseProxy parseUrl
        (urlWith scheme (encoded escapes user) (encoded escapes pass) hostPort) = .ok upstream ∧
          CarriesCredentials upstream.config user pass) ↔
      (user ≠ "" ∨ pass ≠ "") ∧ Unescaped escapes user ∧ Unescaped escapes pass ∧
        (utf8 user).length ≤ 255 ∧ (utf8 pass).length ≤ 255 := by
  have hparsed := parseProxy_userinfo hparse hscheme hhost (userinfo_encoded hescapes user)
    (userinfo_encoded hescapes pass) hbare
  rw [hparsed]
  constructor
  · rintro ⟨upstream, hupstream, ⟨token, htoken, hdecoded⟩, message, hruns, -⟩
    obtain rfl := Except.ok.inj hupstream
    dsimp only at htoken hruns
    by_cases hsome : encoded escapes user ≠ "" ∨ encoded escapes pass ≠ ""
    · rw [basic_credentials hsome, Option.some_inj] at htoken
      have htoken := (String.append_right_inj _).mp htoken
      rw [← htoken, Base64Url.decodeStandard_encodeStandard, Option.some_inj, utf8_inj] at hdecoded
      obtain ⟨huser, hpass⟩ := unescaped_of_pair hdecoded
      rw [encoded_eq_self huser, encoded_eq_self hpass] at hsome hruns
      exact ⟨hsome, huser, hpass, not_runs_userpassAuth hruns⟩
    · rw [not_or, not_not, not_not] at hsome
      rw [basic_none hsome.1 hsome.2] at htoken
      cases htoken
  · rintro ⟨hsome, huser, hpass, hulen, hplen⟩
    refine ⟨_, rfl, ?_⟩
    rw [encoded_eq_self huser, encoded_eq_self hpass]
    exact ⟨⟨_, basic_credentials hsome, Base64Url.decodeStandard_encodeStandard _⟩,
      ⟨_, runs_userpassAuth hulen hplen, readUserPass_message hulen hplen⟩⟩

/-! ## Runs -/

/-- The host and the port of an authority of the `http` scheme. -/
def hostPortOf (hostPort : Chars) : Option (String × Nat) :=
  match Slices.rsplitOnce ':' hostPort with
  | none => some (String.ofList hostPort, 80)
  | some (host, port) =>
    (Numerals.parseUnsigned 65536 (String.ofList port)).map fun port => (String.ofList host, port)

/-- A user name and a password. -/
def userinfoOf (userinfo : Chars) : String × Option String :=
  match Slices.splitOnce ':' userinfo with
  | none => (String.ofList userinfo, none)
  | some (user, pass) => (String.ofList user, if pass = [] then none else some (String.ofList pass))

/-- The url crate on URLs of the `http` scheme with an authority and no more. -/
def httpUrl (text : String) : Option ProxyUrl :=
  match stripPrefix text "http://" with
  | none => none
  | some rest =>
    match Slices.rsplitOnce '@' rest.toList with
    | none =>
      (hostPortOf rest.toList).map fun place => ⟨"http", some place.1, some place.2, "", none⟩
    | some (userinfo, hostPort) =>
      (hostPortOf hostPort).map fun place =>
        ⟨"http", some place.1, some place.2, (userinfoOf userinfo).1, (userinfoOf userinfo).2⟩

theorem splitOnce_append (as : Chars) {sep : Char} (bs : Chars) (h : sep ∉ as) :
    Slices.splitOnce sep (as ++ sep :: bs) = some (as, bs) := by
  induction as with
  | nil => exact if_pos rfl
  | cons a as ih =>
    rw [List.mem_cons, not_or] at h
    rw [List.cons_append, Slices.splitOnce, if_neg (Ne.symm h.1), ih h.2]
    rfl

theorem keepsUserinfo_httpUrl : KeepsUserinfo httpUrl := by
  intro scheme hscheme hostPort user pass hhost huser hpass
  have hforeign : ∀ rest : String, scheme ≠ "http" →
      stripPrefix (scheme ++ "://" ++ rest) "http://" = none := by
    intro rest hne
    cases hstrip : stripPrefix (scheme ++ "://" ++ rest) "http://" with
    | none => rfl
    | some tail =>
      -- the fifth character
      have hlist := congrArg String.toList (stripPrefix_eq_some.mp hstrip)
      simp only [proxySchemes, List.mem_cons, List.not_mem_nil, or_false] at hscheme
      rcases hscheme with rfl | rfl | rfl | rfl
      · exact absurd rfl hne
      · simp at hlist
      · simp at hlist
      · simp at hlist
  by_cases hhttp : scheme = "http"
  · subst hhttp
    have hat : '@' ∉ hostPort.toList := fun hmem => (hhost '@' hmem).2 (by decide)
    have hcolon : ':' ∉ user.toList := fun hmem => by
      have hset := huser ':' hmem
      revert hset
      decide
    have hbare : httpUrl (bareUrl "http" hostPort) =
        (hostPortOf hostPort.toList).map fun place =>
          ⟨"http", some place.1, some place.2, "", none⟩ := by
      have hstrip : stripPrefix (bareUrl "http" hostPort) "http://" = some hostPort :=
        stripPrefix_append "http://" hostPort
      rw [httpUrl, hstrip]
      dsimp only
      rw [Slices.rsplitOnce_eq_none.mpr hat]
    have hwith : httpUrl (urlWith "http" user pass hostPort) =
        (hostPortOf hostPort.toList).map fun place =>
          ⟨"http", some place.1, some place.2, user, if pass = "" then none else some pass⟩ := by
      have htext : urlWith "http" user pass hostPort =
          "http://" ++ (user ++ ":" ++ pass ++ "@" ++ hostPort) := by
        simp [urlWith, String.append_assoc]
      have hsplit : Slices.rsplitOnce '@' (user ++ ":" ++ pass ++ "@" ++ hostPort).toList =
          some (user.toList ++ ':' :: pass.toList, hostPort.toList) := by
        rw [← Slices.rsplitOnce_append (user.toList ++ ':' :: pass.toList) hat]
        simp
      rw [httpUrl, htext, stripPrefix_append]
      dsimp only
      rw [hsplit]
      dsimp only
      have hempty : pass.toList = [] ↔ pass = "" := by
        rw [← String.toList_inj, String.toList_empty]
      rw [userinfoOf, splitOnce_append _ _ hcolon]
      dsimp only
      rw [if_congr hempty rfl rfl, String.ofList_toList, String.ofList_toList]
    rw [hbare, hwith, Option.map_map]
    rfl
  · have hbare : httpUrl (bareUrl scheme hostPort) = none := by
      rw [httpUrl, bareUrl, hforeign _ hhttp]
    have hwith : httpUrl (urlWith scheme user pass hostPort) = none := by
      have htext : urlWith scheme user pass hostPort =
          scheme ++ "://" ++ (user ++ ":" ++ pass ++ "@" ++ hostPort) := by
        simp [urlWith, String.append_assoc]
      rw [httpUrl, htext, hforeign _ hhttp]
    rw [hbare, hwith]
    rfl

/-- `http://proxy.test:3128`. -/
def plainUpstream : Upstream where
  kind := .http
  host := "proxy.test"
  port := 3128
  config := { endpoint := "proxy.test:3128", proxyClass := some .datacenter }

theorem parseProxy_plain :
    parseProxy httpUrl (bareUrl "http" "proxy.test:3128") = .ok plainUpstream := by
  have htrim : trim (bareUrl "http" "proxy.test:3128") = bareUrl "http" "proxy.test:3128" := by
    decide
  have hne : (bareUrl "http" "proxy.test:3128" != "") = true := by decide
  have hurl : httpUrl (bareUrl "http" "proxy.test:3128") =
      some { scheme := "http", hostStr := some "proxy.test", portOrKnownDefault := some 3128 } := by
    decide
  unfold parseProxy
  rw [htrim]
  show (require (bareUrl "http" "proxy.test:3128" != "") _ >>= _) = _
  rw [hne, require_true, ok_bind, hurl]
  rfl

theorem plainHost_plain : PlainHost "proxy.test:3128" := by
  have hall : "proxy.test:3128".toList.all (fun c =>
      !isWhitespace c && decide (c ∉ "/\\?#@".toList)) = true := by
    decide
  intro c hc
  have hplain := List.all_eq_true.mp hall c hc
  rw [Bool.and_eq_true, Bool.not_eq_true', decide_eq_true_eq] at hplain
  exact hplain

/-- The set itself, and the percent sign. -/
def userinfoEscapes (c : Char) : Bool := userinfoSet c || c == '%'

theorem userinfoEscapes_covers (c : Char) (h : userinfoSet c = true ∨ c = '%') :
    userinfoEscapes c = true := by
  rw [userinfoEscapes, Bool.or_eq_true, beq_iff_eq]
  exact h

theorem unescaped_of_all {text : String}
    (h : text.toList.all (fun c => !userinfoEscapes c) = true) :
    Unescaped userinfoEscapes text := by
  intro c hc
  have hplain := List.all_eq_true.mp h c hc
  rwa [Bool.not_eq_true'] at hplain

/-- `customer-x` with the password `s3cret`. -/
theorem carriesCredentials_customer :
    ∃ upstream, parseProxy httpUrl (urlWith "http" (encoded userinfoEscapes "customer-x")
        (encoded userinfoEscapes "s3cret") "proxy.test:3128") = .ok upstream ∧
      CarriesCredentials upstream.config "customer-x" "s3cret" :=
  (carriesCredentials_iff httpUrl keepsUserinfo_httpUrl userinfoEscapes userinfoEscapes_covers
    "http" List.mem_cons_self "proxy.test:3128" plainHost_plain plainUpstream parseProxy_plain
    "customer-x" "s3cret").mpr
    ⟨Or.inl (by decide), unescaped_of_all (by decide), unescaped_of_all (by decide), by decide,
      by decide⟩

/-- The password `p@ss` is sent as `p%40ss`. -/
theorem not_credentialsCarried :
    ¬ ∀ parseUrl : String → Option ProxyUrl,
        KeepsUserinfo parseUrl → CredentialsCarried parseUrl := by
  intro h
  obtain ⟨upstream, hupstream, ⟨token, htoken, hdecoded⟩, -⟩ :=
    h httpUrl keepsUserinfo_httpUrl userinfoEscapes userinfoEscapes_covers "http" List.mem_cons_self
      "proxy.test:3128" plainUpstream plainHost_plain parseProxy_plain "customer-x" "p@ss"
  rw [parseProxy_userinfo keepsUserinfo_httpUrl List.mem_cons_self plainHost_plain
    (userinfo_encoded userinfoEscapes_covers _) (userinfo_encoded userinfoEscapes_covers _)
    parseProxy_plain] at hupstream
  obtain rfl := Except.ok.inj hupstream
  have hname : encoded userinfoEscapes "customer-x" = "customer-x" := by decide
  have hsecret : encoded userinfoEscapes "p@ss" = "p%40ss" := by decide
  dsimp only at htoken
  rw [hname, hsecret, basic_credentials (Or.inl (by decide)), Option.some_inj] at htoken
  rw [← (String.append_right_inj _).mp htoken, Base64Url.decodeStandard_encodeStandard,
    Option.some_inj, utf8_inj] at hdecoded
  revert hdecoded
  decide

end Basecrawl.Core
