/-
  The request on the wire.

  1. **Message** — the bytes of `build_http_request` are a message of HTTP/1.1 (`toBytes_eq`), made
     of tokens, visible targets and plain values (`built_writable`).
  2. **Reading** — so it is read back as what was meant, line by line (`built_read`).
  3. **Names** — four sources write fields.  `names_nodup_iff` follows them: the caller's names keep
     clear of all others, the seed's meet the literal `Accept-Encoding`.
-/
import Basecrawl.Core.CallerHeaders
import Basecrawl.Core.Redirects
import Basecrawl.Lib.HttpMessage

namespace Basecrawl.Core

open Text Outcome Http1 Numerals

/-! ## The message -/

/-- A request as a message. -/
def HttpRequest.message (request : HttpRequest) : Message where
  method := utf8 request.method
  target := utf8 request.target
  fields := request.fields.map fun field => (utf8 field.1, utf8 field.2)
  body := request.body

theorem toBytes_eq (request : HttpRequest) : request.toBytes = request.message.write := by
  have hspace : utf8 " " = [0x20] := by decide
  have hversion : utf8 " HTTP/1.1\r\n" = 0x20 :: (utf8 "HTTP/1.1" ++ eol) := by decide
  have hcolon : utf8 ": " = [0x3a, 0x20] := by decide
  have heol : utf8 "\r\n" = eol := by decide
  have hstart : utf8 (request.method ++ " " ++ request.target ++ " HTTP/1.1\r\n") =
      request.message.startLine ++ eol := by
    simp only [utf8_append, hspace, hversion, Message.startLine, HttpRequest.message,
      List.append_assoc, List.cons_append, List.nil_append]
  have hrow : ∀ field : String × String, utf8 (field.1 ++ ": " ++ field.2 ++ "\r\n") =
      fieldLine (utf8 field.1, utf8 field.2) ++ eol := by
    intro field
    simp only [utf8_append, hcolon, heol, fieldLine, List.append_assoc, List.cons_append,
      List.nil_append]
  rw [HttpRequest.toBytes, hstart, heol, Message.write, Message.lines, List.flatMap_cons,
    HttpRequest.message, List.map_map, List.flatMap_map]
  simp only [hrow, Function.comp_apply]

/-- A field that passes `validate_header_pair` can be written. -/
theorem writableField_of_valid {field : String × String}
    (h : validateHeaderPair field.1 field.2 = .ok ()) :
    WritableField (utf8 field.1, utf8 field.2) := by
  obtain ⟨⟨hname, htoken⟩, hvalue⟩ := validateHeaderPair_eq_ok.mp h
  exact ⟨hname, List.all_eq_true.mpr htoken, List.all_eq_true.mpr hvalue⟩

/-- A name is compared in lower case, as text or as bytes. -/
theorem lowerName_utf8 {name : String} (h : ∀ b ∈ utf8 name, isTokenByte b = true) :
    lowerName (utf8 name) = utf8 (asciiLower name) := by
  have hall : ∀ n : Fin 128, (Char.ofNat n).toLower.toNat < 128 ∧
      lowerByte (UInt8.ofNat n) = UInt8.ofNat (Char.ofNat n).toLower.toNat := by decide
  have hchars := token_chars.mp h
  have hascii : ∀ c ∈ (asciiLower name).toList, c.toNat < 128 := by
    intro c hc
    rw [asciiLower, String.toList_ofList] at hc
    obtain ⟨d, hd, rfl⟩ := List.mem_map.mp hc
    exact (isTokenByte_lower (hchars d hd).1 (hchars d hd).2).1
  rw [utf8_ascii hascii, utf8_ascii fun c hc => (hchars c hc).1, lowerName, asciiLower,
    String.toList_ofList, List.map_map, List.map_map]
  refine List.map_congr_left fun c hc => ?_
  have hbyte := (hall ⟨c.toNat, (hchars c hc).1⟩).2
  rw [Char.ofNat_toNat] at hbyte
  exact hbyte

/-! ## What is meant -/

/-- The `url` crate percent-encodes a path and a query, and a host has no blanks either. -/
structure UrlText (url : Url) (host : String) : Prop where
  path : (utf8 url.path).all isVisible = true
  query : ∀ query, url.query = some query → (utf8 query).all isVisible = true
  host : (utf8 host).all isVisible = true

/-- The method of a configuration, GET when it is blank. -/
def FetchConfig.requestMethod (config : FetchConfig) : String :=
  if trim config.method = "" then "GET" else trim config.method

/-- `path?query`. -/
def Url.requestTarget (url : Url) : String :=
  let path := if url.path = "" then "/" else url.path
  match url.query with
  | some query => path ++ "?" ++ query
  | none => path

/-- One of the fields has the name. -/
def names (fields : List (String × String)) (name : String) : Bool :=
  fields.any fun field => eqIgnoreAsciiCase field.1 name

/-- The fields that a transport writes itself. -/
def transportFields (url : Url) (host : String) (port : Nat) : List (String × String) :=
  [("Host", if url.port.isNone then host else host ++ ":" ++ Nat.repr port),
    ("Accept-Encoding", "gzip, deflate, br"), ("Connection", "close")]

/-- The controlled User-Agent, when it is missing. -/
def agentField (config : FetchConfig) (callers : List (String × String)) :
    List (String × String) :=
  if names callers "user-agent" then [] else [("user-agent", config.userAgent)]

/-- The default type of a body, when it is missing. -/
def typeField (config : FetchConfig) (callers : List (String × String)) : List (String × String) :=
  if config.body = [] ∨ names callers "content-type" then []
  else [("content-type", "application/octet-stream")]

/-- The length of a body; a POST has one. -/
def lengthField (config : FetchConfig) : List (String × String) :=
  if config.body = [] ∧ eqIgnoreAsciiCase config.requestMethod "POST" = false then []
  else [("content-length", Nat.repr config.body.length)]

/-- The fields that are meant: those of the transport, those of the origin that supplied them, and
what is still missing. -/
def meantFields (url : Url) (host : String) (port : Nat) (config : FetchConfig) (origin : Url) :
    List (String × String) :=
  let callers := config.callerHeadersFor url origin
  transportFields url host port ++ callers ++ agentField config callers ++
    typeField config callers ++ lengthField config

/-- The message that is meant. -/
def meantMessage (url : Url) (host : String) (port : Nat) (config : FetchConfig) (origin : Url) :
    Message where
  method := utf8 config.requestMethod
  target := utf8 url.requestTarget
  fields := (meantFields url host port config origin).map fun field => (utf8 field.1, utf8 field.2)
  body := config.body

section Built

variable {url : Url} {host : String} {port : Nat} {config : FetchConfig} {origin : Url}
  {request : HttpRequest}

/-- A body is sent; a POST sends an empty one too. -/
def FetchConfig.sendsBody (config : FetchConfig) : Bool :=
  !config.body.isEmpty || eqIgnoreAsciiCase config.requestMethod "POST"

/-- The parts of a request that was built. -/
theorem built_parts (h : buildHttpRequest url host port config origin = .ok request) :
    request.method = config.requestMethod ∧ request.target = url.requestTarget ∧
      request.hostHeader = (if url.port.isNone then host else host ++ ":" ++ Nat.repr port) ∧
      request.userAgent = (if names (config.callerHeadersFor url origin) "user-agent" then none
        else some config.userAgent) ∧
      request.contentType = (if config.sendsBody &&
          !names (config.callerHeadersFor url origin) "content-type" && !config.body.isEmpty then
        some "application/octet-stream" else none) ∧
      request.contentLength = if config.sendsBody then some config.body.length else none := by
  unfold buildHttpRequest at h
  obtain ⟨_, -, h⟩ := bind_eq_ok.mp h
  obtain ⟨_, -, h⟩ := bind_eq_ok.mp h
  obtain ⟨_, -, h⟩ := bind_eq_ok.mp h
  obtain rfl := Except.ok.inj h
  dsimp only
  exact ⟨rfl, rfl, rfl, rfl, rfl, rfl⟩

/-- **The fields of a request that was built are those that are meant.** -/
theorem built_fields (h : buildHttpRequest url host port config origin = .ok request) :
    request.fields = meantFields url host port config origin := by
  obtain ⟨-, -, hhost, hagent, htype, hlength⟩ := built_parts h
  have hcallers := (buildHttpRequest_eq_ok h).2.1
  generalize hnames : config.callerHeadersFor url origin = callers at *
  have hagent' : (request.userAgent.map fun v => ("user-agent", v)).toList =
      agentField config callers := by
    rw [hagent, agentField]
    cases names callers "user-agent" <;> rfl
  have htype' : (request.contentType.map fun v => ("content-type", v)).toList =
      typeField config callers := by
    rw [htype, typeField, FetchConfig.sendsBody]
    cases config.body with
    | nil =>
      rw [if_pos (Or.inl rfl), List.isEmpty_nil, Bool.not_true, Bool.and_false, if_neg (by decide)]
      rfl
    | cons b bs => cases names callers "content-type" <;> rfl
  have hlength' : (request.contentLength.map fun n => ("content-length", Nat.repr n)).toList =
      lengthField config := by
    rw [hlength, lengthField, FetchConfig.sendsBody]
    cases config.body with
    | nil => cases eqIgnoreAsciiCase config.requestMethod "POST" <;> rfl
    | cons b bs => rfl
  rw [HttpRequest.fields, meantFields, hcallers, hhost, hnames]
  simp only [hagent', htype', hlength', transportFields]

/-- **`build_http_request` writes the message that is meant.** -/
theorem built_message (h : buildHttpRequest url host port config origin = .ok request) :
    request.message = meantMessage url host port config origin := by
  obtain ⟨hmethod, htarget, -⟩ := built_parts h
  rw [HttpRequest.message, meantMessage, hmethod, htarget, built_fields h,
    (buildHttpRequest_eq_ok h).2.2]

/-- What was checked on the way. -/
theorem built_valid (h : buildHttpRequest url host port config origin = .ok request) :
    isValidHttpMethod config.requestMethod = true ∧
      (∀ field ∈ config.callerHeadersFor url origin,
        validateHeaderPair field.1 field.2 = .ok ()) ∧
      (names (config.callerHeadersFor url origin) "user-agent" = false →
        validateHeaderPair "user-agent" config.userAgent = .ok ()) := by
  unfold buildHttpRequest at h
  obtain ⟨_, hmethod, h⟩ := bind_eq_ok.mp h
  obtain ⟨_, hfields, h⟩ := bind_eq_ok.mp h
  obtain ⟨_, hagent, h⟩ := bind_eq_ok.mp h
  refine ⟨require_eq_ok.mp hmethod, validateFields_eq_ok.mp hfields, fun hnone => ?_⟩
  rw [names] at hnone
  rw [hnone] at hagent
  exact hagent

end Built

/-! ## The names -/

/-- The names that belong to the seed, in lower case. -/
def seedNames : List String := ["user-agent", "accept", "accept-language", "accept-encoding"]

theorem isSeedOwned_iff {name : String} :
    Fp.isSeedOwned name = true ↔ asciiLower name ∈ seedNames := by
  have hlower : asciiLower "user-agent" = "user-agent" ∧ asciiLower "accept" = "accept" ∧
      asciiLower "accept-language" = "accept-language" ∧
      asciiLower "accept-encoding" = "accept-encoding" := by decide
  simp only [Fp.isSeedOwned, eqIgnoreAsciiCase, hlower, Bool.or_eq_true, beq_iff_eq, seedNames,
    List.mem_cons, List.not_mem_nil, or_false, or_assoc]

/-- The names of a list of fields, as they are compared. -/
def lowerNames (fields : List (String × String)) : List String :=
  fields.map fun field => asciiLower field.1

theorem names_iff {fields : List (String × String)} {name : String}
    (hname : asciiLower name = name) : names fields name = true ↔ name ∈ lowerNames fields := by
  simp only [names, List.any_eq_true, eqIgnoreAsciiCase, hname, beq_iff_eq, lowerNames,
    List.mem_map]

/-- The slots of a header order that the profile fills, in lower case. -/
def seedSlots (headerNames : List String) : List String :=
  (headerNames.filter Fp.isSeedOwned).map asciiLower

theorem lowerNames_seeded (profile : Fp.FingerprintProfile) :
    lowerNames (seededFields profile) = seedSlots profile.headerNames := by
  rw [lowerNames, seededFields, seedSlots, List.map_filterMap, ← List.filterMap_eq_map,
    List.filterMap_filter]
  refine List.filterMap_congr fun name _ => ?_
  rw [Fp.FingerprintProfile.slotValue, Fp.isSeedOwned]
  cases eqIgnoreAsciiCase name "user-agent" <;> cases eqIgnoreAsciiCase name "accept" <;>
    cases eqIgnoreAsciiCase name "accept-language" <;>
    cases eqIgnoreAsciiCase name "accept-encoding" <;> rfl

theorem lowerNames_callers (callers : List (String × String)) :
    lowerNames (callers.filterMap callerField) =
      lowerNames (callers.filter fun header => !Fp.isSeedOwned header.1) := by
  rw [lowerNames, callerFields_eq, List.map_map, lowerNames]
  exact List.map_congr_left fun header _ => asciiLower_lower header.1

/-- What accepted callers name is neither the transport's nor the seed's. -/
theorem caller_names {callers : List (String × String)}
    (h : validateCallerHeaders [] callers = .ok ()) :
    (lowerNames (callers.filterMap callerField)).Nodup ∧
      ∀ name ∈ lowerNames (callers.filterMap callerField),
        name ∉ transportManagedHeaders ∧ name ∉ seedNames := by
  obtain ⟨haccepted, hnodup⟩ := validateCallerHeaders_eq_ok.mp h
  rw [lowerNames_callers]
  constructor
  · exact (List.filter_sublist.map _).nodup hnodup
  · intro name hname
    obtain ⟨header, hheader, rfl⟩ := List.mem_map.mp hname
    obtain ⟨hmem, howned⟩ := List.mem_filter.mp hheader
    refine ⟨(haccepted header hmem).2.1, fun hseed => ?_⟩
    rw [isSeedOwned_iff.mpr hseed] at howned
    cases howned

theorem mem_seedSlots {headerNames : List String} {name : String}
    (h : name ∈ seedSlots headerNames) : name ∈ seedNames := by
  obtain ⟨slot, hslot, rfl⟩ := List.mem_map.mp h
  exact isSeedOwned_iff.mp (List.mem_filter.mp hslot).2

theorem lowerNames_append (fields fields' : List (String × String)) :
    lowerNames (fields ++ fields') = lowerNames fields ++ lowerNames fields' := List.map_append

theorem lowerNames_transport (url : Url) (host : String) (port : Nat) :
    lowerNames (transportFields url host port) = ["host", "accept-encoding", "connection"] := by
  have hnames : [asciiLower "Host", asciiLower "Accept-Encoding", asciiLower "Connection"] =
      ["host", "accept-encoding", "connection"] := by decide
  exact hnames

theorem lowerNames_agent (config : FetchConfig) (callers : List (String × String)) :
    lowerNames (agentField config callers) = [] ∨
      lowerNames (agentField config callers) = ["user-agent"] ∧
        "user-agent" ∉ lowerNames callers := by
  have hname : asciiLower "user-agent" = "user-agent" := by decide
  rw [agentField, ← names_iff hname]
  split
  · exact .inl rfl
  · next hnone => exact .inr ⟨congrArg (fun name => [name]) hname, hnone⟩

theorem lowerNames_type (config : FetchConfig) (callers : List (String × String)) :
    lowerNames (typeField config callers) = [] ∨
      lowerNames (typeField config callers) = ["content-type"] ∧
        "content-type" ∉ lowerNames callers := by
  have hname : asciiLower "content-type" = "content-type" := by decide
  rw [typeField, ← names_iff hname]
  split
  · exact .inl rfl
  · next hnone =>
    exact .inr ⟨congrArg (fun name => [name]) hname, fun hmem => hnone (.inr hmem)⟩

theorem lowerNames_length (config : FetchConfig) :
    lowerNames (lengthField config) = [] ∨ lowerNames (lengthField config) = ["content-length"] := by
  have hname : asciiLower "content-length" = "content-length" := by decide
  rw [lengthField]
  split
  · exact .inl rfl
  · exact .inr (congrArg (fun name => [name]) hname)

/-- A name that is only added when it is missing is never there twice. -/
theorem nodup_added {present : List String} {name : String} {added : List String}
    (h : added = [] ∨ added = [name] ∧ name ∉ present) :
    (present ++ added).Nodup ↔ present.Nodup := by
  rcases h with rfl | ⟨rfl, hnew⟩
  · rw [List.append_nil]
  · rw [List.nodup_append_comm, List.singleton_append, List.nodup_cons]
    exact and_iff_right hnew

/-- The header order keeps clear of what the transport writes, and of itself. -/
structure Unrepeated (headerNames : List String) : Prop where
  nodup : (seedSlots headerNames).Nodup
  encoding : "accept-encoding" ∉ seedSlots headerNames

section Names

variable {url : Url} {host : String} {port : Nat} {config : FetchConfig} {origin : Url}
  {profile : Fp.FingerprintProfile} {callers : List (String × String)}

/-- The names of the emitted list: those of the seed, then the caller's. -/
theorem lowerNames_emitted
    (hheaders : config.headers = Fp.effectiveFingerprintHeaders profile callers) :
    lowerNames (config.callerHeadersFor url origin) =
      if sameOrigin url origin then
        seedSlots profile.headerNames ++ lowerNames (callers.filterMap callerField)
      else [] := by
  rw [FetchConfig.callerHeadersFor, hheaders, effectiveFingerprintHeaders_eq]
  split
  · rw [← lowerNames_seeded, lowerNames, List.map_append]
    rfl
  · rfl

/-- No field that frames a message is in the emitted list, nor one that the transport writes; but
the seed has an encoding. -/
theorem mem_emitted
    (hheaders : config.headers = Fp.effectiveFingerprintHeaders profile callers)
    (haccepted : validateCallerHeaders [] callers = .ok ()) {name : String}
    (h : name ∈ lowerNames (config.callerHeadersFor url origin)) :
    name ∈ seedNames ∨ name ∉ transportManagedHeaders := by
  rw [lowerNames_emitted hheaders] at h
  split at h
  · rcases List.mem_append.mp h with hslot | hcaller
    · exact .inl (mem_seedSlots hslot)
    · exact .inr ((caller_names haccepted).2 name hcaller).1
  · exact absurd h List.not_mem_nil

theorem nodup_emitted
    (hheaders : config.headers = Fp.effectiveFingerprintHeaders profile callers)
    (haccepted : validateCallerHeaders [] callers = .ok ()) :
    (["host", "accept-encoding", "connection"] ++
        lowerNames (config.callerHeadersFor url origin)).Nodup ↔
      (sameOrigin url origin = true → Unrepeated profile.headerNames) := by
  obtain ⟨hnodup, hclear⟩ := caller_names haccepted
  have hfixed : ["host", "accept-encoding", "connection"].Nodup := by decide
  rw [lowerNames_emitted hheaders]
  cases sameOrigin url origin with
  | false =>
    rw [if_neg Bool.false_ne_true, List.append_nil]
    exact iff_of_true hfixed fun h => absurd h Bool.false_ne_true
  | true =>
    rw [if_pos rfl, List.nodup_append, List.nodup_append]
    constructor
    · rintro ⟨-, ⟨hslots, -, -⟩, hapart⟩ -
      refine ⟨hslots, fun hmem => ?_⟩
      exact hapart "accept-encoding" (by decide) _ (List.mem_append_left _ hmem) rfl
    · intro hunrepeated
      obtain ⟨hslots, hencoding⟩ := hunrepeated rfl
      refine ⟨hfixed, ⟨hslots, hnodup, ?_⟩, ?_⟩
      · rintro name hslot _ hcaller rfl
        exact (hclear name hcaller).2 (mem_seedSlots hslot)
      · rintro name hname _ hmem rfl
        rcases List.mem_append.mp hmem with hslot | hcaller
        · have hseed := mem_seedSlots hslot
          simp only [List.mem_cons, List.not_mem_nil, or_false] at hname
          rcases hname with rfl | rfl | rfl
          · exact absurd hseed (by decide)
          · exact hencoding hslot
          · exact absurd hseed (by decide)
        · refine (hclear name hcaller).1 ?_
          simp only [List.mem_cons, List.not_mem_nil, or_false] at hname
          rcases hname with rfl | rfl | rfl <;> decide

/-- **No name is written twice exactly when the header order keeps clear of the transport's.** -/
theorem names_nodup_iff
    (hheaders : config.headers = Fp.effectiveFingerprintHeaders profile callers)
    (haccepted : validateCallerHeaders [] callers = .ok ()) :
    (lowerNames (meantFields url host port config origin)).Nodup ↔
      (sameOrigin url origin = true → Unrepeated profile.headerNames) := by
  rw [← nodup_emitted hheaders haccepted, meantFields]
  generalize hemitted : config.callerHeadersFor url origin = emitted
  have hclear : "content-length" ∉ lowerNames emitted := by
    intro hmem
    rw [← hemitted] at hmem
    exact absurd (mem_emitted hheaders haccepted hmem) (by decide)
  have hagent := lowerNames_agent config emitted
  have htype := lowerNames_type config emitted
  have hlength := lowerNames_length config
  simp only [lowerNames_append, lowerNames_transport]
  -- what is added last is missing from everything before it
  rw [@nodup_added _ "content-length", @nodup_added _ "content-type", @nodup_added _ "user-agent"]
  · refine hagent.imp_right (And.imp_right fun hnone hmem => ?_)
    rcases List.mem_append.mp hmem with hfixed | hmem
    · exact absurd hfixed (by decide)
    · exact hnone hmem
  · refine htype.imp_right (And.imp_right fun hnone => ?_)
    simp only [List.mem_append, not_or]
    refine ⟨⟨by decide, hnone⟩, ?_⟩
    rcases hagent with h | ⟨h, -⟩ <;> rw [h] <;> decide
  · refine hlength.imp_right fun hadded => ⟨hadded, ?_⟩
    simp only [List.mem_append, not_or]
    refine ⟨⟨⟨by decide, hclear⟩, ?_⟩, ?_⟩
    · rcases hagent with h | ⟨h, -⟩ <;> rw [h] <;> decide
    · rcases htype with h | ⟨h, -⟩ <;> rw [h] <;> decide

end Names

/-! ## The frame -/

section Frame

variable {url : Url} {host : String} {port : Nat} {config : FetchConfig} {origin : Url}
  {profile : Fp.FingerprintProfile} {callers : List (String × String)}

theorem isNamed_field {name : String} {field : String × String}
    (h : ∀ b ∈ utf8 field.1, isTokenByte b = true) :
    isNamed (utf8 name) (trimField (utf8 field.1, utf8 field.2)) = true ↔
      asciiLower field.1 = name := by
  rw [isNamed, trimField, lowerName_utf8 h, beq_iff_eq, utf8_inj]

theorem trimBlank_repr (n : Nat) : trimBlank (utf8 (Nat.repr n)) = utf8 (Nat.repr n) := by
  refine dropWhile_ends_eq_self fun b hb => ?_
  obtain ⟨hlo, hhi⟩ := repr_bytes n b hb
  rw [isBlank, Bool.or_eq_false_iff, beq_eq_false_iff_ne, beq_eq_false_iff_ne]
  constructor
  · rintro rfl
    exact absurd hlo (by decide)
  · rintro rfl
    exact absurd hlo (by decide)

theorem lowerName_length : asciiLower "content-length" = "content-length" := by decide

/-- The fields in front of the length frame nothing. -/
theorem front_names (hheaders : config.headers = Fp.effectiveFingerprintHeaders profile callers)
    (haccepted : validateCallerHeaders [] callers = .ok ()) {name : String}
    (h : name ∈ lowerNames (transportFields url host port ++ config.callerHeadersFor url origin ++
      agentField config (config.callerHeadersFor url origin) ++
      typeField config (config.callerHeadersFor url origin))) :
    name ≠ "content-length" ∧ name ≠ "transfer-encoding" := by
  simp only [lowerNames_append, lowerNames_transport, List.mem_append] at h
  rcases h with ((hfixed | hcaller) | hagent) | htype
  · constructor <;> rintro rfl <;> exact absurd hfixed (by decide)
  · constructor <;> rintro rfl <;> exact absurd (mem_emitted hheaders haccepted hcaller) (by decide)
  · rcases lowerNames_agent config (config.callerHeadersFor url origin) with hnone | ⟨hone, -⟩
    · rw [hnone] at hagent
      exact absurd hagent List.not_mem_nil
    · rw [hone] at hagent
      constructor <;> rintro rfl <;> exact absurd hagent (by decide)
  · rcases lowerNames_type config (config.callerHeadersFor url origin) with hnone | ⟨hone, -⟩
    · rw [hnone] at htype
      exact absurd htype List.not_mem_nil
    · rw [hone] at htype
      constructor <;> rintro rfl <;> exact absurd htype (by decide)

/-- **The body is framed by its length**: the one that is written, or none at all. -/
theorem meant_framed (hheaders : config.headers = Fp.effectiveFingerprintHeaders profile callers)
    (haccepted : validateCallerHeaders [] callers = .ok ())
    (htoken : ∀ field ∈ meantFields url host port config origin, ∀ b ∈ utf8 field.1,
      isTokenByte b = true) :
    bodyLength (((meantFields url host port config origin).map fun field =>
      (utf8 field.1, utf8 field.2)).map trimField) = some config.body.length := by
  generalize hfront : transportFields url host port ++ config.callerHeadersFor url origin ++
    agentField config (config.callerHeadersFor url origin) ++
    typeField config (config.callerHeadersFor url origin) = front
  have hmeant : meantFields url host port config origin = front ++ lengthField config := by
    rw [← hfront]
    rfl
  rw [hmeant] at htoken ⊢
  have hclear : ∀ field ∈ front, asciiLower field.1 ≠ "content-length" ∧
      asciiLower field.1 ≠ "transfer-encoding" := by
    intro field hfield
    rw [← hfront] at hfield
    exact front_names hheaders haccepted (List.mem_map.mpr ⟨field, hfield, rfl⟩)
  have hlast : ∀ field ∈ lengthField config, asciiLower field.1 = "content-length" := by
    intro field hfield
    rw [lengthField] at hfield
    split at hfield
    · exact absurd hfield List.not_mem_nil
    · rw [List.mem_singleton.mp hfield]
      exact lowerName_length
  -- the caller cannot name a coding, and the transport does not
  have hchunked : ¬ (((front ++ lengthField config).map fun field =>
      (utf8 field.1, utf8 field.2)).map trimField).any (isNamed (utf8 "transfer-encoding")) =
        true := by
    rw [List.map_map, List.any_map, List.any_eq_true]
    rintro ⟨field, hfield, hnamed⟩
    have hname := (isNamed_field (htoken field hfield)).mp hnamed
    rcases List.mem_append.mp hfield with hfield | hfield
    · exact (hclear field hfield).2 hname
    · rw [hlast field hfield] at hname
      exact absurd hname (by decide)
  -- the only length is the one written at the end
  have hfilter : (((front ++ lengthField config).map fun field =>
      (utf8 field.1, utf8 field.2)).map trimField).filter (isNamed (utf8 "content-length")) =
        ((lengthField config).map fun field => (utf8 field.1, utf8 field.2)).map trimField := by
    have hfront : front.filter (isNamed (utf8 "content-length") ∘
        trimField ∘ fun field => (utf8 field.1, utf8 field.2)) = [] := by
      rw [List.filter_eq_nil_iff]
      intro field hfield hnamed
      have hname := (isNamed_field (htoken field (List.mem_append_left _ hfield))).mp hnamed
      exact (hclear field hfield).1 hname
    rw [List.map_map, List.filter_map, List.filter_append, hfront, List.nil_append, List.map_map,
      List.filter_eq_self.mpr]
    intro field hfield
    exact (isNamed_field (htoken field (List.mem_append_right _ hfield))).mpr (hlast field hfield)
  rw [bodyLength, if_neg hchunked, hfilter, lengthField]
  by_cases h : config.body = [] ∧ eqIgnoreAsciiCase config.requestMethod "POST" = false
  · rw [if_pos h, h.1]
    rfl
  · have hvalue : (fromUtf8 (trimBlank (utf8 (Nat.repr config.body.length)))).bind
        (fun text => decimal text.toList) = some config.body.length := by
      rw [trimBlank_repr, fromUtf8_utf8, Option.bind_some, decimal_repr]
    rw [if_neg h]
    exact hvalue

/-- A visible text is a value. -/
theorem value_of_visible {bytes : Bytes} (h : bytes.all isVisible = true) :
    ∀ b ∈ bytes, isFieldByte b = true := by
  have hall : ∀ n : Fin 256, isVisible (UInt8.ofNat n) = true →
      isFieldByte (UInt8.ofNat n) = true := by decide +kernel
  intro b hb
  have hb' := hall ⟨b.toNat, b.toNat_lt⟩
  rw [UInt8.ofNat_toNat] at hb'
  exact hb' (List.all_eq_true.mp h b hb)

theorem visible_repr (n : Nat) : (utf8 (Nat.repr n)).all isVisible = true := by
  have hall : ∀ n : Fin 256, 0x30 ≤ UInt8.ofNat n → UInt8.ofNat n ≤ 0x39 →
      isVisible (UInt8.ofNat n) = true := by decide +kernel
  rw [List.all_eq_true]
  intro b hb
  obtain ⟨hlo, hhi⟩ := repr_bytes n b hb
  have hb' := hall ⟨b.toNat, b.toNat_lt⟩
  rw [UInt8.ofNat_toNat] at hb'
  exact hb' hlo hhi

/-- `host:port` is visible when the host is. -/
theorem visible_host (hhost : (utf8 host).all isVisible = true) :
    (utf8 (if url.port.isNone then host else host ++ ":" ++ Nat.repr port)).all isVisible =
      true := by
  have hcolon : (utf8 ":").all isVisible = true := by decide
  split
  · exact hhost
  · rw [utf8_append, utf8_append, List.all_append, List.all_append, hhost, hcolon, visible_repr]
    rfl

/-- A field with a literal name. -/
theorem writable_visible {name value : String} (hname : utf8 name ≠ [])
    (htoken : (utf8 name).all isTchar = true) (hvalue : (utf8 value).all isVisible = true) :
    WritableField (utf8 name, utf8 value) :=
  ⟨hname, htoken, List.all_eq_true.mpr (value_of_visible hvalue)⟩

/-- Every field that is meant can be written. -/
theorem meant_writable {request : HttpRequest} (htext : UrlText url host)
    (h : buildHttpRequest url host port config origin = .ok request) :
    ∀ field ∈ meantFields url host port config origin,
      WritableField (utf8 field.1, utf8 field.2) := by
  obtain ⟨-, hcallers, hagent⟩ := built_valid h
  intro field hfield
  simp only [meantFields, List.mem_append] at hfield
  rcases hfield with (((hfixed | hcaller) | hfield) | hfield) | hfield
  · simp only [transportFields, List.mem_cons, List.not_mem_nil, or_false] at hfixed
    rcases hfixed with rfl | rfl | rfl
    · exact @writable_visible "Host" _ (by decide) (by decide) (visible_host htext.host)
    · exact ⟨by decide, by decide, by decide⟩
    · exact ⟨by decide, by decide, by decide⟩
  · exact writableField_of_valid (hcallers field hcaller)
  · rw [agentField] at hfield
    split at hfield
    · exact absurd hfield List.not_mem_nil
    · next hnone =>
      rw [List.mem_singleton.mp hfield]
      exact writableField_of_valid (hagent (Bool.eq_false_iff.mpr hnone))
  · rw [typeField] at hfield
    split at hfield
    · exact absurd hfield List.not_mem_nil
    · rw [List.mem_singleton.mp hfield]
      exact ⟨by decide, by decide, by decide⟩
  · rw [lengthField] at hfield
    split at hfield
    · exact absurd hfield List.not_mem_nil
    · rw [List.mem_singleton.mp hfield]
      exact @writable_visible "content-length" _ (by decide) (by decide) (visible_repr _)

theorem requestTarget_visible (htext : UrlText url host) :
    utf8 url.requestTarget ≠ [] ∧ (utf8 url.requestTarget).all isVisible = true := by
  have hpath : utf8 (if url.path = "" then "/" else url.path) ≠ [] ∧
      (utf8 (if url.path = "" then "/" else url.path)).all isVisible = true := by
    split
    · exact ⟨by decide, by decide⟩
    · next hne =>
      refine ⟨fun hnil => hne ?_, htext.path⟩
      rw [← utf8_empty] at hnil
      exact utf8_injective hnil
  have hmark : (utf8 "?").all isVisible = true := by decide
  rw [Url.requestTarget]
  cases hquery : url.query with
  | none => exact hpath
  | some query =>
    simp only [utf8_append, List.all_append, hpath.2, hmark, htext.query query hquery,
      Bool.and_self, and_true]
    intro hnil
    exact hpath.1 (List.append_eq_nil_iff.mp (List.append_eq_nil_iff.mp hnil).1).1

/-- **The message that is meant can be written.** -/
theorem meantMessage_writable {request : HttpRequest} (htext : UrlText url host)
    (hheaders : config.headers = Fp.effectiveFingerprintHeaders profile callers)
    (haccepted : validateCallerHeaders [] callers = .ok ())
    (h : buildHttpRequest url host port config origin = .ok request) :
    Writable (meantMessage url host port config origin) := by
  have hfields := meant_writable htext h
  obtain ⟨htarget, hvisible⟩ := requestTarget_visible htext
  have hmethod := (built_valid h).1
  rw [isValidHttpMethod, Bool.and_eq_true, Bool.not_eq_true', List.isEmpty_eq_false_iff] at hmethod
  have hframed := meant_framed hheaders haccepted fun field hfield =>
    List.all_eq_true.mp (hfields field hfield).name
  rw [meantMessage]
  constructor
  · dsimp only
    exact hmethod.1
  · dsimp only
    exact hmethod.2
  · dsimp only
    exact htarget
  · dsimp only
    exact hvisible
  · intro row hrow
    obtain ⟨field, hfield, rfl⟩ := List.mem_map.mp hrow
    exact hfields field hfield
  · exact hframed

end Frame

/-! ## The wire -/

/-- Bytes that are one message: its head has the lines of the message and no other, they are read as
its start and its fields, and no name is there twice. -/
structure WellWritten (bytes : Bytes) (message : Message) : Prop where
  lines : head [] bytes = some (message.lines, message.body)
  reads : read bytes = some { message with fields := message.fields.map trimField }
  unique : (message.fields.map fun field => lowerName field.1).Nodup

/-- No template of the seed keeps clear of the transport's encoding. -/
theorem not_unrepeated_order : ∀ order ∈ Fp.headerOrders, ¬ Unrepeated order := by
  have hall : ∀ order ∈ Fp.headerOrders, "accept-encoding" ∈ seedSlots order := by decide
  exact fun order horder hunrepeated => hunrepeated.encoding (hall order horder)

/-- The names of the message, as bytes. -/
theorem unique_iff {url : Url} {host : String} {port : Nat} {config : FetchConfig} {origin : Url}
    {profile : Fp.FingerprintProfile} {callers : List (String × String)} {request : HttpRequest}
    (htext : UrlText url host)
    (hheaders : config.headers = Fp.effectiveFingerprintHeaders profile callers)
    (haccepted : validateCallerHeaders [] callers = .ok ())
    (h : buildHttpRequest url host port config origin = .ok request) :
    ((meantMessage url host port config origin).fields.map fun field =>
        lowerName field.1).Nodup ↔
      (sameOrigin url origin = true → Unrepeated profile.headerNames) := by
  have hnames : (meantMessage url host port config origin).fields.map
      (fun field => lowerName field.1) =
        (lowerNames (meantFields url host port config origin)).map utf8 := by
    rw [meantMessage, lowerNames, List.map_map, List.map_map]
    refine List.map_congr_left fun field hfield => ?_
    exact lowerName_utf8 (List.all_eq_true.mp (meant_writable htext h field hfield).name)
  rw [hnames, List.nodup_map_iff utf8_injective]
  exact names_nodup_iff hheaders haccepted

/-- **A request is one message with unique fields exactly when it leaves the origin of its
credentials, or has a header order that keeps clear of the transport's fields.** -/
theorem wellWritten_iff (url : Url) (host : String) (port : Nat) (config : FetchConfig)
    (origin : Url) (profile : Fp.FingerprintProfile) (callers : List (String × String))
    (request : HttpRequest) (htext : UrlText url host)
    (hheaders : config.headers = Fp.effectiveFingerprintHeaders profile callers)
    (haccepted : validateCallerHeaders [] callers = .ok ())
    (h : buildHttpRequest url host port config origin = .ok request) :
    WellWritten request.toBytes (meantMessage url host port config origin) ↔
      (sameOrigin url origin = true → Unrepeated profile.headerNames) := by
  have hwritable := meantMessage_writable htext hheaders haccepted h
  rw [← unique_iff htext hheaders haccepted h, toBytes_eq, built_message h]
  constructor
  · exact WellWritten.unique
  · intro hunique
    exact ⟨head_write hwritable, read_write hwritable, hunique⟩

/-- A page of the shop. -/
def shopPage : Url :=
  { scheme := "http", host := some "shop.test", path := "/a", query := some "b=1" }

def shopCallers : List (String × String) := [("X-A", "1")]

/-- A POST with a header of the caller's, under a generated profile. -/
def shopPost : FetchConfig where
  headers := Fp.effectiveFingerprintHeaders Fp.zeroProfile shopCallers
  userAgent := Fp.zeroProfile.userAgent
  method := "POST"
  body := [0x31]

theorem shopPage_text : UrlText shopPage "shop.test" where
  path := by decide
  query := by
    intro query hquery
    rw [← Option.some.inj hquery]
    decide
  host := by decide

theorem shopCallers_accepted : validateCallerHeaders [] shopCallers = .ok () := by
  have hok : (validateCallerHeaders [] shopCallers).toOption.isSome = true := by decide
  cases hcheck : validateCallerHeaders [] shopCallers with
  | error e =>
    rw [hcheck] at hok
    cases hok
  | ok u => rfl

theorem shopPost_built : ∃ request,
    buildHttpRequest shopPage "shop.test" 80 shopPost shopPage = .ok request := by
  have hok : (buildHttpRequest shopPage "shop.test" 80 shopPost shopPage).toOption.isSome = true := by
    decide
  cases hbuild : buildHttpRequest shopPage "shop.test" 80 shopPost shopPage with
  | error e =>
    rw [hbuild] at hok
    cases hok
  | ok request => exact ⟨request, rfl⟩

theorem wellWritten_iff_post : ∃ request,
    buildHttpRequest shopPage "shop.test" 80 shopPost shopPage = .ok request ∧
      (WellWritten request.toBytes (meantMessage shopPage "shop.test" 80 shopPost shopPage) ↔
        (sameOrigin shopPage shopPage = true → Unrepeated Fp.zeroProfile.headerNames)) := by
  obtain ⟨request, hbuild⟩ := shopPost_built
  exact ⟨request, hbuild, wellWritten_iff shopPage "shop.test" 80 shopPost shopPage Fp.zeroProfile
    shopCallers request shopPage_text rfl shopCallers_accepted hbuild⟩

/-- On its own origin it has its encoding twice. -/
theorem wellWritten_own_origin : ∃ request,
    buildHttpRequest shopPage "shop.test" 80 shopPost shopPage = .ok request ∧
      ¬ WellWritten request.toBytes (meantMessage shopPage "shop.test" 80 shopPost shopPage) := by
  obtain ⟨request, hbuild⟩ := shopPost_built
  have horder : Fp.zeroProfile.headerNames ∈ Fp.headerOrders := by decide
  refine ⟨request, hbuild, fun hwritten => not_unrepeated_order _ horder ?_⟩
  have hunique := unique_iff shopPage_text rfl shopCallers_accepted hbuild
  exact hunique.mp hwritten.unique (by decide)

end Basecrawl.Core
