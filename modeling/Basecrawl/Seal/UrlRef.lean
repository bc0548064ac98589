/-
  What a URL reference reveals.

  1. **Destinations** — in the generic syntax of a URL a scheme stands in front of `://`, behind it
     an authority up to the path, the query or the fragment, and in it the host and the port behind
     the credentials (`HasDestination`).
  2. **What is printed** — `urlRef` prints the text in front of the first `://` and what it takes for
     an authority (`urlRef_mark`, `urlRef_plain`, `urlRef_bare`).
  3. **Hosts** — what is shown of an authority is a part of it (`hostText_sublist`).
  4. **What is revealed** — that is the destination and nothing else in exactly the cases of
     `Divides` (`urlRef_reveals_iff`).
-/
import Basecrawl.Seal.Redact

namespace Basecrawl.Seal

open Text Hex Outcome Slices
open Panic (Checked)

/-! ## Destinations -/

/-- `ALPHA *( ALPHA / DIGIT / "+" / "-" / "." )`. -/
def IsScheme (s : List Char) : Prop :=
  ∃ c cs, s = c :: cs ∧ c.isAlpha = true ∧
    ∀ d ∈ cs, d.isAlphanum = true ∨ d = '+' ∨ d = '-' ∨ d = '.'

/-- The credentials of an authority, with what separates them. -/
def IsCredentials (s : List Char) : Prop :=
  s = [] ∨ ∃ user, s = user ++ ['@'] ∧ ∀ c ∈ user, endsAuthority c = false

/-- What may follow an authority: nothing, or a path, a query or a fragment. -/
def IsRemainder (s : List Char) : Prop := s = [] ∨ ∃ c cs, s = c :: cs ∧ endsAuthority c = true

/-- A URL with its scheme and its host and port. -/
def HasDestination (url scheme hostport : List Char) : Prop :=
  IsScheme scheme ∧ '@' ∉ hostport ∧ (∀ c ∈ hostport, endsAuthority c = false) ∧
    ∃ credentials remainder, IsCredentials credentials ∧ IsRemainder remainder ∧
      url = scheme ++ (schemeMark ++ (credentials ++ hostport ++ remainder))

/-- How a destination is written. -/
def destinationText (scheme hostport : List Char) : List Char :=
  UrlParts.shown ⟨some scheme, (hostPort hostport).1, (hostPort hostport).2⟩

/-- **Only the destination is revealed**: a reference is the destination, if there is one, and one
digest. -/
def RevealsDestination (sha256 : Bytes → Bytes32) (url : List Char) : Prop :=
  (∀ scheme hostport, HasDestination url scheme hostport → ∃ material,
    (urlRef sha256 url : Checked Empty _) =
      .ok (destinationText scheme hostport ++ pathRef sha256 material)) ∧
  ((¬ ∃ scheme hostport, HasDestination url scheme hostport) → ∃ material,
    (urlRef sha256 url : Checked Empty _) = .ok (pathRef sha256 material))

/-- A URL begins with a scheme, or it has none anywhere and no authority either. -/
def Divides (url : List Char) : Prop :=
  (∃ scheme rest, IsScheme scheme ∧ url = scheme ++ (schemeMark ++ rest)) ∨
    (¬ schemeMark <:+: url ∧ ∀ c cs, url = c :: cs → endsAuthority c = true)

/-! ## What is printed -/

variable {ε : Type} {sha256 : Bytes → Bytes32}

/-- Two cuts of a text at the first such character are the same. -/
theorem append_remainder_inj {p : Char → Bool} {as bs as' bs' : List Char}
    (h : as ++ bs = as' ++ bs') (has : ∀ c ∈ as, p c = false) (has' : ∀ c ∈ as', p c = false)
    (hbs : bs = [] ∨ ∃ c cs, bs = c :: cs ∧ p c = true)
    (hbs' : bs' = [] ∨ ∃ c cs, bs' = c :: cs ∧ p c = true) : as = as' := by
  have hone : ∀ {as bs : List Char}, (∀ c ∈ as, p c = false) →
      (bs = [] ∨ ∃ c cs, bs = c :: cs ∧ p c = true) →
      (as ++ bs).takeWhile (fun c => !p c) = as := by
    intro as bs has hbs
    rw [List.takeWhile_append_of_pos fun c hc => by rw [has c hc]; rfl]
    rcases hbs with rfl | ⟨c, cs, rfl, hc⟩
    · exact List.append_nil as
    · rw [List.takeWhile_cons_of_neg (by rw [hc]; exact Bool.false_ne_true), List.append_nil]
  rw [← hone has hbs, h, hone has' hbs']

/-- A scheme has no colon, so the first mark is the one behind it. -/
theorem findStr_scheme {scheme : List Char} (h : IsScheme scheme) (rest : List Char) :
    findStr schemeMark (scheme ++ (schemeMark ++ rest)) = some (byteLen scheme) := by
  obtain ⟨c, cs, rfl, hc, hcs⟩ := h
  have hcolon : ':' ∉ c :: cs := by
    intro hmem
    rcases List.mem_cons.mp hmem with rfl | hmem
    · exact absurd hc (by decide)
    · rcases hcs ':' hmem with h | h | h | h
      · exact absurd h (by decide)
      · exact absurd h (by decide)
      · exact absurd h (by decide)
      · exact absurd h (by decide)
  refine findStr_append ?_
  intro x y hxy hy hpre
  obtain ⟨d, y, rfl⟩ := List.exists_cons_of_ne_nil hy
  rw [List.cons_append, schemeMark, List.cons_prefix_cons] at hpre
  apply hcolon
  rw [hxy, hpre.1]
  exact List.mem_append_right _ List.mem_cons_self

/-- Behind a mark the text in front of it is printed, and the authority. -/
theorem urlRef_mark {scheme rest : List Char}
    (hfind : findStr schemeMark (scheme ++ (schemeMark ++ rest)) = some (byteLen scheme)) :
    ∃ authority more material, rest = authority ++ more ∧
      (∀ c ∈ authority, endsAuthority c = false) ∧ IsRemainder more ∧
      (urlRef sha256 (scheme ++ (schemeMark ++ rest)) : Checked ε _) =
        .ok (destinationText scheme (withoutCredentials authority) ++ pathRef sha256 material) := by
  obtain ⟨authority, more, hrest, hauthority, hmore, hparts⟩ :=
    @partsBehind_eq ε (some scheme) rest
  obtain ⟨material, hpath⟩ := @urlPathQueryRef_eq ε sha256 (scheme ++ (schemeMark ++ rest))
  refine ⟨authority, more, material, hrest, hauthority, hmore, ?_⟩
  have hnone : (authority.isEmpty && (some scheme).isNone) = false := Bool.and_false _
  rw [if_neg (by rw [hnone]; exact Bool.false_ne_true)] at hparts
  rw [urlRef, parseUrlParts]
  simp only [hfind, sliceTo_append, sliceFrom_mark]
  show (partsBehind (some scheme) rest >>= _) = _
  rw [hparts]
  show (urlPathQueryRef sha256 _ >>= _) = _
  rw [hpath]
  rfl

/-- Without a mark and without an authority there is a digest only. -/
theorem urlRef_bare {url : List Char} (hmark : ¬ schemeMark <:+: url)
    (hurl : ∀ c cs, url = c :: cs → endsAuthority c = true) :
    (urlRef sha256 url : Checked Empty _) = .ok (pathRef sha256 url) := by
  obtain ⟨authority, more, hrest, hauthority, -, hparts⟩ := @partsBehind_eq Empty none url
  have hempty : authority = [] := by
    cases authority with
    | nil => rfl
    | cons c cs =>
      have hc := hurl c (cs ++ more) hrest
      rw [hauthority c List.mem_cons_self] at hc
      exact Bool.noConfusion hc
  rw [hempty] at hparts
  rw [urlRef, parseUrlParts]
  simp only [findStr_eq_none.mpr hmark]
  rw [hparts]
  rfl

/-- Without a mark an authority is printed all the same. -/
theorem urlRef_plain {url : List Char} {c : Char} {cs : List Char} (hmark : ¬ schemeMark <:+: url)
    (hurl : url = c :: cs) (hc : endsAuthority c = false) :
    ∃ parts reference, (urlRef sha256 url : Checked Empty _) =
      .ok (UrlParts.shown parts ++ reference) := by
  obtain ⟨authority, more, hrest, hauthority, hmore, hparts⟩ := @partsBehind_eq Empty none url
  obtain ⟨material, hpath⟩ := @urlPathQueryRef_eq Empty sha256 url
  have hne : authority.isEmpty = false := by
    cases authority with
    | cons d ds => rfl
    | nil =>
      rcases hmore with rfl | ⟨d, ds, rfl, hd⟩
      · rw [hurl] at hrest
        cases hrest
      · rw [hurl] at hrest
        obtain ⟨rfl, -⟩ := List.cons.inj hrest
        rw [hc] at hd
        exact Bool.noConfusion hd
  have hsome : ¬ (authority.isEmpty && (none : Option (List Char)).isNone) = true := by
    rw [hne]
    exact Bool.false_ne_true
  rw [if_neg hsome] at hparts
  refine ⟨⟨none, (hostPort (withoutCredentials authority)).1,
    (hostPort (withoutCredentials authority)).2⟩, pathRef sha256 material, ?_⟩
  rw [urlRef, parseUrlParts]
  simp only [findStr_eq_none.mpr hmark]
  rw [hparts]
  show (urlPathQueryRef sha256 _ >>= _) = _
  rw [hpath]
  rfl

/-! ## Hosts -/

/-- The host and the port as they are shown. -/
def hostText (hostport : List Char) : List Char :=
  (hostPort hostport).1.getD [] ++ ((hostPort hostport).2.map (':' :: ·)).getD []

theorem destinationText_eq (scheme hostport : List Char) :
    destinationText scheme hostport = scheme ++ (schemeMark ++ (hostText hostport ++ ['/'])) := by
  simp only [destinationText, UrlParts.shown, hostText, Option.map_some, Option.getD_some,
    List.append_assoc]

/-- What is shown of an authority is the front of it. -/
theorem hostText_front (hostport : List Char) : hostText hostport <+: hostport := by
  have hall : ∀ {host : List Char}, hostPort hostport = (some host, none) → host <+: hostport →
      hostText hostport <+: hostport := by
    intro host hsplit hhost
    rw [hostText, hsplit]
    show host ++ [] <+: hostport
    rwa [List.append_nil]
  by_cases hopen : ['['].isPrefixOf hostport = true
  -- a bracketed literal runs to its bracket, and the port is behind it
  · by_cases hclose : ']' ∈ hostport
    · obtain ⟨host, rest, rfl, hhost⟩ := List.eq_append_cons_of_mem hclose
      have hsplit : hostPort (host ++ ']' :: rest) = (some (host ++ [']']), portBehind rest) := by
        have hkeep : ∀ d ∈ host, (d != ']') = true := fun d hd =>
          bne_iff_ne.mpr fun hd' => hhost (hd' ▸ hd)
        have htake : (host ++ ']' :: rest).takeWhile (· != ']') = host := by
          rw [List.takeWhile_append_of_pos hkeep, List.takeWhile_cons_of_neg (by simp),
            List.append_nil]
        have hdrop : (host ++ ']' :: rest).dropWhile (· != ']') = ']' :: rest := by
          rw [List.dropWhile_append_of_pos hkeep, List.dropWhile_cons_of_neg (by simp)]
        rw [hostPort, if_pos hopen, if_pos hclose, htake, hdrop]
        rfl
      have hwhole : host ++ ']' :: rest = (host ++ [']']) ++ rest := by
        rw [List.append_assoc, List.singleton_append]
      cases hport : portBehind rest with
      | none =>
        rw [hport] at hsplit
        exact hall hsplit ⟨rest, hwhole.symm⟩
      | some port =>
        have hrest : rest = ':' :: port := by
          unfold portBehind at hport
          split at hport
          · split at hport
            · cases hport
            · rw [Option.some.inj hport]
          · cases hport
        rw [hostText, hsplit, hport, hwhole, hrest]
        exact List.prefix_rfl
    · have hsplit : hostPort hostport = (some hostport, none) := by
        rw [hostPort, if_pos hopen, if_neg hclose]
      exact hall hsplit List.prefix_rfl
  -- no bracket: the port is what digits follow the last colon
  · cases hcolon : rsplitOnce ':' hostport with
    | none =>
      have hsplit : hostPort hostport =
          if hostport = [] then (none, none) else (some hostport, none) := by
        rw [hostPort, if_neg hopen, hcolon]
      split at hsplit
      · next hnil =>
        rw [hostText, hsplit]
        exact List.nil_prefix
      · exact hall hsplit List.prefix_rfl
    | some parts =>
      obtain ⟨host, port⟩ := parts
      have hsplit : hostPort hostport =
          if port ≠ [] ∧ port.all Char.isDigit then (some host, some port)
          else (some hostport, none) := by
        rw [hostPort, if_neg hopen, hcolon]
      split at hsplit
      · rw [hostText, hsplit, (rsplitOnce_eq_some hcolon).1]
        exact List.prefix_rfl
      · exact hall hsplit List.prefix_rfl

theorem hostText_sublist (authority : List Char) :
    (hostText (withoutCredentials authority)).Sublist authority := by
  refine (hostText_front _).sublist.trans ?_
  rw [withoutCredentials]
  cases hsplit : rsplitOnce '@' authority with
  | none => exact List.Sublist.refl authority
  | some parts =>
    obtain ⟨user, hostport⟩ := parts
    rw [(rsplitOnce_eq_some hsplit).1]
    exact (List.sublist_cons_self '@' hostport).trans (List.sublist_append_right user _)

/-! ## What is revealed -/

/-- The characters of a digest. -/
theorem mem_pathRef {material : List Char} {c : Char} (h : c ∈ pathRef sha256 material) :
    c ∈ "url:sha256:".toList ∨ c ∈ "0123456789abcdef".toList := by
  rcases List.mem_append.mp h with h | h
  · have hfront : "url:".toList ⊆ "url:sha256:".toList := by decide
    exact Or.inl (hfront h)
  · rcases List.mem_append.mp h with h | h
    · have hback : "sha256:".toList ⊆ "url:sha256:".toList := by decide
      exact Or.inl (hback h)
    · rw [hexEncode, String.toList_ofList] at h
      obtain ⟨b, -, hb⟩ := List.mem_flatMap.mp h
      exact Or.inr (mem_hexPair hb)

/-- All digests are of one length. -/
theorem length_pathRef (material : List Char) : (pathRef sha256 material).length = 75 := by
  have hpairs : ∀ bytes : Bytes, (bytes.flatMap hexPair).length = 2 * bytes.length := by
    intro bytes
    induction bytes with
    | nil => rfl
    | cons b bytes ih =>
      rw [List.flatMap_cons, List.length_append, ih, List.length_cons]
      show 2 + 2 * bytes.length = 2 * (bytes.length + 1)
      omega
  have hurl : "url:".toList.length = 4 := by decide
  have hsha : "sha256:".toList.length = 7 := by decide
  have hhex : ∀ digest : Bytes32, (hexEncode digest.toList).toList.length = 64 := by
    intro digest
    rw [hexEncode, String.toList_ofList, hpairs, Vector.length_toList]
  have hdigest : (hostSafeDigest sha256 urlPqDomain material).length = 71 :=
    (@List.length_append _ "sha256:".toList _).trans (congrArg₂ Nat.add hsha (hhex _))
  exact (@List.length_append _ "url:".toList _).trans (congrArg₂ Nat.add hurl hdigest)

/-- A digest has no slash. -/
theorem slash_not_mem_pathRef (material : List Char) : '/' ∉ pathRef sha256 material :=
  fun hmem => (mem_pathRef hmem).elim (by decide) (by decide)

theorem slash_mem_shown (parts : UrlParts) (reference : List Char) :
    '/' ∈ UrlParts.shown parts ++ reference :=
  List.mem_append_left _ (List.mem_append_right _ (List.mem_singleton_self '/'))

/-- The credentials are cut off at the last `@`. -/
theorem withoutCredentials_split {authority : List Char}
    (h : ∀ c ∈ authority, endsAuthority c = false) :
    '@' ∉ withoutCredentials authority ∧ ∃ credentials, IsCredentials credentials ∧
      authority = credentials ++ withoutCredentials authority := by
  rw [withoutCredentials]
  cases hsplit : rsplitOnce '@' authority with
  | none => exact ⟨rsplitOnce_eq_none.mp hsplit, [], Or.inl rfl, rfl⟩
  | some parts =>
    obtain ⟨user, hostport⟩ := parts
    obtain ⟨rfl, hat⟩ := rsplitOnce_eq_some hsplit
    refine ⟨hat, user ++ ['@'], Or.inr ⟨user, rfl, fun c hc => ?_⟩, ?_⟩
    · exact h c (List.mem_append_left _ hc)
    · show user ++ '@' :: hostport = user ++ ['@'] ++ hostport
      rw [List.append_assoc, List.singleton_append]

theorem withoutCredentials_eq {credentials hostport : List Char} (h : IsCredentials credentials)
    (hat : '@' ∉ hostport) : withoutCredentials (credentials ++ hostport) = hostport := by
  rw [withoutCredentials]
  rcases h with rfl | ⟨user, rfl, -⟩
  · rw [List.nil_append, rsplitOnce_eq_none.mpr hat]
    rfl
  · rw [List.append_assoc, List.singleton_append, rsplitOnce_append user hat]
    rfl

/-- Behind a scheme the destination is printed. -/
theorem reveals_of_scheme {scheme rest : List Char} (h : IsScheme scheme) :
    RevealsDestination sha256 (scheme ++ (schemeMark ++ rest)) := by
  obtain ⟨authority, more, material, hrest, hauthority, hmore, href⟩ :=
    @urlRef_mark Empty sha256 scheme rest (findStr_scheme h rest)
  constructor
  · rintro scheme' hostport ⟨hscheme, hat, hhost, credentials, remainder, hcred, hrem, hurl⟩
    have hfind := findStr_scheme h rest
    have hfind' := findStr_scheme hscheme (credentials ++ hostport ++ remainder)
    rw [← hurl, hfind] at hfind'
    -- the two schemes end at one offset
    have hdrop := @dropBytes_append scheme (schemeMark ++ rest)
    rw [Option.some.inj hfind', hurl, dropBytes_append] at hdrop
    have hbehind := List.append_cancel_left (Option.some.inj hdrop)
    rw [← hbehind] at hurl
    obtain rfl : scheme = scheme' := List.append_cancel_right hurl
    have hall : ∀ c ∈ credentials ++ hostport, endsAuthority c = false := by
      intro c hc
      rcases List.mem_append.mp hc with hc | hc
      · rcases hcred with rfl | ⟨user, rfl, huser⟩
        · exact absurd hc List.not_mem_nil
        · rcases List.mem_append.mp hc with hc | hc
          · exact huser c hc
          · obtain rfl := List.mem_singleton.mp hc
            decide
      · exact hhost c hc
    have hsame : authority = credentials ++ hostport :=
      append_remainder_inj (hrest.symm.trans hbehind.symm) hauthority hall hmore hrem
    refine ⟨material, ?_⟩
    rw [href, hsame, withoutCredentials_eq hcred hat]
  · intro hnone
    exfalso
    apply hnone
    obtain ⟨hat, credentials, hcred, hsplit⟩ := withoutCredentials_split hauthority
    refine ⟨scheme, withoutCredentials authority, h, hat, fun c hc => ?_, credentials, more, hcred,
      hmore, ?_⟩
    · exact hauthority c (hsplit ▸ List.mem_append_right _ hc)
    · rw [hrest, ← hsplit]

/-- A destination stands behind the first mark, after a scheme. -/
theorem divides_of_destination {url scheme hostport : List Char}
    (h : HasDestination url scheme hostport) : Divides url := by
  obtain ⟨hscheme, -, -, credentials, remainder, -, -, hurl⟩ := h
  exact Or.inl ⟨scheme, _, hscheme, hurl⟩

/-- Elsewhere the text in front of a mark, or the first part of a path, is printed. -/
theorem divides_of_reveals {url : List Char} (h : RevealsDestination sha256 url) : Divides url := by
  by_contra hnot
  have hnone : ¬ ∃ scheme hostport, HasDestination url scheme hostport := by
    rintro ⟨scheme, hostport, hdest⟩
    exact hnot (divides_of_destination hdest)
  obtain ⟨material, href⟩ := h.2 hnone
  -- what is printed has a slash
  have hslash : ∃ parts reference, (urlRef sha256 url : Checked Empty _) =
      .ok (UrlParts.shown parts ++ reference) := by
    rcases mark_cases url with ⟨scheme, rest, rfl, hfind⟩ | ⟨hmark, -⟩
    · obtain ⟨authority, more, material, -, -, -, hprinted⟩ :=
        @urlRef_mark Empty sha256 scheme rest hfind
      exact ⟨_, _, hprinted⟩
    · rw [Divides, not_or, not_and] at hnot
      have hauthority := hnot.2 hmark
      simp only [not_forall] at hauthority
      obtain ⟨c, cs, hurl, hc⟩ := hauthority
      exact urlRef_plain hmark hurl (Bool.eq_false_iff.mpr hc)
  obtain ⟨parts, reference, hprinted⟩ := hslash
  rw [href] at hprinted
  have hmem := slash_mem_shown parts reference
  rw [← Except.ok.inj hprinted] at hmem
  exact slash_not_mem_pathRef material hmem

/-- **A URL reference reveals the destination only**, exactly when the text in front of the first
`://` is a scheme, or when there is none and the text is empty or starts with a path, a query or a
fragment. -/
theorem urlRef_reveals_iff (sha256 : Bytes → Bytes32) (url : List Char) :
    RevealsDestination sha256 url ↔ Divides url := by
  refine ⟨divides_of_reveals, fun h => ?_⟩
  rcases h with ⟨scheme, rest, hscheme, rfl⟩ | ⟨hmark, hurl⟩
  · exact reveals_of_scheme hscheme
  · refine ⟨fun scheme hostport hdest => ?_, fun _ => ⟨url, urlRef_bare hmark hurl⟩⟩
    obtain ⟨-, -, -, credentials, remainder, -, -, hsplit⟩ := hdest
    exact absurd ⟨scheme, _, by rw [hsplit, List.append_assoc]⟩ hmark

/-- A path with a URL in its query is printed up to there. -/
theorem urlRef_embedded : ¬ ∀ (sha256 : Bytes → Bytes32) (url : List Char),
    RevealsDestination sha256 url := by
  intro h
  have hdivides := divides_of_reveals (h (fun _ => Vector.replicate 32 0)
    "/secret/path?next=https://x".toList)
  rcases hdivides with ⟨scheme, rest, ⟨c, cs, rfl, hc, -⟩, hurl⟩ | ⟨hmark, -⟩
  · have hhead : '/' = c := by
      have := congrArg List.head? hurl
      exact Option.some.inj this
    exact absurd hc (by rw [← hhead]; decide)
  · exact hmark (by decide)

end Basecrawl.Seal
