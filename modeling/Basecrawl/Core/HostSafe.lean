/-
  What an error may say to the host: `Error::host_safe_message` and `strip_url_shaped`.

  1. **The regions** — the loop takes one URL-looking region after the other out of a text: from the
     characters of a scheme in front of `://` up to a blank, a quote or a bracket.  `Region` is one
     of them, and `stripStep_region` is what a pass does with it.
  2. **The slices** — only one of them can fail, the one that ends a byte behind the last character
     that is not of a scheme.  `Bordered` says that there is always a border; a pass leaves it as it
     is (`bordered_region`).
  3. **The loop** — it ends, and it returns exactly on the bordered texts (`stripLoop_returns`).
-/
import Basecrawl.Core.ErrorReport
import Basecrawl.Lib.Replace
import Basecrawl.Seal.UrlRef

namespace Basecrawl.Core

open Text Outcome Slices Replace
open Panic (Checked Stop)
open Seal (Bytes32 schemeMark urlRef urlPathQueryRef urlPathQueryRef_eq pathRef redactedToken)

/-! ## The source -/

/-- The loop was stopped. -/
inductive OutOfFuel where
  | outOfFuel
deriving DecidableEq

/-- A character that a scheme is made of. -/
def isSchemeChar (c : Char) : Bool := c.isAlphanum || c == '+' || c == '.' || c == '-'

/-- A character that ends a URL-looking region. -/
def endsUrl (c : Char) : Bool := isWhitespace c || c == '\'' || c == '"' || c == '>'

variable {ε : Type}

/-- One pass of the loop over the rest of a text: what it pushes, and the rest it leaves. -/
def stripStep (sha256 : Bytes → Bytes32) (rest : List Char) :
    Checked ε (Option (List Char × List Char)) :=
  match findStr schemeMark rest with
  | none => .ok none
  | some idx => do
      -- walk back to the start of the scheme
      let front ← sliceTo rest idx
      let schemeStart := ((rfind (fun c => !isSchemeChar c) front).map (· + 1)).getD 0
      let before ← sliceTo rest schemeStart
      let urlRegion ← sliceFrom rest schemeStart
      let urlEnd := (find endsUrl urlRegion).getD (byteLen urlRegion)
      let url ← sliceTo urlRegion urlEnd
      let after ← sliceFrom urlRegion urlEnd
      let reference ← urlRef sha256 url
      .ok (some (before ++ reference, after))

/-- The loop: the output and the rest without a URL. -/
def stripLoop (sha256 : Bytes → Bytes32) :
    Nat → List Char → List Char → Checked OutOfFuel (List Char × List Char)
  | 0, _, _ => .error (.err .outOfFuel)
  | fuel + 1, out, rest => do
      match ← stripStep sha256 rest with
      | none => .ok (out, rest)
      | some (pushed, after) => stripLoop sha256 fuel (out ++ pushed) after

/-- What stands for a quoted token. -/
def scrubToken (sha256 : Bytes → Bytes32) (quote : Char) (token : List Char) :
    Checked ε (List Char) :=
  if ['/'].isPrefixOf token || token.contains '?' then do
    let reference ← urlPathQueryRef sha256 ("https://placeholder.invalid".toList ++ token)
    .ok (quote :: (reference ++ [quote]))
  else .ok (quote :: (token ++ [quote]))

/-- `scrub_quoted_paths`, outside of a quoted token or inside of one. -/
def scrubFrom (sha256 : Bytes → Bytes32) :
    Option (Char × List Char) → List Char → Checked ε (List Char)
  | none, [] => .ok []
  | some (quote, token), [] => scrubToken sha256 quote token
  | none, c :: cs =>
      if c = '\'' ∨ c = '"' then scrubFrom sha256 (some (c, [])) cs
      else do
        let out ← scrubFrom sha256 none cs
        .ok (c :: out)
  | some (quote, token), n :: cs =>
      if n = quote then do
        let shown ← scrubToken sha256 quote token
        let out ← scrubFrom sha256 none cs
        .ok (shown ++ out)
      else scrubFrom sha256 (some (quote, token ++ [n])) cs

/-- `scrub_quoted_paths`. -/
def scrubQuotedPaths (sha256 : Bytes → Bytes32) (input : List Char) : Checked ε (List Char) :=
  scrubFrom sha256 none input

/-- There is nothing to strip. -/
def plainDetail (detail : List Char) : Bool :=
  !((findStr schemeMark detail).isSome || (detail.contains '?' && detail.contains '=')) &&
    (!(findStr "/secret".toList detail).isSome && !detail.contains '\'')

/-- `strip_url_shaped`.  A pass takes at least a character off the rest. -/
def stripUrlShaped (sha256 : Bytes → Bytes32) (detail : List Char) :
    Checked OutOfFuel (List Char) :=
  if plainDetail detail then .ok detail
  else do
    let (out, rest) ← stripLoop sha256 (detail.length + 1) [] detail
    let rest ← scrubQuotedPaths sha256 rest
    .ok (out ++ rest)

/-- `Error::host_safe_message`. -/
def Error.hostSafeMessage (sha256 : Bytes → Bytes32) : Error → Checked OutOfFuel (List Char)
  | .invalidUrl _ => .ok "invalid URL".toList
  | .tooManyRedirects max _ =>
      .ok ("too many redirects: exceeded the maximum of " ++ toString max ++ " hop(s)").toList
  | .invalidHeader name =>
      let safeName := if contains name ":" || contains name "=" then redactedToken else name
      .ok ("invalid request header '" ++ safeName ++ "' (expected 'Name: Value')").toList
  | .redirect detail => stripUrlShaped sha256 detail.toList
  | e@(.transport _) | e@(.proxyConnect ..) | e@(.residentialConcurrency _) | e@(.fetch _)
  | e@(.render _) | e@(.dnsIsolation _) | e@(.timeout _) | e@(.certificateValidation _)
  | e@(.tlsCapture _) | e@(.documentExtraction _) | e@(.egressMetadata _) | e@(.attestation _)
  | e@(.enclaveSignature _) | e@(.io _) | e@(.invalidActions _) | e@(.invalidViewport _)
  | e@(.solver ..) => stripUrlShaped sha256 e.display.toList
  | other => .ok other.display.toList

/-! ## The regions -/

/-- Letters and digits are a byte each. -/
theorem ascii_of_alphanum {c : Char} (h : c.isAlphanum = true) : c.toNat < 128 := by
  have hle : ∀ {lo hi : Char}, (decide (lo.val ≤ c.val) && decide (c.val ≤ hi.val)) = true →
      c.toNat ≤ hi.toNat := fun h =>
    UInt32.le_iff_toNat_le.mp (of_decide_eq_true (Bool.and_eq_true_iff.mp h).2)
  rcases Bool.or_eq_true_iff.mp (show (c.isAlpha || c.isDigit) = true from h) with h | h
  · rcases Bool.or_eq_true_iff.mp (show (c.isUpper || c.isLower) = true from h) with h | h
    · have hupper : 'A'.val ≤ c.val ∧ c.val ≤ 'Z'.val := of_decide_eq_true h
      exact Nat.lt_of_le_of_lt (UInt32.le_iff_toNat_le.mp hupper.2) (by decide)
    · exact Nat.lt_of_le_of_lt (@hle 'a' 'z' h) (by decide)
  · exact Nat.lt_of_le_of_lt (@hle '0' '9' h) (by decide)

/-- A character of a scheme is a byte, and it ends no region. -/
theorem isSchemeChar_spec {c : Char} (h : isSchemeChar c = true) :
    c.utf8Size = 1 ∧ endsUrl c = false ∧ c ≠ '/' := by
  have hlt : c.toNat < 128 := by
    rw [isSchemeChar, Bool.or_eq_true, Bool.or_eq_true, Bool.or_eq_true] at h
    rcases h with ((h | h) | h) | h
    · exact ascii_of_alphanum h
    · rw [beq_iff_eq.mp h]
      decide
    · rw [beq_iff_eq.mp h]
      decide
    · rw [beq_iff_eq.mp h]
      decide
  have hall : (List.range 128).all (fun n => decide (isSchemeChar (Char.ofNat n) = true →
      endsUrl (Char.ofNat n) = false ∧ Char.ofNat n ≠ '/')) = true := by decide
  have hchar := of_decide_eq_true (List.all_eq_true.mp hall c.toNat (List.mem_range.mpr hlt))
  rw [Char.ofNat_toNat] at hchar
  exact ⟨utf8Size_ascii.mpr hlt, hchar h⟩

theorem slash_not_mem_scheme {scheme : List Char} (h : ∀ c ∈ scheme, isSchemeChar c = true) :
    '/' ∉ scheme := fun hmem => (isSchemeChar_spec (h '/' hmem)).2.2 rfl

theorem mark_open {c : Char} (hc : c ∈ schemeMark) : endsUrl c = false := by
  have hall : schemeMark.all (fun c => decide (endsUrl c = false)) = true := by decide
  exact of_decide_eq_true (List.all_eq_true.mp hall c hc)

/-- A URL-looking region of a text, and what stands in front of it and behind it. -/
structure Region where
  before : List Char
  scheme : List Char
  behind : List Char
  after : List Char
  before_ends : ∀ front c, before = front ++ [c] → isSchemeChar c = false
  before_free : ¬ schemeMark <:+: before
  scheme_chars : ∀ c ∈ scheme, isSchemeChar c = true
  behind_open : ∀ c ∈ behind, endsUrl c = false
  after_ends : after = [] ∨ ∃ c cs, after = c :: cs ∧ endsUrl c = true

/-- The region itself. -/
def Region.url (r : Region) : List Char := r.scheme ++ (schemeMark ++ r.behind)

/-- The text around it. -/
def Region.text (r : Region) : List Char := r.before ++ (r.url ++ r.after)

/-- It is known where the region begins: there is a border a byte behind the last character that is
not of a scheme. -/
def Region.Narrow (r : Region) : Prop := ∀ front c, r.before = front ++ [c] → c.utf8Size = 1

theorem Region.text_eq (r : Region) :
    r.text = (r.before ++ r.scheme) ++ (schemeMark ++ (r.behind ++ r.after)) := by
  simp only [Region.text, Region.url, List.append_assoc]

/-- What stands in front of a mark ends in front of a run of such characters. -/
theorem mark_scheme {front scheme as bs : List Char} (hscheme : ∀ c ∈ scheme, isSchemeChar c = true)
    (h : front ++ scheme = as ++ (schemeMark ++ bs)) :
    ∃ cs, front = as ++ (schemeMark ++ cs) ∧ bs = cs ++ scheme := by
  rw [← List.append_assoc] at h
  rcases List.append_eq_append_iff.mp h with ⟨d, hd, hs⟩ | ⟨d, hd, hb⟩
  · rcases List.eq_nil_or_concat' d with rfl | ⟨d, c, rfl⟩
    · refine ⟨[], ?_, hs.symm⟩
      rw [List.append_nil, hd, List.append_nil]
    · -- the last character of a mark is a slash
      exfalso
      have hlast : as ++ [':', '/'] ++ ['/'] = front ++ d ++ [c] := by
        rw [List.append_assoc, List.append_assoc front, ← hd]
        rfl
      obtain ⟨-, hc⟩ := List.append_inj' hlast rfl
      obtain rfl := List.singleton_inj.mp hc
      refine slash_not_mem_scheme hscheme ?_
      rw [hs]
      exact List.mem_append_left _ (List.mem_append_right _ List.mem_cons_self)
  · exact ⟨d, by rw [hd, List.append_assoc], hb⟩

/-- Two marks of a text are one, or they stand apart. -/
theorem mark_apart {as bs as' bs' : List Char}
    (h : as ++ (schemeMark ++ bs) = as' ++ (schemeMark ++ bs')) :
    (as = as' ∧ bs = bs') ∨
      (∃ cs, as' = as ++ (schemeMark ++ cs) ∧ bs = cs ++ (schemeMark ++ bs')) ∨
      ∃ cs, as = as' ++ (schemeMark ++ cs) ∧ bs' = cs ++ (schemeMark ++ bs) := by
  have hshift : ∀ {d xs ys : List Char}, schemeMark ++ xs = d ++ (schemeMark ++ ys) →
      (d = [] ∧ xs = ys) ∨ ∃ cs, d = schemeMark ++ cs ∧ xs = cs ++ (schemeMark ++ ys) := by
    intro d xs ys hd
    rcases d with _ | ⟨c, _ | ⟨c', _ | ⟨c'', cs⟩⟩⟩
    · exact Or.inl ⟨rfl, List.append_cancel_left hd⟩
    · simp [schemeMark] at hd
    · simp [schemeMark] at hd
    · simp only [schemeMark, List.cons_append, List.nil_append, List.cons.injEq] at hd
      obtain ⟨rfl, rfl, rfl, hxs⟩ := hd
      exact Or.inr ⟨cs, rfl, hxs⟩
  rcases List.append_eq_append_iff.mp h with ⟨d, rfl, hd⟩ | ⟨d, rfl, hd⟩
  · rcases hshift hd with ⟨rfl, rfl⟩ | ⟨cs, rfl, hcs⟩
    · exact Or.inl ⟨(List.append_nil as).symm, rfl⟩
    · exact Or.inr (Or.inl ⟨cs, rfl, hcs⟩)
  · rcases hshift hd with ⟨rfl, rfl⟩ | ⟨cs, rfl, hcs⟩
    · exact Or.inl ⟨List.append_nil as', rfl⟩
    · exact Or.inr (Or.inr ⟨cs, rfl, hcs⟩)

/-- What stands in front of a region does not end with characters of a scheme. -/
theorem Region.before_closed (r : Region) {front tail : List Char} (h : r.before = front ++ tail)
    (htail : ∀ c ∈ tail, isSchemeChar c = true) : tail = [] := by
  rcases List.eq_nil_or_concat' tail with hnil | ⟨cs, c, rfl⟩
  · exact hnil
  · have hend := r.before_ends (front ++ cs) c (by rw [h, List.append_assoc])
    rw [htail c (List.mem_append_right cs List.mem_cons_self)] at hend
    exact Bool.noConfusion hend

/-- The first mark of the text is that of the region. -/
theorem Region.first (r : Region) : ¬ schemeMark <:+: r.before ++ r.scheme := by
  rintro ⟨as, bs, h⟩
  rw [List.append_assoc] at h
  obtain ⟨cs, hbefore, -⟩ := mark_scheme r.scheme_chars h.symm
  exact r.before_free ⟨as, cs, by rw [hbefore, List.append_assoc]⟩

theorem Region.find_mark (r : Region) :
    findStr schemeMark r.text = some (byteLen (r.before ++ r.scheme)) := by
  rw [Region.text_eq]
  refine findStr_append ?_
  rintro as y hsplit hy ⟨bs, hbs⟩
  have hmarks : as ++ (schemeMark ++ bs) =
      (r.before ++ r.scheme) ++ (schemeMark ++ (r.behind ++ r.after)) := by
    rw [hbs, hsplit, List.append_assoc]
  rcases mark_apart hmarks with ⟨has, -⟩ | ⟨cs, hcs, -⟩ | ⟨cs, hcs, -⟩
  · rw [has, List.self_eq_append_right] at hsplit
    exact hy hsplit
  · exact r.first ⟨as, cs, by rw [hcs, List.append_assoc]⟩
  · rw [hsplit, List.append_assoc, List.self_eq_append_right] at hcs
    exact hy (List.append_eq_nil_iff.mp hcs).1

theorem Region.url_open (r : Region) : ∀ c ∈ r.url, endsUrl c = false := by
  intro c hc
  rcases List.mem_append.mp hc with hc | hc
  · exact (isSchemeChar_spec (r.scheme_chars c hc)).2.1
  · rcases List.mem_append.mp hc with hc | hc
    · exact mark_open hc
    · exact r.behind_open c hc

/-- A text has a mark behind a region that comes first, or it has none. -/
theorem region_cases (text : List Char) :
    ¬ schemeMark <:+: text ∨ ∃ r : Region, r.text = text := by
  cases hfind : findStr schemeMark text with
  | none => exact Or.inl (findStr_eq_none.mp hfind)
  | some i =>
    right
    obtain ⟨front, rest, rfl, hfirst, -⟩ := findStr_eq_some hfind
    have hfront : ¬ schemeMark <:+: front := by
      rintro ⟨as, bs, rfl⟩
      refine hfirst as (schemeMark ++ bs) (List.append_assoc _ _ _) (by simp [schemeMark]) ?_
      rw [List.append_assoc]
      exact List.prefix_append _ _
    -- where the scheme begins
    obtain ⟨before, scheme, rfl, hbefore, hscheme⟩ : ∃ before scheme, front = before ++ scheme ∧
        (∀ as c, before = as ++ [c] → isSchemeChar c = false) ∧
        ∀ c ∈ scheme, isSchemeChar c = true := by
      cases hwalk : rfind (fun c => !isSchemeChar c) front with
      | none =>
        refine ⟨[], front, rfl, ?_, fun c hc => ?_⟩
        · intro as c h
          simp at h
        · simpa using rfind_eq_none.mp hwalk c hc
      | some j =>
        obtain ⟨as, c, scheme, rfl, hc, hscheme, -⟩ := rfind_eq_some hwalk
        refine ⟨as ++ [c], scheme, by rw [List.append_assoc]; rfl, ?_, fun d hd => ?_⟩
        · intro as' d h
          obtain ⟨-, hd⟩ := List.append_inj' h rfl
          obtain rfl := List.singleton_inj.mp hd
          simpa using hc
        · simpa using hscheme d hd
    -- where the region ends
    obtain ⟨behind, after, rfl, hbehind, hafter, -⟩ := @Seal.sliceTo_find OutOfFuel endsUrl rest
    refine ⟨⟨before, scheme, behind, after, hbefore, ?_, hscheme, hbehind, hafter⟩, ?_⟩
    · rintro ⟨as, bs, h⟩
      exact hfront ⟨as, bs ++ scheme, by rw [← h, List.append_assoc _ bs]⟩
    · simp only [Region.text, Region.url, List.append_assoc]

/-! ## One pass -/

variable {sha256 : Bytes → Bytes32}

/-- The reference of a region shows what stands behind its mark up to a path. -/
theorem Region.urlRef_eq (r : Region) :
    ∃ authority more material, r.behind = authority ++ more ∧
      (∀ c ∈ authority, Seal.endsAuthority c = false) ∧ Seal.IsRemainder more ∧
      (urlRef sha256 r.url : Checked ε _) = .ok
        (Seal.destinationText r.scheme (Seal.withoutCredentials authority) ++
          pathRef sha256 material) := by
  refine Seal.urlRef_mark ?_
  -- it is the only region of itself
  have hfind := Region.find_mark ⟨[], r.scheme, r.behind, [], by simp, by simp [schemeMark],
    r.scheme_chars, r.behind_open, Or.inl rfl⟩
  simp only [Region.text, Region.url, List.nil_append, List.append_nil] at hfind
  exact hfind

/-- A rest without a mark is left to the second pass. -/
theorem stripStep_plain {rest : List Char} (h : ¬ schemeMark <:+: rest) :
    (stripStep sha256 rest : Checked ε _) = .ok none := by
  rw [stripStep, findStr_eq_none.mpr h]

/-- Where the walk back ends. -/
theorem Region.walk_back (r : Region) :
    (r.before = [] ∧ rfind (fun c => !isSchemeChar c) (r.before ++ r.scheme) = none) ∨
      ∃ front c, r.before = front ++ [c] ∧
        rfind (fun c => !isSchemeChar c) (r.before ++ r.scheme) = some (byteLen front) := by
  have hscheme : ∀ c ∈ r.scheme, (!isSchemeChar c) = false := fun c hc => by
    rw [r.scheme_chars c hc]
    rfl
  rcases List.eq_nil_or_concat' r.before with hbefore | ⟨front, c, hbefore⟩
  · refine Or.inl ⟨hbefore, ?_⟩
    rw [hbefore]
    exact rfind_eq_none.mpr hscheme
  · refine Or.inr ⟨front, c, hbefore, ?_⟩
    rw [hbefore, List.append_assoc]
    refine rfind_append front ?_ hscheme
    rw [r.before_ends front c hbefore]
    rfl

/-- A pass pushes what stands in front of the region, and its reference. -/
theorem stripStep_region {r : Region} (hr : r.Narrow) {reference : List Char}
    (href : (urlRef sha256 r.url : Checked ε _) = .ok reference) :
    (stripStep sha256 r.text : Checked ε _) = .ok (some (r.before ++ reference, r.after)) := by
  have hstart : ((rfind (fun c => !isSchemeChar c) (r.before ++ r.scheme)).map (· + 1)).getD 0 =
      byteLen r.before := by
    rcases r.walk_back with ⟨hbefore, hwalk⟩ | ⟨front, c, hbefore, hwalk⟩
    · rw [hwalk, hbefore]
      rfl
    · rw [hwalk, hbefore, byteLen_append, byteLen, hr front c hbefore]
      rfl
  have hstop : (find endsUrl (r.url ++ r.after)).getD (byteLen (r.url ++ r.after)) =
      byteLen r.url := by
    rcases r.after_ends with hafter | ⟨c, cs, hafter, hc⟩
    · rw [hafter, List.append_nil, find_eq_none.mpr r.url_open]
      rfl
    · rw [hafter, find_append r.url_open hc]
      rfl
  have hfront : (sliceTo r.text (byteLen (r.before ++ r.scheme)) : Checked ε _) =
      .ok (r.before ++ r.scheme) := by
    rw [r.text_eq, sliceTo_append]
  have hbefore : (sliceTo r.text (byteLen r.before) : Checked ε _) = .ok r.before :=
    sliceTo_append r.before _
  have hregion : (sliceFrom r.text (byteLen r.before) : Checked ε _) = .ok (r.url ++ r.after) :=
    sliceFrom_append r.before _
  rw [stripStep, r.find_mark]
  simp only [hfront, ok_bind, hstart, hbefore, hregion, hstop, sliceTo_append, sliceFrom_append,
    href]

/-- A character of more bytes in front of the scheme: the slice is cut inside of it. -/
theorem stripStep_wide {r : Region} (hr : ¬ r.Narrow) :
    (stripStep sha256 r.text : Checked ε _) = .error .panic := by
  have hfront : (sliceTo r.text (byteLen (r.before ++ r.scheme)) : Checked ε _) =
      .ok (r.before ++ r.scheme) := by
    rw [r.text_eq, sliceTo_append]
  rcases r.walk_back with ⟨hbefore, -⟩ | ⟨front, c, hbefore, hwalk⟩
  · exact absurd (fun front c h => by simp [hbefore] at h) hr
  · have hwide : 1 < c.utf8Size := by
      have hpos := Char.utf8Size_pos c
      have hne : c.utf8Size ≠ 1 := by
        intro hone
        apply hr
        intro front' c' h
        obtain ⟨-, hc⟩ := List.append_inj' (hbefore.symm.trans h) rfl
        rw [← List.singleton_inj.mp hc, hone]
      omega
    have hcut : (sliceTo r.text (byteLen front + 1) : Checked ε _) = .error .panic := by
      rw [Region.text, hbefore, List.append_assoc]
      exact sliceTo_inside front _ Nat.one_pos hwide
    rw [stripStep, r.find_mark]
    simp only [hfront, ok_bind, hwalk, Option.map_some, Option.getD_some, hcut]
    rfl

/-! ## The borders -/

/-- Behind every mark there is a character that ends its region. -/
def Settled (front : List Char) : Prop :=
  ∀ as bs, front = as ++ (schemeMark ++ bs) → ∃ e ∈ bs, endsUrl e = true

/-- A character in front of the scheme of a region is one byte. -/
def Bordered (detail : List Char) : Prop :=
  ∀ front c scheme after, detail = front ++ c :: (scheme ++ (schemeMark ++ after)) →
    (∀ d ∈ scheme, isSchemeChar d = true) → Settled (front ++ [c]) → c.utf8Size = 1

theorem bordered_plain {rest : List Char} (h : ¬ schemeMark <:+: rest) : Bordered rest := by
  intro front c scheme after hrest
  refine absurd ⟨front ++ c :: scheme, after, ?_⟩ h
  rw [hrest]
  simp only [List.append_assoc, List.cons_append]

/-- There is a border behind every character of a byte. -/
theorem bordered_of_ascii {detail : List Char}
    (h : detail.all (fun c => decide (c.toNat < 128)) = true) : Bordered detail := by
  intro front c scheme after hdetail _ _
  have hmem : c ∈ detail := by
    rw [hdetail]
    exact List.mem_append_right front List.mem_cons_self
  exact utf8Size_ascii.mpr (of_decide_eq_true (List.all_eq_true.mp h c hmem))

theorem endsUrl_not_mark {c : Char} (h : endsUrl c = true) : c ∉ schemeMark := by
  intro hc
  have hopen := mark_open hc
  rw [h] at hopen
  exact Bool.noConfusion hopen

/-- Behind a region the marks are settled when those behind it are. -/
theorem settled_behind {front xs : List Char} {e : Char} (he : endsUrl e = true) :
    Settled (front ++ e :: xs) ↔ Settled (e :: xs) := by
  constructor
  · intro h as bs hsplit
    refine h (front ++ as) bs ?_
    rw [hsplit, List.append_assoc]
  · intro h as bs hsplit
    rcases occurrence_split (endsUrl_not_mark he) hsplit.symm with ⟨w, -, rfl⟩ | ⟨w, -, hw⟩
    · exact ⟨e, List.mem_append_right _ List.mem_cons_self, he⟩
    · exact h (e :: w) bs (by rw [hw]; rfl)

/-- What stands behind a region begins with what ends it. -/
theorem Region.after_cons (r : Region) {front tail : List Char} {c : Char}
    (hafter : r.after = front ++ c :: tail) :
    ∃ e xs, front ++ [c] = e :: xs ∧ endsUrl e = true := by
  rcases r.after_ends with hnil | ⟨e, es, hes, he⟩
  · rw [hnil] at hafter
    exact absurd hafter.symm (by simp)
  · have hcons := hes.symm.trans hafter
    cases front with
    | nil =>
      obtain ⟨rfl, -⟩ := List.cons.inj hcons
      exact ⟨e, [], rfl, he⟩
    | cons d ds =>
      obtain ⟨rfl, -⟩ := List.cons.inj hcons
      exact ⟨e, ds ++ [c], rfl, he⟩

theorem Region.settled_after (r : Region) {front tail : List Char} {c : Char}
    (hafter : r.after = front ++ c :: tail) :
    Settled (r.before ++ (r.url ++ front) ++ [c]) ↔ Settled (front ++ [c]) := by
  obtain ⟨e, xs, hxs, he⟩ := r.after_cons hafter
  have hassoc : r.before ++ (r.url ++ front) ++ [c] = (r.before ++ r.url) ++ e :: xs := by
    rw [← hxs]
    simp only [List.append_assoc]
  rw [hassoc, settled_behind he, hxs]

/-- The first scheme is behind a border. -/
theorem Region.narrow_at (r : Region) (hnarrow : r.Narrow) {front scheme : List Char} {c : Char}
    (hscheme : ∀ d ∈ scheme, isSchemeChar d = true)
    (h : r.before ++ r.scheme = front ++ c :: scheme) : c.utf8Size = 1 := by
  rcases List.append_eq_append_iff.mp h with ⟨d, -, hs⟩ | ⟨d, hd, hs⟩
  · refine (isSchemeChar_spec (r.scheme_chars c ?_)).1
    rw [hs]
    exact List.mem_append_right d List.mem_cons_self
  · cases d with
    | nil =>
      refine (isSchemeChar_spec (r.scheme_chars c ?_)).1
      rw [List.nil_append] at hs
      exact hs ▸ List.mem_cons_self
    | cons x d =>
      rw [List.cons_append] at hs
      obtain ⟨rfl, hscheme'⟩ := List.cons.inj hs
      have hnil : d = [] := by
        have hsplit : r.before = (front ++ [c]) ++ d := by
          rw [hd, List.append_assoc]
          rfl
        exact r.before_closed hsplit fun y hy => hscheme y (hscheme' ▸ List.mem_append_left _ hy)
      rw [hnil] at hd
      exact hnarrow front c hd

/-- **One pass keeps the borders**: there is one in front of the region, and the others are those of
what it leaves. -/
theorem bordered_region (r : Region) : Bordered r.text ↔ r.Narrow ∧ Bordered r.after := by
  constructor
  · intro h
    refine ⟨fun front c hbefore => ?_, fun front c scheme after hafter hscheme hsettled => ?_⟩
    · refine h front c r.scheme (r.behind ++ r.after) ?_ r.scheme_chars ?_
      · rw [r.text_eq, hbefore]
        simp only [List.append_assoc, List.cons_append, List.nil_append]
      · intro as bs hsplit
        rw [← hbefore] at hsplit
        exact absurd ⟨as, bs, by rw [hsplit, List.append_assoc]⟩ r.before_free
    · refine h (r.before ++ (r.url ++ front)) c scheme after ?_ hscheme
        ((r.settled_after hafter).mpr hsettled)
      rw [Region.text, hafter]
      simp only [List.append_assoc]
  · rintro ⟨hnarrow, hafter⟩ front c scheme after htext hscheme hsettled
    have hmarks : (r.before ++ r.scheme) ++ (schemeMark ++ (r.behind ++ r.after)) =
        (front ++ c :: scheme) ++ (schemeMark ++ after) := by
      rw [← r.text_eq, htext]
      simp only [List.append_assoc, List.cons_append]
    rcases mark_apart hmarks with ⟨hsame, -⟩ | ⟨cs, hcs, hbehind⟩ | ⟨cs, hcs, -⟩
    · exact r.narrow_at hnarrow hscheme hsame
    · -- the region has ended in front of the character
      have hcons : front ++ [c] ++ scheme = (r.before ++ r.scheme) ++ (schemeMark ++ cs) := by
        rw [← hcs]
        simp only [List.append_assoc, List.singleton_append]
      obtain ⟨ds, hfront, rfl⟩ := mark_scheme hscheme hcons
      obtain ⟨e, hmem, he⟩ := hsettled _ ds hfront
      have hout : e ∉ r.behind := fun hin => by
        have hopen := r.behind_open e hin
        rw [he] at hopen
        exact Bool.noConfusion hopen
      rw [List.append_assoc] at hbehind
      rcases List.append_eq_append_iff.mp hbehind with ⟨d, hd, hrest⟩ | ⟨d, hd, -⟩
      · rcases List.eq_nil_or_concat' d with rfl | ⟨d, c', rfl⟩
        · rw [List.append_nil] at hd
          exact absurd (hd ▸ hmem) hout
        · have hlast : front ++ [c] = r.before ++ (r.url ++ d) ++ [c'] := by
            rw [hfront, hd, Region.url]
            simp only [List.append_assoc]
          obtain ⟨rfl, hc⟩ := List.append_inj' hlast rfl
          obtain rfl := List.singleton_inj.mp hc
          rw [List.append_assoc, List.singleton_append] at hrest
          exact hafter d c scheme after hrest hscheme ((r.settled_after hrest).mp hsettled)
      · exact absurd (hd ▸ List.mem_append_left d hmem) hout
    · exact absurd ⟨_, cs, by rw [hcs, List.append_assoc]⟩ r.first

/-! ## The loop -/

theorem Region.length_after (r : Region) : r.after.length < r.text.length := by
  rw [r.text_eq]
  simp only [List.length_append, schemeMark, List.length_cons]
  omega

/-- The loop is done with a rest without a mark. -/
theorem stripLoop_plain {rest : List Char} (h : ¬ schemeMark <:+: rest) (fuel : Nat)
    (out : List Char) : stripLoop sha256 (fuel + 1) out rest = .ok (out, rest) := by
  rw [stripLoop, stripStep_plain h]
  rfl

theorem stripLoop_region {r : Region} (hr : r.Narrow) {reference : List Char}
    (href : (urlRef sha256 r.url : Checked OutOfFuel _) = .ok reference) (fuel : Nat)
    (out : List Char) : stripLoop sha256 (fuel + 1) out r.text =
      stripLoop sha256 fuel (out ++ (r.before ++ reference)) r.after := by
  rw [stripLoop, stripStep_region hr href]
  rfl

theorem stripLoop_wide {r : Region} (hr : ¬ r.Narrow) (fuel : Nat) (out : List Char) :
    stripLoop sha256 (fuel + 1) out r.text = .error .panic := by
  rw [stripLoop, stripStep_wide hr]
  rfl

/-- **The loop ends**, and it returns exactly when there is always a border. -/
theorem stripLoop_returns (fuel : Nat) (out rest : List Char) (hfuel : rest.length < fuel) :
    stripLoop sha256 fuel out rest ≠ .error (.err .outOfFuel) ∧
      ((∃ result, stripLoop sha256 fuel out rest = .ok result) ↔ Bordered rest) := by
  induction fuel generalizing out rest with
  | zero => omega
  | succ fuel ih =>
    rcases region_cases rest with hplain | ⟨r, rfl⟩
    · rw [stripLoop_plain hplain]
      refine ⟨fun h => ?_, fun _ => bordered_plain hplain, fun _ => ⟨(out, rest), rfl⟩⟩
      cases h
    · rw [bordered_region]
      by_cases hr : r.Narrow
      · obtain ⟨_, _, _, -, -, -, href⟩ := @Region.urlRef_eq OutOfFuel sha256 r
        have hlen := r.length_after
        rw [stripLoop_region hr href, and_iff_right hr]
        exact ih _ r.after (by omega)
      · rw [stripLoop_wide hr]
        refine ⟨fun h => ?_, fun h => ?_, fun h => absurd h.1 hr⟩
        · cases h
        · obtain ⟨result, h⟩ := h
          cases h

/-! ## What the host sees -/

theorem scrubToken_ok (quote : Char) (token : List Char) :
    ∃ shown, (scrubToken sha256 quote token : Checked ε _) = .ok shown := by
  rw [scrubToken]
  obtain ⟨material, href⟩ :=
    @urlPathQueryRef_eq ε sha256 ("https://placeholder.invalid".toList ++ token)
  rw [href]
  split
  · exact ⟨_, rfl⟩
  · exact ⟨_, rfl⟩

/-- The second pass returns. -/
theorem scrubFrom_ok (inside : Option (Char × List Char)) (input : List Char) :
    ∃ out, (scrubFrom sha256 inside input : Checked ε _) = .ok out := by
  induction input generalizing inside with
  | nil =>
    rcases inside with _ | ⟨quote, token⟩
    · exact ⟨[], rfl⟩
    · exact scrubToken_ok quote token
  | cons c cs ih =>
    rcases inside with _ | ⟨quote, token⟩
    · rw [scrubFrom]
      split
      · exact ih _
      · obtain ⟨out, hout⟩ := ih none
        rw [hout]
        exact ⟨_, rfl⟩
    · rw [scrubFrom]
      split
      · obtain ⟨shown, hshown⟩ := @scrubToken_ok ε sha256 quote token
        obtain ⟨out, hout⟩ := ih none
        rw [hshown, hout]
        exact ⟨_, rfl⟩
      · exact ih _

/-- A detail that is left alone has no mark. -/
theorem plainDetail_unmarked {detail : List Char} (h : plainDetail detail = true) :
    ¬ schemeMark <:+: detail := by
  rw [← findStr_eq_none, ← Option.not_isSome_iff_eq_none, Bool.not_eq_true]
  simp only [plainDetail, Bool.and_eq_true, Bool.not_eq_true', Bool.or_eq_false_iff] at h
  exact h.1.1

/-- After the loop comes the second pass. -/
theorem stripUrlShaped_loop {detail out rest : List Char} (hplain : plainDetail detail = false)
    (hloop : stripLoop sha256 (detail.length + 1) [] detail = .ok (out, rest)) :
    ∃ shown, scrubQuotedPaths sha256 rest = (.ok shown : Checked OutOfFuel _) ∧
      stripUrlShaped sha256 detail = .ok (out ++ shown) := by
  obtain ⟨shown, hshown⟩ := @scrubFrom_ok OutOfFuel sha256 none rest
  refine ⟨shown, hshown, ?_⟩
  rw [stripUrlShaped, hplain, hloop, ok_bind]
  show (scrubFrom sha256 none rest >>= _) = _
  rw [hshown]
  rfl

theorem stripUrlShaped_error {detail : List Char} {e : Stop OutOfFuel}
    (hplain : plainDetail detail = false)
    (hloop : stripLoop sha256 (detail.length + 1) [] detail = .error e) :
    stripUrlShaped sha256 detail = .error e := by
  rw [stripUrlShaped, hplain, hloop]
  rfl

/-- **A bordered detail is stripped.** -/
theorem stripUrlShaped_of_bordered {detail : List Char} (h : Bordered detail) :
    ∃ out, stripUrlShaped sha256 detail = .ok out := by
  cases hplain : plainDetail detail with
  | true => exact ⟨detail, if_pos hplain⟩
  | false =>
    obtain ⟨⟨out, rest⟩, hloop⟩ :=
      (@stripLoop_returns sha256 (detail.length + 1) [] detail (Nat.lt_succ_self _)).2.mpr h
    obtain ⟨shown, -, hshown⟩ := stripUrlShaped_loop hplain hloop
    exact ⟨_, hshown⟩

theorem bordered_of_strips {detail out : List Char}
    (h : stripUrlShaped sha256 detail = .ok out) : Bordered detail := by
  cases hplain : plainDetail detail with
  | true => exact bordered_plain (plainDetail_unmarked hplain)
  | false =>
    cases hloop : stripLoop sha256 (detail.length + 1) [] detail with
    | error e =>
      rw [stripUrlShaped_error hplain hloop] at h
      cases h
    | ok result => exact (stripLoop_returns _ _ _ (Nat.lt_succ_self _)).2.mp ⟨result, hloop⟩

/-- **A detail is stripped** exactly when a single byte stands in front of the scheme of every
region; otherwise a slice is cut inside of a character. -/
theorem stripUrlShaped_returns_iff (sha256 : Bytes → Bytes32) (detail : List Char) :
    stripUrlShaped sha256 detail ≠ .error (.err .outOfFuel) ∧
      ((∃ out, stripUrlShaped sha256 detail = .ok out) ↔ Bordered detail) := by
  refine ⟨fun h => ?_, fun h => h.elim fun _ => bordered_of_strips, stripUrlShaped_of_bordered⟩
  cases hplain : plainDetail detail with
  | true =>
    have hshown : stripUrlShaped sha256 detail = .ok detail := if_pos hplain
    rw [hshown] at h
    cases h
  | false =>
    have hends :=
      (@stripLoop_returns sha256 (detail.length + 1) [] detail (Nat.lt_succ_self _)).1
    cases hloop : stripLoop sha256 (detail.length + 1) [] detail with
    | error e =>
      rw [stripUrlShaped_error hplain hloop] at h
      obtain rfl := Except.error.inj h
      exact hends hloop
    | ok result =>
      obtain ⟨shown, -, hshown⟩ := stripUrlShaped_loop hplain hloop
      rw [hshown] at h
      cases h

/-- A quote of two bytes in front of a URL. -/
theorem stripUrlShaped_panics : ¬ ∀ (sha256 : Bytes → Bytes32) (detail : List Char),
    ∃ out, stripUrlShaped sha256 detail = .ok out := by
  intro h
  obtain ⟨out, hout⟩ := h (fun _ => Vector.replicate 32 0) "no route to «https://a.test/»".toList
  have hpanic : stripUrlShaped (fun _ => Vector.replicate 32 0)
      "no route to «https://a.test/»".toList = .error .panic := by rfl
  rw [hpanic] at hout
  cases hout

/-- An error is reported when its text is bordered. -/
theorem hostSafeMessage_returns (sha256 : Bytes → Bytes32) {e : Error}
    (hdisplay : Bordered e.display.toList)
    (hredirect : ∀ detail, e = .redirect detail → Bordered detail.toList) :
    ∃ out, e.hostSafeMessage sha256 = .ok out := by
  unfold Error.hostSafeMessage
  split
  case h_4 detail => exact stripUrlShaped_of_bordered (hredirect detail rfl)
  all_goals first
    | exact stripUrlShaped_of_bordered hdisplay
    | exact ⟨_, rfl⟩

end Basecrawl.Core
