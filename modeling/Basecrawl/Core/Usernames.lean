/-
  User names with country and session tokens.

  1. **Program** — `stripUsernameTemplateTokens` cuts a name at its first delimiter, in any case,
     and `renderUsername` writes `-cc-` and `-sessid-` tokens behind what is left.
  2. **Cutting** — the four searches of the source and its slice leave `beforeToken`, the
     characters in front of the first place where a delimiter starts (`stripTokens_eq`).
  3. **The seam** — a written delimiter can be met before its own place only when the name in front
     of it ends in a delimiter that lacks its last dash (`beforeToken_append`); there a second
     rendering cuts the name shorter.
  4. **Rendering again** — so a rendering is undone and redone exactly for the other names
     (`redecoratesNothing_iff`).
-/
import Mathlib.Data.List.DropRight
import Basecrawl.Core.Proxy
import Basecrawl.Lib.Chars
import Basecrawl.Lib.Slices

namespace Basecrawl.Core

open Text Outcome Panic

/-! ## Program -/

/-- `if let Some(idx) = found { cut = cut.min(idx) }`. -/
def cutBy (cut : Nat) : Option Nat → Nat
  | some idx => min cut idx
  | none => cut

/-- Where a trimmed user name is cut, in bytes. -/
def tokenCut (trimmed : Chars) : Nat :=
  let lower := trimmed.map Char.toLower
  let cut := cutBy (Slices.byteLen trimmed) (Slices.findStr "-cc-".toList trimmed)
  let cut := cutBy cut (Slices.findStr "-sessid-".toList trimmed)
  let cut := cutBy cut (Slices.findStr "-cc-".toList lower)
  cutBy cut (Slices.findStr "-sessid-".toList lower)

/-- `str::trim_end_matches('-')`. -/
def trimDashes (cs : Chars) : Chars := (cs.reverse.dropWhile fun c => c == '-').reverse

/-- `strip_username_template_tokens`. -/
def stripUsernameTemplateTokens (username : String) : Checked Error String := do
  let trimmed := trim username
  if trimmed = "" then return ""
  let kept ← Slices.sliceTo trimmed.toList (tokenCut trimmed.toList)
  return String.ofList (trimDashes kept)

/-- A template, with the placeholders put in; without any it is the whole user name. -/
def renderTemplate (tpl base : String) (country session : Option String) :
    Checked Error (Option String) :=
  if contains tpl "\x7b" then
    let out := replace tpl "\x7buser\x7d" base
    let out := replace out "\x7busername\x7d" base
    let out := replace out "\x7bcountry\x7d" (country.getD "")
    let out := replace out "\x7bcc\x7d" (country.getD "")
    let out := replace out "\x7bsession\x7d" (session.getD "")
    let out := replace out "\x7bsessid\x7d" (session.getD "")
    if contains out "\x7b" then
      fail (.invalidProxy ("username template has unknown placeholders (supported: \x7buser\x7d" ++
        ", \x7busername\x7d, \x7bcountry\x7d, \x7bcc\x7d, \x7bsession\x7d, \x7bsessid\x7d)"))
    else if trim out = "" then return none
    else return some (trim out)
  else return some tpl

/-- The tokens behind the base. -/
def tokens (country session : Option String) : String :=
  ((country.map fun cc => "-cc-" ++ cc).getD "") ++
    ((session.map fun sess => "-sessid-" ++ sess).getD "")

/-- `render_username`. -/
def renderUsername (baseUsername : Option String) (options : UsernameTemplateOptions) :
    Checked Error (Option String) := do
  let rawBase := trim (baseUsername.getD "")
  let base ← stripUsernameTemplateTokens rawBase
  let country := nonBlank options.country
  let session := nonBlank options.session
  match nonBlank options.template with
  | some tpl => renderTemplate tpl base country session
  | none =>
    if country.isNone && session.isNone then
      -- an operator may ship a decorated name
      return if rawBase = "" then none else some rawBase
    else if base = "" then
      fail (.invalidProxy
        "proxy username base is required when country/session template tokens are set")
    else return some (base ++ tokens country session)

/-! ## Cutting -/

/-- A delimiter starts here, in any case. -/
def startsToken (cs : Chars) : Bool :=
  "-cc-".toList.isPrefixOf (cs.map Char.toLower) ||
    "-sessid-".toList.isPrefixOf (cs.map Char.toLower)

/-- The characters in front of the first delimiter. -/
def beforeToken : Chars → Chars
  | [] => []
  | c :: cs => if startsToken (c :: cs) then [] else c :: beforeToken cs

theorem cc_eq : "-cc-".toList = '-' :: (['c', 'c'] ++ ['-']) := String.toList_ofList

theorem sessid_eq : "-sessid-".toList = '-' :: (['s', 'e', 's', 's', 'i', 'd'] ++ ['-']) :=
  String.toList_ofList

theorem beforeToken_front (cs : Chars) : beforeToken cs <+: cs := by
  induction cs with
  | nil => exact List.nil_prefix
  | cons c cs ih =>
    rw [beforeToken]
    split
    · exact List.nil_prefix
    · exact List.cons_prefix_cons.mpr ⟨rfl, ih⟩

theorem cutBy_add (s cut : Nat) (found : Option Nat) :
    cutBy (s + cut) (found.map (s + ·)) = s + cutBy cut found := by
  cases found with
  | none => rfl
  | some idx => exact Nat.add_min_add_left s cut idx

theorem cutBy_zero (found : Option Nat) : cutBy 0 found = 0 := by
  cases found with
  | none => rfl
  | some idx => exact Nat.zero_min idx

/-- Lower case has the bytes of the text. -/
theorem utf8Size_toLower (c : Char) : c.toLower.utf8Size = c.utf8Size := by
  by_cases hascii : c.toNat < 128
  · have hall : ∀ n : Fin 128, (Char.ofNat n).toLower.toNat < 128 := by decide
    have hlow := hall ⟨c.toNat, hascii⟩
    rw [Char.ofNat_toNat] at hlow
    rw [Slices.utf8Size_ascii.mpr hascii, Slices.utf8Size_ascii.mpr hlow]
  · rw [toLower_of_not_ascii hascii]

theorem findStr_cons {pat : Chars} {c : Char} {cs : Chars} (h : pat.isPrefixOf (c :: cs) = false) :
    Slices.findStr pat (c :: cs) = (Slices.findStr pat cs).map (c.utf8Size + ·) := by
  rw [Slices.findStr, if_neg (by rw [h]; exact Bool.false_ne_true)]

theorem findStr_here {pat : Chars} {c : Char} {cs : Chars} (h : pat.isPrefixOf (c :: cs) = true) :
    Slices.findStr pat (c :: cs) = some 0 := by
  rw [Slices.findStr, if_pos h]

/-- A delimiter in its own case is one in any case. -/
theorem isPrefixOf_lower {pat cs : Chars} (hpat : pat.map Char.toLower = pat)
    (h : pat.isPrefixOf (cs.map Char.toLower) = false) : pat.isPrefixOf cs = false := by
  cases hcs : pat.isPrefixOf cs with
  | false => rfl
  | true =>
    obtain ⟨rest, rfl⟩ := List.isPrefixOf_iff_prefix.mp hcs
    rw [List.map_append, hpat, List.isPrefixOf_iff_prefix.mpr (List.prefix_append _ _)] at h
    cases h

/-- The least of the four places is the first delimiter. -/
theorem tokenCut_eq (cs : Chars) : tokenCut cs = Slices.byteLen (beforeToken cs) := by
  have hcc : "-cc-".toList.map Char.toLower = "-cc-".toList := by
    rw [cc_eq]
    decide
  have hsessid : "-sessid-".toList.map Char.toLower = "-sessid-".toList := by
    rw [sessid_eq]
    decide
  induction cs with
  | nil =>
    rw [tokenCut, cc_eq, sessid_eq]
    rfl
  | cons c cs ih =>
    rw [beforeToken]
    split
    · next hstart =>
      rw [startsToken, Bool.or_eq_true] at hstart
      show tokenCut (c :: cs) = 0
      rcases hstart with hstart | hstart
      · rw [List.map_cons] at hstart
        rw [tokenCut, List.map_cons, findStr_here hstart]
        show cutBy (min _ 0) _ = 0
        rw [Nat.min_zero, cutBy_zero]
      · rw [List.map_cons] at hstart
        rw [tokenCut, List.map_cons, findStr_here hstart]
        exact Nat.min_zero _
    · next hstart =>
      rw [Bool.not_eq_true, startsToken, Bool.or_eq_false_iff] at hstart
      obtain ⟨hstartCc, hstartSessid⟩ := hstart
      rw [Slices.byteLen, ← ih, tokenCut, tokenCut, List.map_cons,
        findStr_cons (isPrefixOf_lower hcc hstartCc),
        findStr_cons (isPrefixOf_lower hsessid hstartSessid)]
      rw [List.map_cons] at hstartCc hstartSessid
      rw [findStr_cons hstartCc, findStr_cons hstartSessid, utf8Size_toLower, Slices.byteLen]
      rw [cutBy_add, cutBy_add, cutBy_add, cutBy_add]

/-- **What is kept of a name**: the slice is in bounds, at a character. -/
theorem stripTokens_eq (username : String) : stripUsernameTemplateTokens username =
    .ok (String.ofList (trimDashes (beforeToken (trim username).toList))) := by
  rw [stripUsernameTemplateTokens]
  split
  · next hempty =>
    rw [hempty]
    rfl
  · obtain ⟨rest, hrest⟩ := beforeToken_front (trim username).toList
    have hslice : (Slices.sliceTo (trim username).toList (tokenCut (trim username).toList) :
        Checked Error Chars) = .ok (beforeToken (trim username).toList) := by
      rw [tokenCut_eq]
      nth_rewrite 1 [← hrest]
      exact Slices.sliceTo_append _ rest
    rw [hslice]
    rfl

/-! ## The seam -/

/-- A delimiter that reaches past a text into a dash is inside of the text, or all of it but its
    last dash. -/
theorem straddles {m y t : Chars} (hm : '-' ∉ m) (hy : y ≠ [])
    (h : '-' :: (m ++ ['-']) <+: y ++ '-' :: t) : '-' :: (m ++ ['-']) <+: y ∨ y = '-' :: m := by
  rcases Nat.lt_or_ge y.length ('-' :: (m ++ ['-'])).length with hlt | hge
  · right
    obtain ⟨q, hq⟩ : y <+: '-' :: (m ++ ['-']) :=
      List.prefix_of_prefix_length_le (List.prefix_append _ _) h (Nat.le_of_lt hlt)
    obtain ⟨a, y, rfl⟩ := List.exists_cons_of_ne_nil hy
    obtain ⟨rfl, hrest⟩ := List.cons.inj hq
    -- what reaches past is not empty, and starts with the dash of the other text
    rw [← hq] at h
    rw [List.prefix_append_right_inj] at h
    cases q with
    | nil =>
      rw [← hq, List.append_nil] at hlt
      omega
    | cons b q =>
      obtain ⟨rfl, -⟩ := List.cons_prefix_cons.mp h
      rcases List.append_eq_append_iff.mp hrest with ⟨z, hz, hz'⟩ | ⟨z, hz, hz'⟩
      · cases z with
        | nil =>
          rw [hz, List.append_nil]
        | cons d z =>
          obtain ⟨rfl, -⟩ := List.cons.inj hz'
          rw [hz] at hm
          exact absurd (List.mem_append_right _ List.mem_cons_self) hm
      · have hlen := congrArg List.length hz'
        simp only [List.length_append, List.length_cons, List.length_nil] at hlen
        rw [hz, List.eq_nil_of_length_eq_zero (show z.length = 0 by omega), List.append_nil]
  · left
    exact List.prefix_of_prefix_length_le h (List.prefix_append _ _) hge

/-- The text ends in a delimiter that lacks its last dash, in any case. -/
def EndsOpen (cs : Chars) : Prop :=
  "-cc".toList <:+ cs.map Char.toLower ∨ "-sessid".toList <:+ cs.map Char.toLower

instance (cs : Chars) : Decidable (EndsOpen cs) :=
  inferInstanceAs (Decidable ("-cc".toList <:+ cs.map Char.toLower ∨
    "-sessid".toList <:+ cs.map Char.toLower))

theorem startsToken_iff {cs : Chars} : startsToken cs = true ↔
    "-cc-".toList <+: cs.map Char.toLower ∨ "-sessid-".toList <+: cs.map Char.toLower := by
  rw [startsToken, Bool.or_eq_true, List.isPrefixOf_iff_prefix, List.isPrefixOf_iff_prefix]

theorem startsToken_append {cs : Chars} (h : startsToken cs = true) (rest : Chars) :
    startsToken (cs ++ rest) = true := by
  rw [startsToken_iff, List.map_append]
  exact (startsToken_iff.mp h).imp (fun hp => hp.trans (List.prefix_append _ _))
    fun hp => hp.trans (List.prefix_append _ _)

/-- In front of a written delimiter, a place where one starts is in the name or at its open end. -/
theorem startsToken_seam {y t : Chars} (hy : y ≠ []) :
    startsToken (y ++ '-' :: t) = true ↔ startsToken y = true ∨
      (y.map Char.toLower = "-cc".toList ∨ y.map Char.toLower = "-sessid".toList) ∧
        startsToken (y ++ '-' :: t) = true := by
  constructor
  · intro h
    have hmap : (y ++ '-' :: t).map Char.toLower =
        y.map Char.toLower ++ '-' :: t.map Char.toLower := by
      rw [List.map_append, List.map_cons]
      rfl
    have hne : y.map Char.toLower ≠ [] := fun hnil => hy (List.map_eq_nil_iff.mp hnil)
    have hwhole := h
    rw [startsToken_iff, hmap, cc_eq, sessid_eq] at h
    rcases h with h | h
    · rcases straddles (by decide) hne h with hin | hend
      · exact Or.inl (startsToken_iff.mpr (Or.inl (cc_eq ▸ hin)))
      · exact Or.inr ⟨Or.inl (hend.trans String.toList_ofList.symm), hwhole⟩
    · rcases straddles (by decide) hne h with hin | hend
      · exact Or.inl (startsToken_iff.mpr (Or.inr (sessid_eq ▸ hin)))
      · exact Or.inr ⟨Or.inr (hend.trans String.toList_ofList.symm), hwhole⟩
  · rintro (h | ⟨-, h⟩)
    · exact startsToken_append h _
    · exact h

/-- No delimiter starts anywhere in the text. -/
def Tokenless (cs : Chars) : Prop := ∀ x y, cs = x ++ y → startsToken y = false

theorem Tokenless.of_append {a b : Chars} (h : Tokenless (a ++ b)) : Tokenless a := by
  intro x y hxy
  cases hy : startsToken y with
  | false => rfl
  | true =>
    have hwhole := h x (y ++ b) (by rw [hxy, List.append_assoc])
    rw [startsToken_append hy b] at hwhole
    cases hwhole

theorem Tokenless.tail {c : Char} {cs : Chars} (h : Tokenless (c :: cs)) : Tokenless cs :=
  fun x y hxy => h (c :: x) y (by rw [hxy]; rfl)

theorem tokenless_beforeToken (cs : Chars) : Tokenless (beforeToken cs) := by
  induction cs with
  | nil =>
    intro x y hxy
    rw [(List.append_eq_nil_iff.mp hxy.symm).2]
    rfl
  | cons c cs ih =>
    rw [beforeToken]
    split
    · intro x y hxy
      rw [(List.append_eq_nil_iff.mp hxy.symm).2]
      rfl
    · next hstart =>
      intro x y hxy
      cases x with
      | nil =>
        obtain rfl : c :: beforeToken cs = y := hxy
        obtain ⟨rest, hrest⟩ := beforeToken_front cs
        cases hy : startsToken (c :: beforeToken cs) with
        | false => rfl
        | true =>
          have hwhole := startsToken_append hy rest
          rw [List.cons_append, hrest] at hwhole
          exact absurd hwhole hstart
      | cons d x =>
        obtain ⟨-, hrest⟩ := List.cons.inj hxy
        exact ih x y hrest

theorem trimDashes_front (cs : Chars) : trimDashes cs <+: cs := by
  rw [← List.reverse_suffix, trimDashes, List.reverse_reverse]
  exact List.dropWhile_suffix _

theorem trimDashes_trimDashes (cs : Chars) : trimDashes (trimDashes cs) = trimDashes cs := by
  rw [trimDashes, trimDashes, List.reverse_reverse]
  rw [List.dropWhile_idempotent]

/-- **Behind a closed name** the written delimiter is the first one. -/
theorem beforeToken_append {kept t : Chars} (hkept : Tokenless kept) (hclosed : ¬ EndsOpen kept)
    (ht : startsToken ('-' :: t) = true) : beforeToken (kept ++ '-' :: t) = kept := by
  induction kept with
  | nil => exact if_pos ht
  | cons c kept ih =>
    have htail : ¬ EndsOpen kept := fun hopen => hclosed (hopen.imp
      (fun h => h.trans (List.suffix_cons _ _)) fun h => h.trans (List.suffix_cons _ _))
    have hno : ¬ startsToken (c :: kept ++ '-' :: t) = true := by
      rw [startsToken_seam (List.cons_ne_nil c kept), hkept [] _ rfl]
      rintro (h | ⟨h | h, -⟩)
      · cases h
      · exact hclosed (Or.inl (h ▸ List.suffix_refl _))
      · exact hclosed (Or.inr (h ▸ List.suffix_refl _))
    rw [List.cons_append, beforeToken, ← List.cons_append, if_neg hno, ih hkept.tail htail]

/-- What is kept in front of a delimiter is not more than what stands in front of it. -/
theorem length_beforeToken_le {t : Chars} (ht : startsToken t = true) (cs : Chars) :
    (beforeToken (cs ++ t)).length ≤ cs.length := by
  induction cs with
  | nil =>
    cases t with
    | nil => exact Nat.le_refl 0
    | cons d t =>
      rw [List.nil_append, beforeToken, if_pos ht]
  | cons c cs ih =>
    rw [List.cons_append, beforeToken]
    split
    · exact Nat.zero_le _
    · exact Nat.succ_le_succ ih

/-- Behind an open name the written dash completes an earlier delimiter. -/
theorem length_beforeToken_lt {kept t : Chars} (hopen : EndsOpen kept) :
    (beforeToken (kept ++ '-' :: t)).length < kept.length := by
  obtain ⟨front, y, rfl, hy⟩ : ∃ front y, kept = front ++ y ∧
      (y.map Char.toLower = "-cc".toList ∨ y.map Char.toLower = "-sessid".toList) := by
    rcases hopen with ⟨front, h⟩ | ⟨front, h⟩
    · obtain ⟨x, y, rfl, -, hy⟩ := List.map_eq_append_iff.mp h.symm
      exact ⟨x, y, rfl, Or.inl hy⟩
    · obtain ⟨x, y, rfl, -, hy⟩ := List.map_eq_append_iff.mp h.symm
      exact ⟨x, y, rfl, Or.inr hy⟩
  have hstart : startsToken (y ++ '-' :: t) = true := by
    rw [startsToken_iff, List.map_append]
    rcases hy with hy | hy
    · left
      rw [hy]
      exact ⟨t.map Char.toLower, rfl⟩
    · right
      rw [hy]
      exact ⟨t.map Char.toLower, rfl⟩
  have hpos : 0 < y.length := by
    rcases hy with hy | hy
    · have hlen := congrArg List.length hy
      rw [List.length_map] at hlen
      rw [hlen]
      decide
    · have hlen := congrArg List.length hy
      rw [List.length_map] at hlen
      rw [hlen]
      decide
  have hle := length_beforeToken_le hstart front
  rw [List.append_assoc, List.length_append]
  omega

/-! ## Rendering again -/

/-- A setting that counts is trimmed and not empty. -/
theorem nonBlank_eq_some {setting : Option String} {v : String} (h : nonBlank setting = some v) :
    v.toList ≠ [] ∧ Chars.Solid v.toList := by
  obtain ⟨hsome, hne⟩ := Option.filter_eq_some_iff.mp h
  obtain ⟨raw, -, rfl⟩ := Option.map_eq_some_iff.mp hsome
  refine ⟨fun hnil => ?_, ?_⟩
  · rw [String.toList_inj.mp (hnil.trans String.toList_empty.symm)] at hne
    exact absurd hne (by decide)
  · have hsolid := Chars.solid_trim raw.toList
    rw [trim, String.toList_ofList]
    exact hsolid

/-- What is written behind the base: a delimiter, and no white space at the end. -/
theorem tokens_spec {country session : Option String}
    (hsome : ¬ (nonBlank country = none ∧ nonBlank session = none)) :
    ∃ t, (tokens (nonBlank country) (nonBlank session)).toList = '-' :: t ∧
      startsToken ('-' :: t) = true ∧
      ∀ c, ('-' :: t).getLast? = some c → isWhitespace c = false := by
  have hlast : ∀ {front v : Chars}, v ≠ [] → Chars.Solid v →
      ∀ c, (front ++ v).getLast? = some c → isWhitespace c = false := by
    intro front v hv hsolid c hc
    rw [List.getLast?_append_of_ne_nil _ hv] at hc
    exact hsolid.last c hc
  have hcc : ∀ t, startsToken ("-cc-".toList ++ t) = true := fun t =>
    startsToken_append (by rw [cc_eq]; decide) t
  have hsessid : ∀ t, startsToken ("-sessid-".toList ++ t) = true := fun t =>
    startsToken_append (by rw [sessid_eq]; decide) t
  have hshape : ∀ {a b : Chars}, a = b → a.head? = some '-' → startsToken a = true →
      (∀ c, a.getLast? = some c → isWhitespace c = false) → ∃ t, b = '-' :: t ∧
        startsToken ('-' :: t) = true ∧
          ∀ c, ('-' :: t).getLast? = some c → isWhitespace c = false := by
    rintro a b rfl hhead hstart hend
    cases a with
    | nil => cases hhead
    | cons d t =>
      obtain rfl := Option.some.inj hhead
      exact ⟨t, rfl, hstart, hend⟩
  cases hcountry : nonBlank country with
  | none =>
    cases hsession : nonBlank session with
    | none => exact absurd ⟨hcountry, hsession⟩ hsome
    | some sess =>
      obtain ⟨hne, hsolid⟩ := nonBlank_eq_some hsession
      refine hshape (a := "-sessid-".toList ++ sess.toList) ?_ ?_ (hsessid _) (hlast hne hsolid)
      · simp [tokens]
      · rw [sessid_eq]
        rfl
  | some cc =>
    obtain ⟨hne, hsolid⟩ := nonBlank_eq_some hcountry
    cases hsession : nonBlank session with
    | none =>
      refine hshape (a := "-cc-".toList ++ cc.toList) ?_ ?_ (hcc _) (hlast hne hsolid)
      · simp [tokens]
      · rw [cc_eq]
        rfl
    | some sess =>
      obtain ⟨hne', hsolid'⟩ := nonBlank_eq_some hsession
      refine hshape (a := "-cc-".toList ++ (cc.toList ++ ("-sessid-".toList ++ sess.toList)))
        ?_ ?_ (hcc _) ?_
      · simp [tokens]
      · rw [cc_eq]
        rfl
      · rw [← List.append_assoc, ← List.append_assoc]
        exact hlast hne' hsolid'

/-- The base of a name. -/
def baseOf (baseUsername : Option String) : Chars :=
  trimDashes (beforeToken (trim (baseUsername.getD "")).toList)

theorem trim_trim (s : String) : trim (trim s) = trim s := trim_solid (solid_trim_toList s)

/-- **A rendering without a template.** -/
theorem renderUsername_eq {baseUsername : Option String} {options : UsernameTemplateOptions}
    (htemplate : nonBlank options.template = none) : renderUsername baseUsername options =
      if (nonBlank options.country).isNone && (nonBlank options.session).isNone then
        .ok (if trim (baseUsername.getD "") = "" then none else some (trim (baseUsername.getD "")))
      else if baseOf baseUsername = [] then
        fail (.invalidProxy
          "proxy username base is required when country/session template tokens are set")
      else .ok (some (String.ofList (baseOf baseUsername) ++
        tokens (nonBlank options.country) (nonBlank options.session))) := by
  rw [renderUsername, stripTokens_eq, trim_trim, ok_bind, htemplate]
  have hempty : String.ofList (baseOf baseUsername) = "" ↔ baseOf baseUsername = [] := by
    rw [← String.toList_inj, String.toList_ofList, String.toList_empty]
  show (if _ then _ else if String.ofList (baseOf baseUsername) = "" then _ else _) = _
  rw [if_congr hempty rfl rfl]
  rfl

/-- The base that is kept ends in a delimiter that lacks its last dash. -/
def SeamOpen (baseUsername : Option String) : Prop :=
  ∃ kept, stripUsernameTemplateTokens (trim (baseUsername.getD "")) = .ok kept ∧
    EndsOpen kept.toList

/-- A rendered name is rendered as itself, and under other tokens as the name it came from. -/
def RedecoratesNothing (baseUsername : Option String) (options : UsernameTemplateOptions) : Prop :=
  ∀ u, renderUsername baseUsername options = .ok (some u) →
    renderUsername (some u) options = .ok (some u) ∧
    ∀ other : UsernameTemplateOptions, nonBlank other.template = none →
      ¬ (nonBlank other.country = none ∧ nonBlank other.session = none) →
      renderUsername (some u) other = renderUsername baseUsername other

/-- **Decoration is idempotent** for every name and all tokens. -/
def DecorationIdempotent : Prop :=
  ∀ (baseUsername : Option String) (options : UsernameTemplateOptions),
    nonBlank options.template = none → RedecoratesNothing baseUsername options

theorem seamOpen_iff {baseUsername : Option String} :
    SeamOpen baseUsername ↔ EndsOpen (baseOf baseUsername) := by
  unfold SeamOpen
  rw [stripTokens_eq, trim_trim]
  constructor
  · rintro ⟨kept, hkept, hopen⟩
    rw [← Except.ok.inj hkept, String.toList_ofList] at hopen
    exact hopen
  · intro hopen
    refine ⟨_, rfl, ?_⟩
    rw [String.toList_ofList]
    exact hopen

/-- A rendered name has no white ends. -/
theorem solid_rendered {baseUsername : Option String} {t : Chars} (hne : baseOf baseUsername ≠ [])
    (hlast : ∀ c, ('-' :: t).getLast? = some c → isWhitespace c = false) :
    Chars.Solid (baseOf baseUsername ++ '-' :: t) where
  head := by
    intro c hc
    rw [List.head?_append_of_ne_nil _ hne] at hc
    obtain ⟨rest, hrest⟩ := (trimDashes_front _).trans
      (beforeToken_front (trim (baseUsername.getD "")).toList)
    refine (solid_trim_toList (baseUsername.getD "")).head c ?_
    have hhead : (baseOf baseUsername ++ rest).head? = (baseOf baseUsername).head? :=
      List.head?_append_of_ne_nil _ hne
    rw [← hrest]
    exact hhead.trans hc
  last := by
    intro c hc
    rw [List.getLast?_append_of_ne_nil _ (List.cons_ne_nil _ _)] at hc
    exact hlast c hc

/-- The base of a rendered name. -/
theorem baseOf_rendered {baseUsername : Option String} {u : String} {t : Chars}
    (hne : baseOf baseUsername ≠ [])
    (hlast : ∀ c, ('-' :: t).getLast? = some c → isWhitespace c = false)
    (hu : u.toList = baseOf baseUsername ++ '-' :: t) :
    baseOf (some u) = trimDashes (beforeToken (baseOf baseUsername ++ '-' :: t)) := by
  have hsolid : Chars.Solid u.toList := by
    rw [hu]
    exact solid_rendered hne hlast
  rw [baseOf, Option.getD_some, trim_solid hsolid, hu]

/-- Behind a closed base the rendered name has that base again. -/
theorem baseOf_closed {baseUsername : Option String} {t : Chars}
    (hclosed : ¬ EndsOpen (baseOf baseUsername)) (hstart : startsToken ('-' :: t) = true) :
    trimDashes (beforeToken (baseOf baseUsername ++ '-' :: t)) = baseOf baseUsername := by
  have htokenless : Tokenless (baseOf baseUsername) := by
    obtain ⟨rest, hrest⟩ := trimDashes_front (beforeToken (trim (baseUsername.getD "")).toList)
    have hall := tokenless_beforeToken (trim (baseUsername.getD "")).toList
    rw [← hrest] at hall
    exact hall.of_append
  rw [beforeToken_append htokenless hclosed hstart]
  exact trimDashes_trimDashes _

/-- Behind an open base it has a shorter one. -/
theorem length_baseOf_open {baseUsername : Option String} {t : Chars}
    (hopen : EndsOpen (baseOf baseUsername)) :
    (trimDashes (beforeToken (baseOf baseUsername ++ '-' :: t))).length <
      (baseOf baseUsername).length :=
  Nat.lt_of_le_of_lt (trimDashes_front _).length_le (length_beforeToken_lt hopen)

/-- Without tokens the name is the trimmed one. -/
theorem redecorates_undecorated {baseUsername : Option String} {options : UsernameTemplateOptions}
    (htemplate : nonBlank options.template = none)
    (hnone : nonBlank options.country = none ∧ nonBlank options.session = none) :
    RedecoratesNothing baseUsername options := by
  intro u hu
  have hboth : ((nonBlank options.country).isNone && (nonBlank options.session).isNone) = true := by
    rw [hnone.1, hnone.2]
    rfl
  rw [renderUsername_eq htemplate, if_pos hboth, Except.ok.injEq] at hu
  split at hu
  · cases hu
  · next hne =>
    obtain rfl := Option.some.inj hu
    have hbase : baseOf (some (trim (baseUsername.getD ""))) = baseOf baseUsername := by
      rw [baseOf, Option.getD_some, trim_trim]
      rfl
    constructor
    · rw [renderUsername_eq htemplate, if_pos hboth, Option.getD_some, trim_trim, if_neg hne]
    · intro other htpl hother
      rw [renderUsername_eq htpl, renderUsername_eq htpl, hbase, Option.getD_some, trim_trim]

/-- A rendering with tokens. -/
theorem renderUsername_tokens {baseUsername : Option String} {options : UsernameTemplateOptions}
    (htemplate : nonBlank options.template = none)
    (hsome : ¬ (nonBlank options.country = none ∧ nonBlank options.session = none)) :
    renderUsername baseUsername options =
      if baseOf baseUsername = [] then
        fail (.invalidProxy
          "proxy username base is required when country/session template tokens are set")
      else .ok (some (String.ofList (baseOf baseUsername) ++
        tokens (nonBlank options.country) (nonBlank options.session))) := by
  rw [renderUsername_eq htemplate, if_neg]
  intro h
  rw [Bool.and_eq_true, Option.isNone_iff_eq_none, Option.isNone_iff_eq_none] at h
  exact hsome h

/-- **Rendering again** changes nothing exactly when no tokens are asked for, or the kept base is
    closed. -/
theorem redecoratesNothing_iff (baseUsername : Option String) (options : UsernameTemplateOptions)
    (htemplate : nonBlank options.template = none) :
    RedecoratesNothing baseUsername options ↔
      (nonBlank options.country = none ∧ nonBlank options.session = none) ∨
        ¬ SeamOpen baseUsername := by
  rw [seamOpen_iff]
  by_cases hnone : nonBlank options.country = none ∧ nonBlank options.session = none
  · exact iff_of_true (redecorates_undecorated htemplate hnone) (Or.inl hnone)
  rw [or_iff_right hnone]
  have hrender : renderUsername baseUsername options = _ :=
    renderUsername_tokens htemplate hnone
  by_cases hempty : baseOf baseUsername = []
  · -- without a base there is nothing to write behind
    rw [if_pos hempty] at hrender
    refine iff_of_true (fun u hu => ?_) ?_
    · rw [hrender] at hu
      cases hu
    · rw [hempty]
      decide
  rw [if_neg hempty] at hrender
  obtain ⟨t, ht, hstart, hlast⟩ := tokens_spec hnone
  obtain ⟨u, hu⟩ : ∃ u, String.ofList (baseOf baseUsername) ++
    tokens (nonBlank options.country) (nonBlank options.session) = u := ⟨_, rfl⟩
  have hlist : u.toList = baseOf baseUsername ++ '-' :: t := by
    rw [← hu, String.toList_append, String.toList_ofList, ht]
  have hbase := baseOf_rendered hempty hlast hlist
  have hagain : renderUsername (some u) options = _ := renderUsername_tokens htemplate hnone
  constructor
  · intro hsame hopen
    have hshorter := length_baseOf_open (t := t) hopen
    rw [← hbase] at hshorter
    have hself := (hsame u (hu ▸ hrender)).1
    rw [hagain] at hself
    split at hself
    · cases hself
    · -- the same tokens behind less
      have hlen := congrArg (fun s => s.toList.length) (Option.some.inj (Except.ok.inj hself))
      simp only [String.toList_append, String.toList_ofList, ht, hlist, List.length_append] at hlen
      omega
  · intro hclosed v hv
    obtain rfl := Option.some.inj (Except.ok.inj ((hu ▸ hrender).symm.trans hv))
    rw [baseOf_closed hclosed hstart] at hbase
    constructor
    · rw [hagain, hbase, if_neg hempty, hu]
    · intro other htpl hother
      rw [renderUsername_tokens htpl hother, renderUsername_tokens htpl hother, hbase]

/-- `customer-x-cc-US`, written twice. -/
theorem redecoratesNothing_customer :
    RedecoratesNothing (some "customer-x") ⟨some "US", none, none⟩ ↔
      (nonBlank (some "US") = none ∧ nonBlank none = none) ∨ ¬ SeamOpen (some "customer-x") :=
  redecoratesNothing_iff (some "customer-x") ⟨some "US", none, none⟩ rfl

/-- `acme-cc` is `acme-cc-cc-US`, and then `acme-cc-US`. -/
theorem not_decorationIdempotent : ¬ DecorationIdempotent := by
  intro h
  have hfirst : renderUsername (some "acme-cc") ⟨some "US", none, none⟩ =
      .ok (some "acme-cc-cc-US") := by
    rw [renderUsername_tokens rfl (by decide), if_neg (by decide)]
    rw [Except.ok.injEq]
    decide
  have hagain : renderUsername (some "acme-cc-cc-US") ⟨some "US", none, none⟩ =
      .ok (some "acme-cc-US") := by
    rw [renderUsername_tokens rfl (by decide), if_neg (by decide)]
    rw [Except.ok.injEq]
    decide
  have hsame := (h (some "acme-cc") ⟨some "US", none, none⟩ rfl _ hfirst).1
  rw [hagain] at hsame
  exact absurd (Option.some.inj (Except.ok.inj hsame)) (by decide)

end Basecrawl.Core
