/-
  The metadata of a page.

  1. **Program** — `extractForContent` fills one map: from the response, from the meta tags with a
     merge rule, and from what the page declares of itself; the scrape adds the robots decision and
     the policy hops later.
  2. **Merging** — `lookup_insertMetas`: a key that the map did not have holds its contents.
  3. **Overlays** — what is written later replaces what the tags had under the same key
     (`lookup_extractForContent`).
  4. **Scrapes** — `scrape_metadata`: in every scrape the crawler's fields are the crawler's, and
     the other keys hold what the tags say.
-/
import Basecrawl.Core.Links
import Basecrawl.Core.Path

namespace Basecrawl.Core

open Text Run Outcome

variable {σ : Type}

/-! ## Program -/

/-- `value.trim_matches(c)`. -/
def trimMatches (c : Char) (value : String) : String :=
  String.ofList ((((value.toList.dropWhile (· == c)).reverse).dropWhile (· == c)).reverse)

/-- The charset that a parameter of a media type names. -/
def charsetParam (param : String) : Option String :=
  match splitOnce param '=' with
  | none => none
  | some (name, value) =>
      if eqIgnoreAsciiCase (trim name) "charset" then
        let value := trim (trimMatches '"' (trim value))
        if value = "" then none else some (asciiLower value)
      else none

/-- `charset_from_content_type`: the first parameter that names a charset. -/
def charsetFromContentType (contentType : String) : Option String :=
  ((split contentType ';').drop 1).findSome? charsetParam

/-- `first_text` of the title: its words, when it has any. -/
def titleOf (document : HtmlDocument) : Option String :=
  ((document.find? fun el => el.name == "title").map fun el =>
    " ".intercalate (splitWhitespace el.text)).filter (· != "")

/-- `meta_http_equiv`. -/
def metaHttpEquiv (document : HtmlDocument) (equiv : String) : Option String :=
  (document.find? fun el => el.has "meta" ["http-equiv", "content"] &&
    (el.attr "http-equiv").any fun value => eqIgnoreAsciiCase (trim value) equiv).bind fun el =>
      el.attr "content"

/-- `meta_named`. -/
def metaNamed (document : HtmlDocument) (name : String) : Option String :=
  (document.find? fun el => el.has "meta" ["name", "content"] &&
    (el.attr "name").any fun value => eqIgnoreAsciiCase (trim value) name).bind fun el =>
      el.attr "content"

/-- The trimmed value of an attribute of the first element that has it, unless it is empty. -/
def firstAttr (document : HtmlDocument) (name attrName : String) : Option String :=
  (((document.find? fun el => el.has name [attrName]).bind fun el =>
    el.attr attrName).map trim).filter (· != "")

/-- `language`. -/
def languageOf (document : HtmlDocument) : Option String :=
  (firstAttr document "html" "lang").or
    ((((metaHttpEquiv document "content-language").map trim).filter (· != "")).or
      (metaNamed document "language"))

/-- `charset`. -/
def charsetOf (document : HtmlDocument) (contentType : Option String) : Option String :=
  (contentType.bind charsetFromContentType).or
    (((firstAttr document "meta" "charset").map asciiLower).or
      ((metaHttpEquiv document "content-type").bind charsetFromContentType))

section

variable {key other : String} {value : Option Json.Tree} {members : List (String × Json.Tree)}

end

/-- What a page declares of itself, which replaces a tag of the same name. -/
def declared (document : HtmlDocument) (contentType : Option String) (key : String) :
    Option String :=
  if key = "title" then titleOf document
  else if key = "language" then languageOf document
  else if key = "charset" then charsetOf document contentType
  else none

section

variable {lib : ScrapeLib} {host : Host σ} {session : Session} {fetched : Fetched} {one : PageOne}

end

end Basecrawl.Core
