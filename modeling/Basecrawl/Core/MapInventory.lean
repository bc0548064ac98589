/-
  What a map-lite run accounts for.

  The seed, its links and the sitemap URLs go through one capped list without repetitions, and the
  two counters are kept apart from it.

  1. **Inventories** — `Inventory.Agrees`: the visited set holds what the list holds.  Then a push
     is one into a capped list, and the counter says by how much the list has grown.
  2. **Results** — `MapResult.Accounts`: what a run returns, given the links and the sitemap URLs.
  3. **Runs** — the seed fills the first place, its links come next, the sitemaps last
     (`mapLite_accounts`).
-/
import Basecrawl.Core.MapLite
import Basecrawl.Lib.Distinct

namespace Basecrawl.Core

open Text Outcome Run Distinct

variable {σ : Type}

/-! ## Inventories -/

/-- The visited set holds what the list holds. -/
def Inventory.Agrees (inventory : Inventory) : Prop :=
  ∀ raw, raw ∈ inventory.seen ↔ raw ∈ inventory.ordered

section

variable {inventory : Inventory} {max : Nat} {raw : String}

theorem Inventory.Agrees.pushUrl (h : inventory.Agrees) (max : Nat) (raw : String) :
    (inventory.pushUrl max raw).Agrees := by
  unfold Inventory.pushUrl
  split
  · exact h
  split
  · exact h
  · intro other
    rw [List.mem_cons, List.mem_append, List.mem_singleton, h other, or_comm]

/-- A push is one into the list. -/
theorem Inventory.pushUrl_ordered (h : inventory.Agrees) :
    (inventory.pushUrl max raw).ordered = push max inventory.ordered raw := by
  unfold Inventory.pushUrl push
  split
  · rfl
  by_cases hseen : raw ∈ inventory.ordered
  · rw [if_pos (List.contains_iff_mem.mpr ((h raw).mpr hseen)), if_pos hseen]
  · rw [if_neg (fun hin => hseen ((h raw).mp (List.contains_iff_mem.mp hin))), if_neg hseen]

/-- The counter grows with the list. -/
theorem Inventory.pushUrl_added (inventory : Inventory) (max : Nat) (raw : String) :
    (inventory.pushUrl max raw).ordered.length + inventory.added =
      inventory.ordered.length + (inventory.pushUrl max raw).added := by
  unfold Inventory.pushUrl
  split
  · rfl
  split
  · rfl
  · show (inventory.ordered ++ [raw]).length + inventory.added =
      inventory.ordered.length + (inventory.added + 1)
    rw [List.length_append, List.length_singleton]
    omega

/-- Pushing links in turn collects them. -/
theorem Inventory.pushAll_spec (max : Nat) (h : inventory.Agrees) (links : List String) :
    (links.foldl (Inventory.pushUrl · max) inventory).Agrees ∧
    (links.foldl (Inventory.pushUrl · max) inventory).ordered =
      collect max inventory.ordered links ∧
    (links.foldl (Inventory.pushUrl · max) inventory).ordered.length + inventory.added =
      inventory.ordered.length + (links.foldl (Inventory.pushUrl · max) inventory).added := by
  induction links generalizing inventory with
  | nil => exact ⟨h, rfl, rfl⟩
  | cons link links ih =>
    rw [List.foldl_cons, collect_cons, ← pushUrl_ordered h]
    obtain ⟨hagrees, hordered, hadded⟩ := ih (Agrees.pushUrl h max link)
    have hpush := pushUrl_added inventory max link
    exact ⟨hagrees, hordered, by omega⟩

/-- The admitted links are collected, and counted. -/
theorem Inventory.admitAll_spec (lib : UrlLib) (options : MapOptions) (seed : Url)
    (h : inventory.Agrees) (links : List String) :
    (inventory.admitAll lib options seed links).Agrees ∧
    (inventory.admitAll lib options seed links).ordered = collect options.maxUrls inventory.ordered
      (links.filter (isAdmitted lib · seed options.sameOriginOnly)) ∧
    (inventory.admitAll lib options seed links).ordered.length =
      inventory.ordered.length + (inventory.admitAll lib options seed links).added := by
  have hstart : ({ inventory with added := 0 } : Inventory).Agrees := h
  have hpushed := pushAll_spec options.maxUrls hstart
    (links.filter (isAdmitted lib · seed options.sameOriginOnly))
  rw [List.foldl_filter] at hpushed
  exact hpushed

end

/-! ## Results -/

/-- The host of a web URL is in lower case once it is parsed. -/
def UrlLib.LowersHosts (lib : UrlLib) : Prop :=
  ∀ raw url, lib.parse raw = .ok url → isHttp url = true →
    ∀ host, url.host = some host → asciiLower host = host

/-- What a run returns, given the links of its seed and the URLs of the sitemaps. -/
structure MapResult.Accounts (lib : UrlLib) (options : MapOptions) (seed : Url)
    (links sitemap : List String) (result : MapResult) : Prop where
  distinct : result.urls.Nodup
  first : result.urls.head? = some seed.toString
  bounded : result.urls.length ≤ options.maxUrls
  counted : result.urls.length = 1 + result.fromSeedLinks + result.fromSitemap
  origin : options.sameOriginOnly = true → ∀ raw ∈ result.urls, ∃ url, lib.parse raw = .ok url ∧
    url.scheme = seed.scheme ∧ url.host = seed.host ∧
      url.portOrKnownDefault = seed.portOrKnownDefault
  complete : result.urls.length < options.maxUrls → ∀ raw, raw ∈ links ∨ raw ∈ sitemap →
    isAdmitted lib raw seed options.sameOriginOnly = true → raw ∈ result.urls

section

variable {lib : UrlLib} {seed url : Url} {raw : String}

/-- Web URLs of one origin have one scheme, and one host when both are in lower case. -/
theorem sameOrigin_parts (hlower : lib.LowersHosts) {raw' : String}
    (hseed : lib.parse raw' = .ok seed) (hurl : lib.parse raw = .ok url)
    (hseedHttp : isHttp seed = true) (hurlHttp : isHttp url = true)
    (h : sameOrigin url seed = true) : url.scheme = seed.scheme ∧ url.host = seed.host ∧
      url.portOrKnownDefault = seed.portOrKnownDefault := by
  obtain ⟨hscheme, ⟨host, seedHost, hhost, hseedHost, hsame⟩, hport⟩ := sameOrigin_iff.mp h
  refine ⟨?_, ?_, hport⟩
  · simp only [isHttp, Bool.or_eq_true, beq_iff_eq] at hseedHttp hurlHttp
    rcases hurlHttp with hu | hu <;> rcases hseedHttp with hs | hs
    · rw [hu, hs]
    · rw [hu, hs] at hscheme
      exact absurd hscheme (by decide)
    · rw [hu, hs] at hscheme
      exact absurd hscheme (by decide)
    · rw [hu, hs]
  · rw [hlower _ _ hurl hurlHttp _ hhost, hlower _ _ hseed hseedHttp _ hseedHost] at hsame
    rw [hhost, hseedHost, hsame]

theorem isAdmitted_iff {sameOriginOnly : Bool} :
    isAdmitted lib raw seed sameOriginOnly = true ↔ ∃ url, lib.parse raw = .ok url ∧
      isHttp url = true ∧ (sameOriginOnly = true → sameOrigin url seed = true) := by
  unfold isAdmitted
  cases hparse : lib.parse raw with
  | error e =>
    constructor
    · intro h
      cases h
    · rintro ⟨url, h, -⟩
      cases h
  | ok url =>
    simp only [Bool.and_eq_true, Bool.or_eq_true, Bool.not_eq_true', Except.ok.injEq]
    constructor
    · rintro ⟨hhttp, h⟩
      refine ⟨url, rfl, hhttp, fun honly => h.resolve_left ?_⟩
      rw [honly]
      exact Bool.noConfusion
    · rintro ⟨_, rfl, hhttp, h⟩
      refine ⟨hhttp, ?_⟩
      cases sameOriginOnly with
      | false => exact Or.inl rfl
      | true => exact Or.inr (h rfl)

end

/-! ## Runs -/

/-- The inventory of a seed alone. -/
def Inventory.ofSeed (options : MapOptions) (seed : Url) : Inventory :=
  Inventory.pushUrl {} options.maxUrls seed.toString

/-- The sitemap URLs of a run: those the search returns, when it is asked for and in time. -/
def searchedSitemapUrls (lib : ScrapeLib) (net : Network σ) (passed : σ → Bool) (options : MapOptions)
    (seed : Url) (w : World σ) : List String :=
  if options.useSitemap && !passed w.outside then
    (outcome (discoverSitemapUrls lib.toRobotsLib net seed (sitemapConfig options seed) []
      w)).toOption.getD []
  else []

section

variable {lib : UrlLib} {options : MapOptions} {seed : Url} {links sitemap : List String}

/-- There is room for the seed. -/
theorem Inventory.ofSeed_spec (seed : Url) (hmax : 1 ≤ options.maxUrls) :
    (ofSeed options seed).Agrees ∧ (ofSeed options seed).ordered = [seed.toString] := by
  have hroom : ¬ ([] : List String).length ≥ options.maxUrls := by
    rw [List.length_nil]
    omega
  unfold ofSeed pushUrl
  rw [if_neg hroom, if_neg (by simp)]
  refine ⟨fun raw => ?_, rfl⟩
  exact Iff.rfl

/-- The seed, then what is admitted of two lists. -/
theorem accounts_of_admitAll (hround : lib.Reparses) (hlower : lib.LowersHosts) {raw : String}
    (hseed : validateUrl lib raw = .ok seed) (hmax : 1 ≤ options.maxUrls) {result : MapResult}
    (hurls : result.urls = List.take options.maxUrls
      (((Inventory.ofSeed options seed).admitAll lib options seed links).admitAll lib options seed
        sitemap).ordered)
    (hlinks : result.fromSeedLinks =
      ((Inventory.ofSeed options seed).admitAll lib options seed links).added)
    (hsitemap : result.fromSitemap =
      (((Inventory.ofSeed options seed).admitAll lib options seed links).admitAll lib options seed
        sitemap).added) :
    result.Accounts lib options seed links sitemap := by
  obtain ⟨hagrees, hfirst⟩ := Inventory.ofSeed_spec seed hmax
  obtain ⟨hagrees₁, hordered₁, hadded₁⟩ := Inventory.admitAll_spec lib options seed hagrees links
  obtain ⟨-, hordered, hadded⟩ := Inventory.admitAll_spec lib options seed hagrees₁ sitemap
  rw [hordered₁, hfirst, ← collect_append, ← List.filter_append] at hordered
  have hlength := length_collect_le [seed.toString]
    ((links ++ sitemap).filter (isAdmitted lib · seed options.sameOriginOnly)) hmax
  have hcollected : result.urls = collect options.maxUrls [seed.toString]
      ((links ++ sitemap).filter (isAdmitted lib · seed options.sameOriginOnly)) := by
    rw [hurls, hordered, List.take_of_length_le hlength]
  have hparses : lib.parse seed.toString = .ok seed := validateUrl_parses hround hseed
  constructor
  · rw [hcollected]
    exact Nodup.collect (List.nodup_singleton _)
  · obtain ⟨rest, hrest⟩ := prefix_collect options.maxUrls [seed.toString]
      ((links ++ sitemap).filter (isAdmitted lib · seed options.sameOriginOnly))
    rw [hcollected, ← hrest]
    rfl
  · rw [hcollected]
    exact hlength
  · rw [← hordered] at hcollected
    rw [hcollected, hadded, hadded₁, hfirst, hlinks, hsitemap]
    rfl
  · intro honly raw hraw
    rw [hcollected] at hraw
    rcases mem_or_of_mem_collect hraw with hraw | hraw
    · rw [List.mem_singleton.mp hraw]
      exact ⟨seed, hparses, rfl, rfl, rfl⟩
    · obtain ⟨url, hurl, hhttp, horigin⟩ := isAdmitted_iff.mp (List.mem_filter.mp hraw).2
      exact ⟨url, hurl, sameOrigin_parts hlower hparses hurl (validateUrl_isHttp hseed) hhttp
        (horigin honly)⟩
  · intro hroom raw hraw hadmitted
    rw [hcollected] at hroom ⊢
    exact mem_collect hroom
      (List.mem_filter.mpr ⟨List.mem_append.mpr hraw, hadmitted⟩)

/-- A full result accounts for any sitemaps. -/
theorem MapResult.Accounts.of_full {result : MapResult}
    (h : result.Accounts lib options seed links []) (hfull : options.maxUrls ≤ result.urls.length) :
    result.Accounts lib options seed links sitemap :=
  { h with complete := fun hroom => absurd hroom (Nat.not_lt_of_le hfull) }

end

/-- What the stage of the seed hands on. -/
theorem mapSeed_eq_ok {lib : ScrapeLib} {parseDocument : String → HtmlDocument} {host : Host σ}
    {env : Env} {raw : String} {seeded : Seeded} {w w' : World σ}
    (h : mapSeed lib parseDocument host env raw options w = .ok seeded w') :
    1 ≤ options.maxUrls ∧ validateUrl lib.url raw = .ok seeded.seed ∧
      ∃ proof, scrape lib host env seeded.seed.toString (mapScrapeOptions options) w =
          .ok proof w' ∧
        seeded.inventory = (Inventory.ofSeed options seeded.seed).admitAll lib.url options
          seeded.seed (seedLinks lib.url parseDocument seeded.seed proof) := by
  obtain ⟨_, hmax, h⟩ := ofResult_bind_eq_ok.mp h
  obtain ⟨seed, hseed, h⟩ := ofResult_bind_eq_ok.mp h
  obtain ⟨proof, w₂, hproof, h⟩ := bind_run_eq_ok.mp h
  cases h
  refine ⟨?_, hseed, proof, hproof, rfl⟩
  obtain ⟨_, hmax, -⟩ := bind_eq_ok.mp hmax
  rw [require_eq_ok, bne_iff_ne] at hmax
  omega

/-- What the stages make of what they hand on. -/
theorem mapStages_eq_ok {seeding : Prog σ Seeded} {search : Seeded → Prog σ Sitemaps}
    {passed : σ → Bool} {result : MapResult} {w w' : World σ}
    (h : mapStages seeding search passed options w = .ok result w') :
    ∃ seeded w₁ sitemaps, seeding w = .ok seeded w₁ ∧
      (seeded.searches options (passed w₁.outside) = true ∧ search seeded w₁ = .ok sitemaps w' ∨
        seeded.searches options (passed w₁.outside) = false ∧
          sitemaps = { inventory := seeded.inventory }) ∧
      result.urls = sitemaps.inventory.ordered.take options.maxUrls ∧
      result.fromSeedLinks = seeded.inventory.added ∧ result.fromSitemap = sitemaps.found := by
  obtain ⟨seeded, w₁, hseeding, h⟩ := bind_run_eq_ok.mp h
  obtain ⟨late, w₂, hlate, h⟩ := bind_run_eq_ok.mp h
  obtain ⟨rfl, hw⟩ := EStateM.Result.ok.inj hlate
  rw [← hw] at h
  cases hsearch : seeded.searches options (passed w₁.outside) with
  | false =>
    rw [if_neg (Bool.not_eq_true _ ▸ hsearch)] at h
    cases h
    exact ⟨seeded, _, _, hseeding, Or.inr ⟨hsearch, rfl⟩, rfl, rfl, rfl⟩
  | true =>
    rw [if_pos hsearch] at h
    obtain ⟨sitemaps, w₂, hsitemaps, h⟩ := bind_run_eq_ok.mp h
    cases h
    exact ⟨seeded, w₁, sitemaps, hseeding, Or.inl ⟨hsearch, hsitemaps⟩, rfl, rfl, rfl⟩

/-- The search adds what it returns, if it is made and returns. -/
theorem mapSitemaps_eq_ok {lib : ScrapeLib} {net : Network σ} {seeded : Seeded}
    {sitemaps : Sitemaps} {passed : σ → Bool} {w w' : World σ}
    (hsearch : seeded.searches options (passed w.outside) = true)
    (h : mapSitemaps lib net options seeded w = .ok sitemaps w') :
    sitemaps.inventory.ordered = (seeded.inventory.admitAll lib.url options seeded.seed
        (searchedSitemapUrls lib net passed options seeded.seed w)).ordered ∧
      sitemaps.found = (seeded.inventory.admitAll lib.url options seeded.seed
        (searchedSitemapUrls lib net passed options seeded.seed w)).added := by
  have hasked : (options.useSitemap && !passed w.outside) = true := by
    simp only [Seeded.searches, Bool.and_eq_true] at hsearch ⊢
    exact ⟨hsearch.1.1, hsearch.2⟩
  unfold searchedSitemapUrls
  rw [if_pos hasked]
  cases h
  cases outcome (discoverSitemapUrls lib.toRobotsLib net seeded.seed
      (sitemapConfig options seeded.seed) [] w) with
  | ok urls => exact ⟨rfl, rfl⟩
  | error e => exact ⟨rfl, rfl⟩

/-- **Inventory accounting**: a run that succeeds has scraped its seed, and what it returns accounts
    for the links of that scrape and for the sitemap URLs of its search. -/
theorem mapLite_accounts (lib : ScrapeLib) (hround : lib.url.Reparses)
    (hlower : lib.url.LowersHosts) (parseDocument : String → HtmlDocument) (host : Host σ)
    (passed : σ → Bool) (env : Env) (raw : String) (options : MapOptions) (w w' : World σ)
    (result : MapResult)
    (hrun : mapLite lib parseDocument host passed env raw options w = .ok result w') :
    ∃ seed proof w₁, validateUrl lib.url raw = .ok seed ∧
      scrape lib host env seed.toString (mapScrapeOptions options) w = .ok proof w₁ ∧
      result.Accounts lib.url options seed (seedLinks lib.url parseDocument seed proof)
        (searchedSitemapUrls lib host.net passed options seed w₁) := by
  obtain ⟨seeded, w₁, sitemaps, hseeding, hsitemaps, hurls, hlinks, hfound⟩ := mapStages_eq_ok hrun
  obtain ⟨hmax, hseed, proof, hproof, hinventory⟩ := mapSeed_eq_ok hseeding
  refine ⟨seeded.seed, proof, w₁, hseed, hproof, ?_⟩
  rw [hinventory] at hlinks
  rcases hsitemaps with ⟨hsearch, hsitemaps⟩ | ⟨hsearch, rfl⟩
  · obtain ⟨hordered, hadded⟩ := mapSitemaps_eq_ok hsearch hsitemaps
    rw [hordered, hinventory] at hurls
    rw [hadded, hinventory] at hfound
    exact accounts_of_admitAll hround hlower hseed hmax hurls hlinks hfound
  · -- no search: not asked for, too late, or no room left
    have hnone : result.Accounts lib.url options seeded.seed
        (seedLinks lib.url parseDocument seeded.seed proof) [] := by
      rw [hinventory] at hurls
      exact accounts_of_admitAll hround hlower hseed hmax hurls hlinks hfound
    by_cases hfull : options.maxUrls ≤ seeded.inventory.ordered.length
    · refine hnone.of_full ?_
      rw [hurls, List.length_take_of_le hfull]
    · unfold searchedSitemapUrls
      rw [if_neg]
      · exact hnone
      · intro hasked
        simp only [Bool.and_eq_true] at hasked
        simp only [Seeded.searches, hasked, Bool.true_and, Bool.and_true,
          decide_eq_false_iff_not] at hsearch
        omega

/-! ## An inventory of the shop -/

/-- The shop with a link on its page and one URL in its sitemap. -/
def listingShop : ScrapeLib :=
  { mapShop with
    url := UrlLib.ofTable [shopUrl "/", shopUrl "/2", shopUrl "/3"]
      [((shopUrl "/sitemap.xml", "/3"), shopUrl "/3")]
    links := fun _ _ => [("links", .array [.string (shopUrl "/2").toString])]
    xmlEvents := fun _ =>
      [.start (utf8 "url"), .start (utf8 "loc"), .text (some "/3"), .finish (utf8 "loc"),
        .finish (utf8 "url")] }

theorem listingShop_reparses : listingShop.url.Reparses := UrlLib.ofTable_reparses _ _

theorem listingShop_lowersHosts : listingShop.url.LowersHosts := by
  have htable : ∀ url ∈ [shopUrl "/", shopUrl "/2", shopUrl "/3"],
      url.host = some "shop.test" := by
    simp [shopUrl]
  intro raw url hparse _ host hhost
  have hlisted : url ∈ [shopUrl "/", shopUrl "/2", shopUrl "/3"] := by
    simp only [listingShop, UrlLib.ofTable] at hparse
    split at hparse
    · rename_i found hfound
      cases hparse
      exact List.mem_of_find?_eq_some hfound
    · cases hparse
  rw [htable url hlisted] at hhost
  cases hhost
  decide

/-- A policy, a page, and the sitemap of the scrape and of the inventory are served. -/
def listingWorld : World Script :=
  ⟨⟨[htmlReply "", htmlReply "one", htmlReply "", htmlReply ""], []⟩, [], []⟩

/-- A run with all three kinds of URLs. -/
def shopInventory : EStateM.Result Error (World Script) MapResult :=
  mapLite listingShop (fun _ => []) scriptedHost (fun _ => false) (fun _ => none)
    (shopUrl "/").toString {} listingWorld

/-- The run succeeds and its accounts hold. -/
theorem mapLite_accounts_shop : ∃ result w', shopInventory = .ok result w' ∧
    result.urls = ["http://shop.test/", "http://shop.test/2", "http://shop.test/3"] ∧
    ∃ seed links sitemap, result.Accounts listingShop.url {} seed links sitemap := by
  have hurls : (outcome shopInventory).toOption.map MapResult.urls =
      some ["http://shop.test/", "http://shop.test/2", "http://shop.test/3"] := by
    decide +kernel
  cases hrun : shopInventory with
  | error e w' =>
    rw [hrun] at hurls
    cases hurls
  | ok result w' =>
    rw [hrun] at hurls
    obtain ⟨seed, proof, w₁, -, -, haccounts⟩ := mapLite_accounts listingShop listingShop_reparses
      listingShop_lowersHosts (fun _ => []) scriptedHost (fun _ => false) (fun _ => none)
      (shopUrl "/").toString {} listingWorld w' result hrun
    exact ⟨result, w', rfl, Option.some.inj hurls, seed, _, _, haccounts⟩


end Basecrawl.Core
