import Basecrawl.Lib.Text
import Basecrawl.Lib.Hex
import Basecrawl.Lib.Base64Url
import Basecrawl.Lib.Outcome
import Basecrawl.Lib.Json
import Basecrawl.Lib.Splice
import Basecrawl.Seal.Identity
import Basecrawl.Seal.Wire
import Basecrawl.Seal.Task
import Basecrawl.Seal.Result
import Basecrawl.Seal.Binding
import Basecrawl.Core.Canonical
import Basecrawl.Core.Url
import Basecrawl.Core.World
import Basecrawl.Core.Fetch
import Basecrawl.Core.Redirects
import Basecrawl.Core.Evidence
import Basecrawl.Core.Robots
import Basecrawl.Core.Stealth
import Basecrawl.Core.Proxy
import Basecrawl.Core.Solver
import Basecrawl.Core.Content
import Basecrawl.Core.Options
import Basecrawl.Core.Browser
import Basecrawl.Core.Scrape
import Basecrawl.Core.Stages
import Basecrawl.Core.Path
import Basecrawl.Core.Body
import Basecrawl.Seal.Antibot
import Basecrawl.Seal.KeyRelease
import Basecrawl.Core.Preimage
import Basecrawl.Core.HeaderLines
import Basecrawl.Lib.LittleEndian
import Basecrawl.Lib.Panic
import Basecrawl.Core.Quote
import Basecrawl.Core.QuoteClient
import Basecrawl.Lib.PyText
import Basecrawl.Image.Attest
import Basecrawl.Image.Allowlist
import Basecrawl.Lib.History
import Basecrawl.Image.Rotation
import Basecrawl.Core.Batch
import Basecrawl.Core.Serve
import Basecrawl.Lib.Paths
import Basecrawl.Core.Sticky
import Basecrawl.Core.StickyScrapes
import Basecrawl.Lib.Bfs
import Basecrawl.Core.Crawl
import Basecrawl.Image.Rtmr3
import Basecrawl.Lib.PrefixCode
import Basecrawl.Lib.PyStr
import Basecrawl.Image.Materials
import Basecrawl.Image.BuildKit
import Basecrawl.Render.Continue
import Basecrawl.Lib.Spacing
import Basecrawl.Render.Pacer
import Basecrawl.Render.Budget
import Basecrawl.Render.Meters
import Basecrawl.Render.Interception
import Basecrawl.Render.Guard
import Basecrawl.Core.Pagination
import Basecrawl.Core.Links
import Basecrawl.Core.Contacts
import Basecrawl.Core.CrawlRuns
import Basecrawl.Core.CrawlCredentials
import Basecrawl.Core.MapLite
import Basecrawl.Core.Pacing
import Basecrawl.Lib.Frames
import Basecrawl.Core.KeyShare
import Basecrawl.Core.Sct
import Basecrawl.Core.Chunked
import Basecrawl.Lib.Authority
import Basecrawl.Seal.BrowserDns
import Basecrawl.Core.Connect
import Basecrawl.Core.Dial
import Basecrawl.Lib.Shuffle
import Basecrawl.Fp.Profile
import Basecrawl.Fp.Space
import Basecrawl.Lib.Serde
import Basecrawl.Lib.Unordered
import Basecrawl.Core.CallerHeaders
import Basecrawl.Core.Execute
import Basecrawl.Core.RequestWire
import Basecrawl.Lib.HttpMessage
import Basecrawl.Core.RobotsPatterns
import Basecrawl.Core.RobotsChoice
import Basecrawl.Core.RobotsGroups
import Basecrawl.Core.RobotsTarget
import Basecrawl.Lib.Replace
import Basecrawl.Lib.Slices
import Basecrawl.Seal.Redact
import Basecrawl.Seal.UrlRef
import Basecrawl.Core.Echoes
import Basecrawl.Core.HostSafe
import Basecrawl.Core.HostSafeItems
import Basecrawl.Core.HostSafePaths
import Basecrawl.Core.SitemapSearch
import Basecrawl.Lib.Distinct
import Basecrawl.Core.MapInventory
import Basecrawl.Lib.Chars
import Basecrawl.Core.Markdown
import Basecrawl.Core.MarkdownTables
import Basecrawl.Core.Metadata
import Basecrawl.Core.XmlText
import Basecrawl.Core.Charset
import Basecrawl.Lib.TrimLines
import Basecrawl.Core.MarkdownFences
import Basecrawl.Core.MarkdownWords
import Basecrawl.Core.MarkdownChrome
import Basecrawl.Core.MarkdownContent
import Basecrawl.Core.CharsetReport
import Basecrawl.Core.LandmarkCheck
import Basecrawl.Core.Usernames
import Basecrawl.Lib.Percent
import Basecrawl.Core.ProxyCredentials
import Basecrawl.Core.ChunkedSafety
import Basecrawl.Lib.JsonText
import Basecrawl.Core.EchoProbe
import Basecrawl.Lib.Rfc1035
import Basecrawl.Seal.Dns
import Basecrawl.Lib.Windows
import Basecrawl.Core.RequestReading
import Basecrawl.Core.ResponseWriting
import Basecrawl.Core.CaptchaTask
import Basecrawl.Core.OfficePackage
import Basecrawl.Lib.PyValue
import Basecrawl.Lib.PyDumps
import Basecrawl.Image.Compose
import Basecrawl.Core.CipherOrder
import Basecrawl.Lib.Reader
import Basecrawl.Core.ReadCapped
import Basecrawl.Lib.While
import Basecrawl.Core.Prescan
import Basecrawl.Lib.PyLines
import Basecrawl.Image.Dockerfile
import Basecrawl.Cdp.Registry
import Basecrawl.Cdp.Transport
import Basecrawl.Cdp.Answers
import Basecrawl.Cdp.Delivery
import Basecrawl.Cdp.Events
import Basecrawl.Core.Attested
import Basecrawl.Core.EchoKey
import Basecrawl.Core.ServeRuns
import Basecrawl.Lib.Codec
import Basecrawl.Lib.JsonPrint
import Basecrawl.Proof.Wire
import Basecrawl.Proof.Signed
import Basecrawl.Lib.HttpReply
import Basecrawl.Lib.Triple
import Basecrawl.Lib.Served
import Basecrawl.Seal.Lookup
import Basecrawl.Seal.Resolving
import Basecrawl.Seal.Truthful
import Basecrawl.Core.OriginWire
import Basecrawl.Core.Origins
