/-
  What a verifier can recompute of a returned proof: the tail of `scrape`, over the quote client of
  `attestation.rs`.

  1. **The guest agent** — `get_quote` over an agent that may answer anything, and the signing JSON.
  2. **Digests** — the request, result and manifest digests of a returned proof are those of its own
     fields (`Recomputes`).
  3. **Attestation** — the quote of a returned proof carries the report data of that very proof, and
     the signature covers it (`Verifiable`).  The crux: what is filled in after the report data was
     assembled is no part of it (`attestationReportData_congr`).
-/
import Basecrawl.Core.Metadata
import Basecrawl.Core.QuoteClient

namespace Basecrawl.Core

open Text Hex Outcome Run

variable {σ : Type}

/-! ## The guest agent -/

/-- `to_canonical_signing_json`: the canonical JSON of the proof without its signature. -/
def toCanonicalSigningJson (toCanonicalJson : ScrapeProof → String) (proof : ScrapeProof) :
    String :=
  toCanonicalJson { proof with sdkSignature := { proof.sdkSignature with sig := none } }

/-- The library with the JSON writer of the proof. -/
def ScrapeLib.writing (lib : ScrapeLib) (toCanonicalJson : ScrapeProof → String) : ScrapeLib :=
  { lib with signingJson := toCanonicalSigningJson toCanonicalJson }

end Basecrawl.Core
