import Curation.Catalog.Definition
import Curation.Catalog.Raw
import Curation.Http.Start
import Curation.Main
import Curation.Proofs.Atomicity
import Curation.Proofs.Authority
import Curation.Proofs.Cache
import Curation.Proofs.Coherence
import Curation.Proofs.Correlation
import Curation.Proofs.Creation
import Curation.Proofs.Decoding
import Curation.Proofs.Deletion
import Curation.Proofs.Dialects
import Curation.Proofs.Disclosure
import Curation.Proofs.Edits
import Curation.Proofs.Ending
import Curation.Proofs.Expiry
import Curation.Proofs.Fetching
import Curation.Proofs.Generations
import Curation.Proofs.Grounding
import Curation.Proofs.IconPaths
import Curation.Proofs.Icons
import Curation.Proofs.IdLists
import Curation.Proofs.Ids
import Curation.Proofs.Interleaving
import Curation.Proofs.JsonLists
import Curation.Proofs.JsonReading
import Curation.Proofs.JsonTexts
import Curation.Proofs.Judging
import Curation.Proofs.Loading
import Curation.Proofs.LocalFiles
import Curation.Proofs.MainColor
import Curation.Proofs.Members
import Curation.Proofs.Operations
import Curation.Proofs.Orphans
import Curation.Proofs.Outcomes
import Curation.Proofs.OwnBlobs
import Curation.Proofs.Payloads
import Curation.Proofs.Places
import Curation.Proofs.Races
import Curation.Proofs.Reissue
import Curation.Proofs.Replacing
import Curation.Proofs.Requests
import Curation.Proofs.Results
import Curation.Proofs.Serving
import Curation.Proofs.Session
import Curation.Proofs.Sharing
import Curation.Proofs.Succeeding
import Curation.Proofs.Tables
import Curation.Proofs.Timestamps
import Curation.Proofs.Tokens
import Curation.Proofs.Uploads
import Curation.Proofs.Validity
import Curation.Proofs.Vanished
import Curation.Proofs.Work
import Curation.Proofs.Workers
import Curation.Proofs.Writing
