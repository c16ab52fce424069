import SpanSearch.Matcher
import SpanSearch.Proofs.Operations
import SpanSearch.Search.Anchored
import SpanSearch.Proofs.Aligning
import SpanSearch.Proofs.Anchoring
import SpanSearch.Proofs.Boundaries
import SpanSearch.Proofs.Capturing
import SpanSearch.Proofs.Carrying
import SpanSearch.Proofs.Latin
import SpanSearch.Proofs.Least
import SpanSearch.Proofs.Matching
import SpanSearch.Proofs.Delivering
import SpanSearch.Proofs.Freeing
import SpanSearch.Proofs.Condensing
import SpanSearch.Proofs.Gathering
import SpanSearch.Proofs.Renaming
import SpanSearch.Proofs.Residuals
import SpanSearch.Proofs.Performing
import SpanSearch.Proofs.Retaining
import SpanSearch.Proofs.Classifying
import SpanSearch.Proofs.Simulating
import SpanSearch.Proofs.Skipping
import SpanSearch.Proofs.Lasting
import SpanSearch.Proofs.Mirroring
import SpanSearch.Proofs.Sequencing
import SpanSearch.Proofs.Tiling
import SpanSearch.Proofs.Refusing
import SpanSearch.Proofs.Transcoding
import SpanSearch.Proofs.Roaming
import SpanSearch.Proofs.Lending
import SpanSearch.Proofs.Comparing
import SpanSearch.Proofs.Settling
import SpanSearch.Proofs.Numbering
import SpanSearch.Proofs.Strict.Access
import SpanSearch.Proofs.Strict.Arena
import SpanSearch.Proofs.Strict.Elimination
import SpanSearch.Proofs.Strict.Subsets
import SpanSearch.Proofs.Strict.Refinement
import SpanSearch.Proofs.Strict.Lookups
import SpanSearch.Proofs.Strict.Passes
import SpanSearch.Proofs.Rounds
import SpanSearch.Proofs.Indexing
import SpanSearch.Proofs.Interposing
import SpanSearch.Proofs.Cloning
import SpanSearch.Proofs.Membership
