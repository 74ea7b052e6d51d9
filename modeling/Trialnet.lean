import Trialnet.Launch.Reload
import Trialnet.Main
import Trialnet.Wire.Catalogue
import Trialnet.Proofs.Text.Numerals
import Trialnet.Proofs.Binary64.Decimals
import Trialnet.Proofs.Json.Numerals
import Trialnet.Proofs.Json.Strings
import Trialnet.Proofs.Json.Doubles
import Trialnet.Proofs.Datum.Keys
import Trialnet.Proofs.Json.Grammar
import Trialnet.Proofs.Json.Nesting
import Trialnet.Proofs.Json.RoundTrip
import Trialnet.Proofs.Payload.Records
import Trialnet.Proofs.Wire.Chain
import Trialnet.Proofs.Json.Storable
import Trialnet.Proofs.Duration.Seconds
import Trialnet.Proofs.Wire.LoadTest
import Trialnet.Proofs.Wire.Launch
import Trialnet.Proofs.LoadTest.Encoding
import Trialnet.Proofs.LoadTest.Reload
import Trialnet.Proofs.Chain.Encoding
import Trialnet.Proofs.Chain.Decoding
import Trialnet.Proofs.Chain.Reload
import Trialnet.Proofs.Launch.Encoding
import Trialnet.Proofs.Launch.Decoding
import Trialnet.Proofs.Launch.Reload
import Trialnet.Proofs.Binary64.Sums
import Trialnet.Proofs.Binary64.Rounding
import Trialnet.Proofs.Binary64.Expansions
import Trialnet.Proofs.Binary64.Magnitude
import Trialnet.Proofs.LoadTest.Validity
import Trialnet.Proofs.Launch.Validity
import Trialnet.Proofs.LoadTest.Sent
import Trialnet.Proofs.Launch.Sent
import Trialnet.Proofs.LoadTest.FirstViolation
import Trialnet.Proofs.Launch.FirstRejection
import Trialnet.Proofs.Launch.LongRunning
import Trialnet.Proofs.Call.Requests
import Trialnet.Proofs.Call.Submission
import Trialnet.Proofs.Call.Agreement
import Trialnet.Proofs.Call.Attempts
import Trialnet.Proofs.Call.Weights
import Trialnet.Proofs.Call.Classification
import Trialnet.Proofs.Event.Errors
import Trialnet.Proofs.Call.Traces
import Trialnet.Proofs.Json.Parsed
import Trialnet.Proofs.Duration.Exact
import Trialnet.Proofs.Launch.Revalidation
import Trialnet.Proofs.LoadTest.Editing
import Trialnet.Proofs.Chain.Representable
import Trialnet.Proofs.LoadTest.Representable
import Trialnet.Proofs.Launch.Representable
import Trialnet.Proofs.Launch.Replay
import Trialnet.Proofs.Genesis.Cloning
import Trialnet.Proofs.LoadTest.Spelling
import Trialnet.Proofs.LoadTest.Respelling
import Trialnet.Proofs.Poller.History
import Trialnet.Proofs.Monitor.Ending
import Trialnet.Proofs.Wire.Rereading
import Trialnet.Proofs.Duration.Accuracy
import Trialnet.Proofs.Duration.Canonical
import Trialnet.Proofs.Json.Surface
import Trialnet.Proofs.Json.Documents
import Trialnet.Proofs.Chain.Documents
import Trialnet.Proofs.LoadTest.Silence
import Trialnet.Proofs.LoadTest.NormalForm
import Trialnet.Proofs.Binary64.Totals
import Trialnet.Proofs.LoadTest.Reordering
