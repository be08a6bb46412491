import ApiDiscovery.Factory
import ApiDiscovery.Proofs.Outcome
import ApiDiscovery.Proofs.Parameters
import ApiDiscovery.Proofs.Expansion
import ApiDiscovery.Proofs.Destination
import ApiDiscovery.Proofs.Calls
import ApiDiscovery.Proofs.Attempts
import ApiDiscovery.Proofs.Refusal
import ApiDiscovery.Proofs.Encoding
import ApiDiscovery.Proofs.SimpleExpansion
import ApiDiscovery.Proofs.QueryString
import ApiDiscovery.Proofs.Presence
import ApiDiscovery.Client.Loop
import ApiDiscovery.Proofs.Interleaving
import ApiDiscovery.Proofs.Gathering
import ApiDiscovery.Proofs.Defects
import ApiDiscovery.Proofs.WrittenQuery
import ApiDiscovery.Proofs.Segments
import ApiDiscovery.Proofs.Site
import ApiDiscovery.Proofs.Sending
import ApiDiscovery.Proofs.SentPath
import ApiDiscovery.Proofs.Layering
import ApiDiscovery.Proofs.Failures
import ApiDiscovery.Proofs.Navigation
import ApiDiscovery.Proofs.JsonText
import ApiDiscovery.Proofs.LineEnds
import ApiDiscovery.Proofs.FilePaths
import ApiDiscovery.Proofs.Provenance
import ApiDiscovery.Proofs.NamedParameters
import ApiDiscovery.Proofs.FileTree
import ApiDiscovery.Proofs.Sorted
import ApiDiscovery.Proofs.Lookup
import ApiDiscovery.Proofs.Available
import ApiDiscovery.Proofs.Discovery
import ApiDiscovery.Proofs.Joining
import ApiDiscovery.Proofs.RootUrl
import ApiDiscovery.Proofs.BodyContent
import ApiDiscovery.Proofs.Attempted
import ApiDiscovery.Proofs.Persistence
import ApiDiscovery.Proofs.HeaderLayers
import ApiDiscovery.Proofs.DirectoryRows
import ApiDiscovery.Proofs.Loading
import ApiDiscovery.Proofs.LongNumbers
import ApiDiscovery.Proofs.ScanFaults
import ApiDiscovery.Proofs.NodeFaults
import ApiDiscovery.Proofs.ScalarFaults
import ApiDiscovery.Proofs.ContentFaults
import ApiDiscovery.Proofs.Decomposition
import ApiDiscovery.Proofs.KeptDocuments
import ApiDiscovery.Proofs.Fetching
import ApiDiscovery.Proofs.ErrorAnswers
import ApiDiscovery.Proofs.Precedence
import ApiDiscovery.Proofs.CrashSafety
import ApiDiscovery.Proofs.Respelling
import ApiDiscovery.Proofs.Premerged
import ApiDiscovery.Proofs.RequiredOrder
