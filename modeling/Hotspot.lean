import Hotspot.Command.Session
import Hotspot.Main
import Hotspot.Manager.Operation
import Hotspot.Toml.Reader
import Hotspot.Proofs.OrderedMap
import Hotspot.Proofs.Registry
import Hotspot.Proofs.Steps
import Hotspot.Proofs.Acts
import Hotspot.Proofs.Watching
import Hotspot.Proofs.Numbering
import Hotspot.Proofs.Questions
import Hotspot.Proofs.Revocation
import Hotspot.Proofs.Durability
import Hotspot.Proofs.Deeds
import Hotspot.Proofs.NetworkEntries
import Hotspot.Proofs.Freshness
import Hotspot.Proofs.Restart
import Hotspot.Proofs.Custody
import Hotspot.Proofs.Exchanges
import Hotspot.Proofs.Ownership
import Hotspot.Proofs.Identities
import Hotspot.Proofs.Carriers
import Hotspot.Proofs.Immutability
import Hotspot.Proofs.Reordering
import Hotspot.Proofs.Scans
import Hotspot.Proofs.MatchCommand
import Hotspot.Proofs.Twins
import Hotspot.Proofs.Pieces
import Hotspot.Proofs.SavedFiles
import Hotspot.Proofs.Relaunch
import Hotspot.Proofs.StoredForms
import Hotspot.Proofs.Precedence
import Hotspot.Proofs.Outcomes
import Hotspot.Proofs.Coherence
import Hotspot.Proofs.Readding
import Hotspot.Proofs.Pointwise
import Hotspot.Proofs.HoldOffs
import Hotspot.Proofs.Counting
import Hotspot.Proofs.Pruning
import Hotspot.Proofs.CacheHistory
import Hotspot.Proofs.AddressText
import Hotspot.Proofs.Indications
import Hotspot.Proofs.Sharing
import Hotspot.Proofs.Evidence
import Hotspot.Proofs.Rewording
import Hotspot.Proofs.FalseEvidence
import Hotspot.Proofs.CompleteConfigs
import Hotspot.Proofs.OperatorDomain
import Hotspot.Proofs.Undoing
import Hotspot.Proofs.SubscriberNumbers
import Hotspot.Proofs.CarrierRefresh
import Hotspot.Proofs.ImportedConfigs
import Hotspot.Proofs.BeaconElements
import Hotspot.Proofs.AddressGrammar
import Hotspot.Proofs.Bookkeeping
