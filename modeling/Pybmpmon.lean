import Pybmpmon.Protocol.BmpParser
import Pybmpmon.Protocol.BgpParser
import Pybmpmon.Protocol.BmpErrors
import Pybmpmon.Protocol.DecoderErrors
import Pybmpmon.Protocol.ParserErrors
import Pybmpmon.Models.Route
import Pybmpmon.Listener.RouteMonitoring
import Pybmpmon.Protocol.BmpEncoding
import Pybmpmon.Protocol.UpdateEncoding
import Pybmpmon.Protocol.ValueEncoding
import Pybmpmon.Protocol.NlriEncoding
import Pybmpmon.Lib.Fold
import Pybmpmon.Protocol.AttributeEncoding
import Pybmpmon.Listener.BytesToRows
import Pybmpmon.Protocol.Relocation
import Pybmpmon.Listener.KeyAgreement
import Pybmpmon.Database.Schema
import Pybmpmon.Protocol.AsPathFields
import Pybmpmon.Listener.Storable
import Pybmpmon.Listener.Connection
import Pybmpmon.Listener.Framing
import Pybmpmon.Lib.KeyedTable
import Pybmpmon.Database.RouteState
import Pybmpmon.Database.StateTable
import Pybmpmon.Database.StateHistory
import Pybmpmon.Database.BatchWriter
import Pybmpmon.Database.FailedFlush
import Pybmpmon.Database.SerialBatches
import Pybmpmon.Database.BothPaths
import Pybmpmon.Lib.Transition
import Pybmpmon.Database.Interleaving
import Pybmpmon.Database.Conservation
import Pybmpmon.Database.Coherence
import Pybmpmon.Database.Shutdown
import Pybmpmon.Database.BatchTimer
import Pybmpmon.Listener.Isolation
import Pybmpmon.Protocol.BmpMessages
import Pybmpmon.Protocol.BmpAccepted
import Pybmpmon.Protocol.UpdateAccepted
import Pybmpmon.Lib.Text
import Pybmpmon.Protocol.RouteText
import Pybmpmon.Monitoring.Stats
import Pybmpmon.Monitoring.Reports
import Pybmpmon.Listener.Accounting
import Pybmpmon.Database.StateRows
import Pybmpmon.Lib.CheckThenAct
import Pybmpmon.Database.OverlappingCalls
import Pybmpmon.Database.Migrations
import Pybmpmon.Database.MigrationHistory
import Pybmpmon.Listener.Sessions
import Pybmpmon.Database.BmpPeers
import Pybmpmon.Listener.PeerActivity
import Pybmpmon.Listener.EvpnKeys
import Pybmpmon.Protocol.AsPathWidth
import Pybmpmon.Protocol.CanonicalPrefixes
import Pybmpmon.Protocol.NlriAgreement
import Pybmpmon.Protocol.AttributePatches
import Pybmpmon.Protocol.UpdateMeaning
import Pybmpmon.Protocol.AttributeOrder
import Pybmpmon.Listener.RouteFamilies
import Pybmpmon.Utils.Windows
import Pybmpmon.Protocol.EvpnBounds
import Pybmpmon.Protocol.CommunityGroups
import Pybmpmon.Protocol.CommunityFormats
import Pybmpmon.Listener.EvpnFields
import Pybmpmon.Listener.WithdrawnLast
import Pybmpmon.Protocol.BmpAcceptance
import Pybmpmon.Protocol.MessageBounds
import Pybmpmon.Lib.Transactions
import Pybmpmon.Database.ManyCalls
import Pybmpmon.Database.StateRuns
import Pybmpmon.Listener.Segments
import Pybmpmon.Database.Timeless
import Pybmpmon.Lib.Batching
import Pybmpmon.Listener.RunListener
import Pybmpmon.Listener.Ledger
import Pybmpmon.Listener.Schedules
import Pybmpmon.Listener.Restarts
import Pybmpmon.Listener.PeerHistory
import Pybmpmon.Listener.Counted
import Pybmpmon.Listener.Handlers
