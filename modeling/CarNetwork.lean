import CarNetwork.Runs
import CarNetwork.ByteText
import CarNetwork.DecimalText
import CarNetwork.Conversions
import CarNetwork.Ethernet
import CarNetwork.Message
import CarNetwork.MessageCodec
import CarNetwork.Authentication
import CarNetwork.DoubleRounding
import CarNetwork.SlidingWindow
import CarNetwork.ClockSyncer
import CarNetwork.GroupTable
import CarNetwork.Protocol
import CarNetwork.Gateway
import CarNetwork.Emissions
import CarNetwork.Delivery
import CarNetwork.Fleet
import CarNetwork.FleetInvariant
import CarNetwork.GroupIsolation
import CarNetwork.BarrierStep
import CarNetwork.StartBarrier
import CarNetwork.BarrierProgress
import CarNetwork.LostGo
import CarNetwork.StartChance
import CarNetwork.ClockMessages
import CarNetwork.ClockExchange
import CarNetwork.ClockCorrection
import CarNetwork.SampleAverage
import CarNetwork.SampleWindow
import CarNetwork.ClockStep
import CarNetwork.ClockHistory
import CarNetwork.CarGroups
import CarNetwork.SharedBus
import CarNetwork.SharedBusInvariant
import CarNetwork.SharedBusDelivery
import CarNetwork.WordBytes
import CarNetwork.Transport
import CarNetwork.MessageSizes
import CarNetwork.GroupMembership
import CarNetwork.GroupMessages
import CarNetwork.LinkPadding
import CarNetwork.Forgery
import CarNetwork.GroupMoves
import CarNetwork.GroupInvariant
import CarNetwork.GroupNews
import CarNetwork.CoordinatorIndex
import CarNetwork.GroupAgreement
import CarNetwork.SyncProgress
import CarNetwork.Relay
import CarNetwork.Robustness
import CarNetwork.Cascade
import CarNetwork.Provenance
import CarNetwork.RelayOnce
import CarNetwork.TraceIdentity
import CarNetwork.FrameFormat
import CarNetwork.GroupReplies
import CarNetwork.SyncPayloads
import CarNetwork.KeyedList
import CarNetwork.PublishSubscriber
import CarNetwork.SubscriptionStore
import CarNetwork.PublicationRate
import CarNetwork.SubscriptionRequest
import CarNetwork.PublisherLoop
import CarNetwork.ThrowingCalls
import CarNetwork.PublishedData
import CarNetwork.Progress
import CarNetwork.Mutex
import CarNetwork.EthernetReceive
import CarNetwork.MonitorQueue
import CarNetwork.Communicator
import CarNetwork.BusProgress
import CarNetwork.BusStalls
import CarNetwork.BusReplies
import CarNetwork.RelayContent
import CarNetwork.GreedyPattern
import CarNetwork.LatencyLog
import CarNetwork.Replacement
import CarNetwork.Components
import CarNetwork.AnswerTraffic
import CarNetwork.FleetHistory
import CarNetwork.PacedCounter
import CarNetwork.PublicationCount
import CarNetwork.ClockFeedback
import CarNetwork.GroupSettling
import CarNetwork.StartWait
import CarNetwork.Startup
