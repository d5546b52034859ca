import OpenManet.Theory.Installing
import OpenManet.Theory.Answers
import OpenManet.Library.Selection
import OpenManet.Theory.BestRoute
import OpenManet.Theory.BreakArray
import OpenManet.Theory.ByteNetwork
import OpenManet.Theory.ErrorContents
import OpenManet.Theory.ErrorNumbers
import OpenManet.Theory.KernelRoutes
import OpenManet.Theory.SeqNumbers
import OpenManet.Theory.ActiveRoutes
import OpenManet.Theory.Searches
import OpenManet.Theory.RequestOrigins
import OpenManet.Theory.Requests
import OpenManet.Library.Locks
import OpenManet.Theory.Mutexes
import OpenManet.Library.LockOrder
import OpenManet.Theory.Deadlock
import OpenManet.Core.Sections
import OpenManet.Theory.PacketRelease
import OpenManet.Core.Payload
import OpenManet.Library.Projection
import OpenManet.Theory.Disclosure
import OpenManet.Core.Network
import OpenManet.Library.Once
import OpenManet.Library.Tickets
import OpenManet.Theory.Deadlines
import OpenManet.Theory.DeletePeriod
import OpenManet.Theory.Relaying
import OpenManet.Theory.Discovery
import OpenManet.Theory.Delivery
import OpenManet.Library.Shadow
import OpenManet.Core.EntryLists
import OpenManet.Theory.EntryLists
import OpenManet.Theory.ErrorRelay
import OpenManet.Theory.FirstCopies
import OpenManet.Theory.Flooding
import OpenManet.Theory.Freshness
import OpenManet.Theory.Lifetimes
import OpenManet.Theory.LinkBreak
import OpenManet.Theory.LinkedLists
import OpenManet.Theory.NeighbourLists
import OpenManet.Theory.Neighbours
import OpenManet.Theory.Orphans
import OpenManet.Theory.OwnAddress
import OpenManet.Theory.OwnNumbers
import OpenManet.Theory.PayloadBounds
import OpenManet.Theory.Precursors
import OpenManet.Theory.RepeatedCopies
import OpenManet.Theory.ReverseLifetime
import OpenManet.Theory.RingSearch
import OpenManet.Theory.Verdicts
import OpenManet.Theory.SerialThreads
import OpenManet.Theory.SerialTurns
import OpenManet.Theory.SerialRuns
import OpenManet.Theory.SlotSharing
import OpenManet.Theory.Timers
import OpenManet.Theory.WireFormat
import OpenManet.Library.Cancellation
import OpenManet.Library.DistanceVector
import OpenManet.Library.Hops
import OpenManet.Theory.LoopFreedom
import OpenManet.Theory.Distances
import OpenManet.Theory.Destinations
import OpenManet.Theory.ReplyOrigins
import OpenManet.Theory.SentErrors
import OpenManet.Theory.ErrorOrigins
