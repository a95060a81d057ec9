import ProxyForward.Runs
import ProxyForward.Ownership
import ProxyForward.Reconcile
import ProxyForward.Binds
import ProxyForward.CapHistory
import ProxyForward.ControlLoops
import ProxyForward.Auth
import ProxyForward.Revocation
import ProxyForward.PushedConfig
import ProxyForward.Agent
import ProxyForward.ControlSession
import ProxyForward.ProposalBasis
import ProxyForward.LocalFields
import ProxyForward.SelfDelimiting
import ProxyForward.HashInput
import ProxyForward.Convergence
import ProxyForward.Serving
import ProxyForward.OfflineEdit
import ProxyForward.StoreOps
import ProxyForward.Tickets
import ProxyForward.Durability
import ProxyForward.Validation
import ProxyForward.Atomicity
import ProxyForward.DataLegs
import ProxyForward.Eviction
import ProxyForward.LegInvariant
import ProxyForward.OwnLegs
import ProxyForward.LegDrain
import ProxyForward.Config
import ProxyForward.SaveTunnels
import ProxyForward.SyncOrder
import ProxyForward.HotApply
import ProxyForward.EventPrune
import ProxyForward.Splice
import ProxyForward.LinkJournal
import ProxyForward.HealthPush
import ProxyForward.Packet
import ProxyForward.Sniffer
import ProxyForward.SniffCuts
import ProxyForward.SessionRollups
import ProxyForward.Identity
import ProxyForward.Cascade
import ProxyForward.History
import ProxyForward.RingTiers
import ProxyForward.Accounting
import ProxyForward.Persist
import ProxyForward.RingImage
import ProxyForward.RrdRows
import ProxyForward.HistoryImage
import ProxyForward.PersistImage
import ProxyForward.Rollup
import ProxyForward.RollupRings
import ProxyForward.HourCover
import ProxyForward.HourSteps
import ProxyForward.RolledHours
import ProxyForward.RollupFinal
import ProxyForward.Framing
import ProxyForward.CopyHalf
import ProxyForward.Handoff
import ProxyForward.Replacer
import ProxyForward.Scrub
import ProxyForward.EngineRuns
import ProxyForward.AdoptedConfig
import ProxyForward.Reproposal
import ProxyForward.Pairing
import ProxyForward.SetupAgent
import ProxyForward.SetupFile
import ProxyForward.SetupImport
import ProxyForward.PortRun
import ProxyForward.ShownPorts
import ProxyForward.Dampening
import ProxyForward.MergeTunnels
import ProxyForward.Grouping
import ProxyForward.HistoryAt
import ProxyForward.Reassignment
import ProxyForward.HistoryWindows
import ProxyForward.HistoryQueries
import ProxyForward.UptimeCount
import ProxyForward.Registry
import ProxyForward.Ledger
import ProxyForward.AgentSampling
import ProxyForward.AgentEviction
import ProxyForward.JsonText
import ProxyForward.PushFits
import ProxyForward.IpcStatus
import ProxyForward.HistorySpans
import ProxyForward.IpcPipe
import ProxyForward.IpcWidths
import ProxyForward.IpcReplies
import ProxyForward.AuthLimiter
import ProxyForward.BruteForce
import ProxyForward.Files
import ProxyForward.LogRotation
import ProxyForward.PointBuckets
import ProxyForward.TransportLadder
import ProxyForward.PlayerResolver
import ProxyForward.RerollRetention
import ProxyForward.Custody
import ProxyForward.WriteQueue
import ProxyForward.SetupBinding
import ProxyForward.SessionLog
import ProxyForward.SessionSamples
import ProxyForward.SessionRows
import ProxyForward.Totals
import ProxyForward.CursorLog
import ProxyForward.CursorRings
import ProxyForward.LinkQuality
import ProxyForward.PairingRoundTrip
import ProxyForward.PacketRoundTrip
import ProxyForward.ProxyProto
import ProxyForward.PairCommand
import ProxyForward.SharedLimiters
import ProxyForward.TunnelList
import ProxyForward.PlayerNames
import ProxyForward.Attribution
import ProxyForward.Replay
import ProxyForward.StopCause
import ProxyForward.Exposition
import ProxyForward.MetricsText
import ProxyForward.RingRestore
import ProxyForward.VarIntDecoders
import ProxyForward.Backoff
import ProxyForward.ConnGate
import ProxyForward.Chain
import ProxyForward.Passage
import ProxyForward.TokenBucket
import ProxyForward.UptimeReport
import ProxyForward.RttRouting
import ProxyForward.Probe
import ProxyForward.OfflineResponder
import ProxyForward.Recency
import ProxyForward.PeerTable
import ProxyForward.Greeting
import ProxyForward.ConnectCycle
import ProxyForward.CycleRefinement
import ProxyForward.Candles
import ProxyForward.FirstBest
import ProxyForward.Records
import ProxyForward.Heartbeat
import ProxyForward.HeartbeatSteady
import ProxyForward.HeartbeatTime
import ProxyForward.HeartbeatEnd
import ProxyForward.LegacyStats
