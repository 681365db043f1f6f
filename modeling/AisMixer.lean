import AisMixer.Library.Json
import AisMixer.Library.Utf8
import AisMixer.Library.Base64
import AisMixer.Library.Fallible
import AisMixer.Udpsec.ExpiringSet
import AisMixer.Udpsec.ExpiringSetRefinement
import AisMixer.DataPlane.IngressFrame
import AisMixer.DataPlane.NmeaScanner
import AisMixer.DataPlane.ParsedSentence
import AisMixer.DataPlane.Assembler
import AisMixer.DataPlane.AssemblerSteps
import AisMixer.DataPlane.AssemblerRuns
import AisMixer.DataPlane.AssemblerGenerations
import AisMixer.DataPlane.Deduplicator
import AisMixer.DataPlane.SourceState
import AisMixer.DataPlane.OutputBuilder
import AisMixer.DataPlane.Processor
import AisMixer.DataPlane.ProcessorSteps
import AisMixer.DataPlane.MultipartMetadata
import AisMixer.DataPlane.ContextLifetimes
import AisMixer.DataPlane.Emission
import AisMixer.DataPlane.Totality
import AisMixer.DataPlane.Histories
import AisMixer.Library.Checksum
import AisMixer.Library.Numerals
import AisMixer.DataPlane.TagBlocks
import AisMixer.DataPlane.Reingest
import AisMixer.Library.Resolution
import AisMixer.Library.Repr
import AisMixer.Routing.Zones
import AisMixer.Routing.ZoneResolution
import AisMixer.Routing.TargetIdentity
import AisMixer.Library.FirstOccurrence
import AisMixer.Routing.RoutingTable
import AisMixer.Routing.TargetMatching
import AisMixer.Runtime.Metrics
import AisMixer.Routing.RoutingControl
import AisMixer.Routing.ControlProtocol
import AisMixer.Library.JsonRoundTrip
import AisMixer.Routing.ControlResponses
import AisMixer.Routing.ControlAtomicity
import AisMixer.Routing.StatusAnswers
import AisMixer.Egress.Forwarder
import AisMixer.Runtime.WorkItems
import AisMixer.Egress.TargetSafety
import AisMixer.Library.Framing
import AisMixer.Udpsec.Transcript
import AisMixer.Library.AsciiDigits
import AisMixer.Udpsec.Protocol
import AisMixer.Library.RecordStore
import AisMixer.Udpsec.SecureState
import AisMixer.Udpsec.StateConservation
import AisMixer.Udpsec.Crypto
import AisMixer.Library.Der
import AisMixer.Library.PrefixBlocks
import AisMixer.Library.IpAddress
import AisMixer.Udpsec.TranscriptSignatures
import AisMixer.Udpsec.SecureServer
import AisMixer.Library.Fading
import AisMixer.Udpsec.Aging
import AisMixer.Udpsec.Effects
import AisMixer.Library.Lines
import AisMixer.Sproxy.SerialLineFramer
import AisMixer.Routing.ControlConnection
import AisMixer.DataPlane.DeduplicatorRefinement
import AisMixer.DataPlane.AssemblerAccounts
import AisMixer.Library.Recency
import AisMixer.DataPlane.TouchOrder
import AisMixer.DataPlane.SourceInStep
import AisMixer.DataPlane.MultipartSource
import AisMixer.DataPlane.SourceLabels
import AisMixer.Routing.ControlEnvelopes
import AisMixer.Routing.ControlClient
import AisMixer.Routing.ControlExchange
import AisMixer.Library.Utf8Index
import AisMixer.DataPlane.MetaCleaner
import AisMixer.Udpsec.PacketOutcomes
import AisMixer.Ingress.NetworkPolicy
import AisMixer.Sproxy.SerialQueue
import AisMixer.DataPlane.EntryPoints
import AisMixer.Sproxy.ForwardLoop
import AisMixer.Sproxy.SessionLiveness
import AisMixer.Library.Asyncio
import AisMixer.Runtime.ProcessingQueue
import AisMixer.Library.Utf8Replace
import AisMixer.Library.Scanning
import AisMixer.Sproxy.Extraction
import AisMixer.Udpsec.ObjectNumbers
import AisMixer.Udpsec.StaleHandles
import AisMixer.Udpsec.ReplayWindows
import AisMixer.Udpsec.Redeliveries
import AisMixer.Runtime.EgressMetrics
import AisMixer.Runtime.Stages
import AisMixer.Runtime.Pipeline
import AisMixer.Runtime.StageRuns
import AisMixer.Library.WakeUps
import AisMixer.Runtime.StageProgress
import AisMixer.Runtime.OrderedHandoff
import AisMixer.Runtime.Mixer
import AisMixer.Egress.Dispatch
import AisMixer.Library.JsonAscii
import AisMixer.Udpsec.SessionKeys
import AisMixer.Udpsec.SessionService
import AisMixer.Sproxy.Handshake
import AisMixer.Sproxy.MessageTexts
import AisMixer.Sproxy.HandshakeNetwork
import AisMixer.Sproxy.HandshakeAgreement
import AisMixer.Sproxy.MutualAgreement
import AisMixer.Sproxy.SessionDelivery
