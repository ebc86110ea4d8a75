import Burble.Compose.ServiceSelection
import Burble.Plugs.RateLimiter
import Burble.Presence.BleSpa
import Burble.Presence.SingleUseKnocks
import Burble.Presence.KnockKernel
import Burble.Fourier
import Burble.Loops
import Burble.BitReversal
import Burble.Coprocessor.Fft
import Burble.Coprocessor.FourierInversion
import Burble.Coprocessor.Dsp
import Burble.Coprocessor.InPlaceFft
import Burble.Nlms
import Burble.Coprocessor.EchoCancel
import Burble.Compose.EnvFiles
import Burble.Runs
import Burble.FiniteMap
import Burble.TextOrder
import Burble.E2EE.Coordinator
import Burble.E2EE.RoomChange
import Burble.E2EE.SealedStore
import Burble.E2EE.EpochLifetimes
import Burble.E2EE.Session
import Burble.E2EE.SessionChange
import Burble.E2EE.SessionKeys
import Burble.E2EE.SessionService
import Burble.E2EE.EveryoneServed
import Burble.E2EE.RoomChannel
import Burble.E2EE.Announcements
import Burble.E2EE.KeySetMessages
import Burble.E2EE.SessionFrames
import Burble.E2EE.RoomSystem
import Burble.E2EE.RoomReplies
import Burble.E2EE.SymbolicCrypto
import Burble.E2EE.RoomAgreement
import Burble.Bytes
import Burble.E2EE.FrameCryptor
import Burble.E2EE.FrameHeader
import Burble.E2EE.FrameReplay
import Burble.E2EE.ExactWindow
import Burble.E2EE.MediaRoom
import Burble.E2EE.HonestSpeaker
import Burble.E2EE.ContextStrings
import Burble.E2EE.SamePairwiseKey
import Burble.Base16
import Burble.HashChain
import Burble.Verification.Vext
import Burble.Separated
import Burble.Verification.VextSoundness
import Burble.Verification.Avow
import Burble.Verification.AvowChains
import Burble.Verification.AvowTampering
import Burble.Text.NntpsBackend
import Burble.Sessions.Admission
import Burble.Sessions.AdmissionChange
import Burble.Sessions.AdmissionHistory
import Burble.Sessions.AdmissionSound
import Burble.Sessions.LeaseAuthority
import Burble.Compose.Lexer
import Burble.Compose.Grammar
import Burble.Compose.ExactExpansion
import Burble.Levels
import Burble.Fallible
import Burble.Compose.Schema
import Burble.Compose.Dag
import Burble.Compose.DagLevels
import Burble.Compose.Plan
import Burble.Compose.PlanOrder
import Burble.Compose.Executor
import Burble.Compose.CompletedGating
import Burble.Bebop.Elixir
import Burble.Bebop.Generator
import Burble.Bebop.Functions
import Burble.Bebop.Bindings
import Burble.Bebop.Reading
import Burble.Bebop.Writing
import Burble.Bebop.CodecsFaithful
import Burble.Media.Peer
import Burble.Media.Engine
import Burble.Media.MuteEnforced
import Burble.Base64
import Burble.Json
import Burble.Bolt.Packet
import Burble.Bolt.Spa
import Burble.Bolt.Listener
import Burble.Bolt.BoltRuns
import Burble.Bolt.PacketHandling
import Burble.Bolt.SingleUse
import Burble.Bolt.PayloadIntegrity
import Burble.Rooms.Room
import Burble.Rooms.Moderation
import Burble.Rooms.MembersOnly
import Burble.Media.TrackTable
import Burble.Media.Processes
import Burble.Rooms.InstantConnect
import Burble.Rooms.BoundedUses
import Burble.Media.ChannelRouting
import Burble.Media.Recipients
import Burble.Coprocessor.Lz4
import Burble.Coprocessor.AudioArchive
import Burble.Coprocessor.LosslessFrames
import Burble.Media.LmdbPlayout
import Burble.Media.PlayoutOrder
import Burble.Breaker.CircuitBreaker
import Burble.Breaker.OneProbe
import Burble.Store.Credentials
import Burble.Compose.PlanClosure
import Burble.Security.KeyRotation
import Burble.Client.Phoenix
import Burble.Client.ExactTopic
import Burble.Sessions.ConnectedSeats
import Burble.Sessions.SpentOnce
import Burble.Sessions.CredentialsSpent
import Burble.Sessions.GameLane
import Burble.Sessions.LaneIsolation
import Burble.Groove.GrooveVoice
import Burble.Groove.Server
import Burble.Groove.ServerChange
import Burble.Groove.AttestedSessions
import Burble.Groove.LeaseDeadlines
import Burble.Groove.UnseenSweeps
import Burble.Walk
import Burble.Compose.Visit
import Burble.Compose.EveryString
import Burble.Compose.DeclaredResources
import Burble.Compose.MappedServices
import Burble.Compose.Serialize
import Burble.Compose.DroppedSettings
import Burble.Compose.Deserialize
import Burble.Compose.SchemaRoundTrip
import Burble.Compose.ReadingOrder
import Burble.Compose.ParsedSchema
import Burble.Compose.ServiceIdentity
import Burble.Compose.InertStrings
import Burble.Compose.Config
import Burble.Compose.ConfigReload
import Burble.SelfCopy
import Burble.Coprocessor.Compression
import Burble.Coprocessor.Lz4Sequences
import Burble.Coprocessor.CompressionRoundTrip
import Burble.Signaling.Relay
import Burble.Signaling.CurrentLives
import Burble.Signaling.SweepsUnnoticed
import Burble.Compose.WrittenToml
import Burble.Compose.ProjectOrder
import Burble.Compose.Executions
import Burble.Compose.HealthGating
import Burble.Bebop.EnumWidths
import Burble.Coprocessor.JitterBuffer
import Burble.Coprocessor.Pipeline
import Burble.Coprocessor.AuthenticatedAudio
import Burble.Signaling.Channel
import Burble.Signaling.PlanesAgree
import Burble.Timing.ClockCorrelator
import Burble.Media.TimedMutes
import Burble.Transport.Rtsp
import Burble.Transport.RtspSessions
import Burble.Transport.SessionLives
import Burble.Transport.LifeCycles
import Burble.Compose.LongestWaves
import Burble.Coprocessor.CrossDecoding
import Burble.Coprocessor.DecoderAccesses
import Burble.Coprocessor.DecoderSafety
import Burble.Coprocessor.OrderedPlayout
import Burble.Media.ScreenShare
import Burble.Llm.Transport
import Burble.Llm.Protocol
import Burble.Plugs.InputSanitizer
import Burble.Media.Privacy
import Burble.LineRewriting
import Burble.Media.SanitisedLines
import Burble.Groove.HealthMesh
import Burble.Groove.PeersDegrade
import Burble.Groove.VoiceRelay
import Burble.Polynomials
import Burble.Coprocessor.Convolution
import Burble.Transport.Connections
import Burble.Framing
import Burble.Bridges.MumbleVarint
import Burble.Bridges.ProtobufFields
import Burble.Bridges.MumbleBridge
import Burble.Bridges.MumbleSegments
import Burble.E2EE.RoomSecrecy
import Burble.Coprocessor.DecodersAgree
import Burble.Recent
import Burble.Media.Recorder
import Burble.Bridges.AiBridge
import Burble.Bridges.PolledMessages
import Burble.Bridges.Clients
import Burble.Regression
import Burble.Timing.SteadyClock
import Burble.Media.PipeWire
import Burble.Rooms.IdleRooms
import Burble.Readers
import Burble.Compose.Podman
import Burble.Compose.TornDown
import Burble.Bebop.Schema
import Burble.Text.MessageStore
import Burble.Timing.Alignment
