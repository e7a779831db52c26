import Gemacast.Jitter.Target
import Gemacast.Jitter.Flow
import Gemacast.Jitter.Decoder
import Gemacast.Jitter.Callback
import Gemacast.Jitter.GapSkip
import Gemacast.Jitter.Concealment
import Gemacast.Jitter.Ledger
import Gemacast.Jitter.ChannelAlignment
import Gemacast.Jitter.PlaybackQueue
import Gemacast.Jitter.SpliceRate
import Gemacast.Core.Directory
import Gemacast.Control.IdentityRestarts
import Gemacast.Control.TrustFiles
import Gemacast.Control.TrustRestarts
import Gemacast.Phone.PcPins
import Gemacast.Jitter.Outage
import Gemacast.Player.WireRoundTrip
import Gemacast.Jitter.PlayheadBound
import Gemacast.Streamer.UdpAudioSender
import Gemacast.Player.Replacement
import Gemacast.Jitter.Histogram
import Gemacast.Jitter.GapWindow
import Gemacast.Jitter.Depth
import Gemacast.Streamer.Hygiene
import Gemacast.Streamer.Sessions
import Gemacast.Streamer.Stale
import Gemacast.Core.Tasks
import Gemacast.Control.Auth
import Gemacast.Control.DeviceAuth
import Gemacast.Control.TrustStore
import Gemacast.Control.Operations
import Gemacast.Control.Dispatcher
import Gemacast.Control.Handlers
import Gemacast.Control.Service
import Gemacast.Control.Contracts
import Gemacast.Control.Admission
import Gemacast.Control.TrustRuns
import Gemacast.Control.FailedConnect
import Gemacast.Core.ByteStream
import Gemacast.Player.TcpFraming
import Gemacast.Player.PlayPause
import Gemacast.Control.PhoneConnect
import Gemacast.Control.PhoneTrust
import Gemacast.Control.SessionManager
import Gemacast.Core.FileSystem
import Gemacast.Updater.Manifest
import Gemacast.Updater.Downloader
import Gemacast.Updater.UpdateChecks
import Gemacast.Updater.VerifiedUpdates
import Gemacast.Streamer.TcpChannels
import Gemacast.Control.AdbServer
import Gemacast.Control.DelayedRequests
import Gemacast.Jitter.FlushExactness
import Gemacast.Core.MonotoneBinary32
import Gemacast.Jitter.BufferAhead
import Gemacast.Jitter.ResumeClamp
import Gemacast.Jitter.Attribution
import Gemacast.Jitter.FlushWarmth
import Gemacast.Jitter.CodecTruth
import Gemacast.Core.Splice
import Gemacast.Jitter.Splices
import Gemacast.Jitter.StagedFrames
import Gemacast.Jitter.RecoveryGuard
import Gemacast.Core.VecDeque
import Gemacast.Jitter.FillOutput
import Gemacast.Core.Exact
import Gemacast.Core.Checked
import Gemacast.Jitter.PitchRepetition
import Gemacast.Audio.Mixdown
import Gemacast.Control.AdbHandshake
import Gemacast.Core.Pursuit
import Gemacast.Jitter.Discipline
import Gemacast.Jitter.DepthTrace
import Gemacast.Jitter.Steady
import Gemacast.Jitter.CapOverride
import Gemacast.Jitter.DeclinedFloor
import Gemacast.Jitter.Reordered
import Gemacast.Control.ControlSockets
import Gemacast.Control.SelfWait
import Gemacast.Control.EventRouting
import Gemacast.Control.VolumeWatcher
import Gemacast.Control.VolumeHeard
import Gemacast.Control.VolumeReach
import Gemacast.Core.LengthPrefix
import Gemacast.Control.Transcript
import Gemacast.Streamer.PacketPacer
import Gemacast.Player.SourceIdle
import Gemacast.Core.Recut
import Gemacast.Audio.Capture
import Gemacast.Audio.SckBuffers
import Gemacast.Audio.SampleDecode
import Gemacast.Streamer.CaptureLoop
import Gemacast.Streamer.CapturePhase
import Gemacast.Jitter.SequenceRoom
import Gemacast.Audio.Resampler
import Gemacast.Audio.CapturePackets
import Gemacast.Jitter.SearchIndices
import Gemacast.Phone.AudioService
import Gemacast.Phone.StreamFlags
import Gemacast.Phone.SessionVolume
import Gemacast.Control.BoundedConnect
import Gemacast.Phone.OnlineTimeout
import Gemacast.Jitter.Forgetting
import Gemacast.Player.Resume
import Gemacast.Phone.ConnectionScreen
import Gemacast.Core.Provenance
import Gemacast.Control.Callers
import Gemacast.Control.PairingSafety
import Gemacast.Control.Presence
