import RankGate.Foundation.ByteCodec
import RankGate.Foundation.Lockstep
import RankGate.Foundation.Shuffle
import RankGate.Foundation.Radix
import RankGate.Server.VmReference
import RankGate.Client.Vm
import RankGate.Tools.VmBytecode
import RankGate.Vm.CanonicalProgram
import RankGate.Vm.EngineRefinement
import RankGate.Wire.TranscriptBinding
import RankGate.Foundation.Runs
import RankGate.Handlers.FlagGate
import RankGate.Handlers.Creation
import RankGate.Handlers.CounterCommit
import RankGate.Handlers.MessageOrder
import RankGate.Client.Protocol
import RankGate.Client.LicenseFormat
import RankGate.Vm.CommittedBlob
import RankGate.Session.ClientSide
import RankGate.Session.Retention
import RankGate.Session.License
import RankGate.Session.Completeness
import RankGate.Wire.FrameExactness
import RankGate.Handlers.Independence
import RankGate.Vm.DispatchBlindness
import RankGate.Vm.FaultAgreement
import RankGate.Vm.Boundaries
import RankGate.Vm.BlobPipeline
import RankGate.Crypto.StreamingDigest
import RankGate.Session.LicenseAgreement
import RankGate.Vm.InputPacking
import RankGate.Vm.StateHash
import RankGate.Vm.PathParity
import RankGate.Wire.Payloads
import RankGate.Wire.TransportBase64
import RankGate.Session.UsernameAgreement
import RankGate.Session.LicenseTamper
import RankGate.Session.ProofEncoding
import RankGate.Session.LeastRecentlyUsed
import RankGate.Session.HeaderChecks
import RankGate.Crypto.Expand
import RankGate.Crypto.StreamCipher
import RankGate.Tools.Mnemonics
import RankGate.Tools.SplicedStrings
import RankGate.Vm.Widths
import RankGate.Session.AppVerdict
import RankGate.Session.GenuineFlag
import RankGate.Session.SolverVerdict
import RankGate.Vm.Assembled
import RankGate.Session.StandIn
import RankGate.Session.Captured
import RankGate.Tools.FlagBlob
