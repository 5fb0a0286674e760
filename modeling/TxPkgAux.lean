import TxPkgAux.Proof.Exec.Domain
import TxPkgAux.Proof.Exec.TimerWaits
import TxPkgAux.Proof.Rtt.SigHubLeave
import TxPkgAux.Proof.Rtt.SigHubLocks
import TxPkgAux.Proof.Rtt.SigHubOrder
import TxPkgAux.Proof.Rtt.SigHubRegistry
import TxPkgAux.Proof.Rtt.DcInbound
import TxPkgAux.Proof.Rtt.DcNotify
import TxPkgAux.Proof.Rtt.DcAnswers
import TxPkgAux.Proof.Rtt.DcOnLink
import TxPkgAux.Proof.Rtt.DcCandidates
import TxPkgAux.Proof.Rtt.RtcRoutes
import TxPkgAux.Proof.Rtt.WsClientLeave
import TxPkgAux.Proof.Rtt.UdpReceive
import TxPkgAux.Proof.Rtt.UdpDisconnect
import TxPkgAux.Proof.Rtt.Malformed
import TxPkgAux.Proof.Rtt.WsSignaling
import TxPkgAux.Proof.RunLoop.Runners
import TxPkgAux.Proof.RunLoop.CompositeHandler
import TxPkgAux.Proof.RunLoop.ExitCode
import TxPkgAux.Proof.RunLoop.RunnerPointers
import TxPkgAux.Proof.Rtt.JsWsFrames
import TxPkgAux.Proof.RunLoop.UpdateCtx
import TxPkgAux.Proof.Fs.Path
import TxPkgAux.Proof.Fs.Drive
import TxPkgAux.Proof.Exec.TimerDue
import TxPkgAux.Proof.Rtt.DcRejected
import TxPkgAux.Proof.Exec.LoopTimerTick
import TxPkgAux.Proof.Exec.PureLoopContext
import TxPkgAux.Proof.Exec.LoopDomain
import TxPkgAux.Proof.Log.StartupSink
import TxPkgAux.Proof.Http.BeastLiteClient
import TxPkgAux.Proof.Rtt.RtcPairs
import TxPkgAux.Proof.Rtt.UdpNetwork
import TxPkgAux.Proof.Rtt.JsContexts
import TxPkgAux.Proof.Rtt.RtcStack
import TxPkgAux.Proof.Rtt.RtcData
import TxPkgAux.Proof.Rtt.DcRefs
import TxPkgAux.Impl.Rtt.MixedNetwork
import TxPkgAux.Proof.Rtt.JsNegotiation
import TxPkgAux.Proof.Rtt.MixedNetwork
