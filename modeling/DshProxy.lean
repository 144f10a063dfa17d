import DshProxy.WsDownlink
import DshProxy.WsOutput
import DshProxy.InboxOverflow
import DshProxy.InboxBytes
import DshProxy.CleanClose
import DshProxy.Handshake
import DshProxy.NoiseCodec
import DshProxy.MuxAgreement
import DshProxy.MuxCredit
import DshProxy.Routing
import DshProxy.FrameGrammar
import DshProxy.Isolation
import DshProxy.IpSlots
import DshProxy.StreamIoWrites
import DshProxy.StreamIoCredit
import DshProxy.ServeExit
import DshProxy.EndToEnd
import DshProxy.WsBuffers
import DshProxy.WsClose
import DshProxy.Simulation
import DshProxy.HostileLink
import DshProxy.BridgeHandshake
import DshProxy.BridgeRouting
import DshProxy.LinkDelivery
import DshProxy.LinkSlots
import DshProxy.DeadLink
