import TunnelMate.Proofs.RelayClose
import TunnelMate.Proofs.StreamIds
import TunnelMate.Proofs.AgentSlot
import TunnelMate.Proofs.Rotation
import TunnelMate.Proofs.ApiPorts
import TunnelMate.Proofs.ApiLeases
import TunnelMate.Proofs.StreamBound
import TunnelMate.Proofs.StreamCount
import TunnelMate.Proofs.ApiSwitch
import TunnelMate.Proofs.PeerBind
import TunnelMate.Proofs.Handles
import TunnelMate.Proofs.Supervise
import TunnelMate.Proofs.UdpRate
import TunnelMate.Proofs.UdpDecision
import TunnelMate.Proofs.FlowTotal
import TunnelMate.Proofs.Listener
import TunnelMate.Proofs.ControlPort
import TunnelMate.Proofs.UdpLoss
import TunnelMate.Proofs.Frames
import TunnelMate.Proofs.IpcRequest
import TunnelMate.Proofs.AnnounceSearch
import TunnelMate.Proofs.AnnounceViews
import TunnelMate.Proofs.ApiRate
import TunnelMate.Proofs.AcceptRate
import TunnelMate.Proofs.Outq
import TunnelMate.Proofs.AgentRecord
import TunnelMate.Proofs.PeerBackoff
import TunnelMate.Proofs.ClientIp
import TunnelMate.Proofs.AgentBackoff
import TunnelMate.Proofs.Attributes
import TunnelMate.Proofs.FlowIds
import TunnelMate.Proofs.Log
import TunnelMate.Proofs.PeerArgs
