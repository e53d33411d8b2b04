import TcpOverUdp.LastAck
import TcpOverUdp.FlowControl
import TcpOverUdp.Completion
import TcpOverUdp.CloseRecords
import TcpOverUdp.OrderlyClose
import TcpOverUdp.Backoff
import TcpOverUdp.SegmentCount
import TcpOverUdp.Wire
import TcpOverUdp.Consumer
import TcpOverUdp.Persistence
import TcpOverUdp.Handshake
import TcpOverUdp.CloseAgreement
import TcpOverUdp.ActiveClose
import TcpOverUdp.Probing
import TcpOverUdp.StaleReads
import TcpOverUdp.Progress
import TcpOverUdp.WindowGrowth
import TcpOverUdp.Retries
import TcpOverUdp.Needless
import TcpOverUdp.FinRetries
import TcpOverUdp.PassiveClose
import TcpOverUdp.Estimators
import TcpOverUdp.ClientTable
import TcpOverUdp.ServerInterfaces
import TcpOverUdp.ConfigLayout
import TcpOverUdp.Integrity
import TcpOverUdp.Congestion
import TcpOverUdp.Silence
import TcpOverUdp.CloseCounts
import TcpOverUdp.ServedOnce
import TcpOverUdp.LosslessRun
import TcpOverUdp.Transmissions
import TcpOverUdp.WireFormat
import TcpOverUdp.Agreement
import TcpOverUdp.InterfaceList
import TcpOverUdp.ArrivalOrder
import TcpOverUdp.Availability
import TcpOverUdp.WindowCap
