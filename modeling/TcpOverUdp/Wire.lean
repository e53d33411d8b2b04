import TcpOverUdp.Records
import TcpOverUdp.Lib.HostMemory

namespace TcpOverUdp
open CWord

/-- The fields that cross the wire.  A FIN or an ACK of the close crosses it in both
directions. -/
inductive WireField
  /-- `ServerAck.serverPort` -/
  | serverPort
  /-- `ServerAck.originalRecvWindow` -/
  | originalRecvWindow
  /-- `ClientAck.currentRequest` -/
  | currentRequest
  /-- `ClientAck.advtWindow` -/
  | advtWindow
  /-- `ClientAck.lastack_sent` -/
  | lastackSent
  /-- `Segment.segmentNum` -/
  | segmentNum
  | clientFin
  | clientAck
  | serverFin
  | serverAck
  /-- the port the child connects to, from the source address of the request -/
  | clientPort
  deriving DecidableEq, Repr

structure WireValues where
  /-- the child's ephemeral port -/
  serverPort : Port
  /-- `clientInput.receivingWindowSize` -/
  originalRecvWindow : Word
  /-- what `SlidingWindowGetNextAckIndex` returns -/
  currentRequest : Word
  /-- what `SlidingWindowGetAvailableWindowSize` returns -/
  advtWindow : Word
  lastack : Bool
  segmentNum : Word
  clientPort : Port
  deriving DecidableEq, Repr

namespace WireValues

def sent (v : WireValues) : WireField → Word
  | .serverPort => v.serverPort.setWidth 32
  | .originalRecvWindow => v.originalRecvWindow
  | .currentRequest => v.currentRequest
  | .advtWindow => v.advtWindow
  | .lastackSent => if v.lastack then 1 else 0
  | .segmentNum => v.segmentNum
  | .clientFin | .serverFin => finRequest
  | .clientAck | .serverAck => ackRequest
  | .clientPort => v.clientPort.setWidth 32

/-- `servInfo.serverPort`.  `getsockname` has put the port into `sin_port` in the order of the
network. -/
def servInfoPort (server : ByteOrder) (port : Port) : Word :=
  let returnedPortnum : Word := (htons server port).setWidth 32
  (htons server (returnedPortnum.setWidth 16)).setWidth 32

def connectedPort (client : ByteOrder) (serverPort : Word) : Port :=
  let receivedServerPort : Word := (ntohs client (serverPort.setWidth 16)).setWidth 32
  let sinPort := htons client (receivedServerPort.setWidth 16)
  -- the kernel reads `sin_port` in the order of the network
  ntohs client sinPort

def connectClientPort (server : ByteOrder) (sinPort : Port) : Port :=
  ntohs server (htons server sinPort)

def received (v : WireValues) (client server : ByteOrder) : WireField → Word
  | .serverPort =>
    (connectedPort client (carry server client (servInfoPort server v.serverPort))).setWidth 32
  | .originalRecvWindow => carry client server v.originalRecvWindow
  | .currentRequest => carry client server (htonl client v.currentRequest)
  | .advtWindow => carry client server (htonl client v.advtWindow)
  | .lastackSent => carry client server (if v.lastack then 1 else 0)
  | .segmentNum => carry server client v.segmentNum
  | .clientFin => ntohl server (carry client server (htonl client finRequest))
  | .clientAck => ntohl server (carry client server (htonl client ackRequest))
  | .serverFin => ntohl client (carry server client (htonl server finRequest))
  | .serverAck => ntohl client (carry server client (htonl server ackRequest))
  | .clientPort => (connectClientPort server (htons server v.clientPort)).setWidth 32

/-- When a field arrives as it was sent.  Only the words of the close are converted at both
ends. -/
def Arrives (v : WireValues) (client server : ByteOrder) : WireField → Prop
  | .serverPort =>
    (client = .big ∧ server = .big) ∨
      (client = .little ∧ server = .little ∧ byteSwap16 v.serverPort = v.serverPort) ∨
      (client ≠ server ∧ v.serverPort = 0)
  | .originalRecvWindow => client = server ∨ byteSwap v.originalRecvWindow = v.originalRecvWindow
  | .currentRequest => server = .big ∨ byteSwap v.currentRequest = v.currentRequest
  | .advtWindow => server = .big ∨ byteSwap v.advtWindow = v.advtWindow
  | .lastackSent => client = server ∨ v.lastack = false
  | .segmentNum => client = server ∨ byteSwap v.segmentNum = v.segmentNum
  | .clientFin | .clientAck | .serverFin | .serverAck => True
  | .clientPort => server = .big ∨ byteSwap16 v.clientPort = v.clientPort

lemma setWidth_inj {p q : Port} : p.setWidth 32 = q.setWidth 32 ↔ p = q := by
  constructor
  · intro h
    simpa using congrArg (BitVec.setWidth 16) h
  · exact congrArg (BitVec.setWidth 32)

lemma servInfoPort_eq (server : ByteOrder) (port : Port) :
    servInfoPort server port = port.setWidth 32 := by
  have hback : htons server (htons server port) = port := ntohs_htons server port
  simp [servInfoPort, hback]

lemma connectedPort_eq (client : ByteOrder) (w : Word) :
    connectedPort client w = htons client (w.setWidth 16) := by
  have hback : htons client (htons client (w.setWidth 16)) = w.setWidth 16 :=
    ntohs_htons client _
  simp [connectedPort, ntohs, hback]

lemma received_serverPort_iff (v : WireValues) (client server : ByteOrder) :
    v.received client server .serverPort = v.sent .serverPort ↔
      v.Arrives client server .serverPort := by
  have hzero : byteSwap16 0 = 0 := by decide
  have hnone : (0 : Port) = v.serverPort ↔ v.serverPort = 0 := eq_comm
  simp only [received, sent, Arrives, setWidth_inj, servInfoPort_eq, connectedPort_eq, carry_eq]
  cases client <;> cases server <;>
    simp only [htons, setWidth_byteSwap_setWidth, reduceCtorEq, if_true, if_false, hzero, hnone] <;>
    simp

lemma received_lastackSent_iff (v : WireValues) (client server : ByteOrder) :
    v.received client server .lastackSent = v.sent .lastackSent ↔
      v.Arrives client server .lastackSent := by
  have hzero : byteSwap 0#32 = 0#32 := by decide
  have hone : byteSwap 1#32 ≠ 1#32 := by decide
  simp only [received, sent, Arrives, carry_eq_self_iff, eq_comm (a := server)]
  cases v.lastack <;> simp [hzero, hone]

/-- For every pair of hosts and all values, the fields that arrive as they were sent. -/
theorem received_eq_sent_iff (v : WireValues) (client server : ByteOrder) (field : WireField) :
    v.received client server field = v.sent field ↔ v.Arrives client server field := by
  cases field with
  | serverPort => exact received_serverPort_iff v client server
  | originalRecvWindow =>
    simp only [received, sent, Arrives, carry_eq_self_iff, eq_comm (a := server)]
  | currentRequest => simp [received, sent, Arrives, htonl_eq_self_iff]
  | advtWindow => simp [received, sent, Arrives, htonl_eq_self_iff]
  | lastackSent => exact received_lastackSent_iff v client server
  | segmentNum => simp [received, sent, Arrives, carry_eq_self_iff]
  | clientFin => simp [received, sent, Arrives]
  | clientAck => simp [received, sent, Arrives]
  | serverFin => simp [received, sent, Arrives]
  | serverAck => simp [received, sent, Arrives]
  | clientPort =>
    simp only [received, sent, Arrives, setWidth_inj, connectClientPort, ntohs_htons,
      htons_eq_self_iff]

/-- Between two little-endian hosts the request for segment 1 asks for segment 16777216. -/
theorem not_received_eq_sent :
    ¬ ∀ (v : WireValues) (client server : ByteOrder) (field : WireField),
      v.received client server field = v.sent field := by
  intro h
  have hrequest := h ⟨0, 4, 1, 3, false, 0, 0⟩ .little .little .currentRequest
  revert hrequest
  decide

end WireValues

end TcpOverUdp
