import TcpOverUdp.Lib.CWord

namespace TcpOverUdp

def segmentSize : ℕ := 512

def segmentDataSize : ℕ := segmentSize - 4

abbrev Payload := Fin segmentDataSize → UInt8

@[ext] structure Segment where
  segmentNum : Word
  segmentData : Payload

instance : Inhabited Segment := ⟨⟨0, fun _ => 0⟩⟩

@[ext] structure ClientAck where
  /-- What does client need -/
  currentRequest : Word
  /-- How much space do we have left in the window -/
  advtWindow : Word
  lastackSent : Word
  deriving DecidableEq, Repr

def finRequest : Word := ~~~0#32

def ackRequest : Word := ~~~0#32 - 1#32

def finRecord : ClientAck := ⟨finRequest, 0, 0⟩

def ClientAck.rightEdge (a : ClientAck) : ℕ := a.currentRequest.toNat + a.advtWindow.toNat

structure FileSegment where
  segmentNum : ℤ
  segmentOffset : ℤ
  totalBytesInSegment : ℤ
  deriving DecidableEq, Repr

inductive ActiveCloseState
  | finWait1
  | finWait2
  | closing
  | timeWait
  deriving DecidableEq, Repr

@[simp] lemma toNat_finRequest : finRequest.toNat = 4294967295 := rfl

@[simp] lemma toNat_ackRequest : ackRequest.toNat = 4294967294 := rfl

def Payload.wordAt (p : Payload) (i : Fin 127) : Word :=
  (p ⟨4 * i, by simp [segmentDataSize, segmentSize]; omega⟩).toBitVec ++
    (p ⟨4 * i + 1, by simp [segmentDataSize, segmentSize]; omega⟩).toBitVec ++
    (p ⟨4 * i + 2, by simp [segmentDataSize, segmentSize]; omega⟩).toBitVec ++
    (p ⟨4 * i + 3, by simp [segmentDataSize, segmentSize]; omega⟩).toBitVec

/-- The first `sizeof (ClientAck)` bytes of a segment, as a reader that expects a
`ClientAck` sees them on a big-endian host. -/
def Segment.asClientAck (s : Segment) : ClientAck :=
  ⟨s.segmentNum, s.segmentData.wordAt 0, s.segmentData.wordAt 1⟩

end TcpOverUdp
