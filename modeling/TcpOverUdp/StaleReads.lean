import TcpOverUdp.FastRetransmit
import TcpOverUdp.Samples

namespace TcpOverUdp
open CWord

def ReadResult.isComplete : ReadResult → Bool
  | .complete _ => true
  | _ => false

namespace Sender

/-- An iteration of the inner loop has changed none of the variables of the transfer, sent
nothing, and gone back to `read`. -/
structure Intact (s t : Sender) (outs : List SenderOut) : Prop where
  duplicateAck : t.duplicateAck = s.duplicateAck
  lastAckReceived : t.lastAckReceived = s.lastAckReceived
  totalToRecv : t.totalToRecv = s.totalToRecv
  cwindow : t.cwindow = s.cwindow
  ssthresh : t.ssthresh = s.ssthresh
  lastAdvtWindow : t.lastAdvtWindow = s.lastAdvtWindow
  rttinfo : t.rttinfo = s.rttinfo
  outs : outs = []
  state : t.state = .reading

variable {cfg : ServerConfig} {s t : Sender} {outs : List SenderOut} {r : ReadResult}
  {now : TimeVal}

lemma Moves.not_intact (h : Moves cfg s (.read r now) t outs) (hs : s.state = .reading) :
    ¬ Intact s t outs := by
  rintro ⟨hdup, -, hrecv, -, -, -, -, -, hstate⟩
  cases h with
  | lastAck _ hlast =>
    rw [endCycle_of_last (show (s.receive r).ack.lastackSent = 1 from hlast)] at hstate
    cases hstate
  | zeroWindow => cases hstate
  | duplicate =>
    have : s.duplicateAck + 1 = s.duplicateAck := hdup
    omega
  | thirdDuplicate =>
    have : s.duplicateAck + 1 = s.duplicateAck := hdup
    omega
  | newAck =>
    have : s.totalToRecv + 1 = s.totalToRecv := hrecv
    omega
  | cycleDone =>
    have : s.totalToRecv + 1 = s.totalToRecv := hrecv
    omega
  | readError hr => rcases hr with ⟨p, hr⟩ | hr | ⟨n, a, hr⟩ <;> simp [hs] at hr
  | _ hr => simp [hs] at hr

lemma receive_of_incomplete (s : Sender) (hr : r.isComplete = false) :
    s.receive r = { s with ack := r.over s.ack } := by
  cases r with
  | complete a => cases hr
  | short a => rfl
  | error => rfl

/-- An iteration whose `read` fails or is too short processes what the buffer holds, and never
leaves the state intact. -/
theorem not_intact_of_incomplete (cfg : ServerConfig) (s : Sender) (hs : s.state = .reading)
    (r : ReadResult) (hr : r.isComplete = false) (now : TimeVal) :
    s.step cfg (.read r now) = (processAck { s with ack := r.over s.ack } now).toOption ∧
      ¬ ∃ t outs, s.step cfg (.read r now) = some (t, outs) ∧ Intact s t outs := by
  constructor
  · rw [← receive_of_incomplete s hr]
    simp only [step, hs]
  · rintro ⟨t, outs, hstep, hintact⟩
    exact (step_moves hstep).not_intact hs hintact

/-- Segment `2` has been asked for once, and one `read` has failed. -/
def failedOnce : List SenderEvent :=
  [.go ⟨0, 0⟩, .read (.complete ⟨1, 4, 0⟩) ⟨0, 0⟩, .go ⟨0, 0⟩, .go ⟨0, 0⟩,
    .read (.complete ⟨2, 4, 0⟩) ⟨0, 0⟩, .read .error ⟨0, 0⟩]

/-- When `read` fails again, segment `2` is sent by fast retransmit. -/
theorem not_intact_failedOnce :
    ∃ s t, (machine fourSegments).run (start fourSegments ⟨0, 0⟩) failedOnce = some s ∧
      s.state = .reading ∧
      s.step fourSegments (.read .error ⟨0, 0⟩) = some (t, [.segment 2]) ∧
      ¬ Intact s t [.segment 2] := by
  refine ⟨_, _, rfl, rfl, rfl, fun h => ?_⟩
  exact absurd h.outs (by simp)

theorem not_intact_of_incomplete_failedOnce :
    ∃ s, (machine fourSegments).run (start fourSegments ⟨0, 0⟩) failedOnce = some s ∧
      ¬ ∃ t outs, s.step fourSegments (.read .error ⟨0, 0⟩) = some (t, outs) ∧ Intact s t outs :=
  ⟨_, rfl, (not_intact_of_incomplete fourSegments _ rfl .error rfl ⟨0, 0⟩).2⟩

end Sender

end TcpOverUdp
