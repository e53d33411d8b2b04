import TcpOverUdp.Sender

namespace TcpOverUdp
open CWord

lemma toNat_add_one_of_lt {c w : Word} (h : c < w) : (c + 1).toNat = c.toNat + 1 := by
  have hlt : c.toNat < w.toNat := BitVec.lt_def.mp h
  have := w.isLt
  show (c + 1#32).toNat = c.toNat + 1
  rw [BitVec.toNat_add, BitVec.toNat_ofNat]
  omega

lemma toNat_toUnsigned_of_pos {x : ℤ} (h0 : 0 < x) (h : x < 2 ^ 31) :
    ((toUnsigned x).toNat : ℤ) = x := toNat_toUnsigned h0.le (by omega)

/-- What slow start adds to a window `c` for a new acknowledgement, with `w` advertised. -/
def slowStart (ssthresh c w : ℕ) : ℕ := if c < ssthresh ∧ c < w then 1 else 0

/-- What congestion avoidance adds to a window `c` at the end of a cycle, with `w` advertised. -/
def avoidance (ssthresh c w : ℕ) : ℕ := if ssthresh ≤ c ∧ c < w then 1 else 0

namespace Sender

/-- `lastAdvtWindow`, as the code compares it with `cwindow`. -/
def advertised (s : Sender) : ℕ := (toUnsigned s.lastAdvtWindow).toNat

lemma endCycle_cwindow (s : Sender) :
    s.endCycle.cwindow.toNat =
      s.cwindow.toNat + avoidance s.ssthresh.toNat s.cwindow.toNat s.advertised := by
  unfold endCycle avoidance advertised
  simp only [ge_iff_le, BitVec.le_def, BitVec.lt_def]
  by_cases h : s.ssthresh.toNat ≤ s.cwindow.toNat ∧
      s.cwindow.toNat < (toUnsigned s.lastAdvtWindow).toNat
  · rw [if_pos h, if_pos h]
    exact toNat_add_one_of_lt (BitVec.lt_def.mpr h.2)
  · rw [if_neg h, if_neg h, add_zero]

lemma recordAck_cwindow (s : Sender) (now : TimeVal) :
    (s.recordAck now).cwindow.toNat =
      s.cwindow.toNat + slowStart s.ssthresh.toNat s.cwindow.toNat s.advertised := by
  unfold recordAck slowStart advertised
  simp only [BitVec.lt_def]
  by_cases h : s.cwindow.toNat < s.ssthresh.toNat ∧
      s.cwindow.toNat < (toUnsigned s.lastAdvtWindow).toNat
  · rw [if_pos h, if_pos h]
    exact toNat_add_one_of_lt (BitVec.lt_def.mpr h.2)
  · rw [if_neg h, if_neg h, add_zero]

lemma endCycle_recordAck_cwindow (s : Sender) (now : TimeVal) (w : Word) :
    (endCycle { s.recordAck now with lastAdvtWindow := toSigned w }).cwindow.toNat =
      (s.recordAck now).cwindow.toNat +
        avoidance s.ssthresh.toNat (s.recordAck now).cwindow.toNat w.toNat := by
  rw [endCycle_cwindow, advertised, toUnsigned_toSigned]
  rfl

lemma fastRetransmit_cwindow (s : Sender) (now : TimeVal) :
    (s.fastRetransmit now).1.cwindow.toNat = s.cwindow.toNat / 2 + 3 := by
  show (s.cwindow / 2#32 + 3#32).toNat = _
  have := s.cwindow.isLt
  have htwo : (2#32).toNat = 2 := rfl
  have hthree : (3#32).toNat = 3 := rfl
  rw [BitVec.toNat_add, BitVec.toNat_udiv, htwo, hthree]
  omega

variable {s : Sender}

lemma onAlarm_cwindow (h : (rttTimeout s.rttinfo).2 = false) : s.onAlarm.1.cwindow = 1 := by
  simp [onAlarm, h]

lemma onAlarm_cwindow_of_max (h : (rttTimeout s.rttinfo).2 = true) :
    s.onAlarm.1.cwindow = s.cwindow := by
  simp [onAlarm, h]

@[simp] lemma onAlarm_lastAdvtWindow (s : Sender) :
    s.onAlarm.1.lastAdvtWindow = s.lastAdvtWindow := by
  unfold onAlarm
  split <;> rfl

lemma onAlarm_ssthresh (h : (rttTimeout s.rttinfo).2 = false) :
    s.onAlarm.1.ssthresh.toNat = max (s.ssthresh.toNat / 2) ssthreshMin.toNat := by
  have htwo : (2 * ssthreshMin).toNat = 4 := rfl
  have hmin : ssthreshMin.toNat = 2 := rfl
  have hhalf : (s.ssthresh / 2).toNat = s.ssthresh.toNat / 2 := BitVec.toNat_udiv
  simp only [onAlarm, h, ge_iff_le, BitVec.le_def, htwo, Bool.false_eq_true, if_false]
  split_ifs with hge
  · omega
  · omega

def eightSegments : ServerConfig := ⟨.big, .bits64, 4000, by decide, 4, ⟨0, 0, 0⟩, true⟩

/-- Two cycles with nothing lost, and the burst of the segments `3` to `6`. -/
def threeBursts : List SenderEvent :=
  [.go ⟨0, 0⟩, .read (.complete ⟨1, 4, 0⟩) ⟨0, 0⟩, .go ⟨0, 0⟩, .go ⟨0, 0⟩,
    .read (.complete ⟨2, 4, 0⟩) ⟨0, 0⟩, .read (.complete ⟨3, 4, 0⟩) ⟨0, 0⟩, .go ⟨0, 0⟩,
    .go ⟨0, 0⟩]

end Sender

end TcpOverUdp
