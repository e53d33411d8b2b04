import TcpOverUdp.Samples
import TcpOverUdp.Windows

namespace TcpOverUdp
open CWord

def SenderEvent.windowFits : SenderEvent → Bool
  | .read (.complete a) _ => a.advtWindow.toNat < 2 ^ 31
  | .read _ _ => false
  | _ => true

namespace Sender

structure WindowsOpen (s : Sender) : Prop where
  cwindow : 0 < s.cwindow.toNat
  lastAdvtWindow : 0 < s.lastAdvtWindow ∧ s.lastAdvtWindow < 2 ^ 31
  cycleEnd : s.state = .cycleEnd → s.ack.advtWindow ≠ 0 ∧ s.ack.advtWindow.toNat < 2 ^ 31

variable {cfg : ServerConfig} {s t : Sender} {e : SenderEvent} {outs : List SenderOut}

lemma toSigned_pos {w : Word} (h0 : w ≠ 0) (h : w.toNat < 2 ^ 31) :
    0 < toSigned w ∧ toSigned w < 2 ^ 31 := by
  have hpos : w.toNat ≠ 0 := fun hw => h0 (BitVec.eq_of_toNat_eq hw)
  rw [toSigned_of_lt h]
  omega

lemma windowsOpen_endCycle (hc : 0 < s.cwindow.toNat)
    (hw : 0 < s.lastAdvtWindow ∧ s.lastAdvtWindow < 2 ^ 31)
    (hack : s.ack.lastackSent ≠ 1 → s.ack.advtWindow ≠ 0 ∧ s.ack.advtWindow.toNat < 2 ^ 31) :
    WindowsOpen s.endCycle where
  cwindow := by
    rw [endCycle_cwindow]
    omega
  lastAdvtWindow := hw
  cycleEnd := by
    intro hend
    refine hack fun hlast => ?_
    rw [endCycle_of_last hlast] at hend
    cases hend

lemma recordAck_cwindow_pos (now : TimeVal) (hc : 0 < s.cwindow.toNat) :
    0 < (s.recordAck now).cwindow.toNat := by
  rw [recordAck_cwindow]
  omega

lemma window_lt {r : ReadResult} {now : TimeVal}
    (he : (SenderEvent.read r now).windowFits = true) (a : ClientAck) :
    (r.over a).advtWindow.toNat < 2 ^ 31 := by
  cases r with
  | complete b =>
    show b.advtWindow.toNat < 2 ^ 31
    simpa [SenderEvent.windowFits] using he
  | short b => cases he
  | error => cases he

lemma WindowsOpen.step (h : WindowsOpen s) (hmove : Moves cfg s e t outs)
    (he : e.windowFits = true) : WindowsOpen t := by
  obtain ⟨hc, hw, hend⟩ := h
  cases hmove with
  | nextCycle hs => exact ⟨hc, toSigned_pos (hend hs).1 (hend hs).2, by simp [disarm]⟩
  | lastAck hs hlast => exact windowsOpen_endCycle hc hw fun hnot => absurd hlast hnot
  | duplicate hs => exact ⟨hc, hw, by simp [receive, hs]⟩
  | thirdDuplicate hs =>
    refine ⟨?_, hw, by simp [receive, fastRetransmit, hs]⟩
    rw [fastRetransmit_cwindow]
    omega
  | newAck hs =>
    exact ⟨recordAck_cwindow_pos _ hc, hw, by simp [receive, recordAck, hs]⟩
  | @cycleDone r now hs hlast hopen =>
    have hfits := window_lt he s.ack
    exact windowsOpen_endCycle (recordAck_cwindow_pos now hc) (toSigned_pos hopen hfits)
      fun _ => ⟨hopen, hfits⟩
  | reopened hs hok hopen =>
    exact windowsOpen_endCycle hc hw fun _ => ⟨hopen, window_lt he s.ack⟩
  | resend hon htry =>
    refine ⟨?_, ?_, by simp [onAlarm_of_try htry]⟩
    · rw [onAlarm_cwindow htry]
      decide
    · rwa [onAlarm_lastAdvtWindow]
  | giveUp hon hmax =>
    refine ⟨?_, ?_, by simp [onAlarm_of_max hmax]⟩
    · rwa [onAlarm_cwindow_of_max hmax]
    · rwa [onAlarm_lastAdvtWindow]
  | _ => exact ⟨hc, hw, by simp [disarm, closeReply]⟩

lemma WindowsOpen.burstSize_pos (h : WindowsOpen s) : 0 < s.burstSize := by
  obtain ⟨hc, hw, -⟩ := h
  have hadvt := toNat_toUnsigned_of_pos hw.1 hw.2
  unfold burstSize
  simp only [BitVec.lt_def]
  split_ifs with hlt
  · exact hw.1
  · rw [toSigned_of_lt (by omega)]
    omega

def iteration (cfg : ServerConfig) (s : Sender) (_ : SenderEvent) (_ : Sender) (n : ℕ) : ℕ :=
  if s.state = .top ∧ s.index < cfg.totalNumSegments then n + 1 else n

def iterating (cfg : ServerConfig) : Machine (Sender × ℕ) SenderEvent :=
  (machine cfg).ghost (iteration cfg)

/-- What a run keeps: every iteration so far has moved `index`. -/
structure Progressing (cfg : ServerConfig) (x : Sender × ℕ) : Prop where
  windows : WindowsOpen x.1
  index : (x.2 : ℤ) ≤ x.1.index
  count : (x.2 : ℤ) ≤ cfg.totalNumSegments

/-- What holds at the start of an iteration: the windows are positive, at least one segment is
going to be sent, and `index` is larger afterwards. -/
def Advances (cfg : ServerConfig) (s : Sender) : Prop :=
  1 ≤ s.cwindow.toNat ∧ 1 ≤ s.lastAdvtWindow ∧ 1 ≤ s.burstSize ∧
    ∀ e t, (machine cfg).step s e = some t → s.index < cfg.totalNumSegments → s.index < t.index

lemma WindowsOpen.advances (h : WindowsOpen s) (htop : s.state = .top) : Advances cfg s := by
  have hsize := h.burstSize_pos
  refine ⟨h.cwindow, h.lastAdvtWindow.1, hsize, fun e t hstep hlt => ?_⟩
  obtain ⟨outs, hstep⟩ := machine_step.mp hstep
  have hmove := step_moves hstep
  obtain ⟨now, rfl⟩ := hmove.go_of_top htop
  cases hmove with
  | burst =>
    show s.index < s.index + s.burstSize.toNat
    omega
  | exhausted hs hge => omega
  | _ hs => simp [htop] at hs

lemma Progressing.step {x y : Sender × ℕ} (h : Progressing cfg x) (he : e.windowFits = true)
    (hstep : (iterating cfg).step x e = some y) : Progressing cfg y := by
  obtain ⟨hmachine, hcount⟩ := Machine.ghost_step.mp hstep
  obtain ⟨outs, hstep⟩ := machine_step.mp hmachine
  have hmove := step_moves hstep
  have hindex := h.index
  have hwindows := h.windows.step hmove he
  by_cases hiter : x.1.state = .top ∧ x.1.index < cfg.totalNumSegments
  · have hmore := (h.windows.advances hiter.1).2.2.2 e y.1 hmachine hiter.2
    rw [iteration, if_pos hiter] at hcount
    exact ⟨hwindows, by omega, by omega⟩
  · rw [iteration, if_neg hiter] at hcount
    have hkeep : x.1.index ≤ y.1.index := by
      rcases hmove.counters.1 with heq | ⟨hs, hlt, -⟩
      · exact heq.ge
      · exact absurd ⟨hs, hlt⟩ hiter
    exact ⟨hwindows, by rw [hcount]; omega, by rw [hcount]; exact h.count⟩

lemma progressing_start (cfg : ServerConfig) (hpos : 1 ≤ cfg.clientOriginalWindow.toNat)
    (hlt : cfg.clientOriginalWindow.toNat < 2 ^ 31) (now : TimeVal) :
    Progressing cfg (start cfg now, 0) where
  windows := by
    refine ⟨show 0 < (1#32).toNat by decide, ?_, by simp [start]⟩
    apply toSigned_pos ?_ hlt
    intro hzero
    simp [hzero] at hpos
  index := le_rfl
  count := by
    rw [ServerConfig.totalNumSegments, getSegmentCount_eq _ cfg.fileLength_lt]
    exact Int.natCast_nonneg _

/-- Every cycle makes progress, and there are no more cycles than segments. -/
theorem every_cycle_advances (cfg : ServerConfig) (hpos : 1 ≤ cfg.clientOriginalWindow.toNat)
    (hlt : cfg.clientOriginalWindow.toNat < 2 ^ 31) (now : TimeVal) (es : List SenderEvent)
    (hfits : ∀ e ∈ es, e.windowFits = true) {x : Sender × ℕ}
    (hrun : (iterating cfg).run (start cfg now, 0) es = some x) :
    (x.2 : ℤ) ≤ cfg.totalNumSegments ∧ (x.1.state = .top → Advances cfg x.1) := by
  have h : Progressing cfg x :=
    Machine.run_invariant_along (P := Progressing cfg) (fun _ _ _ hx he hstep => hx.step he hstep)
      (progressing_start cfg hpos hlt now) (Machine.along_of_forall fun e he _ _ => hfits e he) hrun
  exact ⟨h.count, h.windows.advances⟩

/-- A timeout, a third duplicate, and a window that is closed and opened again. -/
def troubled : List SenderEvent :=
  [.go ⟨0, 0⟩, .alarm, .read (.complete ⟨1, 4, 0⟩) ⟨0, 0⟩, .go ⟨0, 0⟩, .go ⟨0, 0⟩,
    .read (.complete ⟨1, 4, 0⟩) ⟨0, 0⟩, .read (.complete ⟨1, 4, 0⟩) ⟨0, 0⟩,
    .read (.complete ⟨1, 0, 0⟩) ⟨0, 0⟩, .go ⟨0, 0⟩, .timeout,
    .read (.complete ⟨4, 1, 0⟩) ⟨0, 0⟩, .go ⟨0, 0⟩]

theorem every_cycle_advances_troubled :
    ∃ x, (iterating eightSegments).run (start eightSegments ⟨0, 0⟩, 0) troubled = some x ∧
      x.1.state = .top ∧ x.2 = 2 ∧ x.1.index = 4 ∧ Advances eightSegments x.1 := by
  refine ⟨_, rfl, rfl, rfl, rfl, ?_⟩
  exact (every_cycle_advances eightSegments (by decide) (by decide) ⟨0, 0⟩ troubled (by decide)
    rfl).2 rfl

end Sender

end TcpOverUdp
