import TcpOverUdp.Samples
import TcpOverUdp.Windows

namespace TcpOverUdp
open CWord

namespace Sender

def Undisturbed (s : Sender) (a : ClientAck) : Prop :=
  a.lastackSent = 1 ∨ a.advtWindow ≠ 0 ∧
    ¬ (toUnsigned s.lastAckReceived = a.currentRequest ∧ s.duplicateAck + 1 = 2)

instance (s : Sender) (a : ClientAck) : Decidable (s.Undisturbed a) :=
  inferInstanceAs (Decidable (_ ∨ _ ∧ ¬ (_ ∧ _)))

/-- The inner loop of a cycle that no loss and no closed window disturbs. -/
def undisturbed (cfg : ServerConfig) : Machine Sender (ReadResult × TimeVal) :=
  ⟨fun s e =>
    if s.state = .reading ∧ s.Undisturbed (e.1.over s.ack) then (machine cfg).step s (.read e.1 e.2)
    else none⟩

/-- From the start of a cycle to its end, `cwindow` does not decrease, at most doubles in slow
start, and grows by at most one in congestion avoidance. -/
def GrowthLaw (s t : Sender) : Prop :=
  (s.cwindow < s.ssthresh → t.cwindow.toNat ≤ 2 * s.cwindow.toNat) ∧
    (s.ssthresh ≤ s.cwindow → t.cwindow.toNat ≤ s.cwindow.toNat + 1) ∧
    s.cwindow.toNat ≤ t.cwindow.toNat

/-- Slow start ends exactly at twice the window: `ssthresh` is `2 * cwindow` and not above the
advertised window, and the acknowledgement that completes the cycle advertises more. -/
def CreditedTwice (s : Sender) (last : ClientAck) : Prop :=
  s.ssthresh.toNat = 2 * s.cwindow.toNat ∧ 2 * s.cwindow.toNat ≤ s.advertised ∧
    last.lastackSent ≠ 1 ∧ 2 * s.cwindow.toNat < last.advtWindow.toNat

instance (s t : Sender) : Decidable (GrowthLaw s t) := inferInstanceAs (Decidable (_ ∧ _ ∧ _))

instance (s : Sender) (last : ClientAck) : Decidable (CreditedTwice s last) :=
  inferInstanceAs (Decidable (_ ∧ _ ∧ _ ∧ _))

/-- What slow start makes of a window `c` with `k` new acknowledgements, `w` being advertised. -/
def slowStarted (ssthresh c w k : ℕ) : ℕ := c + min k (min ssthresh w - c)

lemma slowStarted_succ (ssthresh c w k : ℕ) :
    slowStarted ssthresh c w (k + 1) =
      slowStarted ssthresh c w k + slowStart ssthresh (slowStarted ssthresh c w k) w := by
  unfold slowStarted slowStart
  split_ifs <;> omega

structure Acked (s u : Sender) (k : ℕ) : Prop where
  state : u.state = .reading
  ssthresh : u.ssthresh = s.ssthresh
  advertised : u.lastAdvtWindow = s.lastAdvtWindow
  totalToSend : u.totalToSend = s.burstSize
  totalToRecv : u.totalToRecv = k
  missing : 0 < s.burstSize → (k : ℤ) < s.burstSize
  cwindow : u.cwindow.toNat = slowStarted s.ssthresh.toNat s.cwindow.toNat s.advertised k

/-- Behind the inner loop: on the last acknowledgement, or when the burst is acknowledged. -/
inductive Grown (s t : Sender) : Prop
  | last {k : ℕ} (hend : t.state ≠ .reading) (hlast : t.ack.lastackSent = 1)
      (hmissing : 0 < s.burstSize → (k : ℤ) < s.burstSize)
      (hwindow : t.cwindow.toNat = slowStarted s.ssthresh.toNat s.cwindow.toNat s.advertised k +
        avoidance s.ssthresh.toNat
          (slowStarted s.ssthresh.toNat s.cwindow.toNat s.advertised k) s.advertised)
  | all {k : ℕ} (hend : t.state ≠ .reading) (hlast : t.ack.lastackSent ≠ 1)
      (hall : (k : ℤ) = s.burstSize) (hpos : 0 < k)
      (hwindow : t.cwindow.toNat = slowStarted s.ssthresh.toNat s.cwindow.toNat s.advertised k +
        avoidance s.ssthresh.toNat
          (slowStarted s.ssthresh.toNat s.cwindow.toNat s.advertised k) t.ack.advtWindow.toNat)

variable {cfg : ServerConfig} {s t u v : Sender} {r : ReadResult} {now : TimeVal} {k : ℕ}

lemma acked_burst (hs : s.state = .top) (hlt : s.index < cfg.totalNumSegments)
    (hburst : (machine cfg).step s (.go now) = some u) : Acked s u 0 := by
  obtain ⟨outs, hstep⟩ := machine_step.mp hburst
  cases step_moves hstep with
  | burst => exact ⟨rfl, rfl, rfl, rfl, rfl, fun h => h, by simp [slowStarted]⟩
  | exhausted _ hge => omega
  | _ h => simp [hs] at h

lemma Acked.step (h : Acked s u k) (hstep : (undisturbed cfg).step u (r, now) = some v) :
    Acked s v k ∨ Acked s v (k + 1) ∨ Grown s v := by
  simp only [undisturbed, Option.ite_none_right_eq_some] at hstep
  obtain ⟨⟨hu, hquiet⟩, hstep⟩ := hstep
  obtain ⟨outs, hstep⟩ := machine_step.mp hstep
  obtain ⟨-, hss, hadv, hsend, hrecv, hmissing, hwindow⟩ := h
  have hadvertised : u.advertised = s.advertised := congrArg (fun w => (toUnsigned w).toNat) hadv
  have hgrown := recordAck_cwindow (u.receive r) now
  rw [show (u.receive r).ssthresh = s.ssthresh from hss,
    show (u.receive r).cwindow = u.cwindow from rfl,
    show (u.receive r).advertised = s.advertised from hadvertised, hwindow,
    ← slowStarted_succ] at hgrown
  cases step_moves hstep with
  | lastAck _ hlast =>
    refine Or.inr (Or.inr (.last ?_ hlast hmissing ?_))
    · rw [endCycle_of_last (show (u.receive r).ack.lastackSent = 1 from hlast)]
      simp
    · rw [endCycle_cwindow, ← hwindow, ← hss, ← hadvertised]
      rfl
  | zeroWindow _ hlast hzero =>
    rcases hquiet with hq | hq
    · exact absurd hq hlast
    · exact absurd hzero hq.1
  | duplicate => exact Or.inl ⟨hu, hss, hadv, hsend, hrecv, hmissing, hwindow⟩
  | thirdDuplicate _ hlast _ hdup hcount =>
    rcases hquiet with hq | hq
    · exact absurd hq hlast
    · exact absurd ⟨hdup, hcount⟩ hq.2
  | newAck hs hlast hopen hnew hcount =>
    refine Or.inr (Or.inl ⟨hs, hss, hadv, hsend, ?_, fun hpos => ?_, hgrown⟩)
    · show u.totalToRecv + 1 = _
      rw [hrecv]
      rfl
    · have := hmissing hpos
      rw [hrecv, hsend] at hcount
      omega
  | cycleDone hs hlast hopen hnew hcount =>
    refine Or.inr (Or.inr (.all (k := k + 1) ?_ hlast ?_ k.succ_pos ?_))
    · rw [endCycle_of_not_last (show (r.over u.ack).lastackSent ≠ 1 from hlast)]
      simp
    · rw [← hsend, ← hcount, hrecv]
      rfl
    · rw [endCycle_recordAck_cwindow, hgrown, show (u.receive r).ssthresh = s.ssthresh from hss]
      rfl
  | readError hr => rcases hr with ⟨p, hr⟩ | hr | ⟨n, a, hr⟩ <;> simp [hu] at hr
  | _ hr => simp [hu] at hr

lemma grown_of_run {reads : List (ReadResult × TimeVal)} (hu : Acked s u 0)
    (hrun : (undisturbed cfg).run u reads = some t) (hend : t.state ≠ .reading) : Grown s t := by
  have hinv : (∃ k, Acked s t k) ∨ Grown s t := by
    refine Machine.run_invariant (P := fun v => (∃ k, Acked s v k) ∨ Grown s v) ?_
      (Or.inl ⟨0, hu⟩) hrun
    rintro v ⟨r, now⟩ v' (⟨k, hk⟩ | hgrown) hstep
    · rcases hk.step hstep with hv | hv | hv
      · exact Or.inl ⟨k, hv⟩
      · exact Or.inl ⟨k + 1, hv⟩
      · exact Or.inr hv
    · -- a cycle that has ended reads no more
      simp only [undisturbed, Option.ite_none_right_eq_some] at hstep
      cases hgrown with
      | last hnot => exact absurd hstep.1.1 hnot
      | all hnot => exact absurd hstep.1.1 hnot
  rcases hinv with ⟨k, hk⟩ | hgrown
  · exact absurd hk.state hend
  · exact hgrown

lemma burstSize_cases (s : Sender) :
    s.advertised < s.cwindow.toNat ∨
      s.cwindow.toNat ≤ s.advertised ∧
        (s.burstSize = s.cwindow.toNat ∨ s.burstSize < 0 ∧ 2 ^ 31 ≤ s.cwindow.toNat) := by
  unfold burstSize advertised
  simp only [BitVec.lt_def]
  split_ifs with hlt
  · exact Or.inl hlt
  · refine Or.inr ⟨not_lt.mp hlt, ?_⟩
    by_cases hc : s.cwindow.toNat < 2 ^ 31
    · exact Or.inl (toSigned_of_lt hc)
    · have := s.cwindow.isLt
      simp only [toSigned, BitVec.toInt]
      omega

/-- A cycle without timeout, third duplicate and closed window obeys the growth law, unless slow
start ends exactly at twice the window. -/
theorem growthLaw_iff (cfg : ServerConfig) {s u t : Sender} {now : TimeVal}
    {reads : List (ReadResult × TimeVal)} (hs : s.state = .top)
    (hlt : s.index < cfg.totalNumSegments) (hc : 1 ≤ s.cwindow.toNat)
    (hburst : (machine cfg).step s (.go now) = some u)
    (hrun : (undisturbed cfg).run u reads = some t) (hend : t.state ≠ .reading) :
    GrowthLaw s t ↔ ¬ CreditedTwice s t.ack := by
  have ht := t.cwindow.isLt
  have hlaw : GrowthLaw s t ↔
      (s.cwindow.toNat < s.ssthresh.toNat → t.cwindow.toNat ≤ 2 * s.cwindow.toNat) ∧
        (s.ssthresh.toNat ≤ s.cwindow.toNat → t.cwindow.toNat ≤ s.cwindow.toNat + 1) ∧
        s.cwindow.toNat ≤ t.cwindow.toNat := by
    rw [GrowthLaw, BitVec.lt_def, BitVec.le_def]
  cases grown_of_run (acked_burst hs hlt hburst) hrun hend with
  | last hnot hlast hmissing hwindow =>
    refine iff_of_true (hlaw.mpr ?_) fun hcredit => hcredit.2.2.1 hlast
    -- at least one acknowledgement of the burst is missing
    unfold slowStarted avoidance at hwindow
    rcases burstSize_cases s with hw | ⟨hw, hsize | ⟨hsize, hlarge⟩⟩ <;>
      split_ifs at hwindow <;> omega
  | all hnot hlast hall hpos hwindow =>
    have hcredit : CreditedTwice s t.ack ↔ s.ssthresh.toNat = 2 * s.cwindow.toNat ∧
        2 * s.cwindow.toNat ≤ s.advertised ∧ 2 * s.cwindow.toNat < t.ack.advtWindow.toNat := by
      rw [CreditedTwice, and_iff_right hlast]
    rw [hlaw, hcredit]
    unfold slowStarted avoidance at hwindow
    rcases burstSize_cases s with hw | ⟨hw, hsize | ⟨hsize, hlarge⟩⟩ <;>
      split_ifs at hwindow <;> omega

def wideWindow : ServerConfig := { eightSegments with clientOriginalWindow := 8 }

/-- A timeout in the first cycle leaves `ssthresh` at four and `cwindow` at two. -/
def afterTimeout : List SenderEvent :=
  [.go ⟨0, 0⟩, .alarm, .read (.complete ⟨1, 8, 0⟩) ⟨0, 0⟩, .go ⟨0, 0⟩]

lemma wideWindow_cycle (reads : List (ReadResult × TimeVal)) {Q : Sender → Sender → Prop}
    [∀ s t, Decidable (Q s t)]
    (h : (((machine wideWindow).run (start wideWindow ⟨0, 0⟩) afterTimeout).bind fun s =>
      ((machine wideWindow).step s (.go ⟨0, 0⟩)).bind fun u =>
        ((undisturbed wideWindow).run u reads).map fun t => decide (Q s t)) = some true) :
    ∃ s u t, (machine wideWindow).run (start wideWindow ⟨0, 0⟩) afterTimeout = some s ∧
      (machine wideWindow).step s (.go ⟨0, 0⟩) = some u ∧
      (undisturbed wideWindow).run u reads = some t ∧ Q s t := by
  obtain ⟨s, hs, h⟩ := Option.bind_eq_some_iff.mp h
  obtain ⟨u, hu, h⟩ := Option.bind_eq_some_iff.mp h
  obtain ⟨t, ht, h⟩ := Option.map_eq_some_iff.mp h
  exact ⟨s, u, t, hs, hu, ht, of_decide_eq_true h⟩

theorem growthLaw_afterTimeout :
    ∃ s u t, (machine wideWindow).run (start wideWindow ⟨0, 0⟩) afterTimeout = some s ∧
      (machine wideWindow).step s (.go ⟨0, 0⟩) = some u ∧
      (undisturbed wideWindow).run u
        [(.complete ⟨2, 8, 0⟩, ⟨0, 0⟩), (.complete ⟨3, 8, 1⟩, ⟨0, 0⟩)] = some t ∧
      GrowthLaw s t := by
  obtain ⟨s, u, t, hs, hu, ht, htop, hlt, hc, hend, hlast⟩ := wideWindow_cycle
    [(.complete ⟨2, 8, 0⟩, ⟨0, 0⟩), (.complete ⟨3, 8, 1⟩, ⟨0, 0⟩)]
    (Q := fun s t => s.state = .top ∧ s.index < wideWindow.totalNumSegments ∧
      1 ≤ s.cwindow.toNat ∧ t.state ≠ .reading ∧ t.ack.lastackSent = 1) (by decide +kernel)
  refine ⟨s, u, t, hs, hu, ht, (growthLaw_iff wideWindow htop hlt hc hu ht hend).mpr ?_⟩
  exact fun hcredit => hcredit.2.2.1 hlast

theorem not_growthLaw :
    ∃ s u t, (machine wideWindow).run (start wideWindow ⟨0, 0⟩) afterTimeout = some s ∧
      (machine wideWindow).step s (.go ⟨0, 0⟩) = some u ∧
      (undisturbed wideWindow).run u
        [(.complete ⟨2, 8, 0⟩, ⟨0, 0⟩), (.complete ⟨3, 8, 0⟩, ⟨0, 0⟩)] = some t ∧
      (s.state = .top ∧ s.index < wideWindow.totalNumSegments ∧ s.cwindow = 2 ∧ s.ssthresh = 4) ∧
      t.state ≠ .reading ∧ t.cwindow = 5 ∧ ¬ GrowthLaw s t :=
  wideWindow_cycle _ (by decide +kernel)

end Sender

end TcpOverUdp
