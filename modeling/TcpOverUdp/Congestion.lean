import TcpOverUdp.LossSignals
import TcpOverUdp.Lib.CongestionControl
import TcpOverUdp.Lib.Simulation

namespace TcpOverUdp
open CWord

def serverControl : CongestionControl where
  floor := 2
  inflation := 3
  inflation_pos := by decide

namespace Sender

def congestion (s : Sender) : Congestion := ⟨s.cwindow.toNat, s.ssthresh.toNat⟩

/-- What a round of the inner loop learns from the record in `ack`, by its tests. -/
def loopSignals (s : Sender) (a : ClientAck) : List CongestionSignal :=
  if a.lastackSent = 1 then [.round s.advertised]
  else if a.advtWindow = 0 then []
  else if toUnsigned s.lastAckReceived = a.currentRequest then
    if s.duplicateAck + 1 = 2 then [.duplicates] else []
  else
    .ack s.advertised ::
      if s.totalToRecv + 1 = s.totalToSend then [.round a.advtWindow.toNat] else []

def signals (s : Sender) : SenderEvent → List CongestionSignal
  | .read r _ =>
    match s.state, r with
    | .reading, r => s.loopSignals (r.over s.ack)
    | .probing _, .error => []
    -- the cycle ends if the window is open again
    | .probing _, r => if (r.over s.ack).advtWindow = 0 then [] else [.round s.advertised]
    | _, _ => []
  | .alarm => if (rttTimeout s.rttinfo).2 then [] else [.timeout]
  | _ => []

variable {cfg : ServerConfig} {s t : Sender} {e : SenderEvent} {outs : List SenderOut}
  {r : ReadResult} {now : TimeVal}

lemma signals_reading (hs : s.state = .reading) :
    s.signals (.read r now) = s.loopSignals (r.over s.ack) := by
  simp only [signals, hs]

lemma signals_reopened {p : Probe} (hs : s.state = .probing p) (hok : r ≠ .error)
    (hopen : (r.over s.ack).advtWindow ≠ 0) :
    s.signals (.read r now) = [.round s.advertised] := by
  cases r with
  | error => exact absurd rfl hok
  | complete a => simp only [signals, hs, if_neg hopen]
  | short a => simp only [signals, hs, if_neg hopen]

lemma signals_probing {p : Probe} (hs : s.state = .probing p)
    (hzero : (r.over s.ack).advtWindow = 0) : s.signals (.read r now) = [] := by
  cases r with
  | error => simp only [signals, hs]
  | complete a => simp only [signals, hs, if_pos hzero]
  | short a => simp only [signals, hs, if_pos hzero]

lemma signals_waiting (hs : s.state = .awaitFin ∨ ∃ n a, s.state = .awaitAck n a)
    (he : e ≠ .alarm) : s.signals e = [] := by
  cases e with
  | read r now => rcases hs with hs | ⟨n, a, hs⟩ <;> simp [signals, hs]
  | alarm => exact absurd rfl he
  | _ => rfl

lemma matched_of_nil (hsignals : s.signals e = []) (h : t.congestion = s.congestion) :
    serverControl.machine.run s.congestion (s.signals e) = some t.congestion := by
  rw [hsignals, h, Machine.run_nil]

lemma matched_of_singleton (signal : CongestionSignal) (hsignals : s.signals e = [signal])
    (h : t.congestion = serverControl.after s.congestion signal) :
    serverControl.machine.run s.congestion (s.signals e) = some t.congestion := by
  rw [hsignals, h]
  rfl

lemma endCycle_congestion (s : Sender) :
    s.endCycle.congestion = serverControl.after s.congestion (.round s.advertised) := by
  refine Congestion.mk.injEq .. |>.mpr ⟨?_, rfl⟩
  rw [endCycle_cwindow, avoidance, add_ite, add_zero]
  rfl

lemma recordAck_congestion (s : Sender) (now : TimeVal) :
    (s.recordAck now).congestion = serverControl.after s.congestion (.ack s.advertised) := by
  refine Congestion.mk.injEq .. |>.mpr ⟨?_, rfl⟩
  rw [recordAck_cwindow, slowStart, add_ite, add_zero]
  rfl

/-- Every step does to the two windows what the congestion control does for what it learns. -/
theorem Moves.congestion (h : Moves cfg s e t outs) :
    serverControl.machine.run s.congestion (s.signals e) = some t.congestion := by
  cases h with
  | burst hs => exact matched_of_nil rfl rfl
  | exhausted hs => exact matched_of_nil rfl rfl
  | wake hs => exact matched_of_nil rfl rfl
  | nextCycle hs => exact matched_of_nil rfl rfl
  | finish hs => exact matched_of_nil rfl rfl
  | @lastAck r now hs hlast =>
    refine matched_of_singleton (.round s.advertised) ?_ (endCycle_congestion _)
    rw [signals_reading hs, loopSignals, if_pos hlast]
  | zeroWindow hs hlast hzero =>
    refine matched_of_nil ?_ rfl
    rw [signals_reading hs, loopSignals, if_neg hlast, if_pos hzero]
  | duplicate hs hlast hopen hdup hcount =>
    refine matched_of_nil ?_ rfl
    rw [signals_reading hs, loopSignals, if_neg hlast, if_neg hopen, if_pos hdup, if_neg hcount]
  | thirdDuplicate hs hlast hopen hdup hcount =>
    refine matched_of_singleton .duplicates ?_ ?_
    · rw [signals_reading hs, loopSignals, if_neg hlast, if_neg hopen, if_pos hdup, if_pos hcount]
    · exact Congestion.mk.injEq .. |>.mpr ⟨fastRetransmit_cwindow _ _, rfl⟩
  | newAck hs hlast hopen hnew hcount =>
    refine matched_of_singleton (.ack s.advertised) ?_ (recordAck_congestion _ _)
    rw [signals_reading hs, loopSignals, if_neg hlast, if_neg hopen, if_neg hnew, if_neg hcount]
  -- the last acknowledgement of a burst also ends the cycle, with the window it brings
  | @cycleDone r now hs hlast hopen hnew hcount =>
    rw [signals_reading hs, loopSignals, if_neg hlast, if_neg hopen, if_neg hnew, if_pos hcount]
    refine Machine.run_cons_eq_some.mpr
      ⟨_, congrArg some (recordAck_congestion (s.receive r) now).symm, ?_⟩
    refine Machine.run_singleton (congrArg some ?_)
    rw [endCycle_congestion, advertised, toUnsigned_toSigned]
    rfl
  | reopened hs hok hopen =>
    exact matched_of_singleton _ (signals_reopened hs hok hopen) (endCycle_congestion _)
  | stillClosed hs hok hzero => exact matched_of_nil (signals_probing hs hzero) rfl
  | probeAgain => exact matched_of_nil rfl rfl
  | probeAbort => exact matched_of_nil rfl rfl
  | probeAbortRead hs hzero => exact matched_of_nil (signals_probing hs hzero) rfl
  | readError hs =>
    refine matched_of_nil ?_ rfl
    rcases hs with ⟨p, hs⟩ | hs | ⟨n, a, hs⟩ <;> simp [signals, hs]
  | finMissing hs => exact matched_of_nil (signals_waiting (Or.inl hs) (by simp)) rfl
  | finAnswered hs => exact matched_of_nil (signals_waiting (Or.inl hs) (by simp)) rfl
  | closed hs he => exact matched_of_nil (signals_waiting (Or.inr ⟨_, _, hs⟩) he) rfl
  | closeAgain hs he => exact matched_of_nil (signals_waiting (Or.inr ⟨_, _, hs⟩) he) rfl
  | resend hon htry =>
    refine matched_of_singleton .timeout (by simp [signals, htry]) ?_
    refine Congestion.mk.injEq .. |>.mpr ⟨?_, onAlarm_ssthresh htry⟩
    rw [onAlarm_cwindow htry]
    rfl
  -- the transfer is given up, and the windows stay
  | giveUp hon hmax =>
    refine matched_of_nil (by simp [signals, hmax]) ?_
    refine Congestion.mk.injEq .. |>.mpr ⟨?_, ?_⟩
    · rw [onAlarm_cwindow_of_max hmax]
    · simp [onAlarm, hmax]

/-- The server's windows are those of the congestion control. -/
theorem simulation_congestion (cfg : ServerConfig) :
    (machine cfg).Simulation serverControl.machine (fun s e _ => s.signals e)
      fun s c => c = s.congestion := by
  rintro s e t _ rfl hstep
  obtain ⟨outs, hstep⟩ := machine_step.mp hstep
  exact ⟨_, (step_moves hstep).congestion, rfl⟩

/-- What `ack` holds after a read of the inner loop or of the probe. -/
def loads (s : Sender) : SenderEvent → List ClientAck
  | .read r _ =>
    match s.state with
    | .reading | .probing _ => [r.over s.ack]
    | _ => []
  | _ => []

def loadedIn (cfg : ServerConfig) (s : Sender) (es : List SenderEvent) : List ClientAck :=
  (machine cfg).trace (fun s e _ => s.loads e) s es

def signalsIn (cfg : ServerConfig) (s : Sender) (es : List SenderEvent) : List CongestionSignal :=
  (machine cfg).trace (fun s e _ => s.signals e) s es

/-- The largest of the client's original window and of those in `ack` after the reads.  After a
read that fails these are the record before it, or, if there is none, what `ack` held at the
start. -/
def largestWindow (cfg : ServerConfig) (loaded : List ClientAck) : ℕ :=
  (loaded.map fun a => a.advtWindow.toNat).foldr max cfg.clientOriginalWindow.toNat

lemma loads_reading (hs : s.state = .reading) : s.loads (.read r now) = [r.over s.ack] := by
  simp only [loads, hs]

lemma loads_probing {p : Probe} (hs : s.state = .probing p) :
    s.loads (.read r now) = [r.over s.ack] := by
  simp only [loads, hs]

structure KnowsAtMost (bound : ℕ) (s : Sender) : Prop where
  advertised : s.advertised ≤ bound
  ack : s.state = .cycleEnd → s.ack.advtWindow.toNat ≤ bound

lemma advertised_eq {w : Word} (h : t.lastAdvtWindow = toSigned w) : t.advertised = w.toNat := by
  rw [advertised, h, toUnsigned_toSigned]

/-- The window taken for the next burst is the one taken last, or that of `ack` where a cycle ends
or behind the read that ends it. -/
lemma Moves.lastAdvtWindow (h : Moves cfg s e t outs) :
    t.lastAdvtWindow = s.lastAdvtWindow ∨ t.lastAdvtWindow = toSigned t.ack.advtWindow ∧
      (s.state = .cycleEnd ∧ t.ack = s.ack ∨ t.ack ∈ s.loads e) := by
  cases h with
  | nextCycle hs => exact Or.inr ⟨rfl, Or.inl ⟨hs, rfl⟩⟩
  | cycleDone hs =>
    refine Or.inr ⟨rfl, Or.inr ?_⟩
    rw [loads_reading hs]
    exact List.mem_singleton_self _
  | resend => exact Or.inl (onAlarm_lastAdvtWindow s)
  | giveUp => exact Or.inl (onAlarm_lastAdvtWindow s)
  | _ => exact Or.inl rfl

lemma Moves.ack_of_cycleEnd (h : Moves cfg s e t outs) (ht : t.state = .cycleEnd) :
    t.ack ∈ s.loads e := by
  cases h with
  | lastAck hs hlast => simp [endCycle_state, receive, hlast] at ht
  | cycleDone hs =>
    rw [loads_reading hs]
    exact List.mem_singleton_self _
  | reopened hs =>
    rw [loads_probing hs]
    exact List.mem_singleton_self _
  | duplicate hs => simp [receive, hs] at ht
  | thirdDuplicate hs => simp [fastRetransmit, receive, hs] at ht
  | newAck hs => simp [recordAck, receive, hs] at ht
  | resend hon htry => simp [onAlarm_of_try htry] at ht
  | giveUp hon hmax => simp [onAlarm_of_max hmax] at ht
  | _ => cases ht

lemma KnowsAtMost.step {bound : ℕ} (h : KnowsAtMost bound s) (hmove : Moves cfg s e t outs)
    (hloaded : ∀ a ∈ s.loads e, a.advtWindow.toNat ≤ bound) : KnowsAtMost bound t := by
  refine ⟨?_, fun ht => hloaded _ (hmove.ack_of_cycleEnd ht)⟩
  rcases hmove.lastAdvtWindow with heq | ⟨heq, ⟨hs, hack⟩ | hack⟩
  · rw [Sender.advertised, heq]
    exact h.advertised
  · rw [advertised_eq heq, hack]
    exact h.ack hs
  · rw [advertised_eq heq]
    exact hloaded _ hack

/-- What a step learns of the peer's window is the one taken last, or that of the record read. -/
lemma peers_signals_le {bound : ℕ} (hadv : s.advertised ≤ bound)
    (hover : s.state = .reading → ∀ r now, e = .read r now →
      (r.over s.ack).advtWindow.toNat ≤ bound) :
    ∀ w ∈ CongestionSignal.peers (s.signals e), w ≤ bound := by
  cases e with
  | read r now =>
    by_cases hs : s.state = .reading
    · have hread := hover hs r now rfl
      rw [signals_reading hs, loopSignals]
      split_ifs <;> simp [CongestionSignal.peers, hadv, hread]
    · simp only [signals]
      split
      · contradiction
      · simp [CongestionSignal.peers]
      · split_ifs <;> simp [CongestionSignal.peers, hadv]
      · simp [CongestionSignal.peers]
  | alarm =>
    simp only [signals]
    split_ifs <;> simp [CongestionSignal.peers]
  | _ => simp [signals, CongestionSignal.peers]

lemma KnowsAtMost.peers {bound : ℕ} (h : KnowsAtMost bound s)
    (hloaded : ∀ a ∈ s.loads e, a.advtWindow.toNat ≤ bound) :
    ∀ w ∈ CongestionSignal.peers (s.signals e), w ≤ bound := by
  refine peers_signals_le h.advertised ?_
  rintro hs r now rfl
  exact hloaded _ (by simp [loads_reading hs])

lemma peers_le_of_run {bound : ℕ} {es : List SenderEvent} (h : KnowsAtMost bound s)
    (hloaded : ∀ a ∈ loadedIn cfg s es, a.advtWindow.toNat ≤ bound)
    (hrun : (machine cfg).run s es = some t) :
    ∀ w ∈ CongestionSignal.peers (signalsIn cfg s es), w ≤ bound := by
  induction es generalizing s with
  | nil => simp [signalsIn, CongestionSignal.peers]
  | cons e es ih =>
    obtain ⟨u, hu, hrest⟩ := Machine.run_cons_eq_some.mp hrun
    obtain ⟨outs, hstep⟩ := machine_step.mp hu
    rw [loadedIn, Machine.trace_cons hu] at hloaded
    have hnow : ∀ a ∈ s.loads e, a.advtWindow.toNat ≤ bound :=
      fun a ha => hloaded a (List.mem_append_left _ ha)
    have hlater := ih (h.step (step_moves hstep) hnow)
      (fun a ha => hloaded a (List.mem_append_right _ ha)) hrest
    rw [signalsIn, Machine.trace_cons hu, CongestionSignal.peers, List.filterMap_append]
    intro w hw
    rcases List.mem_append.mp hw with hw | hw
    · exact h.peers hnow w hw
    · exact hlater w hw

lemma le_foldr_max {l : List ℕ} {b n : ℕ} (h : n ≤ b ∨ n ∈ l) : n ≤ l.foldr max b := by
  induction l with
  | nil => simpa using h
  | cons m l ih =>
    rw [List.foldr_cons, le_max_iff]
    rcases h with h | h
    · exact Or.inr (ih (Or.inl h))
    · rcases List.mem_cons.mp h with rfl | h
      · exact Or.inl le_rfl
      · exact Or.inr (ih (Or.inr h))

/-- In every run, `ssthresh` is the original window halved once for each timeout, but not below
two; `cwindow` is at least one, at most five or the largest window that `ack` has held after a
read, or the original one, and has grown by no more than one for each acknowledgement and each end
of a cycle and three for each third duplicate. -/
theorem congestion_law {now : TimeVal} {es : List SenderEvent}
    (hrun : (machine cfg).run (start cfg now) es = some s) :
    s.ssthresh.toNat = CongestionControl.threshold 2 cfg.clientOriginalWindow.toNat
        ((signalsIn cfg (start cfg now) es).count .timeout) ∧
      1 ≤ s.cwindow.toNat ∧
      s.cwindow.toNat ≤ max 5 (largestWindow cfg (loadedIn cfg (start cfg now) es)) ∧
      s.cwindow.toNat ≤
        1 + ((signalsIn cfg (start cfg now) es).map (CongestionSignal.credit 3)).sum := by
  obtain ⟨_, hcontrol, rfl⟩ := (simulation_congestion cfg).run rfl hrun
  have hstart : (start cfg now).congestion = ⟨1, cfg.clientOriginalWindow.toNat⟩ := rfl
  rw [hstart] at hcontrol
  have hknows : KnowsAtMost (max 5 (largestWindow cfg (loadedIn cfg (start cfg now) es)))
      (start cfg now) := by
    refine ⟨?_, fun hs => by cases hs⟩
    rw [advertised_eq (t := start cfg now) rfl]
    exact le_max_of_le_right (le_foldr_max (Or.inl le_rfl))
  have hpeers := peers_le_of_run hknows (fun a ha => le_max_of_le_right
    (le_foldr_max (Or.inr (List.mem_map_of_mem ha)))) hrun
  refine ⟨CongestionControl.ssthresh_of_run hcontrol,
    CongestionControl.cwnd_pos_of_run Nat.one_pos hcontrol,
    CongestionControl.cwnd_le_of_run ?_ ?_ hpeers hcontrol,
    CongestionControl.cwnd_le_credit hcontrol Nat.one_pos⟩
  · exact le_max_of_le_left (show 1 ≤ 5 by decide)
  · exact le_max_left _ _

/-- The third burst is followed by a third duplicate and by a timeout. -/
def lossyBursts : List SenderEvent :=
  threeBursts ++ [.read (.complete ⟨3, 4, 0⟩) ⟨0, 0⟩, .read (.complete ⟨3, 4, 0⟩) ⟨0, 0⟩, .alarm]

theorem congestion_law_lossyBursts :
    ∃ s, (machine eightSegments).run (start eightSegments ⟨0, 0⟩) lossyBursts = some s ∧
      signalsIn eightSegments (start eightSegments ⟨0, 0⟩) lossyBursts =
        [.ack 4, .round 4, .ack 4, .ack 4, .round 4, .duplicates, .timeout] ∧
      s.ssthresh.toNat = CongestionControl.threshold 2 eightSegments.clientOriginalWindow.toNat
          ((signalsIn eightSegments (start eightSegments ⟨0, 0⟩) lossyBursts).count .timeout) ∧
        1 ≤ s.cwindow.toNat ∧
        s.cwindow.toNat ≤ max 5 (largestWindow eightSegments
          (loadedIn eightSegments (start eightSegments ⟨0, 0⟩) lossyBursts)) ∧
        s.cwindow.toNat ≤ 1 + ((signalsIn eightSegments (start eightSegments ⟨0, 0⟩)
          lossyBursts).map (CongestionSignal.credit 3)).sum := by
  obtain ⟨s, hs⟩ : ∃ s, (machine eightSegments).run (start eightSegments ⟨0, 0⟩) lossyBursts =
    some s := ⟨_, rfl⟩
  exact ⟨s, hs, by decide +kernel, congestion_law hs⟩

end Sender

end TcpOverUdp
