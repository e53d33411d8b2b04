import TcpOverUdp.Lib.Machine

namespace TcpOverUdp

/-- The least threshold, and what is added to half the window on duplicates. -/
structure CongestionControl where
  floor : ℕ
  inflation : ℕ
  inflation_pos : 0 < inflation

/-- The congestion window and the threshold between slow start and congestion avoidance. -/
structure Congestion where
  cwnd : ℕ
  ssthresh : ℕ
  deriving DecidableEq, Repr

/-- What a sender learns; `peer` is the window its peer advertises. -/
inductive CongestionSignal
  /-- a new acknowledgement -/
  | ack (peer : ℕ)
  /-- the end of a round -/
  | round (peer : ℕ)
  | duplicates
  | timeout
  deriving DecidableEq, Repr

namespace CongestionSignal

def peers (signals : List CongestionSignal) : List ℕ :=
  signals.filterMap fun
    | .ack peer => some peer
    | .round peer => some peer
    | _ => none

/-- The largest window that the signals allow, an acknowledgement being worth one item. -/
def credit (inflation : ℕ) : CongestionSignal → ℕ
  | .ack _ => 1
  | .round _ => 1
  | .duplicates => inflation
  | .timeout => 0

end CongestionSignal

namespace CongestionControl

variable (p : CongestionControl)

def after (c : Congestion) : CongestionSignal → Congestion
  | .ack peer =>
    { c with cwnd := if c.cwnd < c.ssthresh ∧ c.cwnd < peer then c.cwnd + 1 else c.cwnd }
  | .round peer =>
    { c with cwnd := if c.ssthresh ≤ c.cwnd ∧ c.cwnd < peer then c.cwnd + 1 else c.cwnd }
  | .duplicates => { c with cwnd := c.cwnd / 2 + p.inflation }
  | .timeout => ⟨1, max (c.ssthresh / 2) p.floor⟩

def machine : Machine Congestion CongestionSignal := ⟨fun c signal => some (p.after c signal)⟩

variable {p} {c d : Congestion} {signals : List CongestionSignal}

def threshold (floor ssthresh k : ℕ) : ℕ := if k = 0 then ssthresh else max (ssthresh / 2 ^ k) floor

lemma threshold_succ (floor ssthresh k : ℕ) :
    threshold floor ssthresh (k + 1) = max (threshold floor ssthresh k / 2) floor := by
  unfold threshold
  have hhalf : ssthresh / 2 ^ (k + 1) = ssthresh / 2 ^ k / 2 := by
    rw [pow_succ, Nat.div_div_eq_div_mul]
  rw [if_neg k.succ_ne_zero, hhalf]
  split_ifs with hk
  · subst hk
    simp
  · omega

theorem ssthresh_of_run (h : p.machine.run c signals = some d) :
    d.ssthresh = threshold p.floor c.ssthresh (signals.count .timeout) := by
  refine Machine.run_history
    (P := fun past d => d.ssthresh = threshold p.floor c.ssthresh (past.count .timeout))
    (fun past u signal v hu hv => ?_) (by simp [threshold]) h
  obtain rfl := Option.some.inj hv
  rw [List.count_append]
  cases signal with
  | timeout =>
    show max (u.ssthresh / 2) p.floor = _
    rw [hu]
    exact (threshold_succ _ _ _).symm
  | _ => simpa [after] using hu

theorem cwnd_pos_of_run (hc : 0 < c.cwnd) (h : p.machine.run c signals = some d) : 0 < d.cwnd := by
  refine Machine.run_invariant (P := fun d => 0 < d.cwnd) (fun u signal v hu hv => ?_) hc h
  obtain rfl := Option.some.inj hv
  have := p.inflation_pos
  cases signal with
  | ack peer => simp only [after]; split_ifs <;> omega
  | round peer => simp only [after]; split_ifs <;> omega
  | duplicates => simp only [after]; omega
  | timeout => exact Nat.one_pos

lemma after_le (hpos : 0 < p.inflation) {bound : ℕ} (hc : c.cwnd ≤ bound)
    (hinf : 2 * p.inflation - 1 ≤ bound) {signal : CongestionSignal}
    (hpeer : ∀ w ∈ CongestionSignal.peers [signal], w ≤ bound) :
    (p.after c signal).cwnd ≤ bound := by
  cases signal with
  | ack peer =>
    have : peer ≤ bound := hpeer peer (by simp [CongestionSignal.peers])
    simp only [after]
    split_ifs <;> omega
  | round peer =>
    have : peer ≤ bound := hpeer peer (by simp [CongestionSignal.peers])
    simp only [after]
    split_ifs <;> omega
  | duplicates => simp only [after]; omega
  | timeout => simp only [after]; omega

/-- The window never exceeds the largest window advertised, apart from what duplicates add to a
small one. -/
theorem cwnd_le_of_run {bound : ℕ} (hc : c.cwnd ≤ bound) (hinf : 2 * p.inflation - 1 ≤ bound)
    (hpeers : ∀ w ∈ CongestionSignal.peers signals, w ≤ bound)
    (h : p.machine.run c signals = some d) : d.cwnd ≤ bound := by
  induction signals generalizing c with
  | nil =>
    cases h
    exact hc
  | cons signal signals ih =>
    obtain ⟨u, hu, hrun⟩ := Machine.run_cons_eq_some.mp h
    obtain rfl := Option.some.inj hu
    have happ : CongestionSignal.peers (signal :: signals) =
        CongestionSignal.peers [signal] ++ CongestionSignal.peers signals := by
      rw [← List.singleton_append, CongestionSignal.peers, List.filterMap_append]
      rfl
    rw [happ] at hpeers
    exact ih (after_le p.inflation_pos hc hinf fun w hw => hpeers w (List.mem_append_left _ hw))
      (fun w hw => hpeers w (List.mem_append_right _ hw)) hrun

theorem cwnd_le_credit (h : p.machine.run c signals = some d) (hc : 0 < c.cwnd) :
    d.cwnd ≤ c.cwnd + (signals.map (CongestionSignal.credit p.inflation)).sum := by
  induction signals generalizing c with
  | nil =>
    cases h
    simp
  | cons signal signals ih =>
    obtain ⟨u, hu, hrun⟩ := Machine.run_cons_eq_some.mp h
    obtain rfl := Option.some.inj hu
    have hpos : 0 < (p.after c signal).cwnd :=
      cwnd_pos_of_run hc (Machine.run_cons_eq_some.mpr ⟨_, rfl, rfl⟩ : p.machine.run c [signal] = _)
    have hstep : (p.after c signal).cwnd ≤ c.cwnd + signal.credit p.inflation := by
      cases signal with
      | ack peer => simp only [after, CongestionSignal.credit]; split_ifs <;> omega
      | round peer => simp only [after, CongestionSignal.credit]; split_ifs <;> omega
      | duplicates => simp only [after, CongestionSignal.credit]; omega
      | timeout => simp only [after, CongestionSignal.credit]; omega
    have := ih hrun hpos
    rw [List.map_cons, List.sum_cons]
    omega

end CongestionControl

end TcpOverUdp
