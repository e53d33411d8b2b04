import TcpOverUdp.Transfer
import TcpOverUdp.Samples
import TcpOverUdp.Lib.Potential

namespace TcpOverUdp
open CWord

namespace Sender

def patience (s : Sender) : ℕ :=
  let resends := (rttMaxNrexmt - s.rttinfo.nrexmt).toNat
  match s.state with
  | .done _ => 0
  | .leaving (.lastAck _) => resends + 2
  | .leaving _ => 1
  | .reading => resends + 2
  | .top => resends + 3
  -- the next burst starts with the timer's count at zero again
  | .cycleEnd => 16
  | .probing p => (10 - p.networkTimeout).toNat + resends + 2
  -- the ten timeouts of the probe are all to come
  | .probeSleep => resends + 13
  | .awaitFin => resends + 2
  | .awaitAck numRetry _ => numRetry.toNat + resends + 2

structure Counting (s : Sender) : Prop where
  nrexmt : 0 ≤ s.rttinfo.nrexmt
  probes : ∀ p, s.state = .probing p → 0 ≤ p.networkTimeout ∧ p.networkTimeout ≤ 10
  retries : ∀ n a, s.state = .awaitAck n a → 1 ≤ n ∧ n ≤ 2

variable {cfg : ServerConfig} {s t : Sender} {e : SenderEvent} {outs : List SenderOut}

lemma counting_start (now : TimeVal) : Counting (start cfg now) where
  nrexmt := le_rfl
  probes p h := by cases h
  retries n a h := by cases h

lemma Counting.of_other (h : 0 ≤ t.rttinfo.nrexmt) (hp : ∀ p, t.state ≠ .probing p)
    (ha : ∀ n a, t.state ≠ .awaitAck n a) : Counting t :=
  ⟨h, fun p hs => absurd hs (hp p), fun n a hs => absurd hs (ha n a)⟩

lemma Counting.endCycle (h : 0 ≤ s.rttinfo.nrexmt) : Counting s.endCycle := by
  refine .of_other h (fun p => ?_) (fun n a => ?_)
  · rw [endCycle_state]
    split_ifs <;> simp
  · rw [endCycle_state]
    split_ifs <;> simp

lemma retries_step {n : ℤ} {a : ClientAck} (hs : s.state = .awaitAck n a) (halarm : e ≠ .alarm)
    (hstep : s.step cfg e = some (t, outs)) :
    t.rttinfo = s.rttinfo ∧ ((∃ r, t.state = .leaving (.lastAck r)) ∨ (∃ r, t.state = .done r) ∨
      ∃ n' a', t.state = .awaitAck n' a' ∧
        (e.reads = true ∧ n' = n ∨ e.reads = false ∧ n' = n - 1 ∧ n' ≠ 0)) := by
  cases e with
  | go now => simp [step, hs] at hstep
  | alarm => exact absurd rfl halarm
  | timeout =>
    simp only [step, hs] at hstep
    split_ifs at hstep with hlast
    · obtain ⟨rfl, rfl⟩ := Prod.mk.inj (Option.some.inj hstep)
      exact ⟨rfl, Or.inl ⟨true, rfl⟩⟩
    · obtain ⟨rfl, rfl⟩ := Prod.mk.inj (Option.some.inj hstep)
      exact ⟨rfl, Or.inr (Or.inr ⟨_, _, rfl, Or.inr ⟨rfl, rfl, hlast⟩⟩)⟩
  | read r now =>
    cases r with
    | error =>
      simp only [step, hs] at hstep
      obtain ⟨rfl, rfl⟩ := Prod.mk.inj (Option.some.inj hstep)
      exact ⟨rfl, Or.inr (Or.inl ⟨_, rfl⟩)⟩
    | _ b =>
      simp only [step, hs, closeRead, Option.some.injEq] at hstep
      split_ifs at hstep
      · obtain ⟨rfl, rfl⟩ := Prod.mk.inj hstep
        exact ⟨rfl, Or.inl ⟨true, rfl⟩⟩
      · obtain ⟨rfl, rfl⟩ := Prod.mk.inj hstep
        exact ⟨rfl, Or.inr (Or.inr ⟨_, _, rfl, Or.inl ⟨rfl, rfl⟩⟩)⟩

lemma Counting.of_retries {n : ℤ} {a : ClientAck} (h : Counting s) (hs : s.state = .awaitAck n a)
    (halarm : e ≠ .alarm) (hstep : s.step cfg e = some (t, outs)) : Counting t := by
  have hrange := h.retries n a hs
  obtain ⟨hrtt, hstate⟩ := retries_step hs halarm hstep
  have hn : 0 ≤ t.rttinfo.nrexmt := by
    rw [hrtt]
    exact h.nrexmt
  rcases hstate with ⟨r, ht⟩ | ⟨r, ht⟩ | ⟨n', a', ht, hcount⟩
  · exact .of_other hn (by simp [ht]) (by simp [ht])
  · exact .of_other hn (by simp [ht]) (by simp [ht])
  · refine ⟨hn, by simp [ht], fun m b hm => ?_⟩
    rw [ht] at hm
    obtain ⟨rfl, rfl⟩ := SenderState.awaitAck.inj hm
    omega

theorem Counting.step (h : Counting s) (hstep : s.step cfg e = some (t, outs)) : Counting t := by
  have hn := h.nrexmt
  cases step_moves hstep with
  | burst => exact .of_other hn (by simp) (by simp)
  | exhausted => exact .of_other hn (by simp) (by simp)
  | wake => exact ⟨hn, by simp, by simp⟩
  | nextCycle => exact .of_other le_rfl (by simp [disarm]) (by simp [disarm])
  | finish => exact .of_other le_rfl (by simp [disarm]) (by simp [disarm])
  | lastAck => exact .endCycle hn
  | zeroWindow => exact .of_other hn (by simp) (by simp)
  | duplicate hs => exact .of_other hn (by simp [receive, hs]) (by simp [receive, hs])
  -- a sample of the round trip sets `nrexmt` to zero
  | thirdDuplicate hs =>
    exact .of_other le_rfl (by simp [receive, fastRetransmit, hs])
      (by simp [receive, fastRetransmit, hs])
  | newAck hs =>
    exact .of_other le_rfl (by simp [receive, recordAck, hs]) (by simp [receive, recordAck, hs])
  | cycleDone => exact .endCycle le_rfl
  | reopened => exact .endCycle hn
  | stillClosed hs =>
    have := h.probes _ hs
    exact ⟨hn, by simpa [Probe.next] using this, by simp⟩
  | @probeAgain p hs htry =>
    have := h.probes _ hs
    refine ⟨hn, fun q hq => ?_, by simp⟩
    obtain rfl := SenderState.probing.inj hq
    show 0 ≤ p.networkTimeout + 1 ∧ p.networkTimeout + 1 ≤ 10
    omega
  | probeAbort => exact .of_other hn (by simp) (by simp)
  | probeAbortRead => exact .of_other hn (by simp) (by simp)
  | readError => exact .of_other hn (by simp) (by simp)
  | finMissing => exact .of_other hn (by simp) (by simp)
  | finAnswered => exact ⟨hn, by simp [closeReply], by simp [closeReply]⟩
  | closed hs he => exact h.of_retries hs he hstep
  | closeAgain hs he => exact h.of_retries hs he hstep
  | resend hon htry =>
    refine .of_other ?_ (by simp [onAlarm_of_try htry]) (by simp [onAlarm_of_try htry])
    rw [onAlarm_rttinfo, rttTimeout_fst_nrexmt]
    omega
  | giveUp hon hmax =>
    refine .of_other ?_ (by simp [onAlarm_of_max hmax]) (by simp [onAlarm_of_max hmax])
    rw [onAlarm_rttinfo, rttTimeout_fst_nrexmt]
    omega

lemma resends_onAlarm (h : (rttTimeout s.rttinfo).2 = false) :
    (rttMaxNrexmt - s.onAlarm.1.rttinfo.nrexmt).toNat + 1 =
      (rttMaxNrexmt - s.rttinfo.nrexmt).toNat := by
  have hmax : ¬ rttMaxNrexmt ≤ s.rttinfo.nrexmt := by simp [← rttTimeout_snd, h]
  rw [onAlarm_rttinfo, rttTimeout_fst_nrexmt]
  omega

lemma resends_lt_patience (h : Counting s) (hon : s.alarmEnabled cfg = true) :
    (rttMaxNrexmt - s.rttinfo.nrexmt).toNat + 2 ≤ s.patience := by
  have hn := h.nrexmt
  have hmax : rttMaxNrexmt = 12 := rfl
  cases hs : s.state with
  | top => simp [alarmEnabled, hs] at hon
  | done r => simp [alarmEnabled, hs] at hon
  | leaving r =>
    cases r with
    | lastAck b => simp [patience, hs]
    | _ => simp [alarmEnabled, hs] at hon
  | _ => simp only [patience, hs]; omega

theorem patience_step (h : Counting s) (he : e.reads = false)
    (hstep : s.step cfg e = some (t, outs)) : t.patience < s.patience := by
  have hn := h.nrexmt
  have hmax : rttMaxNrexmt = 12 := rfl
  cases step_moves hstep with
  | burst hs => simp [patience, hs]
  | exhausted hs => simp [patience, hs]
  | wake hs =>
    simp only [patience, hs]
    omega
  | nextCycle hs => simp [patience, hs, disarm, sample, hmax]
  | @finish now r hs =>
    cases r <;> simp [patience, hs, disarm]
  -- the waits that count for themselves: the probe and `PassiveClose`
  | @probeAgain p hs htry =>
    have := h.probes _ hs
    simp only [patience, hs]
    omega
  | probeAbort hs => simp [patience, hs]
  | @closed _ n a hs halarm =>
    have := h.retries _ _ hs
    simp only [patience, hs]
    omega
  | @closeAgain _ n a n' a' hs halarm =>
    have := h.retries _ _ hs
    obtain ⟨hrtt, ⟨r, ht⟩ | ⟨r, ht⟩ | ⟨m, b, ht, hcount⟩⟩ := retries_step hs halarm hstep
    · simp [closeReply] at ht
    · simp [closeReply] at ht
    · rcases hcount with ⟨hread, -⟩ | ⟨-, rfl, -⟩
      · simp [he] at hread
      · simp only [patience, ht, hs, hrtt]
        omega
  -- every state in which the timer is armed leaves room for its resends
  | resend hon htry =>
    have hstart := resends_lt_patience h hon
    have hless := resends_onAlarm htry
    have hafter : s.onAlarm.1.patience = (rttMaxNrexmt - s.onAlarm.1.rttinfo.nrexmt).toNat + 2 := by
      simp [patience, onAlarm_of_try htry]
    omega
  | giveUp hon hgive =>
    have hstart := resends_lt_patience h hon
    have hafter : s.onAlarm.1.patience = 1 := by simp [patience, onAlarm_of_max hgive]
    omega
  -- all that is left reads something
  | _ => cases he

lemma patience_le (h : Counting s) : s.patience ≤ 25 := by
  have hn := h.nrexmt
  have hmax : rttMaxNrexmt = 12 := rfl
  cases hs : s.state with
  | leaving r => cases r <;> simp only [patience, hs] <;> omega
  | probing p =>
    have := h.probes _ hs
    simp only [patience, hs]
    omega
  | awaitAck n a =>
    have := h.retries _ _ hs
    simp only [patience, hs]
    omega
  | _ => simp only [patience, hs]; omega

/-- The server cannot take a step of its own: it has ended, it waits for a FIN without a timer,
or the counter of a burst would overflow. -/
lemma stuck_cases (hstuck : ∀ e, e.reads = false → s.step cfg e = none) :
    (∃ r, s.state = .done r) ∨ (s.state = .awaitFin ∧ cfg.alarmBlocked = true) ∨
      s.state = .top ∧ ¬ InInt (s.index + s.burstSize.toNat) := by
  have hgo := hstuck (.go ⟨0, 0⟩) rfl
  have htimeout := hstuck .timeout rfl
  have halarm := hstuck .alarm rfl
  cases hs : s.state with
  | top =>
    refine Or.inr (Or.inr ⟨rfl, fun hin => ?_⟩)
    simp only [step, hs] at hgo
    split_ifs at hgo with hlt
    simp only [burst, bind, checked_of_inInt hin, ok_bind] at hgo
    cases hgo
  | reading => simp [step, alarmEnabled, hs] at halarm
  | probeSleep => simp [step, hs] at hgo
  | probing p => simp [step, hs] at htimeout
  | cycleEnd => simp [step, hs] at hgo
  -- where it waits for a FIN, only the timer can move the server
  | awaitFin =>
    refine Or.inr (Or.inl ⟨rfl, ?_⟩)
    simpa [step, alarmEnabled, hs] using halarm
  | awaitAck n a =>
    simp only [step, hs] at htimeout
    split_ifs at htimeout
  | leaving r => simp [step, hs] at hgo
  | done r => exact Or.inl ⟨r, rfl⟩

/-- From any state of any run, the server takes at most 25 steps without reading anything, and
when it can take no more it has ended, unless it waits in the first `Read` of `PassiveClose`,
with `SIGALRM` blocked, or runs into the overflow of `index`. -/
theorem ends_in_silence {now : TimeVal} {es fs : List SenderEvent}
    (hrun : (machine cfg).run (start cfg now) es = some s) (hsilent : ∀ e ∈ fs, e.reads = false)
    (hrun' : (machine cfg).run s fs = some t) :
    fs.length ≤ 25 ∧ ((∀ e, e.reads = false → (machine cfg).step t e = none) →
      (∃ r, t.state = .done r) ∨ (t.state = .awaitFin ∧ cfg.alarmBlocked = true) ∨
        t.state = .top ∧ ¬ InInt (t.index + t.burstSize.toNat)) := by
  have hcounting : Counting s := Machine.run_invariant (P := Counting)
    (fun _ _ _ h hstep => by
      obtain ⟨outs, hstep⟩ := machine_step.mp hstep
      exact h.step hstep) (counting_start now) hrun
  have hlength := Machine.length_le_potential (P := Counting) (G := fun e => e.reads = false)
    patience (fun s e t h he hstep => by
      obtain ⟨outs, hstep⟩ := machine_step.mp hstep
      exact ⟨h.step hstep, patience_step h he hstep⟩) hcounting hsilent hrun'
  have hle := patience_le hcounting
  refine ⟨by omega, fun hstuck => stuck_cases fun e he => ?_⟩
  simpa [machine] using hstuck e he

/-- A closed window, then nothing: the probe counts ten timeouts, and the timer goes on where
`SIGALRM` is not blocked. -/
def deadPeer : ServerConfig := ⟨.big, .bits64, 1000, by decide, 4, ⟨0, 0, 0⟩, false⟩

def lastSteps : List SenderEvent :=
  .go ⟨0, 0⟩ :: List.replicate 10 .timeout ++ List.replicate 13 .alarm ++ [.go ⟨0, 0⟩]

theorem ends_in_silence_deadPeer :
    ∃ s t, (machine deadPeer).run (start deadPeer ⟨0, 0⟩)
        [.go ⟨0, 0⟩, .read (.complete ⟨0, 0, 0⟩) ⟨0, 0⟩] = some s ∧
      (machine deadPeer).run s lastSteps = some t ∧ t.state = .done .giveUp ∧
      lastSteps.length ≤ 25 ∧ ((∀ e, e.reads = false → (machine deadPeer).step t e = none) →
        (∃ r, t.state = .done r) ∨ (t.state = .awaitFin ∧ deadPeer.alarmBlocked = true) ∨
          t.state = .top ∧ ¬ InInt (t.index + t.burstSize.toNat)) := by
  have hstart : ∃ s, (machine deadPeer).run (start deadPeer ⟨0, 0⟩)
      [.go ⟨0, 0⟩, .read (.complete ⟨0, 0, 0⟩) ⟨0, 0⟩] = some s ∧
      ((machine deadPeer).run s lastSteps).map (fun t => t.state) = some (.done .giveUp) :=
    ⟨_, rfl, by decide +kernel⟩
  obtain ⟨s, hs, hdone⟩ := hstart
  obtain ⟨t, ht, hstate⟩ := Option.map_eq_some_iff.mp hdone
  exact ⟨s, t, hs, ht, hstate, ends_in_silence hs (by decide) ht⟩

end Sender

end TcpOverUdp
