import TcpOverUdp.ActiveClose

namespace TcpOverUdp
open CWord

namespace ActiveClose

def sendsFin (host : ByteOrder) (o : ClientOut) : Bool :=
  ntohl host o.record.currentRequest = finRequest

def fins (host : ByteOrder) (c : ActiveClose) : ℕ := c.sent.countP (sendsFin host)

def readsOther (host : ByteOrder) : CloseEvent → Bool
  | .read ack =>
    ntohl host ack.currentRequest ≠ ackRequest ∧ ntohl host ack.currentRequest ≠ finRequest
  | .timeout => false

def ResentByTimeout (host : ByteOrder) (c : ActiveClose) (e : CloseEvent) (d : ActiveClose) :
    Prop :=
  fins host c < fins host d → e = .timeout

variable {host : ByteOrder} {past : List CloseEvent} {c d : ActiveClose} {e : CloseEvent}

lemma sendsFin_fin (host : ByteOrder) : sendsFin host (fin host) = true := by
  simp [sendsFin, fin, ClientOut.record]

lemma not_sendsFin_ack (ack : ClientAck) :
    sendsFin host (.close { ack with currentRequest := htonl host ackRequest }) = false := by
  simp [sendsFin, ClientOut.record, ackRequest_ne_finRequest]

lemma activeCloseRead_fins (s : CloseState) (ack : ClientAck) :
    (activeCloseRead host s ack).2.countP (sendsFin host) =
      if readsOther host (.read ack) then 1 else 0 := by
  unfold activeCloseRead readsOther
  by_cases hack : ntohl host ack.currentRequest = ackRequest
  · rw [if_pos hack]
    cases s.currentState <;> simp [hack]
  · by_cases hfin : ntohl host ack.currentRequest = finRequest
    · rw [if_neg hack, if_pos hfin]
      simp [hfin, not_sendsFin_ack]
    · rw [if_neg hack, if_neg hfin]
      have hsent := sendsFin_fin host
      unfold fin at hsent
      simp [hack, hfin, hsent]

lemma fins_append (c : ActiveClose) (s : CloseState) (outs : List ClientOut) :
    fins host { c with vars := s, sent := c.sent ++ outs } =
      fins host c + outs.countP (sendsFin host) := by
  simp [fins]

/-- The tests behind the inner loop have failed, as long as `ActiveClose` runs. -/
def Waiting (c : ActiveClose) : Prop := c.exit = none → c.vars.exit = none

lemma Waiting.step (h : Waiting c) (hstep : step host c e = some d) : Waiting d := by
  obtain ⟨hexit, hmove⟩ := step_moves h hstep
  obtain ⟨hmsl, hretry⟩ := exit_eq_none.mp (h hexit)
  intro hd
  cases hmove with
  | @read ack =>
    rw [CloseState.exit_congr (activeCloseRead_counters _ ack)]
    exact h hexit
  | stay _ hne => exact exit_eq_none.mpr ⟨hne, hretry⟩
  | again _ hne => exact exit_eq_none.mpr ⟨hmsl, hne⟩
  | waited => cases hd
  | failed => cases hd

lemma resentByTimeout_iff (hwait : Waiting c) (hstep : step host c e = some d) :
    ResentByTimeout host c e d ↔ readsOther host e = false := by
  obtain ⟨-, hmove⟩ := step_moves hwait hstep
  cases hmove with
  | @read ack =>
    rw [ResentByTimeout, fins_append, activeCloseRead_fins]
    cases readsOther host (.read ack) <;> simp
  | _ => simp [ResentByTimeout, readsOther]

/-- The FINs sent and the timeouts left add up, as long as nothing but a timeout sends a FIN. -/
structure Counted (host : ByteOrder) (c : ActiveClose) : Prop where
  sum : (fins host c : ℤ) + c.vars.numRetry ≤ 4
  retry : 0 ≤ c.vars.numRetry
  bound : fins host c ≤ 3
  waiting : Waiting c

lemma counted_start (host : ByteOrder) : Counted host (start host) where
  sum := by simp [fins, start, sendsFin_fin]
  retry := by simp [start]
  bound := by simp [fins, start, sendsFin_fin]
  waiting := (history_start host).waiting

lemma Counted.step (h : Counted host c) (hother : readsOther host e = false)
    (hstep : step host c e = some d) : Counted host d := by
  have hwait := h.waiting.step hstep
  obtain ⟨hexit, hmove⟩ := step_moves h.waiting hstep
  obtain ⟨-, hretry⟩ := exit_eq_none.mp (h.waiting hexit)
  have hsum := h.sum
  have hnonneg := h.retry
  cases hmove with
  | @read ack =>
    have hfins : fins host { c with
        vars := (activeCloseRead host c.vars ack).1
        sent := c.sent ++ (activeCloseRead host c.vars ack).2 } = fins host c := by
      rw [fins_append, activeCloseRead_fins, hother]
      rfl
    have hsame : (activeCloseRead host c.vars ack).1.numRetry = c.vars.numRetry :=
      (activeCloseRead_counters c.vars ack).2
    exact ⟨by rw [hfins, hsame]; exact hsum, by rw [hsame]; exact hnonneg,
      by rw [hfins]; exact h.bound, hwait⟩
  | stay => exact ⟨hsum, hnonneg, h.bound, hwait⟩
  | waited => exact ⟨hsum, hnonneg, h.bound, hwait⟩
  | again _ hne =>
    have hfins : fins host { c with
        vars := { c.vars with numRetry := c.vars.numRetry - 1 }
        sent := c.sent ++ [fin host] } = fins host c + 1 := by
      rw [fins_append]
      simp [sendsFin_fin]
    -- there is another timeout left, so this was not the third FIN
    exact ⟨by rw [hfins]; push_cast; omega, by simp only; omega,
      by rw [hfins]; omega, hwait⟩
  | failed =>
    have hsame : fins host { c with
        vars := { c.vars with numRetry := c.vars.numRetry - 1 }
        exit := some .numRetry } = fins host c := rfl
    exact ⟨by rw [hsame]; simp only; omega, by simp only; omega, h.bound, hwait⟩

/-- The FINs are bounded, and only timeouts repeat them, if and only if every datagram that is
read is an ACK or a FIN. -/
theorem fins_bounded_iff (host : ByteOrder) (es : List CloseEvent) (c : ActiveClose)
    (hrun : (machine host).run (start host) es = some c) :
    (fins host c ≤ 3 ∧ (machine host).Along (ResentByTimeout host) (start host) es) ↔
      ∀ e ∈ es, readsOther host e = false := by
  have hiff : (machine host).Along (ResentByTimeout host) (start host) es ↔
      (machine host).Along (fun _ e _ => readsOther host e = false) (start host) es :=
    Machine.along_congr (P := Waiting) (fun _ _ _ h hstep => h.step hstep)
      (fun _ _ _ h hstep => resentByTimeout_iff h hstep) (counted_start host).waiting es
  rw [hiff, Machine.along_iff_of_run hrun]
  constructor
  · rintro ⟨-, h⟩
    exact h
  · intro h
    have hcounted : Counted host c :=
      Machine.run_invariant_along (G := fun _ e _ => readsOther host e = false)
        (fun _ _ _ h hother hstep => h.step hother hstep) (counted_start host)
        ((Machine.along_iff_of_run hrun).mpr h) hrun
    exact ⟨hcounted.bound, h⟩

theorem fins_bounded_iff_timeouts :
    ∃ c, (machine .little).run (start .little) [.timeout, .timeout, .timeout] = some c ∧
      fins .little c = 3 ∧
      (machine .little).Along (ResentByTimeout .little) (start .little)
        [.timeout, .timeout, .timeout] := by
  have hrun : (machine .little).run (start .little) [.timeout, .timeout, .timeout] =
      some ⟨⟨.finWait1, 0, 2⟩, some .numRetry, [fin .little, fin .little, fin .little]⟩ := rfl
  have hnone : ∀ e ∈ [CloseEvent.timeout, .timeout, .timeout], readsOther .little e = false := by
    simp [readsOther]
  exact ⟨_, hrun, by decide, ((fins_bounded_iff .little _ _ hrun).mpr hnone).2⟩

/-- Three late copies of segment `7` make the client send four FINs. -/
theorem not_fins_bounded :
    ¬ ∀ (host : ByteOrder) (es : List CloseEvent) (c : ActiveClose),
      (machine host).run (start host) es = some c →
        fins host c ≤ 3 ∧ (machine host).Along (ResentByTimeout host) (start host) es := by
  intro h
  have hrun : (machine .big).run (start .big)
      [.read ⟨7, 0, 0⟩, .read ⟨7, 0, 0⟩, .read ⟨7, 0, 0⟩] =
        some ⟨⟨.finWait1, 3, 2⟩, none, [fin .big, fin .big, fin .big, fin .big]⟩ := rfl
  have hbound := (h .big _ _ hrun).1
  revert hbound
  decide

end ActiveClose

end TcpOverUdp
