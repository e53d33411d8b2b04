import TcpOverUdp.Transfer

namespace TcpOverUdp
open CWord

def SenderState.inPassiveClose : SenderState → Bool
  | .awaitFin | .awaitAck _ _ => true
  | _ => false

/-- The server is in `PassiveClose` or has come out of it. -/
def SenderState.closed : SenderState → Bool
  | .awaitFin | .awaitAck _ _ | .leaving (.lastAck _) | .done (.lastAck _) => true
  | _ => false

/-- Whether the server has taken the last acknowledgement, and no timer has expired since,
after one more step. -/
def closingStep (closing : Bool) : SenderState × SenderEvent → Bool
  | (_, .alarm) => false
  | (.reading, .read (.complete a) _) => a.lastackSent = 1
  | (.probing _, .read (.complete a) _) => a.advtWindow ≠ 0 ∧ a.lastackSent = 1
  | _ => closing

namespace Transfer

variable {cfg : TransferConfig} {x y : Transfer} {e : TransferEvent}

/-- The last acknowledgement has come, to the inner loop or, with an open window, to the
probe; and no timer has expired since. -/
def closing (x : Transfer) : Bool := x.trace.foldl closingStep false

/-- A FIN that the server reads is read by `PassiveClose`. -/
def FinIsClose (cfg : TransferConfig) (x : Transfer) (e : TransferEvent) : Prop :=
  ∀ i now bufs rest, e = .serverRead i now bufs →
    cfg.channel.receive x.toServer i = some (finRecord, rest) →
    x.sender.state.inPassiveClose = true

/-- A FIN is read only after the last acknowledgement, with no timer expiring in between. -/
def FinAfterLastAck (cfg : TransferConfig) (x : Transfer) (e : TransferEvent) : Prop :=
  ∀ i now bufs rest, e = .serverRead i now bufs →
    cfg.channel.receive x.toServer i = some (finRecord, rest) → x.closing = true

lemma closing_afterServer {e : SenderEvent} {bufs : ℕ → Payload} {rest : List ClientAck}
    {t : Sender} {outs : List SenderOut} :
    (x.afterServer cfg e bufs rest t outs).closing =
      closingStep x.closing (x.sender.state, e) := by
  simp [closing, afterServer]

lemma closed_serve {s t : Sender} {e : SenderEvent} {outs : List SenderOut}
    (hread : e.reads = false) (h : Sender.Moves cfg.server s e t outs) :
    closingStep s.state.closed (s.state, e) = t.state.closed := by
  cases h with
  | burst hs => simp [closingStep, hs, SenderState.closed]
  | exhausted hs => simp [closingStep, hs, SenderState.closed]
  | wake hs => simp [closingStep, hs, SenderState.closed]
  | nextCycle hs => simp [closingStep, hs, SenderState.closed, Sender.disarm]
  | @finish now r hs =>
    rw [hs]
    cases r <;> rfl
  | probeAgain hs => simp [closingStep, hs, SenderState.closed]
  | probeAbort hs => simp [closingStep, hs, SenderState.closed]
  | @closed e n a hs he =>
    rw [hs]
    cases e with
    | alarm => exact absurd rfl he
    | read r now => cases hread
    | _ => rfl
  | @closeAgain e n a n' a' hs he =>
    rw [hs]
    cases e with
    | alarm => exact absurd rfl he
    | read r now => cases hread
    | _ => rfl
  | resend hon htry => rw [Sender.onAlarm_of_try htry]; rfl
  | giveUp hon hmax => rw [Sender.onAlarm_of_max hmax]; rfl
  | _ => cases hread

lemma closed_read {s t : Sender} {a : ClientAck} {now : TimeVal} {outs : List SenderOut}
    (h : Sender.Moves cfg.server s (.read (.complete a) now) t outs) :
    closingStep s.state.closed (s.state, .read (.complete a) now) = t.state.closed := by
  have hreading : s.state = .reading → closingStep s.state.closed
      (s.state, .read (.complete a) now) = decide (a.lastackSent = 1) := fun hs => by rw [hs]; rfl
  -- a round of the inner loop that reads on
  have hstays : s.state = .reading → a.lastackSent ≠ 1 → closingStep s.state.closed
      (s.state, .read (.complete a) now) = s.state.closed := by
    intro hs hlast
    rw [hreading hs, hs]
    exact decide_eq_false hlast
  have hprobing : ∀ p, s.state = .probing p → closingStep s.state.closed
      (s.state, .read (.complete a) now) = decide (a.advtWindow ≠ 0 ∧ a.lastackSent = 1) :=
    fun p hs => by rw [hs]; rfl
  cases h with
  | lastAck hs hlast =>
    rw [hreading hs, Sender.endCycle_of_last hlast]
    exact decide_eq_true hlast
  | zeroWindow hs hlast =>
    rw [hreading hs]
    exact decide_eq_false hlast
  | duplicate hs hlast => exact hstays hs hlast
  | thirdDuplicate hs hlast => exact hstays hs hlast
  | newAck hs hlast => exact hstays hs hlast
  | cycleDone hs hlast =>
    rw [hreading hs, Sender.endCycle_of_not_last hlast]
    exact decide_eq_false hlast
  | @reopened r now p hs hok hopen =>
    rw [hprobing p hs]
    by_cases hlast : a.lastackSent = 1
    · rw [Sender.endCycle_of_last hlast]
      exact decide_eq_true ⟨hopen, hlast⟩
    · rw [Sender.endCycle_of_not_last hlast]
      exact decide_eq_false fun hc => hlast hc.2
  | stillClosed hs hok hzero =>
    rw [hprobing _ hs]
    exact decide_eq_false fun hc => hc.1 hzero
  | probeAbortRead hs hzero =>
    rw [hprobing _ hs]
    exact decide_eq_false fun hc => hc.1 hzero
  | finMissing hs => rw [hs]; rfl
  | finAnswered hs => rw [hs]; rfl
  | closed hs => rw [hs]; rfl
  | closeAgain hs => rw [hs]; rfl

theorem closing_eq_step (h : x.closing = x.sender.state.closed) (hstep : x.step cfg e = some y) :
    y.closing = y.sender.state.closed := by
  cases step_moves hstep with
  | serve hread hmove =>
    rw [closing_afterServer, h]
    exact closed_serve hread hmove
  | read hrecv hmove =>
    rw [closing_afterServer, h]
    exact closed_read hmove
  | act hact => exact h
  | skip => exact h

lemma finIsClose_iff (h : x.closing = x.sender.state.closed) (hstep : x.step cfg e = some y) :
    FinIsClose cfg x e ↔ FinAfterLastAck cfg x e := by
  apply forall_congr'
  intro i
  apply forall_congr'
  intro now
  apply forall_congr'
  intro bufs
  apply forall_congr'
  intro rest
  apply imp_congr_right
  rintro rfl
  apply imp_congr_right
  intro hrecv
  -- some move reads the FIN, so the server is not behind `PassiveClose`
  rw [h]
  cases step_moves hstep with
  | read hrecv' hmove =>
    cases hmove with
    | _ hs => simp [hs, SenderState.inPassiveClose, SenderState.closed]
  | act hside => cases hside
  | skip hside => cases hside

/-- Over a whole run of big-endian hosts in which the acknowledgement of a full window is well
defined, so that no acknowledgement of data is a FIN bit by bit, the server reads every FIN in
`PassiveClose` if and only if every FIN it reads comes after the last acknowledgement, with no
timer expiring in between. -/
theorem finIsClose_iff_finAfterLastAck (cfg : TransferConfig) (now : TimeVal)
    (es : List TransferEvent) :
    (machine cfg).Along (fun x e _ => FinIsClose cfg x e) (start cfg now) es ↔
      (machine cfg).Along (fun x e _ => FinAfterLastAck cfg x e) (start cfg now) es :=
  Machine.along_congr (P := fun x => x.closing = x.sender.state.closed)
    (fun _ _ _ h hstep => closing_eq_step h hstep) (fun _ _ _ h hstep => finIsClose_iff h hstep)
    rfl es

/-- One segment and a window of two.  Both acknowledgements are lost, and the FIN reaches the
server in its inner loop, which takes it for a closed window. -/
theorem not_finIsClose :
    ∃ x y, (machine (.zeros 100 2 .unreliable (by decide))).run
        (start (.zeros 100 2 .unreliable (by decide)) ⟨0, 0⟩)
        [.server (.go ⟨0, 0⟩) fun _ _ => 0, .producerRead 0 false true,
          .client (.lastAck true fun _ => 0), .client (.consume false fun _ => 0),
          .client .fin] = some x ∧
      x.step (.zeros 100 2 .unreliable (by decide)) (.serverRead 0 ⟨0, 0⟩ fun _ _ => 0) = some y ∧
      y.sender.state = .probeSleep ∧
      ¬ FinIsClose (.zeros 100 2 .unreliable (by decide)) x
        (.serverRead 0 ⟨0, 0⟩ fun _ _ => 0) := by
  have key : ∀ {cfg : TransferConfig} {r : Option Transfer},
      (r.map fun x => (x.sender.state, cfg.channel.receive x.toServer 0,
        (x.step cfg (.serverRead 0 ⟨0, 0⟩ fun _ _ => 0)).map fun y => y.sender.state)) =
        some (.reading, some (finRecord, [finRecord]), some .probeSleep) →
      ∃ x y, r = some x ∧ x.step cfg (.serverRead 0 ⟨0, 0⟩ fun _ _ => 0) = some y ∧
        y.sender.state = .probeSleep ∧
        ¬ FinIsClose cfg x (.serverRead 0 ⟨0, 0⟩ fun _ _ => 0) := by
    intro cfg r hobs
    obtain ⟨x, hx, hobs⟩ := Option.map_eq_some_iff.mp hobs
    obtain ⟨hstate, hobs⟩ := Prod.mk.inj hobs
    obtain ⟨hrecv, hstep⟩ := Prod.mk.inj hobs
    obtain ⟨y, hy, hprobe⟩ := Option.map_eq_some_iff.mp hstep
    refine ⟨x, y, hx, hy, hprobe, fun h => ?_⟩
    have hclose := h 0 ⟨0, 0⟩ _ _ rfl hrecv
    rw [hstate] at hclose
    cases hclose
  exact key (by decide +kernel)

end Transfer

end TcpOverUdp
