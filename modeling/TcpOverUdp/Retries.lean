import TcpOverUdp.LossSignals
import TcpOverUdp.Persistence

namespace TcpOverUdp
open CWord

/-- The highest request read so far, the expiries of the timer since it was read, and those since
`rtt_newpack`. -/
structure Stall where
  highest : Option ℕ
  expiries : ℕ
  waits : Waits
  deriving DecidableEq, Repr

def Stall.raises (g : Stall) (a : ClientAck) : Bool :=
  match g.highest with
  | none => true
  | some n => n < a.currentRequest.toNat

namespace Sender

def stall (s : Sender) (e : SenderEvent) (_ : Sender) (g : Stall) : Stall :=
  match e with
  | .alarm => { g with expiries := g.expiries + 1, waits := s.waits e g.waits }
  | e =>
    match (s.heard e).find? g.raises with
    | some a => ⟨some a.currentRequest.toNat, 0, s.waits e g.waits⟩
    | none => { g with waits := s.waits e g.waits }

def stalling (cfg : ServerConfig) : Machine (Sender × Stall) SenderEvent :=
  (machine cfg).ghost stall

/-- When the timer expires, the server gives up if there have been twelve expiries since the
highest request was read, and only then: it has sent a segment again on each of the twelve. -/
def GivesUpInTime (x : Sender × Stall) (e : SenderEvent) (y : Sender × Stall) : Prop :=
  e = .alarm → (y.1.state = .leaving .giveUp ↔ rttMaxNrexmt ≤ x.2.expiries)

instance (x : Sender × Stall) (e : SenderEvent) (y : Sender × Stall) :
    Decidable (GivesUpInTime x e y) := inferInstanceAs (Decidable (e = .alarm → _))

/-- When the timer expires, there have been twelve expiries since the highest request was read
exactly if there have been twelve since the inner loop took a new acknowledgement or a third
duplicate, or a cycle ended. -/
def Uncleared (x : Sender × Stall) (e : SenderEvent) : Prop :=
  e = .alarm → (rttMaxNrexmt ≤ x.2.expiries ↔ rttMaxNrexmt ≤ x.2.waits.expiries)

variable {cfg : ServerConfig} {s t : Sender} {x y : Sender × Stall} {e : SenderEvent}

lemma stall_waits (g : Stall) : (stall s e t g).waits = s.waits e g.waits := by
  unfold stall
  split
  · rfl
  · split <;> rfl

lemma alarm_giveUp_iff (h : (machine cfg).step s .alarm = some t) :
    t.state = .leaving .giveUp ↔ rttMaxNrexmt ≤ s.rttinfo.nrexmt := by
  obtain ⟨outs, hstep⟩ := machine_step.mp h
  simp only [step, Option.ite_none_right_eq_some, Option.some.injEq] at hstep
  obtain rfl : s.onAlarm.1 = t := congrArg Prod.fst hstep.2
  rw [← rttTimeout_snd]
  cases hmax : (rttTimeout s.rttinfo).2 with
  | true => simp [onAlarm_of_max hmax]
  | false => simp [onAlarm_of_try hmax]

lemma stalling_step (h : x.1.rttinfo.nrexmt = x.2.waits.expiries)
    (hstep : (stalling cfg).step x e = some y) :
    y.1.rttinfo.nrexmt = y.2.waits.expiries ∧ (GivesUpInTime x e y ↔ Uncleared x e) := by
  obtain ⟨hmachine, hghost⟩ := Machine.ghost_step.mp hstep
  constructor
  · obtain ⟨outs, hstep⟩ := machine_step.mp hmachine
    rw [hghost, stall_waits]
    exact (step_moves hstep).nrexmt h
  · unfold GivesUpInTime Uncleared
    refine forall_congr' fun halarm => ?_
    subst halarm
    rw [alarm_giveUp_iff hmachine, h]
    exact Iff.comm

/-- Retransmissions without progress are bounded in the runs in which nothing but progress
clears the count, and in no others. -/
theorem givesUpInTime_iff (cfg : ServerConfig) (now : TimeVal) (es : List SenderEvent) :
    (stalling cfg).Along GivesUpInTime (start cfg now, ⟨none, 0, 0, 0⟩) es ↔
      (stalling cfg).Along (fun x e _ => Uncleared x e) (start cfg now, ⟨none, 0, 0, 0⟩) es :=
  Machine.along_congr (P := fun x => x.1.rttinfo.nrexmt = x.2.waits.expiries)
    (fun _ _ _ h hstep => (stalling_step h hstep).1)
    (fun _ _ _ h hstep => (stalling_step h hstep).2) rfl es

/-- Segment `3` is lost, twelve times when it is sent again too, and the acknowledgements of the
segments `4` and `5`, which ask for it, are late. -/
def silence : List SenderEvent :=
  threeBursts ++ List.replicate 12 .alarm ++
    [.read (.complete ⟨3, 4, 0⟩) ⟨0, 0⟩, .read (.complete ⟨3, 4, 0⟩) ⟨0, 0⟩]

/-- The second of them clears the count, and the server does not give up. -/
theorem not_givesUpInTime :
    ¬ (stalling eightSegments).Along GivesUpInTime (start eightSegments ⟨0, 0⟩, ⟨none, 0, 0, 0⟩)
      (silence ++ [.alarm]) := by
  decide +kernel

end Sender

end TcpOverUdp
