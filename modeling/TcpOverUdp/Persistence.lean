import TcpOverUdp.Samples
import TcpOverUdp.Transfer

namespace TcpOverUdp
open CWord

/-- The expiries of the timer since `rtt_newpack` was called last, and the timeouts of `Select`
since `clientWindowProbe` was entered last. -/
structure Waits where
  expiries : ℕ
  timeouts : ℕ
  deriving DecidableEq, Repr

namespace Sender

def waits (s : Sender) (e : SenderEvent) (w : Waits) : Waits where
  expiries :=
    match e with
    | .alarm => w.expiries + 1
    -- `rtt_newpack` comes with every sample
    | e => if (s.samples e).isSome then 0 else w.expiries
  timeouts :=
    match s.state, e with
    | .probeSleep, .go _ => 0
    | .probing _, .timeout => w.timeouts + 1
    | _, _ => w.timeouts

/-- The transfer is given up, by `rtt_timeout` or by `clientWindowProbe`. -/
def Aborted (s : Sender) : Prop :=
  s.state ∈ [.leaving .giveUp, .done .giveUp, .leaving .probeAbort, .done .probeAbort]

instance (s : Sender) : Decidable s.Aborted := inferInstanceAs (Decidable (_ ∈ _))

/-- An expiry of the timer is at most the twelfth, and a timeout of the probe at most the
tenth. -/
def Patient (s : Sender) (e : SenderEvent) (w : Waits) : Prop :=
  (e = .alarm → w.expiries < 12) ∧
    (e = .timeout → (∃ p, s.state = .probing p) → w.timeouts < 10)

structure Counted (s : Sender) (w : Waits) : Prop where
  nrexmt : s.rttinfo.nrexmt = w.expiries
  networkTimeout : ∀ p, s.state = .probing p → p.networkTimeout = w.timeouts ∧ w.timeouts ≤ 10
  alive : ¬ s.Aborted

variable {cfg : ServerConfig} {s t : Sender} {e : SenderEvent} {outs : List SenderOut} {w : Waits}

lemma Moves.nrexmt (hmove : Moves cfg s e t outs) (h : s.rttinfo.nrexmt = w.expiries) :
    t.rttinfo.nrexmt = (s.waits e w).expiries := by
  by_cases htop : s.state = .top
  · obtain ⟨hnone, hrtt, -⟩ := hmove.timer_of_top htop
    obtain ⟨now, rfl⟩ := hmove.go_of_top htop
    simp [waits, hnone, hrtt, h]
  · cases hmove.timer htop with
    | @sampled now hsome hrtt =>
      have halarm : e ≠ .alarm := by
        rintro rfl
        cases hsome
      rw [hrtt]
      cases e <;> simp_all [waits, sample]
    | left hnone halarm hrtt =>
      rw [hrtt, h]
      cases e <;> simp_all [waits]
    | expired halarm hrtt =>
      subst halarm
      simp [hrtt, waits, h]

lemma Counted.quiet (h : ¬ t.Aborted) (hpatient : s.Patient e w)
    (hprobe : ∀ p, t.state ≠ .probing p) :
    (¬ t.Aborted ↔ s.Patient e w) ∧ ∀ p, t.state = .probing p →
      p.networkTimeout = (s.waits e w).timeouts ∧ (s.waits e w).timeouts ≤ 10 :=
  ⟨iff_of_true h hpatient, fun p hp => absurd hp (hprobe p)⟩

lemma patient_go (now : TimeVal) : s.Patient (.go now) w := ⟨nofun, nofun⟩

lemma patient_read (r : ReadResult) (now : TimeVal) : s.Patient (.read r now) w := ⟨nofun, nofun⟩

lemma patient_timeout (hlt : w.timeouts < 10) : s.Patient .timeout w := ⟨nofun, fun _ _ => hlt⟩

lemma patient_alarm (hlt : w.expiries < 12) : s.Patient .alarm w := ⟨fun _ => hlt, nofun⟩

lemma patient_closing {n : ℤ} {a : ClientAck} (hs : s.state = .awaitAck n a) (he : e ≠ .alarm) :
    s.Patient e w := ⟨fun h => absurd h he, fun _ ⟨p, hp⟩ => by simp [hs] at hp⟩

lemma Counted.timeouts (h : Counted s w) (hmove : Moves cfg s e t outs) :
    (¬ t.Aborted ↔ s.Patient e w) ∧ ∀ p, t.state = .probing p →
      p.networkTimeout = (s.waits e w).timeouts ∧ (s.waits e w).timeouts ≤ 10 := by
  have hend : ∀ u : Sender, ¬ u.endCycle.Aborted ∧ ∀ p, u.endCycle.state ≠ .probing p := by
    intro u
    rw [Aborted, endCycle_state]
    split_ifs <;> simp
  cases hmove with
  | burst hs => exact Counted.quiet (by simp [Aborted]) (patient_go _) (by simp)
  | exhausted hs => exact Counted.quiet (by simp [Aborted]) (patient_go _) (by simp)
  | wake hs =>
    refine ⟨iff_of_true (by simp [Aborted]) (patient_go _), fun p hp => ?_⟩
    obtain rfl : (⟨6, 6, 0⟩ : Probe) = p := by simpa using hp
    simp [waits, hs]
  | nextCycle hs =>
    exact Counted.quiet (by simp [Aborted, disarm]) (patient_go _) (by simp [disarm])
  | finish hs =>
    refine Counted.quiet (fun ha => h.alive ?_) (patient_go _) (by simp [disarm])
    simpa [Aborted, disarm, hs] using ha
  | lastAck hs hlast => exact Counted.quiet (hend _).1 (patient_read _ _) (hend _).2
  | zeroWindow hs => exact Counted.quiet (by simp [Aborted]) (patient_read _ _) (by simp)
  | duplicate hs =>
    exact Counted.quiet (by simp [Aborted, receive, hs]) (patient_read _ _) (by simp [receive, hs])
  | thirdDuplicate hs =>
    exact Counted.quiet (by simp [Aborted, receive, fastRetransmit, hs]) (patient_read _ _)
      (by simp [receive, fastRetransmit, hs])
  | newAck hs =>
    exact Counted.quiet (by simp [Aborted, receive, recordAck, hs]) (patient_read _ _)
      (by simp [receive, recordAck, hs])
  | cycleDone hs => exact Counted.quiet (hend _).1 (patient_read _ _) (hend _).2
  | reopened hs => exact Counted.quiet (hend _).1 (patient_read _ _) (hend _).2
  | @stillClosed r now p hs hok hzero htry =>
    refine ⟨iff_of_true (by simp [Aborted]) (patient_read _ _), fun q hq => ?_⟩
    obtain rfl : p.next = q := by simpa using hq
    simpa [waits, hs, Probe.next] using h.networkTimeout p hs
  | @probeAgain p hs htry =>
    obtain ⟨hcount, hle⟩ := h.networkTimeout p hs
    refine ⟨iff_of_true (by simp [Aborted]) (patient_timeout (by omega)), fun q hq => ?_⟩
    obtain rfl : { p.next with networkTimeout := p.networkTimeout + 1 } = q := by simpa using hq
    simp only [waits, hs]
    omega
  | @probeAbort p hs hmax =>
    obtain ⟨hcount, hle⟩ := h.networkTimeout p hs
    refine ⟨iff_of_false (by simp [Aborted]) fun hpatient => ?_, by simp⟩
    have := hpatient.2 rfl ⟨p, hs⟩
    omega
  | @probeAbortRead r now p hs hzero hmax =>
    obtain ⟨hcount, hle⟩ := h.networkTimeout p hs
    omega
  | readError hs => exact Counted.quiet (by simp [Aborted]) (patient_read _ _) (by simp)
  | finMissing hs => exact Counted.quiet (by simp [Aborted]) (patient_read _ _) (by simp)
  | finAnswered hs =>
    exact Counted.quiet (by simp [Aborted, closeReply]) (patient_read _ _) (by simp [closeReply])
  | closed hs he => exact Counted.quiet (by simp [Aborted]) (patient_closing hs he) (by simp)
  | closeAgain hs he =>
    exact Counted.quiet (by simp [Aborted, closeReply]) (patient_closing hs he)
      (by simp [closeReply])
  | resend hon htry =>
    have hlt := (rttTimeout_snd s.rttinfo).not.mp (by simp [htry])
    rw [h.nrexmt, rttMaxNrexmt] at hlt
    have hstate := onAlarm_of_try htry
    exact Counted.quiet (by simp [Aborted, hstate]) (patient_alarm (by omega)) (by simp [hstate])
  | giveUp hon hmax =>
    have hge := (rttTimeout_snd s.rttinfo).mp hmax
    rw [h.nrexmt, rttMaxNrexmt] at hge
    have hstate := onAlarm_of_max hmax
    refine ⟨iff_of_false (by simp [Aborted, hstate]) fun hpatient => ?_, by simp [hstate]⟩
    have := hpatient.1 rfl
    omega

theorem Counted.step (h : Counted s w) (hmove : Moves cfg s e t outs) (halive : ¬ t.Aborted) :
    Counted t (s.waits e w) := ⟨hmove.nrexmt h.nrexmt, (h.timeouts hmove).2, halive⟩

end Sender

namespace Transfer

def senderEvent (cfg : TransferConfig) (x : Transfer) : TransferEvent → Option SenderEvent
  | .server e _ => some e
  | .serverRead i now _ =>
    (cfg.channel.receive x.toServer i).map fun p => .read (.complete p.1) now
  | _ => none

def waiting (cfg : TransferConfig) : Machine (Transfer × Waits) TransferEvent :=
  (machine cfg).ghost fun x e _ w =>
    match senderEvent cfg x e with
    | some e => x.sender.waits e w
    | none => w

def Patient (cfg : TransferConfig) (x : Transfer × Waits) (e : TransferEvent) : Prop :=
  ∀ e' ∈ senderEvent cfg x.1 e, x.1.sender.Patient e' x.2

variable {cfg : TransferConfig} {x y : Transfer × Waits} {e : TransferEvent}

lemma waiting_step (h : Sender.Counted x.1.sender x.2) (hstep : (waiting cfg).step x e = some y) :
    (¬ y.1.sender.Aborted ↔ Patient cfg x e) ∧
      (¬ y.1.sender.Aborted → Sender.Counted y.1.sender y.2) := by
  obtain ⟨hstep, hwaits⟩ := Machine.ghost_step.mp hstep
  have hkey : ∀ {e' t outs}, senderEvent cfg x.1 e = some e' →
      Sender.Moves cfg.server x.1.sender e' t outs → y.1.sender = t →
      (¬ y.1.sender.Aborted ↔ Patient cfg x e) ∧
        (¬ y.1.sender.Aborted → Sender.Counted y.1.sender y.2) := by
    rintro e' t outs he hmove rfl
    simp only [he] at hwaits
    rw [hwaits]
    refine ⟨?_, h.step hmove⟩
    rw [(h.timeouts hmove).1]
    simp [Patient, he]
  have hidle : e.byServer = false → y.1.sender = x.1.sender →
      (¬ y.1.sender.Aborted ↔ Patient cfg x e) ∧
        (¬ y.1.sender.Aborted → Sender.Counted y.1.sender y.2) := by
    intro hside hsender
    have hnone : senderEvent cfg x.1 e = none := by
      cases e <;> simp_all [senderEvent, TransferEvent.byServer]
    simp only [hnone] at hwaits
    rw [hwaits, hsender]
    exact ⟨iff_of_true h.alive (by simp [Patient, hnone]), fun _ => h⟩
  obtain ⟨y, w⟩ := y
  cases step_moves hstep with
  | serve hread hmove => exact hkey rfl hmove rfl
  | read hrecv hmove => exact hkey (by simp [senderEvent, hrecv]) hmove rfl
  | act hside => exact hidle hside rfl
  | skip hside => exact hidle hside rfl

/-- The server never gives a transfer up in a run whose timers are patient, and in no other. -/
theorem not_aborted_iff_patient (cfg : TransferConfig) (now : TimeVal) (es : List TransferEvent) :
    (waiting cfg).Along (fun _ _ y => ¬ y.1.sender.Aborted) (start cfg now, ⟨0, 0⟩) es ↔
      (waiting cfg).Along (fun x e _ => Patient cfg x e) (start cfg now, ⟨0, 0⟩) es := by
  refine Machine.along_congr_along (P := fun x => Sender.Counted x.1.sender x.2)
    (fun x e y hx halive hstep => (waiting_step hx hstep).2 halive)
    (fun x e y hx hstep => (waiting_step hx hstep).1) ⟨rfl, ?_, ?_⟩ es
  · simp [start, Sender.start]
  · simp [Sender.Aborted, start, Sender.start]

def lossless : TransferEvent → Bool
  | .producerRead _ loseData loseAck => !loseData && !loseAck
  | .client (.consume drop _) | .client (.lastAck drop _) => !drop
  | _ => true

/-- A file of two segments and a window of one, with a timer that leaves the probe. -/
def zeroWindowConfig : TransferConfig :=
  { TransferConfig.zeros 600 1 .reliableFifo (by decide) with alarmBlocked := false }

/-- The consumer leaves the window full.  Every second the timer that was started with segment
`0` or with the last retransmission expires in the sleep of the probe; segment `1` is sent and
answered with a window of `0` again. -/
def zeroWindowRounds : List TransferEvent :=
  [.server (.go ⟨0, 0⟩) fun _ _ => 0, .producerRead 0 false false,
    .serverRead 0 ⟨0, 0⟩ fun _ _ => 0] ++
  ((List.range 12).flatMap fun k : ℕ =>
    [.server .alarm fun _ _ => 0, .producerRead 0 false false,
      .serverRead 0 ⟨k + 1, 0⟩ fun _ _ => 0]) ++
  [.server .alarm fun _ _ => 0]

/-- The thirteenth expiry ends the transfer, with every datagram answered and nothing in
flight. -/
theorem aborted_zero_window :
    zeroWindowConfig.channel = .reliableFifo ∧ (∀ e ∈ zeroWindowRounds, lossless e = true) ∧
      ∃ x, (machine zeroWindowConfig).run (start zeroWindowConfig ⟨0, 0⟩) zeroWindowRounds =
          some x ∧
        x.toClient = [] ∧ x.toServer = [] ∧ x.sender.Aborted := by
  have key : ∀ {r : Option Transfer},
      (r.map fun x => (x.toClient.length, x.toServer.length, x.sender.state)) =
        some (0, 0, .leaving .giveUp) →
      ∃ x, r = some x ∧ x.toClient = [] ∧ x.toServer = [] ∧ x.sender.Aborted := by
    intro r hobs
    obtain ⟨x, hx, hobs⟩ := Option.map_eq_some_iff.mp hobs
    simp only [Prod.mk.injEq, List.length_eq_zero_iff] at hobs
    obtain ⟨hclient, hserver, hstate⟩ := hobs
    exact ⟨x, hx, hclient, hserver, by simp [Sender.Aborted, hstate]⟩
  exact ⟨rfl, by decide +kernel, key (by decide +kernel)⟩

end Transfer

end TcpOverUdp
