import TcpOverUdp.Samples
import TcpOverUdp.Windows

namespace TcpOverUdp
open CWord

/-- What is remembered of a third duplicate: the two windows before it, and how much `cwindow`
has grown since. -/
structure Recovery where
  cwindow : ℕ
  ssthresh : ℕ
  growth : ℕ
  deriving DecidableEq, Repr

namespace Sender

def TakesNew (s : Sender) : SenderEvent → Prop
  | .read r _ => s.state = .reading ∧ (r.over s.ack).lastackSent ≠ 1 ∧
      (r.over s.ack).advtWindow ≠ 0 ∧ toUnsigned s.lastAckReceived ≠ (r.over s.ack).currentRequest
  | _ => False

/-- The inner loop reads the acknowledgement that makes `duplicateAck` equal to 2. -/
def TakesThird (s : Sender) : SenderEvent → Prop
  | .read r _ => s.state = .reading ∧ (r.over s.ack).lastackSent ≠ 1 ∧
      (r.over s.ack).advtWindow ≠ 0 ∧
      toUnsigned s.lastAckReceived = (r.over s.ack).currentRequest ∧ s.duplicateAck + 1 = 2
  | _ => False

instance (e : SenderEvent) : Decidable (e = .alarm) :=
  match e with
  | .alarm => .isTrue rfl
  | .go _ | .read _ _ | .timeout => .isFalse (by simp)

instance (s : Sender) : DecidablePred s.TakesNew
  | .read _ _ => inferInstanceAs (Decidable (_ ∧ _ ∧ _ ∧ _))
  | .go _ | .timeout | .alarm => inferInstanceAs (Decidable False)

instance (s : Sender) : DecidablePred s.TakesThird
  | .read _ _ => inferInstanceAs (Decidable (_ ∧ _ ∧ _ ∧ _ ∧ _))
  | .go _ | .timeout | .alarm => inferInstanceAs (Decidable False)

/-- What a new acknowledgement `a` adds to `cwindow`: slow start, and at the end of the cycle
congestion avoidance with the window it advertises. -/
def ackGrowth (s : Sender) (a : ClientAck) : ℕ :=
  let grown := slowStart s.ssthresh.toNat s.cwindow.toNat s.advertised
  if s.totalToRecv + 1 = s.totalToSend then
    grown + avoidance s.ssthresh.toNat (s.cwindow.toNat + grown) a.advtWindow.toNat
  else grown

def loopGrowth (s : Sender) (a : ClientAck) : ℕ :=
  if a.lastackSent = 1 then avoidance s.ssthresh.toNat s.cwindow.toNat s.advertised
  else if a.advtWindow = 0 then 0
  else if toUnsigned s.lastAckReceived = a.currentRequest then 0
  else s.ackGrowth a

def growth (s : Sender) : SenderEvent → ℕ
  | .read r _ =>
    match s.state, r with
    | .reading, r => s.loopGrowth (r.over s.ack)
    | .probing _, .error => 0
    -- the cycle ends if the window is open again
    | .probing _, r =>
      if (r.over s.ack).advtWindow = 0 then 0
      else avoidance s.ssthresh.toNat s.cwindow.toNat s.advertised
    | _, _ => 0
  | _ => 0

variable {cfg : ServerConfig} {s t : Sender} {e : SenderEvent} {outs : List SenderOut}
  {r : ReadResult} {now : TimeVal}

lemma growth_reading (hs : s.state = .reading) :
    s.growth (.read r now) = s.loopGrowth (r.over s.ack) := by
  simp only [growth, hs]

lemma growth_reopened {p : Probe} (hs : s.state = .probing p) (hok : r ≠ .error)
    (hopen : (r.over s.ack).advtWindow ≠ 0) :
    s.growth (.read r now) = avoidance s.ssthresh.toNat s.cwindow.toNat s.advertised := by
  cases r with
  | error => exact absurd rfl hok
  | complete a => simp only [growth, hs, if_neg hopen]
  | short a => simp only [growth, hs, if_neg hopen]

lemma growth_probing {p : Probe} (hs : s.state = .probing p)
    (hzero : (r.over s.ack).advtWindow = 0) : s.growth (.read r now) = 0 := by
  cases r with
  | error => simp only [growth, hs]
  | complete a => simp only [growth, hs, if_pos hzero]
  | short a => simp only [growth, hs, if_pos hzero]

lemma growth_closing (hs : s.state = .awaitFin ∨ ∃ n a, s.state = .awaitAck n a)
    (e : SenderEvent) : s.growth e = 0 := by
  cases e with
  | read r now => rcases hs with hs | ⟨n, a, hs⟩ <;> simp [growth, hs]
  | _ => rfl

/-- Apart from the loss signals, a step adds its growth to `cwindow` and leaves `ssthresh` as it
is. -/
lemma Moves.cwindow (h : Moves cfg s e t outs) (halarm : e ≠ .alarm) (hthird : ¬ s.TakesThird e) :
    t.cwindow.toNat = s.cwindow.toNat + s.growth e ∧ t.ssthresh = s.ssthresh := by
  cases h with
  | burst => exact ⟨rfl, rfl⟩
  | exhausted => exact ⟨rfl, rfl⟩
  | wake => exact ⟨rfl, rfl⟩
  | nextCycle => exact ⟨rfl, rfl⟩
  | finish => exact ⟨rfl, rfl⟩
  | lastAck hs hlast =>
    refine ⟨?_, rfl⟩
    rw [endCycle_cwindow, growth_reading hs, loopGrowth, if_pos hlast]
    rfl
  | zeroWindow hs hlast hzero =>
    refine ⟨?_, rfl⟩
    rw [growth_reading hs, loopGrowth, if_neg hlast, if_pos hzero]
    rfl
  | duplicate hs hlast hopen hdup =>
    refine ⟨?_, rfl⟩
    rw [growth_reading hs, loopGrowth, if_neg hlast, if_neg hopen, if_pos hdup]
    rfl
  | thirdDuplicate hs hlast hopen hdup hcount =>
    exact absurd ⟨hs, hlast, hopen, hdup, hcount⟩ hthird
  | newAck hs hlast hopen hnew hcount =>
    refine ⟨?_, rfl⟩
    rw [recordAck_cwindow, growth_reading hs, loopGrowth, if_neg hlast, if_neg hopen, if_neg hnew,
      ackGrowth, if_neg hcount]
    rfl
  | @cycleDone r now hs hlast hopen hnew hcount =>
    refine ⟨?_, rfl⟩
    rw [endCycle_recordAck_cwindow, recordAck_cwindow, growth_reading hs, loopGrowth, if_neg hlast,
      if_neg hopen, if_neg hnew, ackGrowth, if_pos hcount, ← Nat.add_assoc]
    rfl
  | reopened hs hok hopen =>
    refine ⟨?_, rfl⟩
    rw [endCycle_cwindow, growth_reopened hs hok hopen]
    rfl
  | stillClosed hs hok hzero => exact ⟨by rw [growth_probing hs hzero]; rfl, rfl⟩
  | probeAgain => exact ⟨rfl, rfl⟩
  | probeAbort => exact ⟨rfl, rfl⟩
  | probeAbortRead hs hzero => exact ⟨by rw [growth_probing hs hzero]; rfl, rfl⟩
  | readError hs =>
    refine ⟨?_, rfl⟩
    rcases hs with ⟨p, hs⟩ | hs | ⟨n, a, hs⟩ <;> simp [growth, hs]
  | finMissing hs => exact ⟨by rw [growth_closing (Or.inl hs)]; rfl, rfl⟩
  | finAnswered hs => exact ⟨by rw [growth_closing (Or.inl hs)]; rfl, rfl⟩
  | closed hs => exact ⟨by rw [growth_closing (Or.inr ⟨_, _, hs⟩)]; rfl, rfl⟩
  | closeAgain hs => exact ⟨by rw [growth_closing (Or.inr ⟨_, _, hs⟩)]; rfl, rfl⟩
  | resend => exact absurd rfl halarm
  | giveUp => exact absurd rfl halarm

lemma Moves.third (h : Moves cfg s e t outs) (hthird : s.TakesThird e) :
    t.cwindow.toNat = s.cwindow.toNat / 2 + 3 ∧ t.ssthresh = s.ssthresh := by
  cases e with
  | read r now =>
    obtain ⟨hs, hlast, hopen, hdup, hcount⟩ := hthird
    cases h with
    | lastAck _ hl => exact absurd hl hlast
    | zeroWindow _ _ hzero => exact absurd hzero hopen
    | duplicate _ _ _ _ hc => exact absurd hcount hc
    | thirdDuplicate => exact ⟨fastRetransmit_cwindow _ now, rfl⟩
    | newAck _ _ _ hnew => exact absurd hdup hnew
    | cycleDone _ _ _ hnew => exact absurd hdup hnew
    | readError hr => rcases hr with ⟨p, hr⟩ | hr | ⟨n, a, hr⟩ <;> simp [hs] at hr
    | _ hr => simp [hs] at hr
  | _ => cases hthird

/-- What is remembered after a step: a timeout and a new acknowledgement end the recovery. -/
def recovery (s : Sender) (e : SenderEvent) (_ : Sender) (g : Option Recovery) : Option Recovery :=
  match e with
  | .alarm => none
  | e =>
    if s.TakesThird e then some ⟨s.cwindow.toNat, s.ssthresh.toNat, 0⟩
    else if s.TakesNew e then none
    else g.map fun r => { r with growth := r.growth + s.growth e }

def recovering (cfg : ServerConfig) : Machine (Sender × Option Recovery) SenderEvent :=
  (machine cfg).ghost recovery

/-- A loss signal does not raise the windows: not a timeout, and not a third duplicate once the
next new acknowledgement has been processed. -/
def NeverRaised (x : Sender × Option Recovery) (e : SenderEvent) (y : Sender × Option Recovery) :
    Prop :=
  (e = .alarm → y.1.cwindow.toNat ≤ x.1.cwindow.toNat ∧
      y.1.ssthresh.toNat ≤ max x.1.ssthresh.toNat ssthreshMin.toNat) ∧
    (x.1.TakesNew e → ∀ r ∈ x.2, y.1.cwindow.toNat ≤ max r.cwindow ssthreshMin.toNat ∧
      y.1.ssthresh.toNat ≤ max r.ssthresh ssthreshMin.toNat)

instance (x : Sender × Option Recovery) (e : SenderEvent) (y : Sender × Option Recovery) :
    Decidable (NeverRaised x e y) :=
  inferInstanceAs (Decidable ((e = .alarm → _) ∧ (x.1.TakesNew e → ∀ r ∈ x.2, _)))

/-- When the new acknowledgement ends the recovery, the window before the loss is at least five
segments, and two more for every increment since. -/
def WideBeforeLoss (x : Sender × Option Recovery) (e : SenderEvent) : Prop :=
  x.1.TakesNew e → ∀ r ∈ x.2, 5 + 2 * (r.growth + x.1.growth e) ≤ r.cwindow

structure Recovers (x : Sender × Option Recovery) : Prop where
  cwindow : 0 < x.1.cwindow.toNat
  inflated : ∀ r ∈ x.2, x.1.cwindow.toNat = r.cwindow / 2 + 3 + r.growth
  ssthresh : ∀ r ∈ x.2, x.1.ssthresh.toNat = r.ssthresh

variable {x y : Sender × Option Recovery}

lemma onAlarm_windows (s : Sender) (hc : 0 < s.cwindow.toNat) :
    0 < s.onAlarm.1.cwindow.toNat ∧ s.onAlarm.1.cwindow.toNat ≤ s.cwindow.toNat ∧
      s.onAlarm.1.ssthresh.toNat ≤ max s.ssthresh.toNat ssthreshMin.toNat := by
  cases h : (rttTimeout s.rttinfo).2 with
  | true =>
    have hss : s.onAlarm.1.ssthresh = s.ssthresh := by simp [onAlarm, h]
    rw [onAlarm_cwindow_of_max h, hss]
    exact ⟨hc, le_rfl, le_max_left _ _⟩
  | false =>
    rw [onAlarm_cwindow h, onAlarm_ssthresh h]
    show 0 < 1 ∧ 1 ≤ s.cwindow.toNat ∧ _
    omega

lemma recovery_of_ne (halarm : e ≠ .alarm) (g : Option Recovery) :
    recovery s e t g =
      if s.TakesThird e then some ⟨s.cwindow.toNat, s.ssthresh.toNat, 0⟩
      else if s.TakesNew e then none
      else g.map fun r => { r with growth := r.growth + s.growth e } := by
  cases e <;> first | rfl | exact absurd rfl halarm

lemma not_takesNew_of_third (h : s.TakesThird e) : ¬ s.TakesNew e := by
  cases e with
  | read r now => exact fun hnew => hnew.2.2.2 h.2.2.2.1
  | _ => cases h

lemma neverRaised_iff_of_not (halarm : e ≠ .alarm) (hnew : ¬ x.1.TakesNew e) :
    NeverRaised x e y ↔ WideBeforeLoss x e :=
  iff_of_true ⟨fun h => absurd h halarm, fun h => absurd h hnew⟩ fun h => absurd h hnew

lemma Recovers.alarm (h : Recovers x) (hstep : (recovering cfg).step x .alarm = some y) :
    Recovers y ∧ (NeverRaised x .alarm y ↔ WideBeforeLoss x .alarm) := by
  obtain ⟨hmachine, hghost⟩ := Machine.ghost_step.mp hstep
  obtain ⟨outs, hstep⟩ := machine_step.mp hmachine
  have halarm : y.1 = x.1.onAlarm.1 := by
    simp only [Sender.step, Option.ite_none_right_eq_some, Option.some.injEq] at hstep
    exact (congrArg Prod.fst hstep.2).symm
  have hnone : y.2 = none := hghost
  obtain ⟨hpos, hle, hss⟩ := onAlarm_windows x.1 h.cwindow
  rw [← halarm] at hpos hle hss
  exact ⟨⟨hpos, by simp [hnone], by simp [hnone]⟩,
    iff_of_true ⟨fun _ => ⟨hle, hss⟩, fun hnew => hnew.elim⟩ fun hnew => hnew.elim⟩

lemma Recovers.step (h : Recovers x) (hstep : (recovering cfg).step x e = some y) :
    Recovers y ∧ (NeverRaised x e y ↔ WideBeforeLoss x e) := by
  by_cases halarm : e = .alarm
  · subst halarm
    exact h.alarm hstep
  obtain ⟨hmachine, hghost⟩ := Machine.ghost_step.mp hstep
  obtain ⟨outs, hstep⟩ := machine_step.mp hmachine
  have hmove := step_moves hstep
  obtain ⟨hc, hinflated, hss⟩ := h
  rw [recovery_of_ne halarm] at hghost
  by_cases hthird : x.1.TakesThird e
  · obtain ⟨hwindow, hsame⟩ := hmove.third hthird
    rw [if_pos hthird] at hghost
    refine ⟨⟨by omega, ?_, ?_⟩, neverRaised_iff_of_not halarm (not_takesNew_of_third hthird)⟩
    · simp [hghost, hwindow]
    · simp [hghost, hsame]
  obtain ⟨hwindow, hsame⟩ := hmove.cwindow halarm hthird
  rw [if_neg hthird] at hghost
  by_cases hnew : x.1.TakesNew e
  · rw [if_pos hnew] at hghost
    refine ⟨⟨by omega, by simp [hghost], by simp [hghost]⟩, ?_⟩
    have hmin : ssthreshMin.toNat = 2 := rfl
    simp only [NeverRaised, WideBeforeLoss, halarm, hnew, false_implies, true_implies, true_and,
      hsame, hwindow, hmin]
    -- the window before the loss is what remains of it, doubled
    constructor
    · intro hlaw r hr
      have hle := (hlaw r hr).1
      rw [hinflated r hr] at hle
      omega
    · intro hwide r hr
      have hle := hwide r hr
      rw [hinflated r hr, hss r hr]
      omega
  · rw [if_neg hnew] at hghost
    refine ⟨⟨by omega, ?_, ?_⟩, neverRaised_iff_of_not halarm hnew⟩
    · rw [hghost, hwindow]
      rintro r hr
      obtain ⟨r', hr', rfl⟩ := Option.mem_map.mp hr
      rw [hinflated r' hr']
      ring
    · rw [hghost, hsame]
      rintro r hr
      obtain ⟨r', hr', rfl⟩ := Option.mem_map.mp hr
      exact hss r' hr'

/-- No loss signal raises the sending rate in a run whose recoveries start from wide windows, and
in no other. -/
theorem neverRaised_iff (cfg : ServerConfig) (now : TimeVal) (es : List SenderEvent) :
    (recovering cfg).Along NeverRaised (start cfg now, none) es ↔
      (recovering cfg).Along (fun x e _ => WideBeforeLoss x e) (start cfg now, none) es :=
  Machine.along_congr (P := Recovers) (fun _ _ _ h hstep => (h.step hstep).1)
    (fun _ _ _ h hstep => (h.step hstep).2)
    ⟨show 0 < (1#32).toNat by decide, by simp, by simp⟩ es

/-- Segment `3` is lost; the segments `4` and `5` are answered by acknowledgements that ask for it,
and the one it is answered by when it is sent again asks for segment `7`. -/
def lostSegment : List SenderEvent :=
  threeBursts ++ [.read (.complete ⟨3, 4, 0⟩) ⟨0, 0⟩, .read (.complete ⟨3, 4, 0⟩) ⟨0, 0⟩,
    .read (.complete ⟨3, 4, 0⟩) ⟨0, 0⟩, .read (.complete ⟨7, 4, 0⟩) ⟨0, 0⟩]

/-- The loss leaves a window of five segments where there were four. -/
theorem not_neverRaised :
    ¬ (recovering eightSegments).Along NeverRaised (start eightSegments ⟨0, 0⟩, none)
      lostSegment := by
  decide +kernel

end Sender

end TcpOverUdp
