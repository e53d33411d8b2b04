import TcpOverUdp.Sender
import TcpOverUdp.Lib.Machine

namespace TcpOverUdp
open CWord

def TimeVal.ms (tv : TimeVal) : ℤ := tv.tvSec * 1000 + tv.tvUsec.tdiv 1000

namespace Sender

def machine (cfg : ServerConfig) : Machine Sender SenderEvent :=
  ⟨fun s e => (s.step cfg e).map Prod.fst⟩

lemma machine_step {cfg : ServerConfig} {s t : Sender} {e : SenderEvent} :
    (machine cfg).step s e = some t ↔ ∃ outs, s.step cfg e = some (t, outs) := by
  simp [machine]

/-- The time of the call of `rtt_stop` in a step, if there is one: for a new acknowledgement,
on the third duplicate, at the end of a cycle and behind the outer loop. -/
def samples (s : Sender) : SenderEvent → Option TimeVal
  | .go now =>
    match s.state with
    | .cycleEnd | .leaving _ => some now
    | _ => none
  | .read r now =>
    if s.state = .reading ∧ (r.over s.ack).lastackSent ≠ 1 ∧ (r.over s.ack).advtWindow ≠ 0 ∧
        (toUnsigned s.lastAckReceived ≠ (r.over s.ack).currentRequest ∨ s.duplicateAck + 1 = 2) then
      some now
    else none
  | _ => none

def sentAt (cfg : ServerConfig) (s : Sender) (e : SenderEvent) (_ : Sender)
    (sent : Option TimeVal) : Option TimeVal :=
  match e with
  | .go now => if s.state = .top ∧ s.index < cfg.totalNumSegments then some now else sent
  | _ => sent

def timed (cfg : ServerConfig) : Machine (Sender × Option TimeVal) SenderEvent :=
  (machine cfg).ghost (sentAt cfg)

/-- A sample is the time elapsed since the last burst, and the smoothed estimator is not
negative. -/
def Sampled (x : Sender × Option TimeVal) (e : SenderEvent) (y : Sender × Option TimeVal) : Prop :=
  ∀ t₀ ∈ x.2, (∀ now ∈ x.1.samples e, y.1.rttinfo.rtt = now.ms - t₀.ms) ∧ 0 ≤ y.1.rttinfo.srtt

instance (x : Sender × Option TimeVal) (e : SenderEvent) (y : Sender × Option TimeVal) :
    Decidable (Sampled x e y) := inferInstanceAs (Decidable (∀ t₀ ∈ x.2, _))

/-- Samples are taken less than `2 ^ 31` milliseconds after the last burst, and not before
it. -/
def Timely (x : Sender × Option TimeVal) (e : SenderEvent) (_ : Sender × Option TimeVal) : Prop :=
  ∀ t₀ ∈ x.2, ∀ now ∈ x.1.samples e, 0 ≤ now.ms - t₀.ms ∧ now.ms - t₀.ms < 2 ^ 31

instance (x : Sender × Option TimeVal) (e : SenderEvent) (y : Sender × Option TimeVal) :
    Decidable (Timely x e y) := inferInstanceAs (Decidable (∀ t₀ ∈ x.2, _))

/-- Samples are taken in the millisecond of the last burst. -/
def Instant (x : Sender × Option TimeVal) (e : SenderEvent) (_ : Sender × Option TimeVal) : Prop :=
  ∀ t₀ ∈ x.2, ∀ now ∈ x.1.samples e, now.ms = t₀.ms

instance (x : Sender × Option TimeVal) (e : SenderEvent) (y : Sender × Option TimeVal) :
    Decidable (Instant x e y) := inferInstanceAs (Decidable (∀ t₀ ∈ x.2, _))

inductive Timer (s : Sender) (e : SenderEvent) (t : Sender) : Prop
  | sampled {now} (hsamples : s.samples e = some now) (hrtt : t.rttinfo = s.sample now)
      (htsend : t.tsend = s.tsend)
  | left (hsamples : s.samples e = none) (halarm : e ≠ .alarm) (hrtt : t.rttinfo = s.rttinfo)
      (htsend : t.tsend = s.tsend)
  | expired (halarm : e = .alarm) (hrtt : t.rttinfo = (rttTimeout s.rttinfo).1)
      (htsend : t.tsend = s.tsend)

lemma onAlarm_rttinfo (s : Sender) : s.onAlarm.1.rttinfo = (rttTimeout s.rttinfo).1 := by
  unfold onAlarm
  split <;> rfl

lemma onAlarm_tsend (s : Sender) : s.onAlarm.1.tsend = s.tsend := by
  unfold onAlarm
  split <;> rfl

variable {cfg : ServerConfig} {s t : Sender} {e : SenderEvent} {outs : List SenderOut}

lemma samples_of_waiting {e : SenderEvent} (h : (∃ p, s.state = .probing p) ∨
    s.state = .awaitFin ∨ ∃ n a, s.state = .awaitAck n a) : s.samples e = none := by
  rcases h with ⟨p, h⟩ | h | ⟨n, a, h⟩ <;> cases e <;> simp [samples, h]

/-- Behind the first test of the outer loop, a step takes a sample or leaves the estimators as
they are. -/
theorem Moves.timer (h : Moves cfg s e t outs) (htop : s.state ≠ .top) : Timer s e t := by
  cases h with
  | burst hs => exact absurd hs htop
  | exhausted hs => exact absurd hs htop
  | wake hs => exact .left (by simp [samples, hs]) (by simp) rfl rfl
  | nextCycle hs => exact .sampled (by simp [samples, hs]) rfl rfl
  | finish hs => exact .sampled (by simp [samples, hs]) rfl rfl
  | lastAck hs hlast => exact .left (by simp [samples, hlast]) (by simp) rfl rfl
  | zeroWindow hs hlast hzero => exact .left (by simp [samples, hzero]) (by simp) rfl rfl
  | duplicate hs hlast hopen hdup hcount =>
    exact .left (by simp [samples, hdup, hcount]) (by simp) rfl rfl
  | thirdDuplicate hs hlast hopen hdup hcount =>
    exact .sampled (if_pos ⟨hs, hlast, hopen, Or.inr hcount⟩) rfl rfl
  | newAck hs hlast hopen hnew => exact .sampled (if_pos ⟨hs, hlast, hopen, Or.inl hnew⟩) rfl rfl
  | cycleDone hs hlast hopen hnew =>
    exact .sampled (if_pos ⟨hs, hlast, hopen, Or.inl hnew⟩) rfl rfl
  | reopened hs => exact .left (samples_of_waiting (Or.inl ⟨_, hs⟩)) (by simp) rfl rfl
  | stillClosed hs => exact .left (samples_of_waiting (Or.inl ⟨_, hs⟩)) (by simp) rfl rfl
  | probeAbortRead hs => exact .left (samples_of_waiting (Or.inl ⟨_, hs⟩)) (by simp) rfl rfl
  | probeAgain hs => exact .left rfl (by simp) rfl rfl
  | probeAbort hs => exact .left rfl (by simp) rfl rfl
  | readError hs => exact .left (samples_of_waiting hs) (by simp) rfl rfl
  | finMissing hs => exact .left (samples_of_waiting (Or.inr (Or.inl hs))) (by simp) rfl rfl
  | finAnswered hs => exact .left (samples_of_waiting (Or.inr (Or.inl hs))) (by simp) rfl rfl
  | closed hs he => exact .left (samples_of_waiting (Or.inr (Or.inr ⟨_, _, hs⟩))) he rfl rfl
  | closeAgain hs he => exact .left (samples_of_waiting (Or.inr (Or.inr ⟨_, _, hs⟩))) he rfl rfl
  | resend => exact .expired rfl (onAlarm_rttinfo s) (onAlarm_tsend s)
  | giveUp => exact .expired rfl (onAlarm_rttinfo s) (onAlarm_tsend s)

lemma Moves.timer_of_top (h : Moves cfg s e t outs) (htop : s.state = .top) :
    s.samples e = none ∧ t.rttinfo = s.rttinfo ∧
      ((∃ now, e = .go now ∧ s.index < cfg.totalNumSegments ∧ t.tsend = rttTs s.rttinfo now) ∨
        ¬ s.index < cfg.totalNumSegments ∧ t.tsend = s.tsend ∧ t.state = .leaving .index) := by
  obtain ⟨now, rfl⟩ := h.go_of_top htop
  have hnone : s.samples (.go now) = none := by simp [samples, htop]
  cases h with
  | burst hs hlt => exact ⟨hnone, rfl, Or.inl ⟨now, rfl, hlt, rfl⟩⟩
  | exhausted hs hge => exact ⟨hnone, rfl, Or.inr ⟨not_lt.mpr hge, rfl, rfl⟩⟩
  | _ hs => simp [htop] at hs

lemma Moves.index_done (h : Moves cfg s e t outs)
    (hstate : s.state = .leaving .index ∨ s.state = .done .index) :
    t.state = .leaving .index ∨ t.state = .done .index := by
  cases h with
  | @finish now r hs =>
    obtain rfl : r = .index := by simpa [hs] using hstate
    exact Or.inr rfl
  | readError hs => rcases hs with ⟨p, hs⟩ | hs | ⟨n, a, hs⟩ <;> simp [hs] at hstate
  | resend hon => rcases hstate with hs | hs <;> simp [alarmEnabled, hs] at hon
  | giveUp hon => rcases hstate with hs | hs <;> simp [alarmEnabled, hs] at hon
  | _ hs => simp [hs] at hstate

lemma sentAt_of_ne_top (htop : s.state ≠ .top) (sent : Option TimeVal) :
    sentAt cfg s e t sent = sent := by
  cases e <;> simp [sentAt, htop]

lemma toSigned_rttTs_sub (p : RttInfo) {t₀ now : TimeVal} (h0 : 0 ≤ now.ms - t₀.ms)
    (h1 : now.ms - t₀.ms < 2 ^ 31) :
    toSigned (rttTs p t₀ - rttTs p now) = -(now.ms - t₀.ms) := by
  have hsub : rttTs p t₀ - rttTs p now = toUnsigned (-(now.ms - t₀.ms)) := by
    simp only [rttTs, toUnsigned, sub_eq_add_neg, ← BitVec.ofInt_neg, ← BitVec.ofInt_add,
      TimeVal.ms]
    congr 1
    ring
  rw [hsub]
  exact toSigned_toUnsigned ⟨by omega, by omega⟩

lemma sample_rtt {t₀ now : TimeVal} (hsend : s.tsend = rttTs s.rttinfo t₀)
    (h0 : 0 ≤ now.ms - t₀.ms) (h1 : now.ms - t₀.ms < 2 ^ 31) :
    (s.sample now).rtt = -(now.ms - t₀.ms) := by
  rw [← toSigned_rttTs_sub s.rttinfo h0 h1, ← hsend]
  rfl

lemma sample_srtt {now : TimeVal} (hsrtt : s.rttinfo.srtt = 0)
    (hrtt : (s.sample now).rtt = 0) : (s.sample now).srtt = 0 := by
  have hms : toSigned (s.tsend - rttTs s.rttinfo now) = 0 := hrtt
  simp only [sample, rttNewpack, rttStop, hms, hsrtt]
  decide

/-- `tsend` is the timestamp of the last burst, if there has been one; without segments there
is none. -/
inductive Synchronised : Sender × Option TimeVal → Prop
  | unsent {u} (hstate : u.state = .top) (hsrtt : u.rttinfo.srtt = 0) : Synchronised (u, none)
  | sent {u t₀} (hsend : u.tsend = rttTs u.rttinfo t₀) (hsrtt : u.rttinfo.srtt = 0) :
    Synchronised (u, some t₀)
  | empty {u} (hstate : u.state = .leaving .index ∨ u.state = .done .index) :
    Synchronised (u, none)

variable {x y : Sender × Option TimeVal}

lemma timed_step (h : (timed cfg).step x e = some y) :
    (∃ outs, Moves cfg x.1 e y.1 outs) ∧ y.2 = sentAt cfg x.1 e y.1 x.2 := by
  obtain ⟨hstep, hsent⟩ := Machine.ghost_step.mp h
  obtain ⟨outs, hstep⟩ := machine_step.mp hstep
  exact ⟨⟨outs, step_moves hstep⟩, hsent⟩

lemma Synchronised.sampled_iff (h : Synchronised x) (hstep : (timed cfg).step x e = some y)
    (htime : Timely x e y) : Sampled x e y ↔ Instant x e y := by
  obtain ⟨⟨outs, hmove⟩, -⟩ := timed_step hstep
  cases h with
  | unsent hstate hsrtt => simp [Sampled, Instant]
  | empty hstate => simp [Sampled, Instant]
  | @sent s t₀ hsend hsrtt =>
    have hkeep : s.samples e = none → y.1.rttinfo.srtt = s.rttinfo.srtt →
        (Sampled (s, some t₀) e y ↔ Instant (s, some t₀) e y) := by
      intro hnone hs
      simp [Sampled, Instant, hnone, hs, hsrtt]
    by_cases htop : s.state = .top
    · obtain ⟨hnone, hrtt, -⟩ := hmove.timer_of_top htop
      exact hkeep hnone (by rw [hrtt])
    · cases hmove.timer htop with
      | left hnone halarm hrtt => exact hkeep hnone (by rw [hrtt])
      | expired halarm hrtt => exact hkeep (by rw [halarm]; rfl) (by rw [hrtt]; rfl)
      | @sampled now hsome hrtt =>
        obtain ⟨h0, h1⟩ := htime t₀ rfl now hsome
        have hsample := sample_rtt hsend h0 h1
        constructor
        · intro hsampled t₁ ht₁ now' hnow'
          obtain rfl : t₀ = t₁ := Option.some.inj ht₁
          have heq := (hsampled t₀ rfl).1 now hsome
          rw [hrtt, hsample] at heq
          obtain rfl : now = now' := Option.some.inj (hsome.symm.trans hnow')
          omega
        · intro hinst t₁ ht₁
          obtain rfl : t₀ = t₁ := Option.some.inj ht₁
          have heq := hinst t₀ rfl now hsome
          have hzero : (s.sample now).rtt = 0 := by omega
          refine ⟨fun now' hnow' => ?_, ?_⟩
          · obtain rfl : now = now' := Option.some.inj (hsome.symm.trans hnow')
            rw [hrtt]
            show (s.sample now).rtt = _
            omega
          · rw [hrtt, sample_srtt hsrtt hzero]

lemma Synchronised.step (h : Synchronised x) (hstep : (timed cfg).step x e = some y)
    (htime : Timely x e y) (hinst : Instant x e y) : Synchronised y := by
  obtain ⟨⟨outs, hmove⟩, hsent⟩ := timed_step hstep
  obtain ⟨t, sent⟩ := y
  obtain rfl : sent = sentAt cfg x.1 e t x.2 := hsent
  cases h with
  | @unsent s hstate hsrtt =>
    obtain ⟨-, hrtt, ⟨now, rfl, hlt, hsend⟩ | ⟨hge, -, hleft⟩⟩ := hmove.timer_of_top hstate
    · rw [sentAt, if_pos ⟨hstate, hlt⟩]
      exact .sent (hrtt ▸ hsend) (hrtt ▸ hsrtt)
    · obtain ⟨now, rfl⟩ := hmove.go_of_top hstate
      rw [sentAt, if_neg fun h => hge h.2]
      exact .empty (Or.inl hleft)
  | @empty s hstate =>
    have htop : s.state ≠ .top := by
      rcases hstate with hs | hs <;> simp [hs]
    simp only [sentAt_of_ne_top htop]
    exact .empty (hmove.index_done hstate)
  | @sent s t₀ hsend hsrtt =>
    by_cases htop : s.state = .top
    · obtain ⟨-, hrtt, ⟨now, rfl, hlt, hsend'⟩ | ⟨hge, hsend', -⟩⟩ := hmove.timer_of_top htop
      · rw [sentAt, if_pos ⟨htop, hlt⟩]
        exact .sent (hrtt ▸ hsend') (hrtt ▸ hsrtt)
      · obtain ⟨now, rfl⟩ := hmove.go_of_top htop
        rw [sentAt, if_neg fun h => hge h.2]
        refine .sent ?_ (hrtt ▸ hsrtt)
        rw [show t.tsend = s.tsend from hsend', hsend, hrtt]
    · simp only [sentAt_of_ne_top htop]
      cases hmove.timer htop with
      | left hnone halarm hrtt htsend =>
        exact .sent (by rw [htsend, hrtt, hsend]) (by rw [hrtt, hsrtt])
      | expired halarm hrtt htsend =>
        refine .sent ?_ (by rw [hrtt]; exact hsrtt)
        rw [htsend, hsend, hrtt]
        rfl
      | @sampled now hsome hrtt htsend =>
        obtain ⟨h0, h1⟩ := htime t₀ rfl now hsome
        have hzero : (s.sample now).rtt = 0 := by
          rw [sample_rtt hsend h0 h1, hinst t₀ rfl now hsome]
          omega
        refine .sent ?_ (by rw [hrtt]; exact sample_srtt hsrtt hzero)
        rw [htsend, hsend, hrtt]
        rfl

/-- Along a run whose samples are taken less than `2 ^ 31` milliseconds after their burst, the
samples are the elapsed times exactly when no time elapses. -/
theorem sampled_iff_instant (cfg : ServerConfig) (now : TimeVal) {es : List SenderEvent}
    (htime : (timed cfg).Along Timely (start cfg now, none) es) :
    (timed cfg).Along Sampled (start cfg now, none) es ↔
      (timed cfg).Along Instant (start cfg now, none) es := by
  have hstart : Synchronised (start cfg now, none) := .unsent rfl rfl
  have key :
      (timed cfg).Along (fun x e y => Timely x e y ∧ Sampled x e y) (start cfg now, none) es ↔
        (timed cfg).Along (fun x e y => Timely x e y ∧ Instant x e y) (start cfg now, none) es := by
    refine Machine.along_congr_along (P := Synchronised) ?_ ?_ hstart es
    · rintro x e y hx ⟨ht, hs⟩ hstep
      exact hx.step hstep ht ((hx.sampled_iff hstep ht).mp hs)
    · intro x e y hx hstep
      exact and_congr_right fun ht => hx.sampled_iff hstep ht
  rw [Machine.along_and, Machine.along_and] at key
  simpa only [htime, true_and] using key

/-- An acknowledgement that arrives in the millisecond of its burst. -/
theorem sampled_instant_ack :
    (timed ⟨.big, .bits64, 600, by decide, 4, ⟨0, 0, 0⟩, true⟩).Along Sampled
      (start ⟨.big, .bits64, 600, by decide, 4, ⟨0, 0, 0⟩, true⟩ ⟨0, 0⟩, none)
      [.go ⟨0, 0⟩, .read (.complete ⟨1, 3, 0⟩) ⟨0, 0⟩] :=
  (sampled_iff_instant _ _ (by decide +kernel)).mpr (by decide +kernel)

/-- An acknowledgement that arrives after 50 milliseconds is a sample of `-50`. -/
theorem not_sampled :
    ¬ ∀ (cfg : ServerConfig) (now : TimeVal) (es : List SenderEvent),
      (timed cfg).Along Timely (start cfg now, none) es →
        (timed cfg).Along Sampled (start cfg now, none) es := by
  intro h
  have hsampled := h ⟨.big, .bits64, 600, by decide, 4, ⟨0, 0, 0⟩, true⟩ ⟨0, 0⟩
    [.go ⟨0, 0⟩, .read (.complete ⟨1, 3, 0⟩) ⟨0, 50000⟩] (by decide +kernel)
  revert hsampled
  decide +kernel

end Sender

end TcpOverUdp
