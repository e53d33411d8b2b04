import TcpOverUdp.Samples

namespace TcpOverUdp
open CWord

/-- What comes of a probe: nothing before the timeout, or a reply. -/
inductive ProbeOutcome
  | silent
  | reply (a : ClientAck) (now : TimeVal)
  deriving DecidableEq, Repr

def ProbeOutcome.event : ProbeOutcome → SenderEvent
  | .silent => .timeout
  | .reply a now => .read (.complete a) now

def SenderState.isProbing : SenderState → Bool
  | .probing _ => true
  | _ => false

lemma SenderState.isProbing_iff {s : SenderState} : s.isProbing = true ↔ ∃ p, s = .probing p := by
  cases s <;> simp [isProbing]

namespace Sender

def probing (cfg : ServerConfig) : Machine Sender ProbeOutcome :=
  ⟨fun s o => if s.state.isProbing then (machine cfg).step s o.event else none⟩

def ProbeReturned (s : Sender) : Prop := s.state = .cycleEnd ∨ s.state = .awaitFin

instance (s : Sender) : Decidable s.ProbeReturned := inferInstanceAs (Decidable (_ ∨ _))

/-- What `network_timeout` counts, and where the call stands. -/
inductive Counts (past : List ProbeOutcome) (s : Sender) : Prop
  | going {p} (hs : s.state = .probing p) (hcount : p.networkTimeout = past.count .silent)
      (hlt : past.count .silent < 11) (hreply : ∀ rest a now, past = rest ++ [.reply a now] →
        a.advtWindow = 0)
  | aborted (hs : s.state = .done .probeAbort) (hcount : past.count .silent = 11)
      (hreply : ∀ rest a now, past ≠ rest ++ [.reply a now])
  | returned {rest a now} (hs : s.ProbeReturned) (hlt : past.count .silent < 11)
      (hpast : past = rest ++ [.reply a now]) (hack : s.ack = a)

inductive Probes (s : Sender) (p : Probe) : ProbeOutcome → Sender → Prop
  | abort (hmax : p.networkTimeout + 1 = 11) :
    Probes s p .silent { s with state := .done .probeAbort }
  | silent (htry : p.networkTimeout + 1 ≠ 11) :
    Probes s p .silent
      { s with state := .probing { p.next with networkTimeout := p.networkTimeout + 1 } }
  | returned {a now t} (hopen : a.advtWindow ≠ 0) (hack : t.ack = a) (hreturned : t.ProbeReturned) :
    Probes s p (.reply a now) t
  | closed {a now} (hzero : a.advtWindow = 0) (htry : p.networkTimeout ≠ 11) :
    Probes s p (.reply a now) { s with ack := a, state := .probing p.next }
  | late {a now} (hmax : p.networkTimeout = 11) :
    Probes s p (.reply a now) { s with ack := a, state := .done .probeAbort }

variable {cfg : ServerConfig} {s t u : Sender} {o : ProbeOutcome} {p q : Probe} {now : TimeVal}

lemma probing_step (h : (probing cfg).step s o = some t) :
    ∃ p, s.state = .probing p ∧ Probes s p o t := by
  simp only [probing, Option.ite_none_right_eq_some] at h
  obtain ⟨hprobing, hstep⟩ := h
  obtain ⟨p, hs⟩ := SenderState.isProbing_iff.mp hprobing
  obtain ⟨outs, hstep⟩ := machine_step.mp hstep
  refine ⟨p, hs, ?_⟩
  cases o with
  | silent =>
    simp only [ProbeOutcome.event, step, hs, Option.some.injEq] at hstep
    obtain ⟨htry, rfl, -⟩ | ⟨hmax, rfl, -⟩ := probe_moves hstep
    · exact .silent htry
    · exact .abort hmax
  | reply a now =>
    simp only [ProbeOutcome.event, step, hs, Option.some.injEq, probeRead, ReadResult.over]
      at hstep
    split_ifs at hstep with hopen
    · obtain ⟨rfl, -⟩ := Prod.mk.inj hstep
      refine .returned hopen rfl ?_
      rw [ProbeReturned, endCycle_state]
      split <;> simp
    · obtain ⟨htry, rfl, -⟩ | ⟨hmax, rfl, -⟩ := probe_moves hstep
      · exact .closed (not_not.mp hopen) htry
      · exact .late hmax

lemma wake_state (hs : s.state = .probeSleep) (hwake : (machine cfg).step s (.go now) = some u) :
    u.state = .probing ⟨6, 6, 0⟩ := by
  obtain ⟨outs, hstep⟩ := machine_step.mp hwake
  simp only [step, hs, Option.some.injEq, probe, if_neg (show (0 : ℤ) ≠ 11 by decide)] at hstep
  obtain ⟨rfl, -⟩ := Prod.mk.inj hstep
  rfl

/-- The transfer is terminated by the twelfth probe in a row without an answer, and by nothing
else, and a reply that opens the window is returned. -/
def GivesUpOnDeadPeer (os : List ProbeOutcome) (t : Sender) : Prop :=
  (t.state = .done .probeAbort ↔ List.replicate 12 ProbeOutcome.silent <:+: os) ∧
    ∀ past a now, os = past ++ [.reply a now] → a.advtWindow ≠ 0 → t.ProbeReturned ∧ t.ack = a

lemma counts_step {past : List ProbeOutcome} (h : Counts past s)
    (hstep : (probing cfg).step s o = some t) : Counts (past ++ [o]) t := by
  obtain ⟨p, hs, hprobe⟩ := probing_step hstep
  cases h with
  | @going q hq hcount hlt =>
    obtain rfl : q = p := by simpa [hq] using hs
    cases hprobe with
    | abort hmax =>
      refine .aborted rfl ?_ (by simp)
      simp only [List.count_append, List.count_singleton_self]
      omega
    | silent htry =>
      refine .going rfl ?_ ?_ (by simp)
      · simp [hcount]
      · simp only [List.count_append, List.count_singleton_self]
        omega
    | returned hopen hack hreturned =>
      exact .returned hreturned (by simpa using hlt) rfl hack
    | @closed a now hzero htry =>
      refine .going rfl (by simpa [Probe.next] using hcount) (by simpa using hlt) ?_
      intro rest b now' heq
      obtain ⟨rfl, -⟩ : b = a ∧ _ := by simpa using (List.append_inj' heq rfl).2.symm
      exact hzero
    | late hmax => omega
  | aborted ha => simp [ha] at hs
  | returned hr => rcases hr with hr | hr <;> simp [hr] at hs

lemma twelve_le_count {os : List ProbeOutcome} (h : List.replicate 12 ProbeOutcome.silent <:+: os) :
    12 ≤ os.count .silent := by
  have := h.sublist.count_le ProbeOutcome.silent
  rwa [List.count_replicate_self] at this

/-- A call of `clientWindowProbe` gives up on a dead peer only, exactly when fewer than eleven of
its probes have no answer. -/
theorem givesUpOnDeadPeer_iff (cfg : ServerConfig) {s u t : Sender} {now : TimeVal}
    {os : List ProbeOutcome} (hs : s.state = .probeSleep)
    (hwake : (machine cfg).step s (.go now) = some u) (hrun : (probing cfg).run u os = some t) :
    GivesUpOnDeadPeer os t ↔ os.count .silent < 11 := by
  have hstart : Counts [] u := .going (wake_state hs hwake) rfl (by simp) (by simp)
  have hcounts : Counts os t :=
    Machine.run_history (P := Counts) (fun _ _ _ _ h hstep => counts_step h hstep) hstart hrun
  have hdead : os.count .silent ≤ 11 → ¬ List.replicate 12 ProbeOutcome.silent <:+: os := by
    intro hle hinfix
    have := twelve_le_count hinfix
    omega
  cases hcounts with
  | going ht hcount hlt hreply =>
    refine iff_of_true ⟨?_, ?_⟩ hlt
    · exact iff_of_false (by simp [ht]) (hdead hlt.le)
    · intro rest a now heq hopen
      exact absurd (hreply rest a now heq) hopen
  | aborted ht hcount hreply =>
    refine iff_of_false ?_ (by omega)
    rintro ⟨habort, -⟩
    exact hdead hcount.le (habort.mp ht)
  | @returned rest a now ht hlt hpast hack =>
    refine iff_of_true ⟨?_, ?_⟩ hlt
    · refine iff_of_false ?_ (hdead hlt.le)
      rcases ht with ht | ht <;> simp [ht]
    · intro rest' a' now' heq hopen
      obtain ⟨rfl, -⟩ : a' = a ∧ _ := by
        simpa using (List.append_inj' (heq.symm.trans hpast) rfl).2
      exact ⟨ht, hack⟩

def closedWindow : ServerConfig := ⟨.big, .bits64, 600, by decide, 4, ⟨0, 0, 0⟩, true⟩

def closedWindowEvents : List SenderEvent :=
  [.go ⟨0, 0⟩, .read (.complete ⟨1, 0, 0⟩) ⟨0, 0⟩]

lemma closedWindow_call (os : List ProbeOutcome) (e : SenderState)
    (h : (((machine closedWindow).run (start closedWindow ⟨0, 0⟩) closedWindowEvents).bind fun s =>
      ((machine closedWindow).step s (.go ⟨0, 0⟩)).bind fun u =>
        ((probing closedWindow).run u os).map fun t => (s.state, t.state)) =
      some (.probeSleep, e)) :
    ∃ s u t, (machine closedWindow).run (start closedWindow ⟨0, 0⟩) closedWindowEvents = some s ∧
      s.state = .probeSleep ∧ (machine closedWindow).step s (.go ⟨0, 0⟩) = some u ∧
      (probing closedWindow).run u os = some t ∧ t.state = e := by
  obtain ⟨s, hs, h⟩ := Option.bind_eq_some_iff.mp h
  obtain ⟨u, hu, h⟩ := Option.bind_eq_some_iff.mp h
  obtain ⟨t, ht, h⟩ := Option.map_eq_some_iff.mp h
  obtain ⟨hsleep, hend⟩ := Prod.mk.inj h
  exact ⟨s, u, t, hs, hsleep, hu, ht, hend⟩

theorem givesUpOnDeadPeer_reopened :
    ∃ s u t, (machine closedWindow).run (start closedWindow ⟨0, 0⟩) closedWindowEvents = some s ∧
      (machine closedWindow).step s (.go ⟨0, 0⟩) = some u ∧
      (probing closedWindow).run u (List.replicate 10 .silent ++ [.reply ⟨1, 4, 0⟩ ⟨0, 0⟩]) =
        some t ∧
      GivesUpOnDeadPeer (List.replicate 10 .silent ++ [.reply ⟨1, 4, 0⟩ ⟨0, 0⟩]) t := by
  obtain ⟨s, u, t, hs, hsleep, hu, ht, -⟩ := closedWindow_call
    (List.replicate 10 .silent ++ [.reply ⟨1, 4, 0⟩ ⟨0, 0⟩]) .cycleEnd (by decide +kernel)
  exact ⟨s, u, t, hs, hu, ht, (givesUpOnDeadPeer_iff closedWindow hsleep hu ht).mpr (by decide)⟩

def everyOther : List ProbeOutcome :=
  ((List.range 10).flatMap fun _ => [.silent, .reply ⟨1, 0, 0⟩ ⟨0, 0⟩]) ++ [.silent]

/-- Eleven probes without an answer, no two of them in a row, end the transfer. -/
theorem not_givesUpOnDeadPeer :
    ∃ s u t, (machine closedWindow).run (start closedWindow ⟨0, 0⟩) closedWindowEvents = some s ∧
      s.state = .probeSleep ∧ (machine closedWindow).step s (.go ⟨0, 0⟩) = some u ∧
      (probing closedWindow).run u everyOther = some t ∧ ¬ GivesUpOnDeadPeer everyOther t := by
  obtain ⟨s, u, t, hs, hsleep, hu, ht, hend⟩ := closedWindow_call
    everyOther (.done .probeAbort) (by decide +kernel)
  refine ⟨s, u, t, hs, hsleep, hu, ht, fun hdead => ?_⟩
  have hle := twelve_le_count (hdead.1.mp hend)
  exact absurd hle (by decide)

/-- Along the outcomes that keep a call in its loop: every timeout handed to `Select` lies
between 6 and 60 seconds and is not below the one before, and the two products of `initialWait`
are in the range of `int`. -/
def TimerLaw (x : Sender) (_ : ProbeOutcome) (y : Sender) : Prop :=
  ∀ p q, x.state = .probing p → y.state = .probing q →
    (6 ≤ p.timeout ∧ p.timeout ≤ q.timeout ∧ q.timeout ≤ 60) ∧
      InInt (p.initialWait * 2) ∧ InInt (p.initialWait * 2 * 2)

structure Doubled (k : ℕ) (p : Probe) : Prop where
  initialWait : p.initialWait = 6 * 2 ^ k
  timeout : p.timeout = if (6 * 2 ^ k : ℤ) * 2 ≥ 60 then 60 else 6 * 2 ^ k

lemma two_pow_bounds {k : ℕ} (hk : k ≤ 27) : (1 : ℤ) ≤ 2 ^ k ∧ (2 : ℤ) ^ k ≤ 2 ^ 27 :=
  ⟨one_le_pow₀ (by norm_num), pow_le_pow_right₀ (by norm_num) hk⟩

lemma Probes.next (h : Probes s p o t) (ht : t.state = .probing q) :
    q.initialWait = p.next.initialWait ∧ q.timeout = p.next.timeout := by
  cases h with
  | abort => cases ht
  | silent => cases ht; exact ⟨rfl, rfl⟩
  | returned hopen hack hreturned => rcases hreturned with hr | hr <;> simp [ht] at hr
  | closed => cases ht; exact ⟨rfl, rfl⟩
  | late => cases ht

lemma Doubled.next {k : ℕ} (h : Doubled k p) (hk : k < 27)
    (hq : q.initialWait = p.next.initialWait ∧ q.timeout = p.next.timeout) :
    Doubled (k + 1) q ∧ (6 ≤ p.timeout ∧ p.timeout ≤ q.timeout ∧ q.timeout ≤ 60) ∧
      InInt (p.initialWait * 2) ∧ InInt (p.initialWait * 2 * 2) := by
  obtain ⟨hpos, hle⟩ := two_pow_bounds hk.le
  have hlt : (2 : ℤ) ^ k ≤ 2 ^ 26 := pow_le_pow_right₀ (by norm_num) (by omega)
  have hsucc : (2 : ℤ) ^ (k + 1) = 2 ^ k * 2 := pow_succ 2 k
  have hwait := h.initialWait
  have hrange : InInt (p.initialWait * 2) ∧ InInt (p.initialWait * 2 * 2) := by
    unfold InInt
    omega
  have hnext : p.next.initialWait = p.initialWait * 2 := wrap_of_inInt hrange.1
  have htimeout : p.next.timeout =
      if p.initialWait * 2 * 2 ≥ 60 then 60 else p.initialWait * 2 := by
    simp only [Probe.next, wrap_of_inInt hrange.1, wrap_of_inInt hrange.2]
  have hp := h.timeout
  rw [hnext, htimeout] at hq
  refine ⟨⟨by omega, ?_⟩, ?_, hrange⟩
  · rw [hq.2, hsucc, hwait]
    ring_nf
  · split_ifs at hp hq <;> omega

lemma probing_of_run {os : List ProbeOutcome} (hrun : (probing cfg).run s os = some t)
    (ht : t.state.isProbing = true) : s.state.isProbing = true := by
  cases os with
  | nil =>
    obtain rfl := Option.some.inj hrun
    exact ht
  | cons o os =>
    obtain ⟨u, hu, -⟩ := Machine.run_cons_eq_some.mp hrun
    obtain ⟨p, hs, -⟩ := probing_step hu
    exact SenderState.isProbing_iff.mpr ⟨p, hs⟩

lemma timerLaw_along {os : List ProbeOutcome} {k : ℕ} (hs : s.state = .probing p)
    (hp : Doubled k p) (hk : k ≤ 27) (hrun : (probing cfg).run s os = some t)
    (ht : t.state.isProbing = true) :
    (probing cfg).Along TimerLaw s os ↔ k + os.length ≤ 27 := by
  induction os generalizing s p k with
  | nil => simpa [Machine.Along] using hk
  | cons o os ih =>
    obtain ⟨u, hu, hut⟩ := Machine.run_cons_eq_some.mp hrun
    obtain ⟨q, hq⟩ := SenderState.isProbing_iff.mp (probing_of_run hut ht)
    obtain ⟨p', hs', hprobe⟩ := probing_step hu
    obtain rfl : p = p' := by simpa [hs] using hs'
    by_cases hlt : k < 27
    · obtain ⟨hnext, hlaw⟩ := hp.next hlt (hprobe.next hq)
      have hstep : TimerLaw s o u := by
        intro p' q' hp' hq'
        obtain rfl : p = p' := by simpa [hs] using hp'
        obtain rfl : q = q' := by simpa [hq] using hq'
        exact hlaw
      have hrest := ih hq hnext hlt hut
      rw [List.length_cons]
      constructor
      · intro h
        have := hrest.mp (h u hu).2
        omega
      · intro h v hv
        obtain rfl := Option.some.inj (hu.symm.trans hv)
        exact ⟨hstep, hrest.mpr (by omega)⟩
    · obtain rfl : k = 27 := by omega
      refine iff_of_false (fun h => ?_) (by simp)
      have hover := ((h u hu).1 p q hs hq).2.2
      rw [hp.initialWait] at hover
      exact absurd hover (by decide)

/-- The timeouts of a call lie between 6 and 60 seconds and never decrease, and nothing
overflows, exactly as long as it goes round at most 27 times. -/
theorem timerLaw_iff (cfg : ServerConfig) {s u t : Sender} {now : TimeVal}
    {os : List ProbeOutcome} (hs : s.state = .probeSleep)
    (hwake : (machine cfg).step s (.go now) = some u) (hrun : (probing cfg).run u os = some t)
    (hloop : t.state.isProbing = true) :
    ((∀ p, u.state = .probing p → 6 ≤ p.timeout ∧ p.timeout ≤ 60) ∧
        (probing cfg).Along TimerLaw u os) ↔ os.length ≤ 27 := by
  have hu := wake_state hs hwake
  have hfirst : ∀ p, u.state = .probing p → 6 ≤ p.timeout ∧ p.timeout ≤ 60 := by
    intro p hp
    obtain rfl : (⟨6, 6, 0⟩ : Probe) = p := by simpa [hu] using hp
    decide
  rw [timerLaw_along hu ⟨rfl, rfl⟩ (Nat.zero_le 27) hrun hloop, Nat.zero_add]
  exact and_iff_right hfirst

theorem timerLaw_zero_window :
    ∃ s u, (machine closedWindow).run (start closedWindow ⟨0, 0⟩) closedWindowEvents = some s ∧
      (machine closedWindow).step s (.go ⟨0, 0⟩) = some u ∧
      (probing closedWindow).Along TimerLaw u (List.replicate 27 (.reply ⟨1, 0, 0⟩ ⟨0, 0⟩)) := by
  obtain ⟨s, u, t, hs, hsleep, hu, ht, hend⟩ := closedWindow_call
    (List.replicate 27 (.reply ⟨1, 0, 0⟩ ⟨0, 0⟩)) (.probing ⟨6 * 2 ^ 27, 60, 0⟩)
    (by decide +kernel)
  have hloop : t.state.isProbing = true := by rw [hend]; rfl
  exact ⟨s, u, hs, hu, ((timerLaw_iff closedWindow hsleep hu ht hloop).mpr (by decide)).2⟩

/-- At the twenty-eighth reply the product is out of range; `Select` is handed more than fifty
years. -/
theorem not_timerLaw :
    ∃ s u t, (machine closedWindow).run (start closedWindow ⟨0, 0⟩) closedWindowEvents = some s ∧
      s.state = .probeSleep ∧ (machine closedWindow).step s (.go ⟨0, 0⟩) = some u ∧
      (probing closedWindow).run u (List.replicate 28 (.reply ⟨1, 0, 0⟩ ⟨0, 0⟩)) = some t ∧
      t.state = .probing ⟨1610612736, 1610612736, 0⟩ ∧
      ¬ (probing closedWindow).Along TimerLaw u
          (List.replicate 28 (.reply ⟨1, 0, 0⟩ ⟨0, 0⟩)) := by
  obtain ⟨s, u, t, hs, hsleep, hu, ht, hend⟩ := closedWindow_call
    (List.replicate 28 (.reply ⟨1, 0, 0⟩ ⟨0, 0⟩)) (.probing ⟨1610612736, 1610612736, 0⟩)
    (by decide +kernel)
  refine ⟨s, u, t, hs, hsleep, hu, ht, hend, fun hlaw => ?_⟩
  have hloop : t.state.isProbing = true := by rw [hend]; rfl
  have hlen := (timerLaw_along (wake_state hsleep hu) ⟨rfl, rfl⟩ (Nat.zero_le 27) ht hloop).mp hlaw
  exact absurd hlen (by decide)

end Sender

end TcpOverUdp
