import TcpOverUdp.FinRetries

namespace TcpOverUdp
open CWord

def CloseEvent.isTimeout : CloseEvent → Bool
  | .read _ => false
  | .timeout => true

namespace ActiveClose

/-- What can be said of some events without looking at `ActiveClose`: whether an ACK and a FIN
have been read, and the timeouts before and after both of them. -/
structure Tally where
  ack : Bool
  fin : Bool
  early : ℕ
  late : ℕ
  deriving DecidableEq, Repr

def Tally.note (host : ByteOrder) (n : Tally) : CloseEvent → Tally
  | .read a =>
    { n with ack := n.ack || readsAck host (.read a), fin := n.fin || readsFin host (.read a) }
  | .timeout =>
    if n.ack && n.fin then { n with late := n.late + 1 } else { n with early := n.early + 1 }

def tally (host : ByteOrder) (es : List CloseEvent) : Tally :=
  es.foldl (Tally.note host) ⟨false, false, 0, 0⟩

def Tally.vars (n : Tally) : CloseState := ⟨stateFor n.ack n.fin, 3 - n.early, 2 - n.late⟩

/-- `ActiveClose` returns on the second late timeout, or on the third early one. -/
def Tally.exit (n : Tally) : Option CloseExit :=
  if n.late = 2 then some .twoMSL else if n.early = 3 then some .numRetry else none

/-- The timeouts that are followed by another FIN: the early ones, but not the third. -/
def Tally.resends (n : Tally) : ℕ := min n.early 2

variable {host : ByteOrder} {past : List CloseEvent} {c d : ActiveClose} {e : CloseEvent}
  {n : Tally}

lemma tally_append (host : ByteOrder) (past : List CloseEvent) (e : CloseEvent) :
    tally host (past ++ [e]) = (tally host past).note host e := by
  rw [tally, List.foldl_append]
  rfl

lemma stateFor_eq_timeWait {a f : Bool} : stateFor a f = .timeWait ↔ (a && f) = true := by
  cases a <;> cases f <;> simp [stateFor]

/-- What holds of every tally of a run: `ActiveClose` has returned on the third early timeout, so
that nothing was read after it. -/
structure Tally.Sound (n : Tally) : Prop where
  early : n.early ≤ 3
  late : n.late ≤ 2
  patient : (n.ack && n.fin) = true → n.early ≤ 2
  closed : 0 < n.late → (n.ack && n.fin) = true

/-- The books agree with what `ActiveClose` has in its variables and has sent. -/
structure Booked (host : ByteOrder) (past : List CloseEvent) (c : ActiveClose) : Prop where
  sound : (tally host past).Sound
  vars : c.vars = (tally host past).vars
  exit : c.exit = (tally host past).exit
  timeouts : past.countP CloseEvent.isTimeout = (tally host past).early + (tally host past).late
  fins : fins host c = 1 + (tally host past).resends + past.countP (readsOther host)

lemma booked_start (host : ByteOrder) : Booked host [] (start host) where
  sound := ⟨by simp [tally], by simp [tally], by simp [tally], by simp [tally]⟩
  vars := rfl
  exit := rfl
  timeouts := rfl
  fins := by simp [ActiveClose.fins, start, sendsFin_fin, tally, Tally.resends]

lemma Tally.exit_eq_none : n.exit = none ↔ n.late ≠ 2 ∧ n.early ≠ 3 := by
  unfold Tally.exit
  split_ifs <;> simp_all

lemma Booked.read {ack : ClientAck} (h : Booked host past c) (hexit : c.exit = none) :
    Booked host (past ++ [.read ack])
      { c with
        vars := (activeCloseRead host c.vars ack).1
        sent := c.sent ++ (activeCloseRead host c.vars ack).2 } := by
  obtain ⟨-, hearly⟩ := Tally.exit_eq_none.mp (h.exit ▸ hexit)
  have hle := h.sound.early
  have hvars := h.vars
  have hstate := @activeCloseRead_state host c.vars ack (tally host past).ack (tally host past).fin
    (by rw [hvars]; rfl)
  obtain ⟨hmsl, hretry⟩ := @activeCloseRead_counters host c.vars ack
  constructor
  · rw [tally_append]
    refine ⟨hle, h.sound.late, fun _ => ?_, fun hlate => ?_⟩
    · show (tally host past).early ≤ 2
      omega
    · have := h.sound.closed hlate
      simp only [Bool.and_eq_true] at this
      simp [Tally.note, this]
  · rw [tally_append]
    refine CloseState.mk.injEq .. |>.mpr ⟨hstate, hretry.trans ?_, hmsl.trans ?_⟩
    · rw [hvars]
      rfl
    · rw [hvars]
      rfl
  · rw [tally_append]
    exact h.exit
  · rw [tally_append, List.countP_append, h.timeouts]
    simp [Tally.note, CloseEvent.isTimeout]
  · rw [fins_append, activeCloseRead_fins, h.fins, tally_append, List.countP_append,
      List.countP_singleton, ← Nat.add_assoc]
    rfl

lemma Booked.early (outs : List ClientOut) (h : Booked host past c) (hexit : c.exit = none)
    (hstate : c.vars.currentState ≠ .timeWait)
    (hd : d = { c with
      vars := { c.vars with numRetry := c.vars.numRetry - 1 }
      exit := if c.vars.numRetry - 1 = 0 then some .numRetry else none
      sent := c.sent ++ outs })
    (houts : outs.countP (sendsFin host) = if c.vars.numRetry - 1 = 0 then 0 else 1) :
    Booked host (past ++ [.timeout]) d := by
  obtain ⟨hlate, hearly⟩ := Tally.exit_eq_none.mp (h.exit ▸ hexit)
  have hle := h.sound.early
  have hboth : ((tally host past).ack && (tally host past).fin) = false := by
    rw [h.vars, Tally.vars, Ne, stateFor_eq_timeWait, Bool.not_eq_true] at hstate
    exact hstate
  -- a late timeout would need both ACK and FIN
  have hzero : (tally host past).late = 0 := by
    by_contra hpos
    rw [h.sound.closed (by omega)] at hboth
    cases hboth
  have hretry : c.vars.numRetry = 3 - (tally host past).early := by rw [h.vars, Tally.vars]
  have hnote : tally host (past ++ [.timeout]) =
      { tally host past with early := (tally host past).early + 1 } := by
    rw [tally_append, Tally.note, if_neg (by simp [hboth])]
  have hlast : c.vars.numRetry - 1 = 0 ↔ (tally host past).early + 1 = 3 := by omega
  rw [hd]
  constructor
  · rw [hnote]
    refine ⟨by simp only; omega, h.sound.late, fun hb => ?_, fun hpos => ?_⟩
    · rw [hboth] at hb
      cases hb
    · simp only [hzero] at hpos
      omega
  · rw [hnote]
    refine CloseState.mk.injEq .. |>.mpr ⟨?_, ?_, ?_⟩
    · rw [h.vars]
      rfl
    · rw [hretry]
      push_cast
      omega
    · rw [h.vars]
      rfl
  · have hexit' : (tally host (past ++ [.timeout])).exit =
        if (tally host past).early + 1 = 3 then some .numRetry else none := by
      rw [hnote, Tally.exit]
      exact if_neg hlate
    rw [hexit']
    exact if_congr hlast rfl rfl
  · rw [hnote, List.countP_append, h.timeouts]
    simp only [List.countP_singleton, CloseEvent.isTimeout, if_true]
    omega
  · have hsent : ActiveClose.fins host { c with
        vars := { c.vars with numRetry := c.vars.numRetry - 1 }
        exit := if c.vars.numRetry - 1 = 0 then some .numRetry else none
        sent := c.sent ++ outs } = ActiveClose.fins host c + outs.countP (sendsFin host) := by
      simp [ActiveClose.fins]
    have hother : (past ++ [CloseEvent.timeout]).countP (readsOther host) =
        past.countP (readsOther host) := by simp [readsOther]
    rw [hsent, houts, h.fins, hnote, hother]
    simp only [Tally.resends, hlast]
    split_ifs <;> omega

lemma Booked.late (h : Booked host past c) (hexit : c.exit = none)
    (hstate : c.vars.currentState = .timeWait)
    (hd : d = { c with
      vars := { c.vars with twoMSL := c.vars.twoMSL - 1 }
      exit := if c.vars.twoMSL - 1 = 0 then some .twoMSL else none }) :
    Booked host (past ++ [.timeout]) d := by
  obtain ⟨hlate, hearly⟩ := Tally.exit_eq_none.mp (h.exit ▸ hexit)
  have hle := h.sound.late
  have hboth : ((tally host past).ack && (tally host past).fin) = true := by
    rw [h.vars, Tally.vars, stateFor_eq_timeWait] at hstate
    exact hstate
  have hpatient := h.sound.patient hboth
  have hmsl : c.vars.twoMSL = 2 - (tally host past).late := by rw [h.vars, Tally.vars]
  have hnote : tally host (past ++ [.timeout]) =
      { tally host past with late := (tally host past).late + 1 } := by
    rw [tally_append, Tally.note, if_pos hboth]
  have hlast : c.vars.twoMSL - 1 = 0 ↔ (tally host past).late + 1 = 2 := by omega
  rw [hd]
  constructor
  · rw [hnote]
    exact ⟨h.sound.early, by simp only; omega, h.sound.patient, fun _ => hboth⟩
  · rw [hnote]
    refine CloseState.mk.injEq .. |>.mpr ⟨?_, ?_, ?_⟩
    · rw [h.vars]
      rfl
    · rw [h.vars]
      rfl
    · rw [hmsl]
      push_cast
      omega
  · have hexit' : (tally host (past ++ [.timeout])).exit =
        if (tally host past).late + 1 = 2 then some .twoMSL else none := by
      rw [hnote, Tally.exit]
      exact if_congr Iff.rfl rfl (if_neg hearly)
    rw [hexit']
    exact if_congr hlast rfl rfl
  · rw [hnote, List.countP_append, h.timeouts]
    simp only [List.countP_singleton, CloseEvent.isTimeout, if_true]
    omega
  · have hother : (past ++ [CloseEvent.timeout]).countP (readsOther host) =
        past.countP (readsOther host) := by simp [readsOther]
    rw [hnote, hother]
    exact h.fins

theorem Booked.step (h : Booked host past c) (hstep : step host c e = some d) :
    Booked host (past ++ [e]) d := by
  -- while it has not returned, neither counter is at zero
  have hlive : c.exit = none → c.vars.exit = none := by
    intro hexit
    obtain ⟨hlate, hearly⟩ := Tally.exit_eq_none.mp (h.exit ▸ hexit)
    have := h.sound.early
    have := h.sound.late
    rw [exit_eq_none, h.vars]
    simp only [Tally.vars]
    omega
  obtain ⟨hexit, hmove⟩ := step_moves hlive hstep
  cases hmove with
  | read => exact h.read hexit
  | stay hs hne => exact h.late hexit hs (by rw [if_neg hne, hexit])
  | waited hs hz => exact h.late hexit hs (by rw [if_pos hz])
  | again hs hne =>
    exact Booked.early [fin host] h hexit hs (by rw [if_neg hne, hexit])
      (by simp [sendsFin_fin, hne])
  | failed hs hz =>
    exact Booked.early [] h hexit hs (by rw [if_pos hz, List.append_nil]) (by simp [hz])

/-- After any reads and timeouts, the variables are those of the tally, `ActiveClose` has returned
exactly if two timeouts have come after both ACK and FIN or three before, which takes at most four
timeouts, and it has sent a FIN at the start, for each of the first two early timeouts, and for
each datagram that is neither an ACK nor a FIN. -/
theorem determined_by_tally {es : List CloseEvent}
    (hrun : (machine host).run (start host) es = some c) :
    c.vars = (tally host es).vars ∧ c.exit = (tally host es).exit ∧
      es.countP CloseEvent.isTimeout ≤ 4 ∧
      fins host c = 1 + (tally host es).resends + es.countP (readsOther host) := by
  have h : Booked host es c :=
    Machine.run_history (P := Booked host) (fun _ _ _ _ h hstep => h.step hstep)
      (booked_start host) hrun
  refine ⟨h.vars, h.exit, ?_, h.fins⟩
  rw [h.timeouts]
  have hearly := h.sound.early
  have hlate := h.sound.late
  -- two early and two late timeouts, or three early ones
  by_cases hpos : 0 < (tally host es).late
  · have := h.sound.patient (h.sound.closed hpos)
    omega
  · omega

/-- The timeouts are used up: two early ones, then ACK and FIN, then two late ones. -/
theorem determined_by_tally_four :
    ∃ c, (machine .little).run (start .little)
        [.timeout, .timeout, .read ⟨byteSwap finRequest, 0, 0⟩, .read ⟨byteSwap ackRequest, 0, 0⟩,
          .timeout, .timeout] = some c ∧
      c.exit = some .twoMSL ∧ fins .little c = 3 := by
  have hrun : (machine .little).run (start .little)
      [.timeout, .timeout, .read ⟨byteSwap finRequest, 0, 0⟩, .read ⟨byteSwap ackRequest, 0, 0⟩,
        .timeout, .timeout] = some _ := rfl
  obtain ⟨-, hexit, -, hfins⟩ := determined_by_tally hrun
  exact ⟨_, hrun, hexit.trans (by decide +kernel), hfins.trans (by decide +kernel)⟩

end ActiveClose

end TcpOverUdp
