import TcpOverUdp.Client
import TcpOverUdp.Lib.Machine

namespace TcpOverUdp
open CWord

inductive CloseExit
  | twoMSL
  | numRetry
  deriving DecidableEq, Repr

/-- `ActiveClose` reads a datagram whose first bytes are `ack`, or its `Select` times out. -/
inductive CloseEvent
  | read (ack : ClientAck)
  | timeout

def CloseEvent.toClient : CloseEvent → ClientEvent
  | .read ack => .closeRead ack
  | .timeout => .closeTimeout

def CloseState.exit (s : CloseState) : Option CloseExit :=
  if s.twoMSL = 0 then some .twoMSL else if s.numRetry = 0 then some .numRetry else none

/-- A timeout counts `twoMSL` down in TIME_WAIT, and `numRetry` elsewhere. -/
def CloseState.expire (s : CloseState) : CloseState :=
  if s.currentState = .timeWait then { s with twoMSL := s.twoMSL - 1 }
  else { s with numRetry := s.numRetry - 1 }

/-- `ActiveClose` with what it has sent, and the way it has returned. -/
structure ActiveClose where
  vars : CloseState
  exit : Option CloseExit
  sent : List ClientOut
  deriving DecidableEq

namespace ActiveClose

def fin (host : ByteOrder) : ClientOut :=
  .close { finRecord with currentRequest := htonl host finRequest }

def start (host : ByteOrder) : ActiveClose := ⟨⟨.finWait1, 3, 2⟩, none, [fin host]⟩

def step (host : ByteOrder) (c : ActiveClose) (e : CloseEvent) : Option ActiveClose :=
  if c.exit.isSome then none
  else
    match e with
    | .read ack =>
      let (s, outs) := activeCloseRead host c.vars ack
      some { c with vars := s, sent := c.sent ++ outs }
    | .timeout =>
      let s := c.vars.expire
      -- in TIME_WAIT the inner loop goes on
      if s.currentState = .timeWait ∧ s.twoMSL ≠ 0 then some { c with vars := s }
      else
        match s.exit with
        | some x => some { c with vars := s, exit := some x }
        | none => some { c with vars := s, sent := c.sent ++ [fin host] }

def machine (host : ByteOrder) : Machine ActiveClose CloseEvent := ⟨step host⟩

def readsAck (host : ByteOrder) : CloseEvent → Bool
  | .read ack => ntohl host ack.currentRequest = ackRequest
  | .timeout => false

def readsFin (host : ByteOrder) : CloseEvent → Bool
  | .read ack => ntohl host ack.currentRequest = finRequest
  | .timeout => false

def sendsAck (host : ByteOrder) (o : ClientOut) : Bool :=
  ntohl host o.record.currentRequest = ackRequest

def stateFor : Bool → Bool → ActiveCloseState
  | false, false => .finWait1
  | true, false => .finWait2
  | false, true => .closing
  | true, true => .timeWait

lemma ackRequest_ne_finRequest : ackRequest ≠ finRequest := by decide

lemma not_sendsAck_fin (host : ByteOrder) : sendsAck host (fin host) = false := by
  simp [sendsAck, fin, ClientOut.record, ackRequest_ne_finRequest.symm]

/-- What is behind a state: the datagrams read, the ACKs sent, and the counters. -/
structure History (host : ByteOrder) (past : List CloseEvent) (c : ActiveClose) : Prop where
  state : c.vars.currentState = stateFor (past.any (readsAck host)) (past.any (readsFin host))
  acks : c.sent.countP (sendsAck host) = past.countP (readsFin host)
  waiting : c.exit = none → c.vars.exit = none
  returned : c.exit = some .twoMSL → c.vars.currentState = .timeWait

variable {host : ByteOrder} {past : List CloseEvent} {c d : ActiveClose}

lemma history_start (host : ByteOrder) : History host [] (start host) where
  state := rfl
  acks := by simp [start, not_sendsAck_fin]
  waiting := fun _ => rfl
  returned := nofun

lemma reads_cases (host : ByteOrder) (ack : ClientAck) :
    (ntohl host ack.currentRequest = ackRequest ∧ readsAck host (.read ack) = true ∧
        readsFin host (.read ack) = false) ∨
      (ntohl host ack.currentRequest = finRequest ∧ readsAck host (.read ack) = false ∧
        readsFin host (.read ack) = true) ∨
      (ntohl host ack.currentRequest ≠ ackRequest ∧ ntohl host ack.currentRequest ≠ finRequest ∧
        readsAck host (.read ack) = false ∧ readsFin host (.read ack) = false) := by
  unfold readsAck readsFin
  by_cases hack : ntohl host ack.currentRequest = ackRequest
  · simp [hack, ackRequest_ne_finRequest]
  · by_cases hfin : ntohl host ack.currentRequest = finRequest
    · simp [hfin, ackRequest_ne_finRequest.symm]
    · simp [hack, hfin]

lemma activeCloseRead_state (s : CloseState) (ack : ClientAck) {a f : Bool}
    (hs : s.currentState = stateFor a f) :
    (activeCloseRead host s ack).1.currentState =
      stateFor (a || readsAck host (.read ack)) (f || readsFin host (.read ack)) := by
  unfold activeCloseRead
  obtain ⟨h, hack, hfin⟩ | ⟨h, hack, hfin⟩ | ⟨hna, hnf, hack, hfin⟩ := reads_cases host ack
  · rw [if_pos h, hack, hfin]
    cases a <;> cases f <;> simp [hs, stateFor]
  · rw [if_neg (h ▸ ackRequest_ne_finRequest.symm), if_pos h, hack, hfin]
    cases a <;> cases f <;> simp [hs, stateFor]
  · rw [if_neg hna, if_neg hnf, hack, hfin]
    simpa using hs

lemma activeCloseRead_acks (s : CloseState) (ack : ClientAck) :
    (activeCloseRead host s ack).2.countP (sendsAck host) =
      if readsFin host (.read ack) then 1 else 0 := by
  unfold activeCloseRead
  obtain ⟨h, hack, hfin⟩ | ⟨h, hack, hfin⟩ | ⟨hna, hnf, hack, hfin⟩ := reads_cases host ack
  · rw [if_pos h, hfin]
    cases s.currentState <;> rfl
  · rw [if_neg (h ▸ ackRequest_ne_finRequest.symm), if_pos h, hfin]
    simp [sendsAck, ClientOut.record]
  · rw [if_neg hna, if_neg hnf, hfin]
    have hnone := not_sendsAck_fin host
    unfold fin at hnone
    simp [hnone]

lemma activeCloseRead_counters (s : CloseState) (ack : ClientAck) :
    (activeCloseRead host s ack).1.twoMSL = s.twoMSL ∧
      (activeCloseRead host s ack).1.numRetry = s.numRetry := by
  unfold activeCloseRead
  split_ifs
  · cases s.currentState <;> simp
  · cases s.currentState <;> simp
  · simp

lemma CloseState.exit_congr {s t : CloseState} (h : t.twoMSL = s.twoMSL ∧ t.numRetry = s.numRetry) :
    t.exit = s.exit := by
  simp only [CloseState.exit, h]

lemma exit_eq_none {s : CloseState} : s.exit = none ↔ s.twoMSL ≠ 0 ∧ s.numRetry ≠ 0 := by
  unfold CloseState.exit
  split_ifs <;> simp_all

inductive Moves (host : ByteOrder) (c : ActiveClose) : CloseEvent → ActiveClose → Prop
  | read {ack} :
    Moves host c (.read ack)
      { c with
        vars := (activeCloseRead host c.vars ack).1
        sent := c.sent ++ (activeCloseRead host c.vars ack).2 }
  | stay (hstate : c.vars.currentState = .timeWait) (hmsl : c.vars.twoMSL - 1 ≠ 0) :
    Moves host c .timeout { c with vars := { c.vars with twoMSL := c.vars.twoMSL - 1 } }
  | waited (hstate : c.vars.currentState = .timeWait) (hmsl : c.vars.twoMSL - 1 = 0) :
    Moves host c .timeout
      { c with vars := { c.vars with twoMSL := c.vars.twoMSL - 1 }, exit := some .twoMSL }
  | again (hstate : c.vars.currentState ≠ .timeWait) (hretry : c.vars.numRetry - 1 ≠ 0) :
    Moves host c .timeout
      { c with
        vars := { c.vars with numRetry := c.vars.numRetry - 1 }
        sent := c.sent ++ [fin host] }
  | failed (hstate : c.vars.currentState ≠ .timeWait) (hretry : c.vars.numRetry - 1 = 0) :
    Moves host c .timeout
      { c with vars := { c.vars with numRetry := c.vars.numRetry - 1 }, exit := some .numRetry }

lemma step_moves {e : CloseEvent} (hlive : c.exit = none → c.vars.exit = none)
    (h : step host c e = some d) : c.exit = none ∧ Moves host c e d := by
  unfold step at h
  split_ifs at h with hret
  have hexit : c.exit = none := by simpa using hret
  obtain ⟨hmsl, hretry⟩ := exit_eq_none.mp (hlive hexit)
  refine ⟨hexit, ?_⟩
  cases e with
  | read ack =>
    obtain rfl := Option.some.inj h
    exact .read
  | timeout =>
    by_cases hstate : c.vars.currentState = .timeWait
    · have hexpire : c.vars.expire = { c.vars with twoMSL := c.vars.twoMSL - 1 } := if_pos hstate
      have hstay : c.vars.expire.currentState = .timeWait := hexpire ▸ hstate
      simp only [hstay, true_and] at h
      rw [hexpire] at h
      by_cases hmsl : c.vars.twoMSL - 1 = 0
      · rw [if_neg (not_not.mpr hmsl), CloseState.exit, if_pos hmsl] at h
        obtain rfl := Option.some.inj h
        exact .waited hstate hmsl
      · rw [if_pos hmsl] at h
        obtain rfl := Option.some.inj h
        exact .stay hstate hmsl
    · have hexpire : c.vars.expire = { c.vars with numRetry := c.vars.numRetry - 1 } :=
        if_neg hstate
      simp only [hexpire, hstate, false_and, if_false, CloseState.exit, if_neg hmsl] at h
      by_cases hretry : c.vars.numRetry - 1 = 0
      · rw [if_pos hretry] at h
        obtain rfl := Option.some.inj h
        exact .failed hstate hretry
      · rw [if_neg hretry] at h
        obtain rfl := Option.some.inj h
        exact .again hstate hretry

lemma History.timeout (h : History host past c)
    (hstate : d.vars.currentState = c.vars.currentState)
    (hacks : d.sent.countP (sendsAck host) = c.sent.countP (sendsAck host))
    (hwaiting : d.exit = none → d.vars.exit = none)
    (hreturned : d.exit = some .twoMSL → d.vars.currentState = .timeWait) :
    History host (past ++ [.timeout]) d where
  state := by
    rw [hstate, h.state]
    simp [readsAck, readsFin]
  acks := by
    rw [hacks, h.acks]
    simp [readsFin]
  waiting := hwaiting
  returned := hreturned

lemma History.step {e : CloseEvent} (h : History host past c) (hstep : step host c e = some d) :
    History host (past ++ [e]) d := by
  obtain ⟨hexit, hmove⟩ := step_moves h.waiting hstep
  obtain ⟨hmsl, hretry⟩ := exit_eq_none.mp (h.waiting hexit)
  cases hmove with
  | @read ack =>
    refine ⟨?_, ?_, fun _ => ?_, fun hx => ?_⟩
    · simp only [List.any_append, List.any_cons, List.any_nil, Bool.or_false]
      exact activeCloseRead_state _ ack h.state
    · simp only [List.countP_append, h.acks, activeCloseRead_acks, List.countP_singleton]
    · rw [CloseState.exit_congr (activeCloseRead_counters _ ack)]
      exact h.waiting hexit
    · exact absurd (hexit.symm.trans hx) (by simp)
  | stay hs hne =>
    refine h.timeout rfl rfl (fun _ => exit_eq_none.mpr ⟨hne, hretry⟩) fun hx => ?_
    exact absurd (hexit.symm.trans hx) (by simp)
  | waited hs hz => exact h.timeout rfl rfl nofun fun _ => hs
  | again hs hne =>
    refine h.timeout rfl ?_ (fun _ => exit_eq_none.mpr ⟨hmsl, hne⟩) fun hx => ?_
    · simp [not_sendsAck_fin]
    · exact absurd (hexit.symm.trans hx) (by simp)
  | failed hs hz => exact h.timeout rfl rfl nofun nofun

/-- `ActiveClose` is a part of the client: while it runs, its steps are those of the consumer. -/
theorem client_step {cfg : ClientConfig} {e : CloseEvent} {k : Client}
    (hk : k.consumer = .closing c.vars) (hlive : c.vars.exit = none)
    (hstep : step cfg.host c e = some d) :
    ∃ outs, d.sent = c.sent ++ outs ∧
      k.step cfg e.toClient =
        some ({ k with consumer := if d.exit.isSome then .finished else .closing d.vars },
          outs) := by
  obtain ⟨hexit, hmove⟩ := step_moves (fun _ => hlive) hstep
  cases hmove with
  | read => exact ⟨_, rfl, by simp [Client.step, CloseEvent.toClient, hk, hexit]⟩
  | stay hs hne =>
    refine ⟨[], by simp, ?_⟩
    simp [Client.step, CloseEvent.toClient, hk, hexit, activeCloseTimeout, hs, hne]
  | waited hs hz =>
    refine ⟨[], by simp, ?_⟩
    simp [Client.step, CloseEvent.toClient, hk, activeCloseTimeout, hs, hz]
  | again hs hne =>
    refine ⟨[fin cfg.host], rfl, ?_⟩
    simp [Client.step, CloseEvent.toClient, hk, hexit, activeCloseTimeout, hs, hne, fin]
  | failed hs hz =>
    refine ⟨[], by simp, ?_⟩
    simp [Client.step, CloseEvent.toClient, hk, activeCloseTimeout, hs, hz]

/-- After any reads and timeouts, the state says which of ACK and FIN has been read, as many ACKs
have been sent as FINs read, and `twoMSL` ends the close in TIME_WAIT only. -/
theorem follows_automaton (host : ByteOrder) (es : List CloseEvent) (c : ActiveClose)
    (hrun : (machine host).run (start host) es = some c) :
    ((c.vars.currentState = .finWait1 ↔
          (¬ ∃ e ∈ es, readsAck host e = true) ∧ ¬ ∃ e ∈ es, readsFin host e = true) ∧
        (c.vars.currentState = .finWait2 ↔
          (∃ e ∈ es, readsAck host e = true) ∧ ¬ ∃ e ∈ es, readsFin host e = true) ∧
        (c.vars.currentState = .closing ↔
          (¬ ∃ e ∈ es, readsAck host e = true) ∧ ∃ e ∈ es, readsFin host e = true) ∧
        (c.vars.currentState = .timeWait ↔
          (∃ e ∈ es, readsAck host e = true) ∧ ∃ e ∈ es, readsFin host e = true)) ∧
      c.sent.countP (sendsAck host) = es.countP (readsFin host) ∧
      (c.exit = some .twoMSL → c.vars.currentState = .timeWait) := by
  have h : History host es c :=
    Machine.run_history (P := History host) (fun _ _ _ _ h hstep => h.step hstep)
      (history_start host) hrun
  refine ⟨?_, h.acks, h.returned⟩
  simp only [← List.any_eq_true, h.state]
  cases es.any (readsAck host) <;> cases es.any (readsFin host) <;> simp [stateFor]

/-- An ACK, a FIN that is sent again, and the two timeouts of TIME_WAIT. -/
theorem follows_automaton_simultaneous :
    ∃ c, (machine .big).run (start .big)
        [.read ⟨finRequest, 0, 0⟩, .read ⟨ackRequest, 0, 0⟩, .read ⟨finRequest, 0, 0⟩, .timeout,
          .timeout] = some c ∧
      c.exit = some .twoMSL ∧ c.sent.countP (sendsAck .big) = 2 ∧
      c.vars.currentState = .timeWait := by
  have hrun : (machine .big).run (start .big)
      [.read ⟨finRequest, 0, 0⟩, .read ⟨ackRequest, 0, 0⟩, .read ⟨finRequest, 0, 0⟩, .timeout,
        .timeout] = some ⟨⟨.timeWait, 3, 0⟩, some .twoMSL, [fin .big, .close ⟨ackRequest, 0, 0⟩,
          .close ⟨ackRequest, 0, 0⟩]⟩ := rfl
  obtain ⟨-, hacks, hexit⟩ := follows_automaton .big _ _ hrun
  exact ⟨_, hrun, rfl, hacks, hexit rfl⟩

end ActiveClose

end TcpOverUdp
