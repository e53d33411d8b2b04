import TcpOverUdp.FileTable
import TcpOverUdp.Rtt

namespace TcpOverUdp
open CWord

structure ServerConfig where
  host : ByteOrder
  sizeT : SizeT
  fileLength : ℕ
  fileLength_lt : fileLength < 2 ^ 31
  clientOriginalWindow : Word
  /-- what the local `ack` holds before the first read -/
  uninitialisedAck : ClientAck
  /-- whether `set_alarm`, which is never initialised, contains `SIGALRM` -/
  alarmBlocked : Bool

def ServerConfig.totalNumSegments (cfg : ServerConfig) : ℤ :=
  getSegmentCount cfg.sizeT cfg.fileLength

def ssthreshMin : Word := 2

/-- How `HandleFileTransmission` ends: its loop is left because `index` has reached the
number of segments, on the last acknowledgement (after `PassiveClose`, which has answered a
FIN or not), or because `rtt_timeout` gives up; or the process exits. -/
inductive Ending
  | index
  | lastAck (finAnswered : Bool)
  | giveUp
  | probeAbort
  | readError
  deriving DecidableEq, Repr

/-- The loop is left because of `index` or of the last acknowledgement. -/
def Ending.completes : Ending → Bool
  | .index => true
  | .lastAck _ => true
  | _ => false

structure Probe where
  initialWait : ℤ
  timeout : ℤ
  networkTimeout : ℤ
  deriving DecidableEq, Repr

inductive SenderState
  /-- at the test of the outer loop -/
  | top
  /-- in the `read` of the inner loop -/
  | reading
  /-- in the `sleep` of `clientWindowProbe` -/
  | probeSleep
  /-- in its `Select` -/
  | probing (p : Probe)
  /-- at the end of a cycle, where `SIGALRM` is unblocked -/
  | cycleEnd
  /-- in the first `Read` of `PassiveClose` -/
  | awaitFin
  /-- in the `Select` of `PassiveClose`; `ack` is its local -/
  | awaitAck (numRetry : ℤ) (ack : ClientAck)
  /-- after the outer loop, where `SIGALRM` is unblocked -/
  | leaving (e : Ending)
  | done (e : Ending)
  deriving DecidableEq, Repr

/-- The variables of `HandleFileTransmission`, with `clientWindowProbe` and `PassiveClose` one
machine that stops where the process waits: in `read`, `sleep` and `Select`, and where it unblocks
`SIGALRM`. -/
structure Sender where
  index : ℤ
  totalToSend : ℤ
  totalToRecv : ℤ
  currentWindow : ℤ
  lastAdvtWindow : ℤ
  lastAckReceived : ℤ
  duplicateAck : ℤ
  ssthresh : Word
  cwindow : Word
  ack : ClientAck
  tsend : Word
  rttinfo : RttInfo
  state : SenderState

/-- A datagram of the server: `SendSegment` with its argument, or a record of `PassiveClose`. -/
inductive SenderOut
  | segment (segmentNum : ℤ)
  | record (a : ClientAck)
  deriving DecidableEq, Repr

/-- What a read returns: a whole record; fewer bytes, with what the buffer holds then; or `-1`. -/
inductive ReadResult
  | complete (a : ClientAck)
  | short (a : ClientAck)
  | error

def ReadResult.over (ack : ClientAck) : ReadResult → ClientAck
  | .complete a => a
  | .short a => a
  | .error => ack

inductive SenderEvent
  /-- on to the next wait; `now` is the clock -/
  | go (now : TimeVal)
  | read (r : ReadResult) (now : TimeVal)
  /-- a `Select` times out -/
  | timeout
  /-- `SIGALRM` is delivered -/
  | alarm

namespace Sender

def start (cfg : ServerConfig) (now : TimeVal) : Sender where
  index := 0
  totalToSend := 0
  totalToRecv := 0
  currentWindow := 1
  lastAdvtWindow := toSigned cfg.clientOriginalWindow
  lastAckReceived := -1
  duplicateAck := 0
  ssthresh := cfg.clientOriginalWindow
  cwindow := 1
  ack := cfg.uninitialisedAck
  tsend := 0
  rttinfo := rttInit now
  state := .top

/-- `totalToSend`, the smaller of the two windows as unsigned numbers. -/
def burstSize (s : Sender) : ℤ :=
  if toUnsigned s.lastAdvtWindow < s.cwindow then s.lastAdvtWindow else toSigned s.cwindow

/-- A cycle up to its first read. -/
def burst (s : Sender) (now : TimeVal) : Except Fault (Sender × List SenderOut) := do
  let index ← checked (s.index + s.burstSize.toNat)
  .ok ({ s with
      index := index
      totalToSend := s.burstSize
      totalToRecv := 0
      tsend := rttTs s.rttinfo now
      state := .reading },
    (List.range s.burstSize.toNat).map fun i : ℕ => .segment (s.index + i))

/-- What runs when `sigsetjmp` returns from `signal_alarm`. -/
def onAlarm (s : Sender) : Sender × List SenderOut :=
  if (rttTimeout s.rttinfo).2 then
    ({ s with rttinfo := (rttTimeout s.rttinfo).1, state := .leaving .giveUp }, [])
  else
    ({ s with
        rttinfo := (rttTimeout s.rttinfo).1
        cwindow := 1
        ssthresh := if s.ssthresh ≥ 2 * ssthreshMin then s.ssthresh / 2 else ssthreshMin
        state := .reading },
      [.segment (toSigned s.ack.currentRequest)])

/-- `rtt_ts`, `rtt_stop` and `rtt_newpack`, with the difference the way the code takes it. -/
def sample (s : Sender) (now : TimeVal) : RttInfo :=
  rttNewpack (rttStop s.rttinfo (s.tsend - rttTs s.rttinfo now))

/-- Behind the inner loop: congestion avoidance, and the choice between `PassiveClose` and
the next cycle. -/
def endCycle (s : Sender) : Sender :=
  { s with
    cwindow :=
      if s.cwindow ≥ s.ssthresh ∧ s.cwindow < toUnsigned s.lastAdvtWindow then s.cwindow + 1
      else s.cwindow
    state := if s.ack.lastackSent = 1 then .awaitFin else .cycleEnd }

def recordAck (s : Sender) (now : TimeVal) : Sender :=
  { s with
    totalToRecv := s.totalToRecv + 1
    rttinfo := s.sample now
    lastAckReceived := toSigned s.ack.currentRequest
    duplicateAck := 0
    currentWindow := toSigned s.ack.advtWindow
    cwindow :=
      if s.cwindow < s.ssthresh ∧ s.cwindow < toUnsigned s.lastAdvtWindow then s.cwindow + 1
      else s.cwindow }

/-- The branch of a new acknowledgement.  The one that is the last to be expected ends the
cycle. -/
def newAck (s : Sender) (now : TimeVal) : Except Fault Sender := do
  let totalToRecv ← checked (s.totalToRecv + 1)
  if totalToRecv = s.totalToSend then
    .ok (endCycle { s.recordAck now with lastAdvtWindow := toSigned s.ack.advtWindow })
  else .ok (s.recordAck now)

def fastRetransmit (s : Sender) (now : TimeVal) : Sender × List SenderOut :=
  ({ s with
      currentWindow :=
        if toUnsigned s.currentWindow > s.ssthresh then toSigned s.ssthresh else s.currentWindow
      cwindow := s.cwindow / 2 + 3
      rttinfo := s.sample now },
    [.segment s.lastAckReceived])

/-- A round of the inner loop after its read. -/
def processAck (s : Sender) (now : TimeVal) : Except Fault (Sender × List SenderOut) :=
  if s.ack.lastackSent = 1 then .ok (s.endCycle, [])
  else if s.ack.advtWindow = 0 then .ok ({ s with state := .probeSleep }, [])
  else if toUnsigned s.lastAckReceived = s.ack.currentRequest then do
    let duplicateAck ← checked (s.duplicateAck + 1)
    let s' : Sender := { s with duplicateAck := duplicateAck }
    if duplicateAck = 2 then .ok (s'.fastRetransmit now) else .ok (s', [])
  else do
    -- `duplicateAck` is `0` then
    let s' ← s.newAck now
    .ok (s', [])

def receive (s : Sender) (r : ReadResult) : Sender :=
  { s with
    ack := r.over s.ack
    currentWindow :=
      match r with
      | .complete a => toSigned a.advtWindow
      | _ => s.currentWindow }

end Sender

/-- `initialWait` doubles, and the next timeout is at most 60 seconds. -/
def Probe.next (p : Probe) : Probe :=
  let initialWait := wrap (p.initialWait * 2)
  { p with
    initialWait := initialWait
    timeout := if wrap (initialWait * 2) ≥ 60 then 60 else initialWait }

namespace Sender

/-- The head of the loop of `clientWindowProbe`. -/
def probe (s : Sender) (p : Probe) : Sender × List SenderOut :=
  if p.networkTimeout = 11 then ({ s with state := .done .probeAbort }, [])
  else ({ s with state := .probing p }, [.segment (toSigned s.ack.currentRequest)])

/-- `clientWindowProbe` reads `a`. -/
def probeRead (s : Sender) (p : Probe) (a : ClientAck) : Sender × List SenderOut :=
  if a.advtWindow ≠ 0 then
    (endCycle { s with ack := a, currentWindow := toSigned a.advtWindow }, [])
  else probe { s with ack := a } p.next

/-- The two records of a round of `PassiveClose`. -/
def closeReply (cfg : ServerConfig) (s : Sender) (numRetry : ℤ) (a : ClientAck) :
    Sender × List SenderOut :=
  let ack := { a with currentRequest := htonl cfg.host ackRequest }
  ({ s with state := .awaitAck numRetry ack },
    [.record ack, .record { finRecord with currentRequest := htonl cfg.host finRequest }])

/-- `PassiveClose` reads `a` first. -/
def closeFirst (cfg : ServerConfig) (s : Sender) (a : ClientAck) : Sender × List SenderOut :=
  if ntohl cfg.host a.currentRequest ≠ finRequest then
    ({ s with state := .leaving (.lastAck false) }, [])
  else s.closeReply cfg 2 a

/-- `PassiveClose` reads `a` later. -/
def closeRead (cfg : ServerConfig) (s : Sender) (numRetry : ℤ) (a : ClientAck) :
    Sender × List SenderOut :=
  if ntohl cfg.host a.currentRequest = ackRequest then
    ({ s with state := .leaving (.lastAck true) }, [])
  else s.closeReply cfg numRetry a

/-- The end of a cycle or of the loop, with the timer off. -/
def disarm (s : Sender) (now : TimeVal) (state : SenderState) : Sender :=
  { s with rttinfo := s.sample now, state := state }

/-- `SIGALRM` can be delivered: in `read` and where it is unblocked, and in the waits of
`clientWindowProbe` and `PassiveClose` unless `set_alarm` happens to hold it back.  The timer
is off before the first burst and between two cycles. -/
def alarmEnabled (cfg : ServerConfig) (s : Sender) : Bool :=
  match s.state with
  | .reading | .cycleEnd | .leaving (.lastAck _) => true
  | .probeSleep | .probing _ | .awaitFin | .awaitAck _ _ => !cfg.alarmBlocked
  | _ => false

def step (cfg : ServerConfig) (s : Sender) : SenderEvent → Option (Sender × List SenderOut)
  | .go now =>
    match s.state with
    | .top =>
      if s.index < cfg.totalNumSegments then (s.burst now).toOption
      else some ({ s with state := .leaving .index }, [])
    | .probeSleep => some (s.probe ⟨6, 6, 0⟩)
    | .cycleEnd =>
      some (disarm { s with lastAdvtWindow := toSigned s.ack.advtWindow } now .top, [])
    | .leaving e => some (s.disarm now (.done e), [])
    | _ => none
  | .read r now =>
    match s.state, r with
    | .reading, r => ((s.receive r).processAck now).toOption
    -- the wrapper `Read` exits
    | .probing _, .error | .awaitFin, .error | .awaitAck _ _, .error =>
      some ({ s with state := .done .readError }, [])
    | .probing p, r => some (s.probeRead p (r.over s.ack))
    | .awaitFin, r => some (s.closeFirst cfg (r.over s.ack))
    | .awaitAck n a, r => some (s.closeRead cfg n (r.over a))
    | _, _ => none
  | .timeout =>
    match s.state with
    | .probing p => some (s.probe { p.next with networkTimeout := p.networkTimeout + 1 })
    | .awaitAck n a =>
      if n - 1 = 0 then some ({ s with state := .leaving (.lastAck true) }, [])
      else some (s.closeReply cfg (n - 1) a)
    | _ => none
  | .alarm => if s.alarmEnabled cfg then some s.onAlarm else none

def heard (s : Sender) : SenderEvent → List ClientAck
  | .read .error _ => []
  | .read r _ =>
    match s.state with
    | .reading | .probing _ => [r.over s.ack]
    | _ => []
  | _ => []

/-- A step sends the segment last asked for: as a probe, on a timeout, or on the third
duplicate. -/
def Resends (s : Sender) : SenderEvent → Prop
  | .go _ => s.state = .probeSleep
  | .read r _ =>
    (s.state = .reading ∧ (r.over s.ack).lastackSent ≠ 1 ∧ (r.over s.ack).advtWindow ≠ 0 ∧
      toUnsigned s.lastAckReceived = (r.over s.ack).currentRequest ∧ s.duplicateAck + 1 = 2) ∨
    r ≠ .error ∧ (r.over s.ack).advtWindow = 0 ∧
      ∃ p, s.state = .probing p ∧ p.networkTimeout ≠ 11
  | .timeout => ∃ p, s.state = .probing p ∧ p.networkTimeout + 1 ≠ 11
  | .alarm => (rttTimeout s.rttinfo).2 = false

/-- The moves of the server: all its steps, with their conditions and what they leave.
`ack` is what the buffer holds after a read. -/
inductive Moves (cfg : ServerConfig) (s : Sender) : SenderEvent → Sender → List SenderOut → Prop
  | burst {now} (hstate : s.state = .top) (hlt : s.index < cfg.totalNumSegments) :
    Moves cfg s (.go now)
      { s with
        index := s.index + s.burstSize.toNat
        totalToSend := s.burstSize
        totalToRecv := 0
        tsend := rttTs s.rttinfo now
        state := .reading }
      ((List.range s.burstSize.toNat).map fun i : ℕ => .segment (s.index + i))
  | exhausted {now} (hstate : s.state = .top) (hge : cfg.totalNumSegments ≤ s.index) :
    Moves cfg s (.go now) { s with state := .leaving .index } []
  | wake {now} (hstate : s.state = .probeSleep) :
    Moves cfg s (.go now) { s with state := .probing ⟨6, 6, 0⟩ }
      [.segment (toSigned s.ack.currentRequest)]
  | nextCycle {now} (hstate : s.state = .cycleEnd) :
    Moves cfg s (.go now)
      (disarm { s with lastAdvtWindow := toSigned s.ack.advtWindow } now .top) []
  | finish {now e} (hstate : s.state = .leaving e) :
    Moves cfg s (.go now) (s.disarm now (.done e)) []
  | lastAck {r now} (hstate : s.state = .reading) (hlast : (r.over s.ack).lastackSent = 1) :
    Moves cfg s (.read r now) (s.receive r).endCycle []
  | zeroWindow {r now} (hstate : s.state = .reading) (hlast : (r.over s.ack).lastackSent ≠ 1)
      (hzero : (r.over s.ack).advtWindow = 0) :
    Moves cfg s (.read r now) { s.receive r with state := .probeSleep } []
  | duplicate {r now} (hstate : s.state = .reading) (hlast : (r.over s.ack).lastackSent ≠ 1)
      (hopen : (r.over s.ack).advtWindow ≠ 0)
      (hdup : toUnsigned s.lastAckReceived = (r.over s.ack).currentRequest)
      (hcount : s.duplicateAck + 1 ≠ 2) :
    Moves cfg s (.read r now) { s.receive r with duplicateAck := s.duplicateAck + 1 } []
  | thirdDuplicate {r now} (hstate : s.state = .reading)
      (hlast : (r.over s.ack).lastackSent ≠ 1) (hopen : (r.over s.ack).advtWindow ≠ 0)
      (hdup : toUnsigned s.lastAckReceived = (r.over s.ack).currentRequest)
      (hcount : s.duplicateAck + 1 = 2) :
    Moves cfg s (.read r now)
      (fastRetransmit { s.receive r with duplicateAck := s.duplicateAck + 1 } now).1
      [.segment s.lastAckReceived]
  | newAck {r now} (hstate : s.state = .reading) (hlast : (r.over s.ack).lastackSent ≠ 1)
      (hopen : (r.over s.ack).advtWindow ≠ 0)
      (hnew : toUnsigned s.lastAckReceived ≠ (r.over s.ack).currentRequest)
      (hcount : s.totalToRecv + 1 ≠ s.totalToSend) :
    Moves cfg s (.read r now) ((s.receive r).recordAck now) []
  | cycleDone {r now} (hstate : s.state = .reading) (hlast : (r.over s.ack).lastackSent ≠ 1)
      (hopen : (r.over s.ack).advtWindow ≠ 0)
      (hnew : toUnsigned s.lastAckReceived ≠ (r.over s.ack).currentRequest)
      (hcount : s.totalToRecv + 1 = s.totalToSend) :
    Moves cfg s (.read r now)
      (endCycle
        { (s.receive r).recordAck now with
          lastAdvtWindow := toSigned (r.over s.ack).advtWindow }) []
  | reopened {r now p} (hstate : s.state = .probing p) (hok : r ≠ .error)
      (hopen : (r.over s.ack).advtWindow ≠ 0) :
    Moves cfg s (.read r now)
      (endCycle
        { s with ack := r.over s.ack, currentWindow := toSigned (r.over s.ack).advtWindow }) []
  | stillClosed {r now p} (hstate : s.state = .probing p) (hok : r ≠ .error)
      (hzero : (r.over s.ack).advtWindow = 0) (htry : p.networkTimeout ≠ 11) :
    Moves cfg s (.read r now) { s with ack := r.over s.ack, state := .probing p.next }
      [.segment (toSigned (r.over s.ack).currentRequest)]
  | probeAgain {p} (hstate : s.state = .probing p) (htry : p.networkTimeout + 1 ≠ 11) :
    Moves cfg s .timeout
      { s with state := .probing { p.next with networkTimeout := p.networkTimeout + 1 } }
      [.segment (toSigned s.ack.currentRequest)]
  | probeAbort {p} (hstate : s.state = .probing p) (htry : p.networkTimeout + 1 = 11) :
    Moves cfg s .timeout { s with state := .done .probeAbort } []
  | probeAbortRead {r now p} (hstate : s.state = .probing p)
      (hzero : (r.over s.ack).advtWindow = 0) (htry : p.networkTimeout = 11) :
    Moves cfg s (.read r now) { s with ack := r.over s.ack, state := .done .probeAbort } []
  | readError {now} (hstate : (∃ p, s.state = .probing p) ∨ s.state = .awaitFin ∨
      ∃ n a, s.state = .awaitAck n a) :
    Moves cfg s (.read .error now) { s with state := .done .readError } []
  | finMissing {r now} (hstate : s.state = .awaitFin)
      (hfin : ntohl cfg.host (r.over s.ack).currentRequest ≠ finRequest) :
    Moves cfg s (.read r now) { s with state := .leaving (.lastAck false) } []
  | finAnswered {r now} (hstate : s.state = .awaitFin)
      (hfin : ntohl cfg.host (r.over s.ack).currentRequest = finRequest) :
    Moves cfg s (.read r now) (s.closeReply cfg 2 (r.over s.ack)).1
      (s.closeReply cfg 2 (r.over s.ack)).2
  | closed {e n a} (hstate : s.state = .awaitAck n a) (he : e ≠ .alarm) :
    Moves cfg s e { s with state := .leaving (.lastAck true) } []
  | closeAgain {e n a n' a'} (hstate : s.state = .awaitAck n a) (he : e ≠ .alarm) :
    Moves cfg s e (s.closeReply cfg n' a').1 (s.closeReply cfg n' a').2
  | resend (hon : s.alarmEnabled cfg = true) (htry : (rttTimeout s.rttinfo).2 = false) :
    Moves cfg s .alarm s.onAlarm.1 [.segment (toSigned s.ack.currentRequest)]
  | giveUp (hon : s.alarmEnabled cfg = true) (hmax : (rttTimeout s.rttinfo).2 = true) :
    Moves cfg s .alarm s.onAlarm.1 []

lemma receive_ack (s : Sender) (r : ReadResult) : (s.receive r).ack = r.over s.ack := rfl

lemma processAck_moves {cfg : ServerConfig} {s t : Sender} {outs : List SenderOut}
    {r : ReadResult} {now : TimeVal} (hstate : s.state = .reading)
    (h : (s.receive r).processAck now = .ok (t, outs)) : Moves cfg s (.read r now) t outs := by
  unfold processAck at h
  by_cases hlast : (s.receive r).ack.lastackSent = 1
  · rw [if_pos hlast] at h
    obtain ⟨rfl, rfl⟩ := Prod.mk.inj (Except.ok.inj h)
    exact .lastAck hstate hlast
  rw [if_neg hlast] at h
  by_cases hzero : (s.receive r).ack.advtWindow = 0
  · rw [if_pos hzero] at h
    obtain ⟨rfl, rfl⟩ := Prod.mk.inj (Except.ok.inj h)
    exact .zeroWindow hstate hlast hzero
  rw [if_neg hzero] at h
  by_cases hdup : toUnsigned (s.receive r).lastAckReceived = (s.receive r).ack.currentRequest
  · rw [if_pos hdup] at h
    simp only [bind, checked_bind_eq_ok] at h
    by_cases hcount : (s.receive r).duplicateAck + 1 = 2
    · replace h := h.2
      rw [if_pos hcount] at h
      obtain ⟨rfl, rfl⟩ := Prod.mk.inj (Except.ok.inj h)
      exact .thirdDuplicate hstate hlast hzero hdup hcount
    · replace h := h.2
      rw [if_neg hcount] at h
      obtain ⟨rfl, rfl⟩ := Prod.mk.inj (Except.ok.inj h)
      exact .duplicate hstate hlast hzero hdup hcount
  · rw [if_neg hdup] at h
    simp only [bind, bind_eq_ok] at h
    obtain ⟨u, hu, h⟩ := h
    obtain ⟨rfl, rfl⟩ := Prod.mk.inj (Except.ok.inj h)
    simp only [newAck, bind, checked_bind_eq_ok] at hu
    by_cases hcount : (s.receive r).totalToRecv + 1 = (s.receive r).totalToSend
    · rw [if_pos hcount] at hu
      obtain rfl := Except.ok.inj hu.2
      exact .cycleDone hstate hlast hzero hdup hcount
    · rw [if_neg hcount] at hu
      obtain rfl := Except.ok.inj hu.2
      exact .newAck hstate hlast hzero hdup hcount

lemma probe_moves {s t : Sender} {outs : List SenderOut} {p : Probe}
    (h : s.probe p = (t, outs)) :
    (p.networkTimeout ≠ 11 ∧ t = { s with state := .probing p } ∧
        outs = [.segment (toSigned s.ack.currentRequest)]) ∨
      p.networkTimeout = 11 ∧ t = { s with state := .done .probeAbort } ∧ outs = [] := by
  unfold probe at h
  split_ifs at h with habort
  · obtain ⟨rfl, rfl⟩ := Prod.mk.inj h
    exact Or.inr ⟨habort, rfl, rfl⟩
  · obtain ⟨rfl, rfl⟩ := Prod.mk.inj h
    exact Or.inl ⟨habort, rfl, rfl⟩

lemma go_moves {cfg : ServerConfig} {s t : Sender} {outs : List SenderOut} {now : TimeVal}
    (h : s.step cfg (.go now) = some (t, outs)) : Moves cfg s (.go now) t outs := by
  simp only [step] at h
  split at h
  · rename_i hstate
    split_ifs at h with hlt
    · simp only [toOption_eq_some, burst, bind, checked_bind_eq_ok] at h
      obtain ⟨rfl, rfl⟩ := Prod.mk.inj (Except.ok.inj h.2)
      exact .burst hstate hlt
    · obtain ⟨rfl, rfl⟩ := Prod.mk.inj (Option.some.inj h)
      exact .exhausted hstate (not_lt.mp hlt)
  · rename_i hstate
    rw [probe, if_neg (show (0 : ℤ) ≠ 11 by decide), Option.some.injEq] at h
    obtain ⟨rfl, rfl⟩ := Prod.mk.inj h
    exact .wake hstate
  · rename_i hstate
    obtain ⟨rfl, rfl⟩ := Prod.mk.inj (Option.some.inj h)
    exact .nextCycle hstate
  · rename_i e hstate
    obtain ⟨rfl, rfl⟩ := Prod.mk.inj (Option.some.inj h)
    exact .finish hstate
  · cases h

lemma read_moves {cfg : ServerConfig} {s t : Sender} {outs : List SenderOut} {r : ReadResult}
    {now : TimeVal} (h : s.step cfg (.read r now) = some (t, outs)) :
    Moves cfg s (.read r now) t outs := by
  simp only [step] at h
  split at h
  · rename_i hstate
    exact processAck_moves hstate (toOption_eq_some.mp h)
  · rename_i p hstate
    obtain ⟨rfl, rfl⟩ := Prod.mk.inj (Option.some.inj h)
    exact .readError (Or.inl ⟨p, hstate⟩)
  · rename_i hstate
    obtain ⟨rfl, rfl⟩ := Prod.mk.inj (Option.some.inj h)
    exact .readError (Or.inr (Or.inl hstate))
  · rename_i n a hstate
    obtain ⟨rfl, rfl⟩ := Prod.mk.inj (Option.some.inj h)
    exact .readError (Or.inr (Or.inr ⟨n, a, hstate⟩))
  · rename_i p hstate hok
    simp only [probeRead, Option.some.injEq] at h
    split_ifs at h with hopen
    · obtain ⟨rfl, rfl⟩ := Prod.mk.inj h
      exact .reopened hstate hok hopen
    · obtain ⟨htry, rfl, rfl⟩ | ⟨habort, rfl, rfl⟩ := probe_moves h
      · exact .stillClosed hstate hok (not_not.mp hopen) htry
      · exact .probeAbortRead hstate (not_not.mp hopen) habort
  · rename_i hstate hok
    simp only [closeFirst, Option.some.injEq] at h
    split_ifs at h with hfin
    · obtain ⟨rfl, rfl⟩ := Prod.mk.inj h
      exact .finMissing hstate hfin
    · obtain ⟨rfl, rfl⟩ := Prod.mk.inj h
      exact .finAnswered hstate (not_not.mp hfin)
  · rename_i n a hstate hok
    simp only [closeRead, Option.some.injEq] at h
    split_ifs at h with hack
    · obtain ⟨rfl, rfl⟩ := Prod.mk.inj h
      exact .closed hstate (by simp)
    · obtain ⟨rfl, rfl⟩ := Prod.mk.inj h
      exact .closeAgain hstate (by simp)
  · cases h

lemma timeout_moves {cfg : ServerConfig} {s t : Sender} {outs : List SenderOut}
    (h : s.step cfg .timeout = some (t, outs)) : Moves cfg s .timeout t outs := by
  simp only [step] at h
  split at h
  · rename_i p hstate
    obtain ⟨htry, rfl, rfl⟩ | ⟨habort, rfl, rfl⟩ := probe_moves (Option.some.inj h)
    · exact .probeAgain hstate htry
    · exact .probeAbort hstate habort
  · rename_i n a hstate
    split_ifs at h with hlast
    · obtain ⟨rfl, rfl⟩ := Prod.mk.inj (Option.some.inj h)
      exact .closed hstate (by simp)
    · obtain ⟨rfl, rfl⟩ := Prod.mk.inj (Option.some.inj h)
      exact .closeAgain hstate (by simp)
  · cases h

lemma alarm_moves {cfg : ServerConfig} {s t : Sender} {outs : List SenderOut}
    (h : s.step cfg .alarm = some (t, outs)) : Moves cfg s .alarm t outs := by
  simp only [step, Option.ite_none_right_eq_some, Option.some.injEq] at h
  obtain ⟨hon, h⟩ := h
  have ht : s.onAlarm.1 = t := congrArg Prod.fst h
  have houts : s.onAlarm.2 = outs := congrArg Prod.snd h
  subst ht houts
  cases hmax : (rttTimeout s.rttinfo).2 with
  | true =>
    have hnone : s.onAlarm.2 = [] := by simp [onAlarm, hmax]
    rw [hnone]
    exact .giveUp hon hmax
  | false =>
    have hsome : s.onAlarm.2 = [.segment (toSigned s.ack.currentRequest)] := by
      simp [onAlarm, hmax]
    rw [hsome]
    exact .resend hon hmax

theorem step_moves {cfg : ServerConfig} {s t : Sender} {e : SenderEvent} {outs : List SenderOut}
    (h : s.step cfg e = some (t, outs)) : Moves cfg s e t outs := by
  cases e with
  | go now => exact go_moves h
  | read r now => exact read_moves h
  | timeout => exact timeout_moves h
  | alarm => exact alarm_moves h

variable {cfg : ServerConfig} {s t : Sender} {e : SenderEvent} {outs : List SenderOut}

@[simp] lemma onAlarm_ack (s : Sender) : s.onAlarm.1.ack = s.ack := by
  unfold onAlarm
  split <;> rfl

@[simp] lemma onAlarm_index (s : Sender) : s.onAlarm.1.index = s.index := by
  unfold onAlarm
  split <;> rfl

@[simp] lemma onAlarm_lastAckReceived (s : Sender) :
    s.onAlarm.1.lastAckReceived = s.lastAckReceived := by
  unfold onAlarm
  split <;> rfl

lemma onAlarm_of_try (h : (rttTimeout s.rttinfo).2 = false) :
    s.onAlarm.1.state = .reading := by
  simp [onAlarm, h]

lemma onAlarm_of_max (h : (rttTimeout s.rttinfo).2 = true) :
    s.onAlarm.1.state = .leaving .giveUp := by
  simp [onAlarm, h]

lemma endCycle_state (s : Sender) :
    s.endCycle.state = if s.ack.lastackSent = 1 then .awaitFin else .cycleEnd := rfl

lemma endCycle_of_last (h : s.ack.lastackSent = 1) : s.endCycle.state = .awaitFin := by
  rw [endCycle_state, if_pos h]

lemma endCycle_of_not_last (h : s.ack.lastackSent ≠ 1) : s.endCycle.state = .cycleEnd := by
  rw [endCycle_state, if_neg h]

lemma heard_getLast? {r : ReadResult} {now : TimeVal}
    (h : s.state = .reading ∨ ∃ p, s.state = .probing p) :
    (s.heard (.read r now)).getLast?.getD s.ack = r.over s.ack := by
  cases r with
  | error => rfl
  | complete a => rcases h with h | ⟨p, h⟩ <;> simp [heard, h]
  | short a => rcases h with h | ⟨p, h⟩ <;> simp [heard, h]

lemma heard_closing {r : ReadResult} {now : TimeVal}
    (h : s.state = .awaitFin ∨ ∃ n a, s.state = .awaitAck n a) :
    s.heard (.read r now) = [] := by
  cases r with
  | error => rfl
  | complete a => rcases h with h | ⟨n, a, h⟩ <;> simp [heard, h]
  | short a => rcases h with h | ⟨n, a, h⟩ <;> simp [heard, h]

theorem Moves.ack_eq (h : Moves cfg s e t outs) :
    t.ack = (s.heard e).getLast?.getD s.ack := by
  cases h with
  | lastAck hs => exact (heard_getLast? (Or.inl hs)).symm
  | zeroWindow hs => exact (heard_getLast? (Or.inl hs)).symm
  | duplicate hs => exact (heard_getLast? (Or.inl hs)).symm
  | thirdDuplicate hs => exact (heard_getLast? (Or.inl hs)).symm
  | newAck hs => exact (heard_getLast? (Or.inl hs)).symm
  | cycleDone hs => exact (heard_getLast? (Or.inl hs)).symm
  | reopened hs => exact (heard_getLast? (Or.inr ⟨_, hs⟩)).symm
  | stillClosed hs => exact (heard_getLast? (Or.inr ⟨_, hs⟩)).symm
  | probeAbortRead hs => exact (heard_getLast? (Or.inr ⟨_, hs⟩)).symm
  | finMissing hs => simp [heard_closing (Or.inl hs)]
  | finAnswered hs => simp [heard_closing (Or.inl hs), closeReply]
  | @closed e n a hs he =>
    cases e with
    | read r now => simp [heard_closing (Or.inr ⟨n, a, hs⟩)]
    | _ => rfl
  | @closeAgain e n a n' a' hs he =>
    cases e with
    | read r now => simp [heard_closing (Or.inr ⟨n, a, hs⟩), closeReply]
    | _ => rfl
  | resend => simp [heard]
  | giveUp => simp [heard]
  | _ => rfl

theorem Moves.segment_mem_iff (h : Moves cfg s e t outs) (hint : InInt s.lastAckReceived)
    (htop : s.state ≠ .top) (n : ℤ) :
    .segment n ∈ outs ↔ s.Resends e ∧ n = toSigned t.ack.currentRequest := by
  cases h with
  | burst hs => exact absurd hs htop
  | exhausted hs => exact absurd hs htop
  | wake hs => simp [Resends, hs]
  | nextCycle hs => simp [Resends, hs]
  | finish hs => simp [Resends, hs]
  | lastAck hs hlast => simp [Resends, hs, hlast]
  | zeroWindow hs hlast hzero => simp [Resends, hs, hzero]
  | duplicate hs hlast hopen hdup hcount => simp [Resends, hs, hcount]
  | @thirdDuplicate r now hs hlast hopen hdup hcount =>
    have hack : (r.over s.ack).currentRequest = toUnsigned s.lastAckReceived := hdup.symm
    have hsent : toSigned (r.over s.ack).currentRequest = s.lastAckReceived := by
      rw [hack, toSigned_toUnsigned hint]
    have hresend : s.Resends (.read r now) := Or.inl ⟨hs, hlast, hopen, hdup, hcount⟩
    show _ ↔ _ ∧ n = toSigned (r.over s.ack).currentRequest
    simp [hsent, hresend]
  | newAck hs hlast hopen hnew => simp [Resends, hs, hnew]
  | cycleDone hs hlast hopen hnew => simp [Resends, hs, hnew]
  | @reopened r now p hs hok hopen =>
    have hnone : ¬ s.Resends (.read r now) := by
      rintro (⟨hr, -⟩ | ⟨-, hzero, -⟩)
      · simp [hs] at hr
      · exact hopen hzero
    simp [hnone]
  | stillClosed hs hok hzero htry => simp [Resends, hs, hok, hzero, htry]
  | probeAgain hs htry => simp [Resends, hs, htry]
  | probeAbort hs htry => simp [Resends, hs, htry]
  | probeAbortRead hs hzero htry => simp [Resends, hs, show _ = (11 : ℤ) from htry]
  | readError hs => rcases hs with ⟨p, hs⟩ | hs | ⟨n, a, hs⟩ <;> simp [Resends, hs]
  | finMissing hs => simp [Resends, hs]
  | finAnswered hs => simp [Resends, hs, closeReply]
  | closed hs he => cases e <;> simp_all [Resends]
  | closeAgain hs he => cases e <;> simp_all [Resends, closeReply]
  | resend hon htry => simp [Resends, htry]
  | giveUp hon hmax => simp [Resends, hmax]

theorem Moves.counters (h : Moves cfg s e t outs) :
    (t.index = s.index ∨ s.state = .top ∧ s.index < cfg.totalNumSegments ∧
        t.index = s.index + s.burstSize.toNat) ∧
      (t.lastAckReceived = s.lastAckReceived ∨
        t.lastAckReceived = toSigned t.ack.currentRequest) := by
  cases h with
  | burst hs hlt => exact ⟨Or.inr ⟨hs, hlt, rfl⟩, Or.inl rfl⟩
  | newAck => exact ⟨Or.inl rfl, Or.inr rfl⟩
  | cycleDone => exact ⟨Or.inl rfl, Or.inr rfl⟩
  | resend => exact ⟨Or.inl (onAlarm_index s), Or.inl (onAlarm_lastAckReceived s)⟩
  | giveUp => exact ⟨Or.inl (onAlarm_index s), Or.inl (onAlarm_lastAckReceived s)⟩
  | _ => exact ⟨Or.inl rfl, Or.inl rfl⟩

theorem Moves.to_top (h : Moves cfg s e t outs) (htop : t.state = .top) :
    s.state = .cycleEnd ∧ t.lastAdvtWindow = toSigned s.ack.advtWindow ∧ s.heard e = [] := by
  cases h with
  | nextCycle hs => exact ⟨hs, rfl, rfl⟩
  | lastAck hs hlast => simp [endCycle_state, receive_ack, hlast] at htop
  | zeroWindow => simp at htop
  | duplicate hs => simp [receive, hs] at htop
  | thirdDuplicate hs => simp [receive, fastRetransmit, hs] at htop
  | newAck hs => simp [receive, recordAck, hs] at htop
  | cycleDone =>
    simp only [endCycle_state] at htop
    split at htop <;> cases htop
  | reopened =>
    simp only [endCycle_state] at htop
    split at htop <;> cases htop
  | resend hon htry => simp [onAlarm_of_try htry] at htop
  | giveUp hon hmax => simp [onAlarm_of_max hmax] at htop
  | _ => cases htop

lemma Moves.cases_of_top (h : Moves cfg s e t outs) (htop : s.state = .top) :
    ∃ now, e = .go now ∧
      ((s.index < cfg.totalNumSegments ∧ t.index = s.index + s.burstSize.toNat ∧
          outs = (List.range s.burstSize.toNat).map fun i : ℕ => .segment (s.index + i)) ∨
        cfg.totalNumSegments ≤ s.index ∧ outs = []) := by
  cases h with
  | burst hs hlt => exact ⟨_, rfl, Or.inl ⟨hlt, rfl, rfl⟩⟩
  | exhausted hs hge => exact ⟨_, rfl, Or.inr ⟨hge, rfl⟩⟩
  | resend hon => simp [alarmEnabled, htop] at hon
  | giveUp hon => simp [alarmEnabled, htop] at hon
  | readError hs => simp [htop] at hs
  | _ hs => simp [htop] at hs

lemma Moves.go_of_top (h : Moves cfg s e t outs) (htop : s.state = .top) : ∃ now, e = .go now := by
  obtain ⟨now, he, -⟩ := h.cases_of_top htop
  exact ⟨now, he⟩

theorem Moves.of_top (h : Moves cfg s e t outs) (htop : s.state = .top) :
    ¬ s.Resends e ∧
      ((s.index < cfg.totalNumSegments ∧
          outs = (List.range s.burstSize.toNat).map fun i : ℕ => .segment (s.index + i)) ∨
        cfg.totalNumSegments ≤ s.index ∧ outs = []) := by
  obtain ⟨now, rfl, hways⟩ := h.cases_of_top htop
  refine ⟨by simp [Resends, htop], ?_⟩
  rcases hways with ⟨hlt, -, houts⟩ | hdone
  · exact Or.inl ⟨hlt, houts⟩
  · exact Or.inr hdone

/-- The server has left its loop other than by giving up: it is in `PassiveClose`, or behind the
loop, which it may have left at the test of `index`, without `PassiveClose`. -/
def Left (s : Sender) : Prop :=
  s.state = .awaitFin ∨ (∃ n a, s.state = .awaitAck n a) ∨
    ∃ r : Ending, r.completes = true ∧ (s.state = .leaving r ∨ s.state = .done r)

lemma endCycle_left_iff (s : Sender) : s.endCycle.Left ↔ s.ack.lastackSent = 1 := by
  by_cases hlast : s.ack.lastackSent = 1
  · exact iff_of_true (Or.inl (endCycle_of_last hlast)) hlast
  · refine iff_of_false ?_ hlast
    simp [Left, endCycle_of_not_last hlast]

/-- The loop is left on the last acknowledgement, read by the inner loop or by the probe, or
at its test. -/
theorem Moves.left (h : Moves cfg s e t outs) (hleft : t.Left) :
    s.Left ∨ (s.state = .top ∧ cfg.totalNumSegments ≤ s.index) ∨
      ∃ r now, e = .read r now ∧ (r.over s.ack).lastackSent = 1 ∧
        (s.state = .reading ∨ ∃ p, s.state = .probing p) := by
  cases h with
  | exhausted hs hge => exact Or.inr (Or.inl ⟨hs, hge⟩)
  | @finish now r hs =>
    rcases hleft with hl | ⟨n, a, hl⟩ | ⟨r', hr, hl | hl⟩
    · cases hl
    · cases hl
    · cases hl
    · obtain rfl : r = r' := by simpa [disarm] using hl
      exact Or.inl (Or.inr (Or.inr ⟨r, hr, Or.inl hs⟩))
  | lastAck hs hlast => exact Or.inr (Or.inr ⟨_, _, rfl, hlast, Or.inl hs⟩)
  | cycleDone hs hlast => exact absurd ((endCycle_left_iff _).mp hleft) hlast
  | reopened hs hok hopen =>
    exact Or.inr (Or.inr ⟨_, _, rfl, (endCycle_left_iff _).mp hleft, Or.inr ⟨_, hs⟩⟩)
  | finMissing hs => exact Or.inl (Or.inl hs)
  | finAnswered hs => exact Or.inl (Or.inl hs)
  | closed hs => exact Or.inl (Or.inr (Or.inl ⟨_, _, hs⟩))
  | closeAgain hs => exact Or.inl (Or.inr (Or.inl ⟨_, _, hs⟩))
  | burst => simp [Left] at hleft
  | wake => simp [Left] at hleft
  | nextCycle => simp [Left, disarm] at hleft
  | zeroWindow => simp [Left] at hleft
  | duplicate hs => simp [Left, receive, hs] at hleft
  | thirdDuplicate hs => simp [Left, receive, fastRetransmit, hs] at hleft
  | newAck hs => simp [Left, receive, recordAck, hs] at hleft
  | stillClosed => simp [Left] at hleft
  | probeAgain => simp [Left] at hleft
  | probeAbort => simp [Left, Ending.completes] at hleft
  | probeAbortRead => simp [Left, Ending.completes] at hleft
  | readError => simp [Left, Ending.completes] at hleft
  | resend hon htry => simp [Left, onAlarm_of_try htry] at hleft
  | giveUp hon hmax => simp [Left, onAlarm_of_max hmax, Ending.completes] at hleft

end Sender

end TcpOverUdp
