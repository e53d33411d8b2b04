import TcpOverUdp.ActiveClose
import TcpOverUdp.CloseRecords
import TcpOverUdp.Samples

namespace TcpOverUdp
open CWord

/-- What `PassiveClose` can meet: a record, a timeout of its `Select`, or the timer of the last
burst, which is not off before `PassiveClose` has returned. -/
inductive PassiveEvent
  | read (ack : ClientAck)
  | timeout
  | alarm
  deriving DecidableEq, Repr

namespace PassiveEvent

def toServer : PassiveEvent → SenderEvent
  | .read ack => .read (.complete ack) ⟨0, 0⟩
  | .timeout => .timeout
  | .alarm => .alarm

def isTimeout : PassiveEvent → Bool
  | .timeout => true
  | _ => false

def readsAck (host : ByteOrder) : PassiveEvent → Bool
  | .read ack => ntohl host ack.currentRequest = ackRequest
  | _ => false

/-- What can come before the FIN, in the first `Read`: another record, or `SIGALRM` unless
`set_alarm` holds it back. -/
def Early (cfg : ServerConfig) : PassiveEvent → Prop
  | .read ack => ntohl cfg.host ack.currentRequest ≠ finRequest
  | .timeout => False
  | .alarm => cfg.alarmBlocked = false

end PassiveEvent

/-- The server in `PassiveClose`, with what it has sent there. -/
structure PassiveClose where
  server : Sender
  sent : List SenderOut

namespace PassiveClose

def enter (s : Sender) : PassiveClose := ⟨s, []⟩

/-- `PassiveClose` has returned, or `signal_alarm` has jumped out of it. -/
def returned (p : PassiveClose) : Bool := !p.server.state.inPassiveClose

def step (cfg : ServerConfig) (p : PassiveClose) (e : PassiveEvent) : PassiveClose :=
  if p.returned then p
  else
    match p.server.step cfg e.toServer with
    | some (t, outs) => ⟨t, p.sent ++ outs⟩
    | none => p

def deliver (cfg : ServerConfig) (s : Sender) (es : List PassiveEvent) : PassiveClose :=
  es.foldl (step cfg) (enter s)

/-- The record `f` that is delivered after `early` is answered by an ACK and a FIN. -/
def Answered (cfg : ServerConfig) (s : Sender) (early : List PassiveEvent) (f : PassiveEvent) :
    Prop :=
  ∃ ack fin, (deliver cfg s (early ++ [f])).sent =
      (deliver cfg s early).sent ++ [.record ack, .record fin] ∧
    ntohl cfg.host ack.currentRequest = ackRequest ∧
    ntohl cfg.host fin.currentRequest = finRequest

/-- An ACK has been read, or the `Select` has timed out twice. -/
def Over (cfg : ServerConfig) (es : List PassiveEvent) : Prop :=
  (∃ e ∈ es, e.readsAck cfg.host = true) ∨ 2 ≤ es.countP PassiveEvent.isTimeout

/-- At no point of `es`, behind the record `f`, has `PassiveClose` been left before it was over. -/
def WaitsForAck (cfg : ServerConfig) (s : Sender) (early : List PassiveEvent) (f : PassiveEvent)
    (es : List PassiveEvent) : Prop :=
  ∀ past, past <+: es → (deliver cfg s (early ++ f :: past)).returned = true → Over cfg past

/-- No `SIGALRM` is delivered before `PassiveClose` is over. -/
def Undisturbed (cfg : ServerConfig) (es : List PassiveEvent) : Prop :=
  cfg.alarmBlocked = false → ∀ past, past ++ [.alarm] <+: es → Over cfg past

variable {cfg : ServerConfig} {s : Sender} {p : PassiveClose} {e : PassiveEvent}
  {es : List PassiveEvent}

lemma step_of_returned (h : p.returned = true) : step cfg p e = p := if_pos h

lemma foldl_of_returned (h : p.returned = true) : es.foldl (step cfg) p = p := by
  induction es with
  | nil => rfl
  | cons e es ih => rw [List.foldl_cons, step_of_returned h, ih]

lemma deliver_append (es fs : List PassiveEvent) :
    deliver cfg s (es ++ fs) = fs.foldl (step cfg) (deliver cfg s es) := List.foldl_append

lemma returned_of_awaitFin {q : PassiveClose} (h : q.server.state = .awaitFin) :
    q.returned = false := by
  simp [returned, h, SenderState.inPassiveClose]

lemma returned_of_awaitAck {q : PassiveClose} {n : ℤ} {a : ClientAck}
    (h : q.server.state = .awaitAck n a) : q.returned = false := by
  simp [returned, h, SenderState.inPassiveClose]

lemma step_stale (hs : p.server.state = .awaitFin) {a : ClientAck}
    (ha : ntohl cfg.host a.currentRequest ≠ finRequest) :
    step cfg p (.read a) =
      { p with server := { p.server with state := .leaving (.lastAck false) } } := by
  simp [step, returned_of_awaitFin hs, PassiveEvent.toServer, Sender.step, hs, Sender.closeFirst,
    ReadResult.over, ha]

lemma step_fin (hs : p.server.state = .awaitFin) {a : ClientAck}
    (ha : ntohl cfg.host a.currentRequest = finRequest) :
    step cfg p (.read a) =
      ⟨(p.server.closeReply cfg 2 a).1, p.sent ++ (p.server.closeReply cfg 2 a).2⟩ := by
  simp [step, returned_of_awaitFin hs, PassiveEvent.toServer, Sender.step, hs, Sender.closeFirst,
    ReadResult.over, ha]

/-- `signal_alarm` jumps to the inner loop, or behind the outer one when `rtt_timeout` gives up. -/
lemma step_alarm (hopen : p.returned = false) (hon : cfg.alarmBlocked = false) :
    (step cfg p .alarm).returned = true := by
  have hin : p.server.state.inPassiveClose = true := by simpa [returned] using hopen
  have henabled : p.server.alarmEnabled cfg = true := by
    cases hs : p.server.state <;> simp_all [SenderState.inPassiveClose, Sender.alarmEnabled]
  have hstep : p.server.step cfg PassiveEvent.alarm.toServer = some p.server.onAlarm :=
    if_pos henabled
  simp only [step, hopen, hstep, Bool.false_eq_true, if_false]
  cases hmax : (rttTimeout p.server.rttinfo).2 with
  | true => simp [returned, Sender.onAlarm_of_max hmax, SenderState.inPassiveClose]
  | false => simp [returned, Sender.onAlarm_of_try hmax, SenderState.inPassiveClose]

lemma step_alarm_of_blocked {n : ℤ} {a : ClientAck} (hs : p.server.state = .awaitAck n a)
    (hoff : cfg.alarmBlocked = true) : step cfg p .alarm = p := by
  simp [step, returned_of_awaitAck hs, PassiveEvent.toServer, Sender.step, Sender.alarmEnabled, hs,
    hoff]

lemma returned_of_early (hs : p.server.state = .awaitFin) (he : e.Early cfg) :
    (step cfg p e).returned = true := by
  cases e with
  | read a =>
    rw [step_stale hs he]
    rfl
  | timeout => exact he.elim
  | alarm => exact step_alarm (returned_of_awaitFin hs) he

lemma Over.append (h : Over cfg es) (fs : List PassiveEvent) : Over cfg (es ++ fs) := by
  refine h.imp (fun ⟨e, he, hack⟩ => ⟨e, List.mem_append_left fs he, hack⟩) fun htwo => ?_
  rw [List.countP_append]
  omega

lemma Over.of_prefix {fs : List PassiveEvent} (h : Over cfg es) (hpre : es <+: fs) :
    Over cfg fs := by
  obtain ⟨more, rfl⟩ := hpre
  exact h.append more

lemma over_concat_alarm : Over cfg (es ++ [.alarm]) ↔ Over cfg es := by
  simp [Over, PassiveEvent.readsAck, PassiveEvent.isTimeout]

lemma undisturbed_append (h : Over cfg es) (hquiet : .alarm ∉ es) (more : List PassiveEvent) :
    Undisturbed cfg (es ++ more) := by
  intro _ past hpast
  rcases List.prefix_or_prefix_of_prefix hpast (List.prefix_append es more) with hpre | hpre
  · exact absurd (hpre.subset (List.mem_append_right past List.mem_cons_self)) hquiet
  · rcases List.prefix_concat_iff.mp hpre with rfl | hpre
    · exact absurd (List.mem_append_right past List.mem_cons_self) hquiet
    · exact h.of_prefix hpre

/-- `numRetry` is what two timeouts leave, until `PassiveClose` is over. -/
def Waiting (cfg : ServerConfig) (es : List PassiveEvent) (p : PassiveClose) : Prop :=
  (∃ n a, p.server.state = .awaitAck n a ∧ n + es.countP PassiveEvent.isTimeout = 2) ∨ Over cfg es

lemma Waiting.step (h : Waiting cfg es p)
    (halarm : e = .alarm → cfg.alarmBlocked = true ∨ Over cfg es) :
    Waiting cfg (es ++ [e]) (step cfg p e) := by
  obtain ⟨n, a, hs, hn⟩ | hover := h
  · cases e with
    | read b =>
      by_cases hack : ntohl cfg.host b.currentRequest = ackRequest
      · exact Or.inr (Or.inl ⟨.read b, by simp, by simpa [PassiveEvent.readsAck] using hack⟩)
      · refine Or.inl ⟨n, { b with currentRequest := htonl cfg.host ackRequest }, ?_, ?_⟩
        · simp [PassiveClose.step, returned_of_awaitAck hs, PassiveEvent.toServer, Sender.step, hs,
            Sender.closeRead, Sender.closeReply, ReadResult.over, hack]
        · simpa [PassiveEvent.isTimeout] using hn
    | timeout =>
      by_cases hlast : n - 1 = 0
      · right
        right
        simp only [List.countP_append, List.countP_singleton, PassiveEvent.isTimeout, if_true]
        omega
      · refine Or.inl ⟨n - 1, { a with currentRequest := htonl cfg.host ackRequest }, ?_, ?_⟩
        · simp [PassiveClose.step, returned_of_awaitAck hs, PassiveEvent.toServer, Sender.step, hs,
            Sender.closeReply, hlast]
        · simp only [List.countP_append, List.countP_singleton, PassiveEvent.isTimeout, if_true]
          push_cast
          omega
    | alarm =>
      rcases halarm rfl with hoff | hover
      · refine Or.inl ⟨n, a, ?_, ?_⟩
        · rw [step_alarm_of_blocked hs hoff]
          exact hs
        · simpa [PassiveEvent.isTimeout] using hn
      · exact Or.inr (hover.append _)
  · exact Or.inr (hover.append _)

lemma Waiting.foldl (h : Waiting cfg [] p) (hcalm : Undisturbed cfg es)
    {past : List PassiveEvent} (hpast : past <+: es) :
    Waiting cfg past (past.foldl (PassiveClose.step cfg) p) := by
  induction past using List.reverseRecOn with
  | nil => exact h
  | append_singleton past e ih =>
    rw [List.foldl_append]
    refine (ih ((List.prefix_append past [e]).trans hpast)).step ?_
    rintro rfl
    cases hoff : cfg.alarmBlocked with
    | true => exact Or.inl rfl
    | false => exact Or.inr (hcalm hoff past hpast)

/-- `PassiveClose` is a part of the server: while it runs, its steps are those of the server. -/
theorem server_step (hrun : p.returned = false) {t : Sender} {outs : List SenderOut}
    (hstep : p.server.step cfg e.toServer = some (t, outs)) :
    step cfg p e = ⟨t, p.sent ++ outs⟩ := by
  simp [step, hrun, hstep]

lemma early_of_answered (hs : s.state = .awaitFin) {early : List PassiveEvent}
    (hearly : ∀ e ∈ early, e.Early cfg) {f : PassiveEvent} (h : Answered cfg s early f) :
    early = [] := by
  obtain ⟨ack, fin, hsent, -⟩ := h
  cases early with
  | nil => rfl
  | cons e early =>
    -- the first event makes it return, and the rest is not read
    have hret : ((enter s).step cfg e).returned = true :=
      returned_of_early (p := enter s) hs (hearly e List.mem_cons_self)
    have hall : ∀ es, deliver cfg s (e :: es) = (enter s).step cfg e :=
      fun es => foldl_of_returned hret
    rw [List.cons_append, hall, hall] at hsent
    have := congrArg List.length hsent
    simp at this

lemma undisturbed_of_waits {early : List PassiveEvent} {f : PassiveEvent}
    (h : WaitsForAck cfg s early f es) : Undisturbed cfg es := by
  intro hon past hpast
  by_contra hover
  have hopen : (deliver cfg s (early ++ f :: past)).returned = false := by
    by_contra hret
    exact hover (h past ((List.prefix_append _ _).trans hpast) (by simpa using hret))
  have halarm : (deliver cfg s (early ++ f :: (past ++ [.alarm]))).returned = true := by
    rw [← List.cons_append, ← List.append_assoc, deliver_append]
    exact step_alarm hopen hon
  exact hover (over_concat_alarm.mp (h _ hpast halarm))

/-- A FIN is answered, and its answer waited for, if and only if nothing is delivered before it,
neither a record nor `SIGALRM`, and no `SIGALRM` comes before the ACK or the second timeout. -/
theorem answers_fin_iff (cfg : ServerConfig) (s : Sender) (hs : s.state = .awaitFin)
    (early : List PassiveEvent) (hearly : ∀ e ∈ early, e.Early cfg) (f : ClientAck)
    (hf : ntohl cfg.host f.currentRequest = finRequest) (es : List PassiveEvent) :
    (Answered cfg s early (.read f) ∧ WaitsForAck cfg s early (.read f) es) ↔
      early = [] ∧ Undisturbed cfg es := by
  constructor
  · rintro ⟨hanswered, hwaits⟩
    exact ⟨early_of_answered hs hearly hanswered, undisturbed_of_waits hwaits⟩
  · rintro ⟨rfl, hcalm⟩
    have hfirst : deliver cfg s [.read f] =
        ⟨(s.closeReply cfg 2 f).1, (s.closeReply cfg 2 f).2⟩ := step_fin (p := enter s) hs hf
    have hwait : Waiting cfg [] (deliver cfg s [.read f]) := by
      rw [hfirst]
      exact Or.inl ⟨2, _, rfl, rfl⟩
    refine ⟨⟨_, _, congrArg PassiveClose.sent hfirst, by simp, by simp⟩, fun past hpast hret => ?_⟩
    rcases hwait.foldl hcalm hpast with ⟨n, a, hstate, -⟩ | hover
    · rw [List.nil_append, ← List.singleton_append, deliver_append,
        returned_of_awaitAck hstate] at hret
      cases hret
    · exact hover

def oneSegment : ServerConfig := ⟨.big, .bits64, 100, by decide, 4, ⟨0, 0, 0⟩, false⟩

def lastAckOfOne : ClientAck := ⟨1, 4, 1⟩

def acknowledged : Option Sender :=
  (Sender.machine oneSegment).run (Sender.start oneSegment ⟨0, 0⟩)
    [.go ⟨0, 0⟩, .read (.complete lastAckOfOne) ⟨0, 0⟩]

def untilAck : List PassiveEvent :=
  [.timeout, .read ⟨finRequest, 0, 0⟩, .read ⟨ackRequest, 0, 0⟩]

theorem answers_fin_first :
    ∃ s, acknowledged = some s ∧ Answered oneSegment s [] (.read ⟨finRequest, 0, 0⟩) ∧
      WaitsForAck oneSegment s [] (.read ⟨finRequest, 0, 0⟩) (untilAck ++ [.alarm]) := by
  have hover : Over oneSegment untilAck :=
    Or.inl ⟨.read ⟨ackRequest, 0, 0⟩, by simp [untilAck], rfl⟩
  exact ⟨_, rfl, (answers_fin_iff oneSegment _ rfl [] (by simp) ⟨finRequest, 0, 0⟩ rfl _).mpr
    ⟨rfl, undisturbed_append hover (by decide) [.alarm]⟩⟩

/-- A second copy of the last acknowledgement makes `PassiveClose` return. -/
theorem not_answers_fin :
    ¬ ∀ (cfg : ServerConfig) (s : Sender), s.state = .awaitFin → ∀ stale : List ClientAck,
      (∀ a ∈ stale, ntohl cfg.host a.currentRequest ≠ finRequest) → ∀ f : ClientAck,
        ntohl cfg.host f.currentRequest = finRequest →
          Answered cfg s (stale.map .read) (.read f) ∧
            ∀ es, WaitsForAck cfg s (stale.map .read) (.read f) es := by
  intro h
  obtain ⟨s, hrun, hs⟩ : ∃ s, acknowledged = some s ∧ s.state = .awaitFin := ⟨_, rfl, rfl⟩
  have hnot : ∀ a ∈ [lastAckOfOne], ntohl oneSegment.host a.currentRequest ≠ finRequest := by
    decide
  obtain ⟨ack, fin, hsent, -⟩ :=
    (h oneSegment s hs [lastAckOfOne] hnot ⟨finRequest, 0, 0⟩ rfl).1
  have hstale : (enter s).step oneSegment (.read lastAckOfOne) =
      ⟨{ s with state := .leaving (.lastAck false) }, []⟩ :=
    step_stale hs (hnot _ (by simp))
  have hnone : (deliver oneSegment s [.read lastAckOfOne, .read ⟨finRequest, 0, 0⟩]).sent = [] := by
    show (((enter s).step oneSegment (.read lastAckOfOne)).step oneSegment _).sent = []
    rw [hstale]
    rfl
  exact absurd (hnone.symm.trans hsent) (by simp)

end PassiveClose

end TcpOverUdp
