import TcpOverUdp.LiveClients

namespace TcpOverUdp

/-- Where a client stands: not started, in its request loop, past it, or gone after twelve
time-outs. -/
inductive ClientPhase
  | idle
  | requesting (timeoutnum : ℕ)
  | connected
  | exited
  deriving DecidableEq, Repr

/-- The server, its clients and the datagrams of the handshake in flight.  A request is named by
its client and its number, a `ServerAck` by its client and the child whose port it carries, and
the answer to it by the child. -/
structure Handshake where
  parent : Parent
  phase : ClientAddress → ClientPhase
  requests : List (ClientAddress × ℕ)
  serverAcks : List (ClientAddress × ℤ)
  clientAcks : List ℤ

inductive HandshakeEvent
  /-- a client starts; `sent` unless `send` fails -/
  | start (client : ClientAddress) (sent : Bool)
  /-- the `Select` of the request loop times out -/
  | timeout (client : ClientAddress) (sent : Bool)
  /-- the client reads a `ServerAck` and writes it back to the child's port -/
  | recv (client : ClientAddress) (pid : ℤ)
  /-- `recv` fails, and the client writes to the port that `serverAck` happens to hold -/
  | recvError (client : ClientAddress) (pid : ℤ)
  /-- the parent reads a request -/
  | serve (client : ClientAddress) (timeoutnum : ℕ) (fork : ForkResult)
  | child (pid : ℤ) (e : ChildEvent)
  | sigChld
  | loseRequest (client : ClientAddress) (timeoutnum : ℕ)
  | loseServerAck (client : ClientAddress) (pid : ℤ)
  | loseClientAck (pid : ℤ)

def HandshakeEvent.requester : HandshakeEvent → List ClientAddress
  | .serve client _ _ => [client]
  | _ => []

def ForkResult.sends : ForkResult → Bool
  | .failed | .exited _ => false
  | .waiting _ sent => sent

def Parent.reply (p : Parent) (client : ClientAddress) (fork : ForkResult) :
    List (ClientAddress × ℤ) :=
  if p.cInfo.chkRequestRetransmitted client.1 client.2 then []
  else
    match fork with
    | .failed | .exited _ => []
    | .waiting pid sent => if sent then [(client, pid)] else []

namespace Handshake

def start : Handshake where
  parent := .start
  phase := fun _ => .idle
  requests := []
  serverAcks := []
  clientAcks := []

def enter (s : Handshake) (client : ClientAddress) (phase : ClientPhase) : Handshake :=
  { s with phase := Function.update s.phase client phase }

def ask (s : Handshake) (client : ClientAddress) (timeoutnum : ℕ) (sent : Bool) : Handshake :=
  if 12 ≤ timeoutnum then s.enter client .exited
  else
    { s.enter client (.requesting timeoutnum) with
      requests := if sent then s.requests ++ [(client, timeoutnum)] else s.requests }

def reconnect (s : Handshake) (client : ClientAddress) (pid : ℤ) : Handshake :=
  { s.enter client .connected with clientAcks := s.clientAcks ++ [pid] }

def step (s : Handshake) : HandshakeEvent → Option Handshake
  | .start client sent =>
    if s.phase client = .idle then some (s.ask client 0 sent) else none
  | .timeout client sent =>
    match s.phase client with
    | .requesting timeoutnum => some (s.ask client (timeoutnum + 1) sent)
    | _ => none
  | .recv client pid =>
    match s.phase client with
    | .requesting _ => if (client, pid) ∈ s.serverAcks then some (s.reconnect client pid) else none
    | _ => none
  | .recvError client pid =>
    match s.phase client with
    | .requesting _ => some (s.reconnect client pid)
    | _ => none
  | .serve client timeoutnum fork =>
    if (client, timeoutnum) ∈ s.requests then
      (s.parent.step (.request client fork)).map fun p =>
        { s with parent := p, serverAcks := s.serverAcks ++ s.parent.reply client fork }
    else none
  | .child pid e =>
    if e = .read ∧ pid ∉ s.clientAcks then none
    else (s.parent.step (.child pid e)).map fun p => { s with parent := p }
  | .sigChld => (s.parent.step .sigChld).map fun p => { s with parent := p }
  | .loseRequest client timeoutnum =>
    some { s with requests := s.requests.erase (client, timeoutnum) }
  | .loseServerAck client pid => some { s with serverAcks := s.serverAcks.erase (client, pid) }
  | .loseClientAck pid => some { s with clientAcks := s.clientAcks.erase pid }

def machine : Machine Handshake HandshakeEvent := ⟨step⟩

/-- The handshake with the clients of the requests that the parent has read. -/
def remembering : Machine (Handshake × List ClientAddress) HandshakeEvent :=
  machine.ghost fun _ e _ history => history ++ e.requester

/-- The moves of the parent in a step of the handshake. -/
inductive ParentMoves (s : Handshake) : HandshakeEvent → Handshake → Prop
  | serve {client timeoutnum fork p}
      (hp : s.parent.step (.request client fork) = some p) :
    ParentMoves s (.serve client timeoutnum fork)
      { s with parent := p, serverAcks := s.serverAcks ++ s.parent.reply client fork }
  | child {pid e p} (hp : s.parent.step (.child pid e) = some p) :
    ParentMoves s (.child pid e) { s with parent := p }
  | sigChld {p} (hp : s.parent.step .sigChld = some p) :
    ParentMoves s .sigChld { s with parent := p }
  | idle {e t} (hsame : t.parent = s.parent) (hidle : e.requester = []) : ParentMoves s e t

variable {s t : Handshake} {x y : Handshake × List ClientAddress} {e : HandshakeEvent}

lemma parent_ask (s : Handshake) (client : ClientAddress) (timeoutnum : ℕ) (sent : Bool) :
    (s.ask client timeoutnum sent).parent = s.parent := by
  unfold ask
  split_ifs <;> rfl

theorem parentMoves (h : s.step e = some t) : ParentMoves s e t := by
  cases e with
  | start client sent =>
    simp only [step] at h
    split_ifs at h
    obtain rfl := Option.some.inj h
    exact .idle (parent_ask _ _ _ _) rfl
  | timeout client sent =>
    simp only [step] at h
    split at h
    · obtain rfl := Option.some.inj h
      exact .idle (parent_ask _ _ _ _) rfl
    · cases h
  | recv client pid =>
    simp only [step] at h
    split at h
    · split_ifs at h
      obtain rfl := Option.some.inj h
      exact .idle rfl rfl
    · cases h
  | recvError client pid =>
    simp only [step] at h
    split at h
    · obtain rfl := Option.some.inj h
      exact .idle rfl rfl
    · cases h
  | serve client timeoutnum fork =>
    simp only [step] at h
    split_ifs at h
    obtain ⟨p, hp, rfl⟩ := Option.map_eq_some_iff.mp h
    exact .serve hp
  | child pid e =>
    simp only [step] at h
    split_ifs at h
    obtain ⟨p, hp, rfl⟩ := Option.map_eq_some_iff.mp h
    exact .child hp
  | sigChld =>
    simp only [step] at h
    obtain ⟨p, hp, rfl⟩ := Option.map_eq_some_iff.mp h
    exact .sigChld hp
  | loseRequest client timeoutnum =>
    obtain rfl := Option.some.inj h
    exact .idle rfl rfl
  | loseServerAck client pid =>
    obtain rfl := Option.some.inj h
    exact .idle rfl rfl
  | loseClientAck pid =>
    obtain rfl := Option.some.inj h
    exact .idle rfl rfl

lemma remembering_step (h : remembering.step x e = some y) :
    ParentMoves x.1 e y.1 ∧ y.2 = x.2 ++ e.requester := by
  obtain ⟨hstep, hhistory⟩ := Machine.ghost_step.mp h
  exact ⟨parentMoves hstep, hhistory⟩

lemma consistent_step (h : Parent.Consistent (x.1.parent, x.2))
    (hstep : remembering.step x e = some y) : Parent.Consistent (y.1.parent, y.2) := by
  obtain ⟨hmove, hhistory⟩ := remembering_step hstep
  obtain ⟨t, history⟩ := y
  obtain rfl : history = x.2 ++ e.requester := hhistory
  cases hmove with
  | serve hp => exact h.step_parent hp
  | child hp => exact h.step_parent hp
  | sigChld hp => exact h.step_parent hp
  | idle hsame hidle =>
    rw [hsame, hidle, List.append_nil]
    exact h

def acked (s : Handshake) (client : ClientAddress) : ℕ := (s.serverAcks.map Prod.fst).count client

/-- A request that is owed a `ServerAck`: a retransmission of a client in its request loop, or
any request of one that is retrying when no `ServerAck` to it is left. -/
def Owed (s : Handshake) (client : ClientAddress) (number : ℕ) : Prop :=
  match s.phase client with
  | .requesting timeoutnum => 0 < number ∨ (0 < timeoutnum ∧ s.acked client = 0)
  | _ => False

instance (s : Handshake) (client : ClientAddress) (number : ℕ) : Decidable (s.Owed client number) :=
  match h : s.phase client with
  | .requesting timeoutnum =>
    decidable_of_iff (0 < number ∨ (0 < timeoutnum ∧ s.acked client = 0)) (by simp [Owed, h])
  | .idle | .connected | .exited => .isFalse (by simp [Owed, h])

/-- A request that is owed a `ServerAck` brings one forth. -/
def Recovers (x : Handshake × List ClientAddress) (e : HandshakeEvent)
    (y : Handshake × List ClientAddress) : Prop :=
  match e with
  | .serve client number _ =>
    x.1.Owed client number → y.1.acked client = x.1.acked client + 1
  | _ => True

instance (x y : Handshake × List ClientAddress) (e : HandshakeEvent) : Decidable (Recovers x e y) :=
  match e with
  | .serve client number _ => inferInstanceAs (Decidable (x.1.Owed client number → _))
  | .start _ _ | .timeout _ _ | .recv _ _ | .recvError _ _ | .child _ _ | .sigChld
  | .loseRequest _ _ | .loseServerAck _ _ | .loseClientAck _ => .isTrue trivial

/-- A request that is owed a `ServerAck` is the first of its client to reach the parent, or its
client is not among the first twenty, and the child that is forked sends. -/
def Unsuppressed (x : Handshake × List ClientAddress) (e : HandshakeEvent)
    (_ : Handshake × List ClientAddress) : Prop :=
  match e with
  | .serve client number fork =>
    x.1.Owed client number → ¬ AmongFirst 20 x.2 client ∧ fork.sends = true
  | _ => True

lemma count_reply (p : Parent) (client : ClientAddress) (fork : ForkResult) :
    ((p.reply client fork).map Prod.fst).count client =
      if client ∉ p.cInfo.clients ∧ fork.sends = true then 1 else 0 := by
  by_cases hknown : client ∈ p.cInfo.clients
  · simp [Parent.reply, KnownClients.chk_iff, hknown]
  · simp only [Parent.reply, KnownClients.chk_iff, hknown, if_false]
    cases fork with
    | failed => rfl
    | exited pid => rfl
    | waiting pid sent => cases sent <;> simp [ForkResult.sends]

lemma recovers_iff_unsuppressed (hx : Parent.Consistent (x.1.parent, x.2))
    (hstep : remembering.step x e = some y) : Recovers x e y ↔ Unsuppressed x e y := by
  obtain ⟨hmove, -⟩ := remembering_step hstep
  obtain ⟨t, history⟩ := y
  cases hmove with
  | @serve client number fork p hp =>
    have hcount := count_reply x.1.parent client fork
    have hknown : client ∈ x.1.parent.cInfo.clients ↔ AmongFirst 20 x.2 client := hx.known_iff
    refine imp_congr_right fun _ => ?_
    -- a recognised request adds no `ServerAck`, and neither does a child that does not send
    simp only [acked, List.map_append, List.count_append, hcount, ← hknown]
    split_ifs with hsent
    · exact iff_of_true rfl hsent
    · exact iff_of_false (by omega) hsent
  | child => exact Iff.rfl
  | sigChld => exact Iff.rfl
  | idle hsame hidle =>
    cases e with
    | serve client number fork => cases hidle
    | _ => exact Iff.rfl

/-- The handshake recovers in a run in which no request that is owed a `ServerAck` is recognised
as a retransmission, and in no other. -/
theorem recovers_iff (es : List HandshakeEvent) :
    remembering.Along Recovers (start, []) es ↔
      remembering.Along Unsuppressed (start, []) es :=
  Machine.along_congr (P := fun x => Parent.Consistent (x.1.parent, x.2))
    (fun _ _ _ hx hstep => consistent_step hx hstep)
    (fun _ _ _ hx hstep => recovers_iff_unsuppressed hx hstep) Parent.consistent_start es

/-- The only `ServerAck` is lost, and the retransmissions that follow are suppressed, while the
child waits and after it has gone. -/
def lostServerAck : List HandshakeEvent :=
  [.start ("10.0.0.1", 5) true, .serve ("10.0.0.1", 5) 0 (.waiting 1 true),
    .loseServerAck ("10.0.0.1", 5) 1, .timeout ("10.0.0.1", 5) true,
    .serve ("10.0.0.1", 5) 1 (.waiting 2 true), .child 1 .timeout, .sigChld,
    .timeout ("10.0.0.1", 5) true, .serve ("10.0.0.1", 5) 2 (.waiting 2 true)]

/-- The client is still retrying, no `ServerAck` is left, and its requests bring none forth. -/
theorem not_recovers :
    ¬ remembering.Along Recovers (start, []) lostServerAck ∧
      ∃ s, machine.run start lostServerAck = some s ∧
        s.phase ("10.0.0.1", 5) = .requesting 2 ∧ s.serverAcks = [] ∧ s.parent.children = [] := by
  have key : ∀ {r : Option Handshake},
      (r.map fun s => (s.phase ("10.0.0.1", 5), s.serverAcks, s.parent.children)) =
        some (.requesting 2, [], []) →
      ∃ s, r = some s ∧ s.phase ("10.0.0.1", 5) = .requesting 2 ∧ s.serverAcks = [] ∧
        s.parent.children = [] := by
    intro r hobs
    obtain ⟨s, hs, hobs⟩ := Option.map_eq_some_iff.mp hobs
    simp only [Prod.mk.injEq] at hobs
    exact ⟨s, hs, hobs⟩
  exact ⟨by decide +kernel, key (by decide +kernel)⟩

end Handshake

end TcpOverUdp
