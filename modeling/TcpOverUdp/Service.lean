import TcpOverUdp.Establishment
import TcpOverUdp.SegmentCount

namespace TcpOverUdp
open CWord

structure ServerAck where
  sentFileLength : Word
  originalRecvWindow : Word
  deriving DecidableEq, Repr

/-- The files of the server, and what the clients ask for.  Names fit the buffer of a request,
and the hosts are big-endian.  The client of an empty file closes before it is served. -/
structure ServiceConfig where
  files : String → List UInt8
  fileName : ClientAddress → String
  receivingWindowSize : ClientAddress → ℕ
  serverSizeT : SizeT
  clientSizeT : ClientAddress → SizeT
  file_pos : ∀ client, 0 < (files (fileName client)).length
  file_lt : ∀ client, (files (fileName client)).length < 2 ^ 31
  window_pos : ∀ client, 0 < receivingWindowSize client
  window_lt : ∀ client, receivingWindowSize client < 2 ^ 31

structure ChildData where
  requestedFile : List UInt8
  /-- `servInfo.sentFileLength` -/
  sentFileLength : Word
  clientOriginalWindow : Word

/-- The handshake, with the contents of the datagrams in flight, of the children and of the
`serverAck` of each client. -/
structure Service where
  parent : Parent
  phase : ClientAddress → ClientPhase
  requests : List ((ClientAddress × ℕ) × String)
  serverAcks : List ((ClientAddress × ℤ) × ServerAck)
  clientAcks : List (ℤ × ServerAck)
  child : ℤ → ChildData
  serverAck : ClientAddress → ServerAck

/-- An event of the handshake, with what is read: the name in a request, or a record; if `recv`
fails, whatever `serverAck` holds. -/
structure ServiceEvent where
  control : HandshakeEvent
  name : String
  record : ServerAck

namespace Service

def control (s : Service) : Handshake where
  parent := s.parent
  phase := s.phase
  requests := s.requests.map Prod.fst
  serverAcks := s.serverAcks.map Prod.fst
  clientAcks := s.clientAcks.map Prod.fst

def start : Service where
  parent := .start
  phase := fun _ => .idle
  requests := []
  serverAcks := []
  clientAcks := []
  child := fun _ => ⟨[], 0, 0⟩
  serverAck := fun _ => ⟨0, 0⟩

def ask (cfg : ServiceConfig) (s : Service) (client : ClientAddress) (timeoutnum : ℕ)
    (sent : Bool) : Service :=
  if 12 ≤ timeoutnum then { s with phase := Function.update s.phase client .exited }
  else
    { s with
      phase := Function.update s.phase client (.requesting timeoutnum)
      requests :=
        if sent then s.requests ++ [((client, timeoutnum), cfg.fileName client)] else s.requests }

/-- The client puts its window into the record and writes it back, to the port of a child. -/
def reconnect (cfg : ServiceConfig) (s : Service) (client : ClientAddress) (pid : ℤ)
    (record : ServerAck) : Service :=
  let serverAck :=
    { record with originalRecvWindow := toUnsigned (cfg.receivingWindowSize client) }
  { s with
    phase := Function.update s.phase client .connected
    clientAcks := s.clientAcks ++ [(pid, serverAck)]
    serverAck := Function.update s.serverAck client serverAck }

/-- The parent has read a request; a child that is forked opens the file and sends its length. -/
def serve (cfg : ServiceConfig) (s : Service) (client : ClientAddress) (fork : ForkResult)
    (name : String) (p : Parent) : Service :=
  let length := sentFileLength .big (cfg.files name).length
  { s with
    parent := p
    serverAcks := s.serverAcks ++ (s.parent.reply client fork).map fun a => (a, ⟨length, 0⟩)
    child :=
      if s.parent.cInfo.chkRequestRetransmitted client.1 client.2 then s.child
      else
        match fork.child client with
        | none => s.child
        | some c => Function.update s.child c.pid ⟨cfg.files name, length, 0⟩ }

def read (s : Service) (pid : ℤ) (record : ServerAck) (p : Parent) : Service :=
  { s with
    parent := p
    child := Function.update s.child pid
      { s.child pid with clientOriginalWindow := record.originalRecvWindow } }

def step (cfg : ServiceConfig) (s : Service) (e : ServiceEvent) : Option Service :=
  match e.control with
  | .start client sent =>
    if s.phase client = .idle then some (s.ask cfg client 0 sent) else none
  | .timeout client sent =>
    match s.phase client with
    | .requesting timeoutnum => some (s.ask cfg client (timeoutnum + 1) sent)
    | _ => none
  | .recv client pid =>
    match s.phase client with
    | .requesting _ =>
      if ((client, pid), e.record) ∈ s.serverAcks then some (s.reconnect cfg client pid e.record)
      else none
    | _ => none
  | .recvError client pid =>
    match s.phase client with
    | .requesting _ => some (s.reconnect cfg client pid e.record)
    | _ => none
  | .serve client timeoutnum fork =>
    if ((client, timeoutnum), e.name) ∈ s.requests then
      (s.parent.step (.request client fork)).map (s.serve cfg client fork e.name)
    else none
  | .child pid .read =>
    if (pid, e.record) ∈ s.clientAcks then
      (s.parent.step (.child pid .read)).map (s.read pid e.record)
    else none
  | .child pid f => (s.parent.step (.child pid f)).map fun p => { s with parent := p }
  | .sigChld => (s.parent.step .sigChld).map fun p => { s with parent := p }
  | .loseRequest client timeoutnum =>
    some { s with requests := s.requests.erase ((client, timeoutnum), e.name) }
  | .loseServerAck client pid =>
    some { s with serverAcks := s.serverAcks.erase ((client, pid), e.record) }
  | .loseClientAck pid => some { s with clientAcks := s.clientAcks.erase (pid, e.record) }

def machine (cfg : ServiceConfig) : Machine Service ServiceEvent := ⟨step cfg⟩

inductive Moves (cfg : ServiceConfig) (s : Service) : ServiceEvent → Service → Prop
  | start {client sent name record} (hphase : s.phase client = .idle) :
    Moves cfg s ⟨.start client sent, name, record⟩ (s.ask cfg client 0 sent)
  | timeout {client sent timeoutnum name record}
      (hphase : s.phase client = .requesting timeoutnum) :
    Moves cfg s ⟨.timeout client sent, name, record⟩ (s.ask cfg client (timeoutnum + 1) sent)
  | recv {client pid timeoutnum name record} (hphase : s.phase client = .requesting timeoutnum)
      (hack : ((client, pid), record) ∈ s.serverAcks) :
    Moves cfg s ⟨.recv client pid, name, record⟩ (s.reconnect cfg client pid record)
  | recvError {client pid timeoutnum name record}
      (hphase : s.phase client = .requesting timeoutnum) :
    Moves cfg s ⟨.recvError client pid, name, record⟩ (s.reconnect cfg client pid record)
  | serve {client timeoutnum fork name record p}
      (hrequest : ((client, timeoutnum), name) ∈ s.requests)
      (hp : s.parent.step (.request client fork) = some p) :
    Moves cfg s ⟨.serve client timeoutnum fork, name, record⟩ (s.serve cfg client fork name p)
  | read {pid name record p} (hack : (pid, record) ∈ s.clientAcks)
      (hp : s.parent.step (.child pid .read) = some p) :
    Moves cfg s ⟨.child pid .read, name, record⟩ (s.read pid record p)
  | child {pid f name record p} (hread : f ≠ .read)
      (hp : s.parent.step (.child pid f) = some p) :
    Moves cfg s ⟨.child pid f, name, record⟩ { s with parent := p }
  | sigChld {name record p} (hp : s.parent.step .sigChld = some p) :
    Moves cfg s ⟨.sigChld, name, record⟩ { s with parent := p }
  | lose {e requests serverAcks clientAcks} (hloss : e.control.isLoss = true)
      (hrequests : requests ⊆ s.requests) (hserverAcks : serverAcks ⊆ s.serverAcks)
      (hclientAcks : clientAcks ⊆ s.clientAcks) :
    Moves cfg s e { s with
      requests := requests, serverAcks := serverAcks, clientAcks := clientAcks }

variable {cfg : ServiceConfig} {s t : Service} {e : ServiceEvent}

theorem step_moves (h : s.step cfg e = some t) : Moves cfg s e t := by
  obtain ⟨e, name, record⟩ := e
  cases e with
  | start client sent =>
    simp only [step] at h
    split_ifs at h with hphase
    obtain rfl := Option.some.inj h
    exact .start hphase
  | timeout client sent =>
    simp only [step] at h
    split at h
    · rename_i timeoutnum hphase
      obtain rfl := Option.some.inj h
      exact .timeout hphase
    · cases h
  | recv client pid =>
    simp only [step] at h
    split at h
    · rename_i timeoutnum hphase
      split_ifs at h with hack
      obtain rfl := Option.some.inj h
      exact .recv hphase hack
    · cases h
  | recvError client pid =>
    simp only [step] at h
    split at h
    · rename_i timeoutnum hphase
      obtain rfl := Option.some.inj h
      exact .recvError hphase
    · cases h
  | serve client timeoutnum fork =>
    simp only [step] at h
    split_ifs at h with hrequest
    obtain ⟨p, hp, rfl⟩ := Option.map_eq_some_iff.mp h
    exact .serve hrequest hp
  | child pid f =>
    cases f with
    | read =>
      simp only [step] at h
      split_ifs at h with hack
      obtain ⟨p, hp, rfl⟩ := Option.map_eq_some_iff.mp h
      exact .read hack hp
    | timeout =>
      obtain ⟨p, hp, rfl⟩ := Option.map_eq_some_iff.mp h
      exact .child (by decide) hp
    | exit =>
      obtain ⟨p, hp, rfl⟩ := Option.map_eq_some_iff.mp h
      exact .child (by decide) hp
  | sigChld =>
    simp only [step] at h
    obtain ⟨p, hp, rfl⟩ := Option.map_eq_some_iff.mp h
    exact .sigChld hp
  | loseRequest client timeoutnum =>
    obtain rfl := Option.some.inj h
    exact .lose rfl List.erase_subset (List.Subset.refl _) (List.Subset.refl _)
  | loseServerAck client pid =>
    obtain rfl := Option.some.inj h
    exact .lose rfl (List.Subset.refl _) List.erase_subset (List.Subset.refl _)
  | loseClientAck pid =>
    obtain rfl := Option.some.inj h
    exact .lose rfl (List.Subset.refl _) (List.Subset.refl _) List.erase_subset

lemma control_ask (s : Service) (client : ClientAddress) (n : ℕ) (sent : Bool) :
    (s.ask cfg client n sent).control = s.control.ask client n sent := by
  unfold ask Handshake.ask
  split_ifs <;> simp [control, Handshake.enter]

lemma control_reconnect (s : Service) (client : ClientAddress) (pid : ℤ) (record : ServerAck) :
    (s.reconnect cfg client pid record).control = s.control.reconnect client pid := by
  simp [reconnect, control, Handshake.reconnect, Handshake.enter]

lemma control_serve (s : Service) (client : ClientAddress) (fork : ForkResult) (name : String)
    (p : Parent) :
    (s.serve cfg client fork name p).control =
      { s.control with
        parent := p, serverAcks := s.control.serverAcks ++ s.parent.reply client fork } := by
  simp [serve, control, Function.comp_def]

theorem Moves.control (h : Moves cfg s e t) : s.control.Moves e.control t.control := by
  cases h with
  | start hphase =>
    rw [control_ask]
    exact .start hphase
  | timeout hphase =>
    rw [control_ask]
    exact .timeout hphase
  | recv hphase hack =>
    rw [control_reconnect]
    exact .recv hphase (List.mem_map_of_mem hack)
  | recvError hphase =>
    rw [control_reconnect]
    exact .recvError hphase
  | serve hrequest hp =>
    rw [control_serve]
    exact .serve (List.mem_map_of_mem hrequest) hp
  | read hack hp => exact .child (fun _ => List.mem_map_of_mem hack) hp
  | child hread hp => exact .child (fun he => absurd he hread) hp
  | sigChld hp => exact .sigChld hp
  | lose hloss hrequests hserverAcks hclientAcks =>
    exact .lose hloss (List.map_subset _ hrequests) (List.map_subset _ hserverAcks)
      (List.map_subset _ hclientAcks)

end Service

end TcpOverUdp
