import TcpOverUdp.ClientMoves
import TcpOverUdp.SenderIndex
import TcpOverUdp.Lib.Channel

namespace TcpOverUdp
open CWord

/-- A transfer of a file between two big-endian hosts, over a channel with one discipline for both
directions.  The two programs may be compiled with different widths of `size_t`. -/
structure TransferConfig where
  file : List UInt8
  file_lt : file.length < 2 ^ 31
  serverSizeT : SizeT
  clientSizeT : SizeT
  receivingWindowSize : ℕ
  window_pos : 0 < receivingWindowSize
  window_lt : receivingWindowSize < 2 ^ 31
  uninitialisedAck : ClientAck
  alarmBlocked : Bool
  channel : Discipline

inductive Datagram
  | segment (s : Segment)
  | record (a : ClientAck)

def Datagram.asClientAck : Datagram → ClientAck
  | .segment s => s.asClientAck
  | .record a => a

namespace TransferConfig

def server (cfg : TransferConfig) : ServerConfig where
  host := .big
  sizeT := cfg.serverSizeT
  fileLength := cfg.file.length
  fileLength_lt := cfg.file_lt
  clientOriginalWindow := toUnsigned cfg.receivingWindowSize
  uninitialisedAck := cfg.uninitialisedAck
  alarmBlocked := cfg.alarmBlocked

def client (cfg : TransferConfig) : ClientConfig where
  host := .big
  sizeT := cfg.clientSizeT
  receivingWindowSize := cfg.receivingWindowSize
  sentFileLength := toUnsigned cfg.file.length

def totalNumSegments (cfg : TransferConfig) : ℕ := (cfg.file.length + 507) / 508

/-- What goes on the wire for an output of the server.  `buf` is what the local `segment` of
`SendSegment` holds.  Beyond the table, where the code reads out of bounds, a segment with any
payload stands for what it does. -/
def datagram (cfg : TransferConfig) (buf : Payload) : SenderOut → Datagram
  | .segment n =>
    match sendSegment cfg.file (initializeFileSegmentInfo cfg.serverSizeT cfg.file.length) buf n with
    | .ok s => .segment s
    | .error _ => .segment ⟨toUnsigned n, buf⟩
  | .record a => .record a

lemma server_totalNumSegments (cfg : TransferConfig) :
    cfg.server.totalNumSegments = cfg.totalNumSegments :=
  getSegmentCount_eq cfg.serverSizeT cfg.file_lt

lemma client_producerTotal (cfg : TransferConfig) :
    cfg.client.producerTotal = cfg.totalNumSegments := by
  have hlt := cfg.file_lt
  have hlen : toSigned (toUnsigned cfg.file.length) = cfg.file.length :=
    toSigned_toUnsigned ⟨by omega, by omega⟩
  rw [ClientConfig.producerTotal, client, hlen]
  exact getSegmentCount_eq cfg.clientSizeT cfg.file_lt

lemma client_consumerTotal (cfg : TransferConfig) :
    cfg.client.consumerTotal = cfg.totalNumSegments := cfg.client_producerTotal

end TransferConfig

def TransferConfig.zeros (n W : ℕ) (channel : Discipline)
    (h : n < 2 ^ 31 ∧ 0 < W ∧ W < 2 ^ 31) : TransferConfig where
  file := List.replicate n 0
  file_lt := by simpa using h.1
  serverSizeT := .bits64
  clientSizeT := .bits64
  receivingWindowSize := W
  window_pos := h.2.1
  window_lt := h.2.2
  uninitialisedAck := ⟨0, 0, 0⟩
  alarmBlocked := true
  channel := channel

/-- The two parties, the datagrams in flight, and the server's steps so far, each with the
state it was taken in. -/
structure Transfer where
  sender : Sender
  client : Client
  toClient : List Datagram
  toServer : List ClientAck
  trace : List (SenderState × SenderEvent)

inductive TransferEvent
  /-- a step of the server that reads nothing; `bufs` fills its segments -/
  | server (e : SenderEvent) (bufs : ℕ → Payload)
  /-- the server reads record `i` of those in flight -/
  | serverRead (i : ℕ) (now : TimeVal) (bufs : ℕ → Payload)
  /-- a step of the client that reads nothing -/
  | client (e : ClientEvent)
  /-- the producer reads datagram `i` of those in flight -/
  | producerRead (i : ℕ) (loseData loseAck : Bool)
  /-- `ActiveClose` reads datagram `i` of those in flight -/
  | closeRead (i : ℕ)

def SenderEvent.reads : SenderEvent → Bool
  | .read .. => true
  | _ => false

def ClientEvent.reads : ClientEvent → Bool
  | .segment .. => true
  | .closeRead .. => true
  | _ => false

def TransferEvent.byServer : TransferEvent → Bool
  | .server .. | .serverRead .. => true
  | _ => false

namespace Transfer

def start (cfg : TransferConfig) (now : TimeVal) : Transfer where
  sender := Sender.start cfg.server now
  client := Client.start cfg.client
  toClient := []
  toServer := []
  trace := []

def afterServer (cfg : TransferConfig) (x : Transfer) (e : SenderEvent) (bufs : ℕ → Payload)
    (rest : List ClientAck) (t : Sender) (outs : List SenderOut) : Transfer :=
  { x with
    sender := t
    toClient := x.toClient ++ outs.zipIdx.map fun p => cfg.datagram (bufs p.2) p.1
    toServer := rest
    trace := x.trace ++ [(x.sender.state, e)] }

def afterClient (x : Transfer) (rest : List Datagram) (t : Client) (outs : List ClientOut) :
    Transfer :=
  { x with
    client := t
    toClient := rest
    toServer := x.toServer ++ outs.map ClientOut.record }

def serve (cfg : TransferConfig) (x : Transfer) (e : SenderEvent) (bufs : ℕ → Payload)
    (rest : List ClientAck) : Option Transfer :=
  (x.sender.step cfg.server e).map fun (t, outs) => x.afterServer cfg e bufs rest t outs

/-- The acknowledgement of a full window is well defined. -/
def act (cfg : TransferConfig) (x : Transfer) (e : ClientEvent) (rest : List Datagram) :
    Option Transfer :=
  (x.client.step cfg.client (x.client.wellDefined e)).map fun (t, outs) =>
    x.afterClient rest t outs

def step (cfg : TransferConfig) (x : Transfer) : TransferEvent → Option Transfer
  | .server e bufs => if e.reads then none else x.serve cfg e bufs x.toServer
  | .serverRead i now bufs =>
    (cfg.channel.receive x.toServer i).bind fun (a, rest) =>
      x.serve cfg (.read (.complete a) now) bufs rest
  | .client e => if e.reads then none else x.act cfg e x.toClient
  | .producerRead i loseData loseAck =>
    (cfg.channel.receive x.toClient i).bind fun (m, rest) =>
      match m with
      | .segment s => x.act cfg (.segment s loseData loseAck fun _ => 0) rest
      -- the producer ignores what is not of the size of a segment
      | .record _ =>
        if x.client.producer = .receiving then some { x with toClient := rest } else none
  | .closeRead i =>
    (cfg.channel.receive x.toClient i).bind fun (m, rest) =>
      x.act cfg (.closeRead m.asClientAck) rest

def machine (cfg : TransferConfig) : Machine Transfer TransferEvent := ⟨step cfg⟩

/-- The records the server has put into `ack`, in the order it has read them. -/
def heard (x : Transfer) : List ClientAck :=
  x.trace.flatMap fun p =>
    match p with
    | (.reading, .read (.complete a) _) => [a]
    | (.probing _, .read (.complete a) _) => [a]
    | _ => []

/-- The moves of a transfer: of the server, with or without a read, of the client, or the
producer skipping a record. -/
inductive Moves (cfg : TransferConfig) (x : Transfer) : TransferEvent → Transfer → Prop
  | serve {e bufs t outs} (hread : e.reads = false)
      (hmove : Sender.Moves cfg.server x.sender e t outs) :
    Moves cfg x (.server e bufs) (x.afterServer cfg e bufs x.toServer t outs)
  | read {i now bufs a rest t outs}
      (hrecv : cfg.channel.receive x.toServer i = some (a, rest))
      (hmove : Sender.Moves cfg.server x.sender (.read (.complete a) now) t outs) :
    Moves cfg x (.serverRead i now bufs)
      (x.afterServer cfg (.read (.complete a) now) bufs rest t outs)
  | act {e e' rest t outs} (hside : e.byServer = false)
      (hstep : x.client.step cfg.client (x.client.wellDefined e') = some (t, outs)) :
    Moves cfg x e (x.afterClient rest t outs)
  | skip {e rest} (hside : e.byServer = false) : Moves cfg x e { x with toClient := rest }

theorem step_moves {cfg : TransferConfig} {x y : Transfer} {e : TransferEvent}
    (h : x.step cfg e = some y) : Moves cfg x e y := by
  have hact : ∀ {e' rest}, e.byServer = false → x.act cfg e' rest = some y → Moves cfg x e y := by
    intro e' rest hside hy
    obtain ⟨⟨t, outs⟩, hstep, rfl⟩ := Option.map_eq_some_iff.mp hy
    exact .act hside hstep
  cases e with
  | server e bufs =>
    simp only [step, Option.ite_none_left_eq_some, Bool.not_eq_true] at h
    obtain ⟨⟨t, outs⟩, hstep, rfl⟩ := Option.map_eq_some_iff.mp h.2
    exact .serve h.1 (Sender.step_moves hstep)
  | serverRead i now bufs =>
    obtain ⟨⟨a, rest⟩, hrecv, h⟩ := Option.bind_eq_some_iff.mp h
    obtain ⟨⟨t, outs⟩, hstep, rfl⟩ := Option.map_eq_some_iff.mp h
    exact .read hrecv (Sender.step_moves hstep)
  | client e =>
    simp only [step, Option.ite_none_left_eq_some] at h
    exact hact rfl h.2
  | producerRead i loseData loseAck =>
    obtain ⟨⟨m, rest⟩, -, h⟩ := Option.bind_eq_some_iff.mp h
    cases m with
    | segment s => exact hact rfl h
    | record a =>
      simp only [Option.ite_none_right_eq_some] at h
      obtain ⟨-, h⟩ := h
      obtain rfl := Option.some.inj h
      exact .skip rfl
  | closeRead i =>
    obtain ⟨⟨m, rest⟩, -, h⟩ := Option.bind_eq_some_iff.mp h
    exact hact rfl h

variable {cfg : TransferConfig} {x y : Transfer} {e : TransferEvent}

lemma heard_serve {e : SenderEvent} {bufs : ℕ → Payload} {rest : List ClientAck} {t : Sender}
    {outs : List SenderOut} (he : e.reads = false) :
    (x.afterServer cfg e bufs rest t outs).heard = x.heard := by
  cases e with
  | read r now => simp [SenderEvent.reads] at he
  | _ => simp [heard, afterServer]

lemma heard_of_not_reads {s : Sender} {e : SenderEvent} (he : e.reads = false) :
    s.heard e = [] := by
  cases e with
  | read r now => cases he
  | _ => rfl

lemma heard_serve_append {e : SenderEvent} {bufs : ℕ → Payload} {rest : List ClientAck}
    {t : Sender} {outs : List SenderOut} (he : e.reads = false) :
    (x.afterServer cfg e bufs rest t outs).heard = x.heard ++ x.sender.heard e := by
  rw [heard_serve he, heard_of_not_reads he, List.append_nil]

lemma heard_read {a : ClientAck} {now : TimeVal} {bufs : ℕ → Payload} {rest : List ClientAck}
    {t : Sender} {outs : List SenderOut} :
    (x.afterServer cfg (.read (.complete a) now) bufs rest t outs).heard =
      x.heard ++ x.sender.heard (.read (.complete a) now) := by
  simp only [heard, afterServer, List.flatMap_append, List.flatMap_singleton, Sender.heard]
  congr 1
  cases x.sender.state <;> rfl

lemma mem_heard_complete {s : Sender} {a b : ClientAck} {now : TimeVal}
    (h : b ∈ s.heard (.read (.complete a) now)) : b = a := by
  simp only [Sender.heard] at h
  split at h
  · simpa [ReadResult.over] using h
  · simpa [ReadResult.over] using h
  · cases h

/-- Before the server has heard anything, it stands before its first burst or waits for the
first record, or has given up. -/
def Fresh (cfg : TransferConfig) (s : Sender) : Prop :=
  (s.state = .top ∧ s.index = 0 ∧ s.lastAdvtWindow = cfg.receivingWindowSize) ∨
    s.state = .reading ∨ (∃ r, s.state = .leaving r) ∨ ∃ r, s.state = .done r

/-- `ack` is the record heard last, and a burst is sent for its window. -/
structure HeardInv (cfg : TransferConfig) (x : Transfer) : Prop where
  index : 0 ≤ x.sender.index
  ack : x.sender.ack = Sender.lastHeard cfg.server x.heard
  fresh : x.heard = [] → Fresh cfg x.sender
  window : x.sender.state = .top → ∀ a, x.heard.getLast? = some a →
    x.sender.lastAdvtWindow = toSigned a.advtWindow

lemma heardInv_start (now : TimeVal) : HeardInv cfg (start cfg now) where
  index := le_rfl
  ack := rfl
  fresh _ := by
    have hlt := cfg.window_lt
    refine Or.inl ⟨rfl, rfl, ?_⟩
    exact toSigned_toUnsigned ⟨by omega, by omega⟩
  window _ a h := by simp [start, heard] at h

lemma Fresh.serve {s t : Sender} {e : SenderEvent} {outs : List SenderOut} (h : Fresh cfg s)
    (he : e.reads = false) (hmove : Sender.Moves cfg.server s e t outs) : Fresh cfg t := by
  cases hmove with
  | burst => exact Or.inr (Or.inl rfl)
  | exhausted => exact Or.inr (Or.inr (Or.inl ⟨_, rfl⟩))
  | finish => exact Or.inr (Or.inr (Or.inr ⟨_, rfl⟩))
  | resend hon htry => exact Or.inr (Or.inl (Sender.onAlarm_of_try htry))
  | giveUp hon hmax => exact Or.inr (Or.inr (Or.inl ⟨_, Sender.onAlarm_of_max hmax⟩))
  | wake hs => simp [Fresh, hs] at h
  | nextCycle hs => simp [Fresh, hs] at h
  | probeAgain hs => simp [Fresh, hs] at h
  | probeAbort hs => simp [Fresh, hs] at h
  | closed hs => simp [Fresh, hs] at h
  | closeAgain hs => simp [Fresh, hs] at h
  | _ => cases he

lemma Fresh.heard_ne_nil {s t : Sender} {a : ClientAck} {now : TimeVal} {outs : List SenderOut}
    (h : Fresh cfg s) (hmove : Sender.Moves cfg.server s (.read (.complete a) now) t outs) :
    s.heard (.read (.complete a) now) = [a] := by
  have hstate : s.state = .reading := by
    rcases h with ⟨h, -⟩ | h | ⟨r, h⟩ | ⟨r, h⟩
    · cases hmove <;> simp_all
    · exact h
    · cases hmove <;> simp_all
    · cases hmove <;> simp_all
  simp [Sender.heard, hstate, ReadResult.over]

lemma HeardInv.afterServer {e : SenderEvent} {bufs : ℕ → Payload} {rest : List ClientAck}
    {t : Sender} {outs : List SenderOut} (h : HeardInv cfg x)
    (hmove : Sender.Moves cfg.server x.sender e t outs)
    (hheard : (x.afterServer cfg e bufs rest t outs).heard = x.heard ++ x.sender.heard e)
    (hfresh : x.heard = [] → x.sender.heard e = [] → Fresh cfg t) :
    HeardInv cfg (x.afterServer cfg e bufs rest t outs) where
  index := by
    have := h.index
    rcases hmove.counters.1 with heq | ⟨-, -, heq⟩
    · exact heq ▸ h.index
    · show 0 ≤ t.index
      omega
  ack := by
    rw [hheard, Sender.lastHeard_append, ← h.ack]
    exact hmove.ack_eq
  fresh hnil := by
    rw [hheard, List.append_eq_nil_iff] at hnil
    exact hfresh hnil.1 hnil.2
  window htop a ha := by
    obtain ⟨-, hwin, hnone⟩ := hmove.to_top htop
    rw [hheard, hnone, List.append_nil] at ha
    show t.lastAdvtWindow = _
    rw [hwin, h.ack, Sender.lastHeard, ha, Option.getD_some]

theorem HeardInv.step (h : HeardInv cfg x) (hstep : x.step cfg e = some y) : HeardInv cfg y := by
  cases step_moves hstep with
  | serve hread hmove =>
    exact h.afterServer hmove (heard_serve_append hread)
      fun hnil _ => (h.fresh hnil).serve hread hmove
  | read hrecv hmove =>
    refine h.afterServer hmove heard_read fun hnil hnone => ?_
    rw [(h.fresh hnil).heard_ne_nil hmove] at hnone
    cases hnone
  | act hside hact => exact ⟨h.index, h.ack, h.fresh, h.window⟩
  | skip => exact ⟨h.index, h.ack, h.fresh, h.window⟩

end Transfer

end TcpOverUdp
