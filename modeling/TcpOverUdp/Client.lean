import TcpOverUdp.FileTable
import TcpOverUdp.Delivery

namespace TcpOverUdp
open CWord

structure ClientConfig where
  host : ByteOrder
  sizeT : SizeT
  receivingWindowSize : ℤ
  /-- `serverAck.sentFileLength`, as it came over the wire -/
  sentFileLength : Word

def ClientConfig.fileLength (cfg : ClientConfig) : ℤ := toSigned (ntohl cfg.host cfg.sentFileLength)

def ClientConfig.consumerTotal (cfg : ClientConfig) : ℤ := getSegmentCount cfg.sizeT cfg.fileLength

/-- `totalNumSegments` of `ProducerMainThread`, which gets the length without `ntohl`. -/
def ClientConfig.producerTotal (cfg : ClientConfig) : ℤ :=
  getSegmentCount cfg.sizeT (toSigned cfg.sentFileLength)

/-- Where `ProducerMainThread` stands: waiting in `Select`, past the unlock with the last
acknowledgement still to send, or returned. -/
inductive ProducerState
  | receiving
  | unlocked
  | finished
  deriving DecidableEq, Repr

structure CloseState where
  currentState : ActiveCloseState
  numRetry : ℤ
  twoMSL : ℤ
  deriving DecidableEq, Repr

/-- Where `ConsumerThread` stands: in its loop, waiting in the `Select` of `ActiveClose`, or
done. -/
inductive ConsumerState
  | draining
  | closing (s : CloseState)
  | finished
  deriving DecidableEq, Repr

structure Client where
  recv : Receiver Segment
  lastack : Bool
  count : ℤ
  /-- the bytes written to the file -/
  written : List UInt8
  producer : ProducerState
  consumer : ConsumerState

/-- A datagram of the client: from `SendClientAckWithLoss`, or from `ActiveClose`. -/
inductive ClientOut
  | ack (a : ClientAck)
  | close (a : ClientAck)
  deriving DecidableEq, Repr

def ClientOut.record : ClientOut → ClientAck
  | .ack a => a
  | .close a => a

/-- What the caller of `SlidingWindowGetNextAckIndex` gets; `junk` if it ends without a
return. -/
def SlidingWindow.nextAckIndexOr {α : Type} (junk : ℤ) (s : SlidingWindow α) : Except Fault ℤ :=
  match s.getNextAckIndex with
  | .error .noReturn => .ok junk
  | r => r

/-- `SendClientAckWithLoss`.  The loss is simulated if `drop`; `junk 0` and `junk 1` stand
for the calls of `SlidingWindowGetNextAckIndex` in it. -/
def sendClientAckWithLoss (cfg : ClientConfig) (lastack drop : Bool) (junk : ℕ → ℤ)
    (s : SlidingWindow Segment) : Except Fault (List ClientOut) :=
  if drop then .ok []
  else do
    let n ← s.nextAckIndexOr (junk 0)
    let w ← s.availableWindowSize (s.nextAckIndexOr (junk 1))
    .ok [.ack
      { currentRequest := htonl cfg.host (toUnsigned n)
        advtWindow := htonl cfg.host (toUnsigned w)
        lastackSent := if lastack then 1 else 0 }]

/-- One round of `ProducerMainThread` for a segment it has read.  `loseData` and `loseAck`
are the simulated losses. -/
def producerSection (cfg : ClientConfig) (c : Client) (segment : Segment) (loseData loseAck : Bool)
    (junk : ℕ → ℤ) : Except Fault (Client × List ClientOut) :=
  if loseData then .ok (c, [])
  else do
    let index := toSigned segment.segmentNum
    let s ← c.recv.window.addSegmentToWindow segment index
    let outs ← sendClientAckWithLoss cfg c.lastack loseAck junk s
    let n ← s.nextAckIndexOr (junk 2)
    let c' := { c with recv := c.recv.afterAdd s segment index }
    if n ≥ cfg.producerTotal then .ok ({ c' with lastack := true, producer := .unlocked }, outs)
    else .ok (c', outs)

/-- The last acknowledgement, sent after the unlock. -/
def producerLastAck (cfg : ClientConfig) (c : Client) (drop : Bool) (junk : ℕ → ℤ) :
    Except Fault (Client × List ClientOut) := do
  let outs ← sendClientAckWithLoss cfg c.lastack drop junk c.recv.window
  .ok ({ c with producer := .finished }, outs)

/-- The fetches of one section of `ConsumerThread`, of which `k` are left. -/
def drain (cfg : ClientConfig) : ℕ → Client → Except Fault Client
  -- not reached: a window has no more segments than slots
  | 0, c => .ok c
  | k + 1, c => do
    let (s, outIndex, outBuf) ← c.recv.window.fetchAndRemoveSegmentFromWindow
    let c' := { c with recv := c.recv.afterFetch s outIndex outBuf }
    if outIndex ≥ 0 then
      drain cfg k
        { c' with
          written := c.written ++ consumerWrite cfg.sizeT cfg.fileLength c.count (outBuf.getD default)
          count := c.count + 1 }
    else .ok c'

/-- The locked section of `ConsumerThread`. -/
def consumerSection (cfg : ClientConfig) (c : Client) (drop : Bool) (junk : ℕ → ℤ) :
    Except Fault (Client × List ClientOut) := do
  let w ← c.recv.window.availableWindowSize (c.recv.window.nextAckIndexOr (junk 0))
  let c' ← drain cfg (cfg.receivingWindowSize.toNat + 1) c
  -- a full window was consumed
  if w = 0 then
    let n ← c'.recv.window.nextAckIndexOr (junk 1)
    if n < cfg.consumerTotal then
      let outs ← sendClientAckWithLoss cfg c'.lastack drop (fun i => junk (i + 2)) c'.recv.window
      .ok (c', outs)
    else .ok (c', [])
  else .ok (c', [])

/-- `ActiveClose` reads a datagram whose first bytes are `ack`: the state it waits in
afterwards, and what it sends. -/
def activeCloseRead (host : ByteOrder) (s : CloseState) (ack : ClientAck) :
    CloseState × List ClientOut :=
  if ntohl host ack.currentRequest = ackRequest then
    match s.currentState with
    | .finWait1 => ({ s with currentState := .finWait2 }, [])
    | .closing => ({ s with currentState := .timeWait }, [])
    | _ => (s, [])
  else if ntohl host ack.currentRequest = finRequest then
    let s' :=
      match s.currentState with
      | .finWait1 => { s with currentState := .closing }
      | .finWait2 => { s with currentState := .timeWait }
      | _ => s
    (s', [.close { ack with currentRequest := htonl host ackRequest }])
  -- anything else leaves the inner loop, and the FIN is sent again
  else (s, [.close { finRecord with currentRequest := htonl host finRequest }])

/-- The `Select` of `ActiveClose` times out: the state it waits in afterwards unless it
returns, and what it sends. -/
def activeCloseTimeout (host : ByteOrder) (s : CloseState) : Option CloseState × List ClientOut :=
  if s.currentState = .timeWait then
    if s.twoMSL - 1 = 0 then (none, [])
    else (some { s with twoMSL := s.twoMSL - 1 }, [])
  else if s.numRetry - 1 = 0 then (none, [])
  else
    (some { s with numRetry := s.numRetry - 1 },
      [.close { finRecord with currentRequest := htonl host finRequest }])

/-- The steps of the two threads, which interleave at their locked sections and at the datagrams
they send outside the lock.  Simulated losses, what arrives, timeouts, and the values of calls that
end without a return are inputs. -/
inductive ClientEvent
  /-- the producer reads a segment -/
  | segment (segment : Segment) (loseData loseAck : Bool) (junk : ℕ → ℤ)
  /-- the producer sends the last acknowledgement -/
  | lastAck (drop : Bool) (junk : ℕ → ℤ)
  /-- the consumer goes through its locked section -/
  | consume (drop : Bool) (junk : ℕ → ℤ)
  /-- the consumer leaves its loop and sends the first FIN -/
  | fin
  /-- `ActiveClose` reads a datagram -/
  | closeRead (ack : ClientAck)
  /-- the `Select` of `ActiveClose` times out -/
  | closeTimeout

namespace Client

def start (cfg : ClientConfig) : Client where
  recv := Receiver.start cfg.receivingWindowSize
  lastack := false
  count := 0
  written := []
  producer := .receiving
  consumer := .draining

def step (cfg : ClientConfig) (c : Client) : ClientEvent → Option (Client × List ClientOut)
  | .segment segment loseData loseAck junk =>
    if c.producer = .receiving then
      (producerSection cfg c segment loseData loseAck junk).toOption
    else none
  | .lastAck drop junk =>
    if c.producer = .unlocked then (producerLastAck cfg c drop junk).toOption else none
  | .consume drop junk =>
    if c.consumer = .draining ∧ c.count < cfg.consumerTotal then
      (consumerSection cfg c drop junk).toOption
    else none
  | .fin =>
    if c.consumer = .draining ∧ ¬ c.count < cfg.consumerTotal then
      some ({ c with consumer := .closing ⟨.finWait1, 3, 2⟩ },
        [.close { finRecord with currentRequest := htonl cfg.host finRequest }])
    else none
  | .closeRead ack =>
    match c.consumer with
    | .closing s =>
      let (s', outs) := activeCloseRead cfg.host s ack
      some ({ c with consumer := .closing s' }, outs)
    | _ => none
  | .closeTimeout =>
    match c.consumer with
    | .closing s =>
      match activeCloseTimeout cfg.host s with
      | (some s', outs) => some ({ c with consumer := .closing s' }, outs)
      | (none, outs) => some ({ c with consumer := .finished }, outs)
    | _ => none

def machine (cfg : ClientConfig) : Machine Client ClientEvent :=
  ⟨fun c e => (c.step cfg e).map Prod.fst⟩

lemma machine_step {cfg : ClientConfig} {c t : Client} {e : ClientEvent} :
    (machine cfg).step c e = some t ↔ ∃ outs, c.step cfg e = some (t, outs) := by
  simp [machine]

/-- The sections of the two threads: what each step runs, from where, and what it leaves. -/
inductive Sections (cfg : ClientConfig) (c : Client) : ClientEvent → Client → List ClientOut → Prop
  | producer {segment loseData loseAck junk t outs} (hstate : c.producer = .receiving)
      (hsection : producerSection cfg c segment loseData loseAck junk = .ok (t, outs)) :
    Sections cfg c (.segment segment loseData loseAck junk) t outs
  | lastAck {drop junk outs} (hstate : c.producer = .unlocked)
      (hsend : sendClientAckWithLoss cfg c.lastack drop junk c.recv.window = .ok outs) :
    Sections cfg c (.lastAck drop junk) { c with producer := .finished } outs
  | consumer {drop junk t outs} (hstate : c.consumer = .draining)
      (hmore : c.count < cfg.consumerTotal)
      (hsection : consumerSection cfg c drop junk = .ok (t, outs)) :
    Sections cfg c (.consume drop junk) t outs
  | fin (hstate : c.consumer = .draining) (hall : cfg.consumerTotal ≤ c.count) :
    Sections cfg c .fin { c with consumer := .closing ⟨.finWait1, 3, 2⟩ }
      [.close { finRecord with currentRequest := htonl cfg.host finRequest }]
  | closeRead {ack s consumer outs} (hstate : c.consumer = .closing s)
      (hcons : consumer ≠ .draining) (houts : ∀ o ∈ outs, ∃ a, o = .close a) :
    Sections cfg c (.closeRead ack) { c with consumer := consumer } outs
  | closeTimeout {s consumer outs} (hstate : c.consumer = .closing s)
      (hcons : consumer ≠ .draining) (houts : ∀ o ∈ outs, ∃ a, o = .close a) :
    Sections cfg c .closeTimeout { c with consumer := consumer } outs

lemma activeCloseRead_outs (host : ByteOrder) (s : CloseState) (ack : ClientAck) :
    ∀ o ∈ (activeCloseRead host s ack).2, ∃ a, o = .close a := by
  unfold activeCloseRead
  split_ifs
  · cases s.currentState <;> simp
  · simp
  · simp

lemma activeCloseTimeout_outs (host : ByteOrder) (s : CloseState) :
    ∀ o ∈ (activeCloseTimeout host s).2, ∃ a, o = .close a := by
  unfold activeCloseTimeout
  split_ifs <;> simp

theorem step_sections {cfg : ClientConfig} {c t : Client} {e : ClientEvent} {outs : List ClientOut}
    (h : c.step cfg e = some (t, outs)) : Sections cfg c e t outs := by
  cases e with
  | segment segment loseData loseAck junk =>
    simp only [step, Option.ite_none_right_eq_some, toOption_eq_some] at h
    exact .producer h.1 h.2
  | lastAck drop junk =>
    simp only [step, Option.ite_none_right_eq_some, toOption_eq_some, producerLastAck, bind,
      bind_eq_ok] at h
    obtain ⟨hstate, outs', hsend, h⟩ := h
    obtain ⟨rfl, rfl⟩ := Prod.mk.inj (Except.ok.inj h)
    exact .lastAck hstate hsend
  | consume drop junk =>
    simp only [step, Option.ite_none_right_eq_some, toOption_eq_some] at h
    exact .consumer h.1.1 h.1.2 h.2
  | fin =>
    simp only [step, Option.ite_none_right_eq_some, Option.some.injEq, Prod.mk.injEq] at h
    obtain ⟨⟨hstate, hall⟩, rfl, rfl⟩ := h
    exact .fin hstate (not_lt.mp hall)
  | closeRead ack =>
    simp only [step] at h
    split at h
    · rename_i s hstate
      obtain ⟨rfl, rfl⟩ := Prod.mk.inj (Option.some.inj h)
      exact .closeRead hstate (by simp) (activeCloseRead_outs cfg.host s ack)
    · cases h
  | closeTimeout =>
    simp only [step] at h
    split at h
    · rename_i s hstate
      have hclose := activeCloseTimeout_outs cfg.host s
      split at h
      · rename_i s' outs' hout
        obtain ⟨rfl, rfl⟩ := Prod.mk.inj (Option.some.inj h)
        rw [hout] at hclose
        exact .closeTimeout hstate (by simp) hclose
      · rename_i outs' hout
        obtain ⟨rfl, rfl⟩ := Prod.mk.inj (Option.some.inj h)
        rw [hout] at hclose
        exact .closeTimeout hstate (by simp) hclose
    · cases h

end Client

section Acknowledgement

variable {cfg : ClientConfig} {lastack drop : Bool} {junk : ℕ → ℤ} {outs : List ClientOut}
  {W : ℕ} {s : SlidingWindow Segment} {b : ReceiveBuffer Segment W}

def exactAck (host : ByteOrder) (lastack : Bool) {α : Type} {W : ℕ} (b : ReceiveBuffer α W) :
    ClientAck where
  currentRequest := htonl host (toUnsigned b.missing)
  advtWindow := htonl host (toUnsigned (b.next + W - b.missing))
  lastackSent := if lastack then 1 else 0

/-- A slot is free, or the calls that fall off the end of `SlidingWindowGetNextAckIndex`
give the right edge of the window. -/
def WellDefined (b : ReceiveBuffer Segment W) (junk : ℕ → ℤ) : Prop :=
  b.missing < b.next + W ∨ ∀ i, junk i = b.next + W

lemma SlidingWindow.Represents.nextAckIndexOr_eq (h : s.Represents b)
    (hedge : b.next + W < 2 ^ 31) (x : ℤ) :
    s.nextAckIndexOr x = .ok (if b.missing < b.next + W then (b.missing : ℤ) else x) := by
  rw [nextAckIndexOr, h.getNextAckIndex_eq hedge]
  split_ifs <;> rfl

lemma SlidingWindow.Represents.nextAckIndexOr_cases (h : s.Represents b) {x n : ℤ}
    (hn : s.nextAckIndexOr x = .ok n) :
    (n = b.missing ∧ b.missing < b.next + W) ∨ (n = x ∧ b.missing = b.next + W) := by
  have hloop := h.nextAckLoop_cases W 0 (by omega) b.next_le_missing
  simp only [nextAckIndexOr, getNextAckIndex, h.size, Int.toNat_natCast] at hn
  split at hn
  · rename_i hnone
    exact Or.inr ⟨(Except.ok.inj hn).symm, hloop.2 hnone⟩
  · exact Or.inl (hloop.1 n hn)

lemma SlidingWindow.Represents.nextAckIndexOr_of_wellDefined (h : s.Represents b)
    (hedge : b.next + W < 2 ^ 31) (hjunk : WellDefined b junk) (i : ℕ) :
    s.nextAckIndexOr (junk i) = .ok (b.missing : ℤ) := by
  rw [h.nextAckIndexOr_eq hedge]
  have hle := b.missing_le_edge
  split_ifs with hfree
  · rfl
  · rw [hjunk.resolve_left hfree]
    congr 1
    omega

lemma SlidingWindow.Represents.edge_lt_of_availableWindowSize (h : s.Represents b)
    {next : Except Fault ℤ} {w : ℤ} (hw : s.availableWindowSize next = .ok w) :
    b.next + W < 2 ^ 31 := by
  simp only [availableWindowSize, bind, checked_bind_eq_ok, h.size, h.next] at hw
  have := hw.1.2
  omega

lemma SlidingWindow.Represents.availableWindowSize_eq (h : s.Represents b)
    (hedge : b.next + W < 2 ^ 31) :
    s.availableWindowSize (.ok (b.missing : ℤ)) = .ok (b.next + W - b.missing) := by
  have hle := b.missing_le_edge
  have hin : InInt ((W : ℤ) + b.next) := ⟨by omega, by omega⟩
  have hin' : InInt ((W : ℤ) + b.next - b.missing) := ⟨by omega, by omega⟩
  simp only [availableWindowSize, bind, h.size, h.next, checked_of_inInt hin, ok_bind,
    checked_of_inInt hin']
  rw [add_comm]

lemma sendClientAckWithLoss_ok
    (h : sendClientAckWithLoss cfg lastack drop junk s = .ok outs) :
    (drop = true ∧ outs = []) ∨
      ∃ n w, drop = false ∧ s.nextAckIndexOr (junk 0) = .ok n ∧
        s.availableWindowSize (s.nextAckIndexOr (junk 1)) = .ok w ∧
        outs = [.ack
          { currentRequest := htonl cfg.host (toUnsigned n)
            advtWindow := htonl cfg.host (toUnsigned w)
            lastackSent := if lastack then 1 else 0 }] := by
  cases drop with
  | true => exact Or.inl ⟨rfl, (Except.ok.inj h).symm⟩
  | false =>
    simp only [sendClientAckWithLoss, bind, bind_eq_ok, Bool.false_eq_true, if_false] at h
    obtain ⟨n, hn, w, hw, houts⟩ := h
    exact Or.inr ⟨n, w, rfl, hn, hw, (Except.ok.inj houts).symm⟩

theorem SlidingWindow.Represents.sendClientAckWithLoss_cases (h : s.Represents b)
    (hjunk : WellDefined b junk)
    (hsend : sendClientAckWithLoss cfg lastack drop junk s = .ok outs) :
    (drop = true ∧ outs = []) ∨
      drop = false ∧ b.next + W < 2 ^ 31 ∧ outs = [.ack (exactAck cfg.host lastack b)] := by
  rcases sendClientAckWithLoss_ok hsend with hdrop | ⟨n, w, hdrop, hn, hw, houts⟩
  · exact Or.inl hdrop
  · have hedge := h.edge_lt_of_availableWindowSize hw
    simp only [h.nextAckIndexOr_of_wellDefined hedge hjunk, Except.ok.injEq,
      h.availableWindowSize_eq hedge] at hn hw
    refine Or.inr ⟨hdrop, hedge, ?_⟩
    rw [houts, ← hn, ← hw]
    rfl

lemma toSigned_exactAck {host : ByteOrder} (hedge : b.next + W < 2 ^ 31) :
    toSigned (ntohl host (exactAck host lastack b).currentRequest) = b.missing ∧
      toSigned (ntohl host (exactAck host lastack b).advtWindow) = b.next + W - b.missing := by
  have hle := b.missing_le_edge
  have hge := b.next_le_missing
  simp only [exactAck, ntohl_htonl]
  exact ⟨toSigned_toUnsigned ⟨by omega, by omega⟩, toSigned_toUnsigned ⟨by omega, by omega⟩⟩

end Acknowledgement

end TcpOverUdp
