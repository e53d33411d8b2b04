import TcpOverUdp.Windows
import TcpOverUdp.Integrity

namespace TcpOverUdp
open CWord

namespace ReceiveBuffer

variable {α : Type} {W n : ℕ} {b : ReceiveBuffer α W} {x : α}

lemma missing_of_free (h : ∀ m, b.held m = none) : b.missing = b.next :=
  b.missing_eq_next_iff.mpr (h _)

lemma missing_accept_next (h : ∀ m, b.held m = none) (hW : 0 < W) :
    (b.accept b.next x).missing = b.next + 1 := by
  have hheld : (b.accept b.next x).held b.next = some x :=
    accept_held_self le_rfl (by omega) (h _)
  refine missing_eq ?_ fun m hm => ?_
  · rw [taken_accept, Taken, h]
    simp
  · rw [taken_accept]
    rcases Nat.lt_or_ge m b.next with hlt | hge
    · exact Or.inl (Or.inl hlt)
    · exact Or.inr ⟨by omega, le_rfl, by omega⟩

end ReceiveBuffer

namespace Client

variable {cfg : ClientConfig} {c : Client} {W n : ℕ} {b : ReceiveBuffer Segment W}

/-- A client that has consumed all it has received, `n` segments in order; `last` once they are
all it waits for. -/
structure UpToDate (W n : ℕ) (last : Bool) (c : Client) : Prop where
  buffer : ∃ b : ReceiveBuffer Segment W, c.recv.Follows b ∧ b.next = n ∧ ∀ m, b.held m = none
  count : c.count = n
  lastack : c.lastack = last
  producer : c.producer = if last then .unlocked else .receiving
  consumer : c.consumer = .draining

lemma sendClientAckWithLoss_of_free (cfg : ClientConfig) {s : SlidingWindow Segment}
    (h : s.Represents b) (hedge : b.next + W < 2 ^ 31) (hfree : b.missing < b.next + W)
    (lastack : Bool) (junk : ℕ → ℤ) :
    sendClientAckWithLoss cfg lastack false junk s = .ok [.ack (exactAck cfg.host lastack b)] := by
  have hnext : ∀ x, s.nextAckIndexOr x = .ok (b.missing : ℤ) := fun x => by
    rw [h.nextAckIndexOr_eq hedge, if_pos hfree]
  simp only [sendClientAckWithLoss, Bool.false_eq_true, if_false, hnext, bind, ok_bind,
    h.availableWindowSize_eq hedge]
  rfl

lemma drain_ok (cfg : ClientConfig) (k : ℕ) (h : c.recv.Follows b)
    (hrange : b.missing + 1 < 2 ^ 31) : ∃ t, drain cfg k c = .ok t := by
  induction k generalizing c b with
  | zero => exact ⟨c, rfl⟩
  | succ k ih =>
    -- what is missing stays missing while the section fetches
    have hle := b.next_le_missing
    obtain ⟨⟨s, outIndex, outBuf⟩, hfetch⟩ := h.represents.fetch_ok (by omega)
    simp only [drain, hfetch, bind, ok_bind]
    split_ifs
    · exact ih (h.afterFetch hfetch) (by rw [b.missing_deliver]; exact hrange)
    · exact ⟨_, rfl⟩

lemma producer_next (cfg : ClientConfig) {segment : Segment} (junk : ℕ → ℤ) (h : c.recv.Follows b)
    (hfree : ∀ m, b.held m = none) (hW : 2 ≤ W) (hedge : b.next + W < 2 ^ 31)
    (hnum : toSigned segment.segmentNum = b.next) :
    ∃ r : Receiver Segment, r.Follows (b.accept b.next segment) ∧
      producerSection cfg c segment false false junk =
        .ok ({ c with
            recv := r
            lastack := if cfg.producerTotal ≤ b.next + 1 then true else c.lastack
            producer := if cfg.producerTotal ≤ b.next + 1 then .unlocked else c.producer },
          [.ack (exactAck cfg.host c.lastack (b.accept b.next segment))]) := by
  obtain ⟨s, hadd⟩ := h.represents.addSegmentToWindow_ok (by omega) segment
    (n := b.next) (by omega)
  have hfollows := h.afterAdd_of_ge le_rfl hadd
  have hrep : s.Represents (b.accept b.next segment) := hfollows.represents
  have hmissing : (b.accept b.next segment).missing = b.next + 1 :=
    ReceiveBuffer.missing_accept_next hfree (by omega)
  have hedge' : (b.accept b.next segment).next + W < 2 ^ 31 := by
    rw [ReceiveBuffer.accept_next]
    exact hedge
  have hroom : (b.accept b.next segment).missing < (b.accept b.next segment).next + W := by
    rw [hmissing, ReceiveBuffer.accept_next]
    omega
  have hsend : ∀ lastack, sendClientAckWithLoss cfg lastack false junk s =
      .ok [.ack (exactAck cfg.host lastack (b.accept b.next segment))] :=
    fun lastack => sendClientAckWithLoss_of_free cfg hrep hedge' hroom lastack junk
  have hnext : s.nextAckIndexOr (junk 2) = .ok ((b.next : ℤ) + 1) := by
    rw [hrep.nextAckIndexOr_eq hedge', if_pos hroom, hmissing]
    push_cast
    rfl
  refine ⟨_, hfollows, ?_⟩
  simp only [producerSection, Bool.false_eq_true, if_false, hnum, hadd, hsend, hnext, bind, ok_bind,
    ge_iff_le]
  split_ifs <;> rfl

lemma consumer_next (drop : Bool) (junk : ℕ → ℤ) (h : c.recv.Follows b)
    (hcfg : cfg.receivingWindowSize = W) (hedge : b.next + W < 2 ^ 31)
    (hroom : b.missing < b.next + W) :
    ∃ t b', Drained (W + 1) c b t b' ∧ consumerSection cfg c drop junk = .ok (t, []) := by
  obtain ⟨t, hdrain⟩ := drain_ok cfg (cfg.receivingWindowSize.toNat + 1) h (by omega)
  obtain ⟨b', hd⟩ := drain_drained h hdrain
  have hfuel : cfg.receivingWindowSize.toNat + 1 = W + 1 := by rw [hcfg, Int.toNat_natCast]
  rw [hfuel] at hd
  refine ⟨t, b', hd, ?_⟩
  have hnext : ∀ x, c.recv.window.nextAckIndexOr x = .ok (b.missing : ℤ) := fun x => by
    rw [h.represents.nextAckIndexOr_eq hedge, if_pos hroom]
  have hopen : ¬ ((b.next : ℤ) + W - b.missing = 0) := by omega
  simp only [consumerSection, hnext, h.represents.availableWindowSize_eq hedge, hdrain, bind,
    ok_bind, if_neg hopen]

/-- The client takes the segment that is next, acknowledges it and consumes it. -/
theorem UpToDate.next (cfg : ClientConfig) {segment : Segment} (h : UpToDate W n false c)
    (hcfg : cfg.receivingWindowSize = W) (hW : 2 ≤ W) (hedge : n + W < 2 ^ 31)
    (hnum : toSigned segment.segmentNum = n) (hmore : n < cfg.consumerTotal) (junk : ℕ → ℤ) :
    ∃ u, c.step cfg (.segment segment false false junk) =
        some (u, [.ack
          { currentRequest := htonl cfg.host (toUnsigned (n + 1))
            advtWindow := htonl cfg.host (toUnsigned (W - 1))
            lastackSent := 0 }]) ∧
      ∀ junk', ∃ t, u.step cfg (.consume false junk') = some (t, []) ∧
        UpToDate W (n + 1) (decide (cfg.producerTotal ≤ n + 1)) t := by
  obtain ⟨b, hb, rfl, hfree⟩ := h.buffer
  obtain ⟨r, hr, hproducer⟩ := producer_next cfg junk hb hfree hW hedge hnum
  have hmissing : (b.accept b.next segment).missing = b.next + 1 :=
    ReceiveBuffer.missing_accept_next hfree (by omega)
  have hnext : (b.accept b.next segment).next = b.next := ReceiveBuffer.accept_next ..
  set u : Client := { c with
    recv := r
    lastack := if cfg.producerTotal ≤ b.next + 1 then true else c.lastack
    producer := if cfg.producerTotal ≤ b.next + 1 then .unlocked else c.producer } with hu
  refine ⟨u, ?_, fun junk' => ?_⟩
  · have hreceiving : c.producer = .receiving := by simpa using h.producer
    rw [step, if_pos hreceiving, hproducer, h.lastack, exactAck, hmissing, hnext, hu]
    have hwindow : (b.next : ℤ) + W - (b.next + 1 : ℕ) = W - 1 := by
      push_cast
      ring
    rw [hwindow]
    rfl
  obtain ⟨t, b', hd, hconsumer⟩ := consumer_next (c := u) false junk' hr hcfg (by omega) (by omega)
  have hb' : b'.next = b.next + 1 := by
    rw [hd.next_eq (by omega), hmissing]
  refine ⟨t, ?_, ?_⟩
  · have hdraining : u.consumer = .draining := h.consumer
    have hcount : u.count = b.next := h.count
    rw [step, if_pos ⟨hdraining, hcount ▸ hmore⟩, hconsumer]
    rfl
  · refine ⟨⟨b', hd.follows, hb', fun m => ?_⟩, ?_, ?_, ?_, hd.consumer.trans h.consumer⟩
    -- nothing is held behind the segment that came
    · by_contra hm
      have hsome := Option.isSome_iff_ne_none.mpr hm
      have htaken := (hd.taken_iff m).mp (Or.inr hsome)
      have hge := (b'.held_window m hsome).1
      rcases ReceiveBuffer.taken_accept.mp htaken with (hlt | hheld) | ⟨rfl, -, -⟩
      · omega
      · simp [hfree] at hheld
      · omega
    · have := hd.count
      have hcount : u.count = b.next := h.count
      rw [hnext, hb', hcount] at this
      rw [this]
      push_cast
      ring
    · rw [hd.lastack]
      show (if cfg.producerTotal ≤ b.next + 1 then true else c.lastack) = _
      rw [h.lastack]
      split_ifs with hall <;> simp [hall]
    · rw [hd.producer]
      show (if cfg.producerTotal ≤ b.next + 1 then ProducerState.unlocked else c.producer) = _
      have hreceiving : c.producer = .receiving := by simpa using h.producer
      rw [hreceiving]
      by_cases hall : cfg.producerTotal ≤ b.next + 1 <;> simp [hall]

lemma UpToDate.lastAck (cfg : ClientConfig) (h : UpToDate W n true c) (hW : 0 < W)
    (hedge : n + W < 2 ^ 31) (junk : ℕ → ℤ) :
    ∃ a : ClientAck, a.lastackSent = 1 ∧
      c.step cfg (.lastAck false junk) = some ({ c with producer := .finished }, [.ack a]) := by
  obtain ⟨b, hb, rfl, hfree⟩ := h.buffer
  have hmissing := ReceiveBuffer.missing_of_free hfree
  have hsend := sendClientAckWithLoss_of_free cfg hb.represents hedge (by omega) c.lastack junk
  refine ⟨exactAck cfg.host c.lastack b, ?_, ?_⟩
  · rw [exactAck, h.lastack]
    rfl
  · have hunlocked : c.producer = .unlocked := by simpa using h.producer
    rw [step, if_pos hunlocked, producerLastAck, hsend]
    rfl

end Client

namespace Sender

/-- A server that has read the acknowledgement of segment `n - 1` last, of a client that is up to
date.  Up to the window that the client advertises, `cwindow` has grown to `g`. -/
structure InStep (W n g : ℕ) (s : Sender) : Prop where
  last : s.lastAckReceived = if n = 0 then -1 else (n : ℤ)
  ssthresh : s.ssthresh.toNat = W
  cwindow_le : s.cwindow.toNat ≤ W
  grown : min s.cwindow.toNat (W - 1) = min g (W - 1)
  window : ∃ w : ℕ, s.lastAdvtWindow = w ∧ W ≤ w + 1 ∧ w ≤ W

variable {cfg : ServerConfig} {s : Sender} {a : ClientAck} {now : TimeVal} {W n g : ℕ}

lemma step_newAck (hstate : s.state = .reading) (hlast : a.lastackSent ≠ 1)
    (hopen : a.advtWindow ≠ 0) (hnew : toUnsigned s.lastAckReceived ≠ a.currentRequest)
    (hin : InInt (s.totalToRecv + 1)) :
    s.step cfg (.read (.complete a) now) =
      some (if s.totalToRecv + 1 = s.totalToSend then
          endCycle
            { (s.receive (.complete a)).recordAck now with
              lastAdvtWindow := toSigned a.advtWindow }
        else (s.receive (.complete a)).recordAck now, []) := by
  have hack : (s.receive (.complete a)).ack = a := rfl
  have hlastAck : (s.receive (.complete a)).lastAckReceived = s.lastAckReceived := rfl
  have hrecv : (s.receive (.complete a)).totalToRecv = s.totalToRecv := rfl
  have hsend : (s.receive (.complete a)).totalToSend = s.totalToSend := rfl
  simp only [step, hstate, processAck, hack, hlastAck, if_neg hlast, if_neg hopen, if_neg hnew,
    newAck, hrecv, hsend, checked_of_inInt hin, bind, ok_bind]
  split_ifs <;> rfl

/-- The acknowledgement of segment `n` by a client that is up to date. -/
def nextAck (W n : ℕ) : ClientAck where
  currentRequest := toUnsigned (n + 1)
  advtWindow := toUnsigned (W - 1)
  lastackSent := 0

lemma InStep.exists_advertised (h : InStep W n g s) (hW : W < 2 ^ 31) :
    W ≤ s.advertised + 1 ∧ s.advertised ≤ W := by
  obtain ⟨w, hw, hge, hle⟩ := h.window
  have hnat := toNat_toUnsigned (x := w) (by omega) (by omega)
  rw [advertised, hw]
  omega

lemma InStep.burstSize (h : InStep W n g s) (hlt : W < 2 ^ 31)
    (hwindow : s.lastAdvtWindow = (W - 1 : ℕ)) : s.burstSize = (min g (W - 1) : ℕ) := by
  have hcw := h.cwindow_le
  have hgrown := h.grown
  have hsigned : toSigned s.cwindow = s.cwindow.toNat := toSigned_of_lt (by omega)
  have hnat := toNat_toUnsigned (x := (W - 1 : ℕ)) (by omega) (by omega)
  unfold Sender.burstSize
  rw [hwindow, hsigned]
  split_ifs with hless
  · rw [BitVec.lt_def] at hless
    omega
  · rw [BitVec.lt_def] at hless
    omega

lemma InStep.recordAck (h : InStep W n g s) (hW : 2 ≤ W) (hrange : n + W < 2 ^ 31) :
    InStep W (n + 1) (g + 1) ((s.receive (.complete (nextAck W n))).recordAck now) := by
  obtain ⟨hge, hadv⟩ := h.exists_advertised (by omega)
  have hle := h.cwindow_le
  have hgrown := h.grown
  have hcw : ((s.receive (.complete (nextAck W n))).recordAck now).cwindow.toNat =
      s.cwindow.toNat + slowStart W s.cwindow.toNat s.advertised := by
    rw [← h.ssthresh]
    exact recordAck_cwindow _ _
  refine ⟨?_, h.ssthresh, ?_, ?_, h.window⟩
  · show toSigned (toUnsigned ((n : ℤ) + 1)) = _
    rw [toSigned_toUnsigned ⟨by omega, by omega⟩, if_neg (by omega)]
    push_cast
    rfl
  · rw [hcw, slowStart]
    split_ifs <;> omega
  · rw [hcw, slowStart]
    split_ifs <;> omega

lemma window_nextAck (hW : 2 ≤ W) (hlt : W < 2 ^ 31) :
    toSigned (nextAck W n).advtWindow = (W - 1 : ℕ) := by
  show toSigned (toUnsigned ((W : ℤ) - 1)) = _
  rw [toSigned_toUnsigned ⟨by omega, by omega⟩]
  omega

lemma InStep.endCycle (h : InStep W n g s) (hW : W < 2 ^ 31) : InStep W n g s.endCycle := by
  obtain ⟨-, hadv⟩ := h.exists_advertised hW
  have hcw : s.endCycle.cwindow.toNat = s.cwindow.toNat := by
    rw [endCycle_cwindow, avoidance, h.ssthresh, if_neg (by omega), add_zero]
  refine ⟨h.last, h.ssthresh, ?_, ?_, h.window⟩
  · rw [hcw]
    exact h.cwindow_le
  · rw [hcw]
    exact h.grown

lemma nextAck_new (h : InStep W n g s) (hW : 2 ≤ W) (hrange : n + W < 2 ^ 31) :
    toUnsigned s.lastAckReceived ≠ (nextAck W n).currentRequest := by
  intro heq
  have hin : InInt ((n : ℤ) + 1) := ⟨by omega, by omega⟩
  have hlast : InInt s.lastAckReceived := by
    rw [h.last]
    split_ifs
    · decide
    · exact ⟨by omega, by omega⟩
  have hsame := congrArg toSigned heq
  rw [toSigned_toUnsigned hlast, nextAck, toSigned_toUnsigned hin, h.last] at hsame
  split_ifs at hsame <;> omega

/-- What a server in step leaves behind when it reads the acknowledgement of segment `n`. -/
structure Advanced (W n g : ℕ) (s t : Sender) : Prop where
  inStep : InStep W (n + 1) (g + 1) t
  index : t.index = s.index
  totalToSend : t.totalToSend = s.totalToSend
  totalToRecv : t.totalToRecv = s.totalToRecv + 1
  ack : t.ack = nextAck W n
  state : t.state = if s.totalToRecv + 1 = s.totalToSend then .cycleEnd else .reading

theorem InStep.next (cfg : ServerConfig) (h : InStep W n g s) (hW : 2 ≤ W) (hrange : n + W < 2 ^ 31)
    (hstate : s.state = .reading) (hin : InInt (s.totalToRecv + 1)) (now : TimeVal) :
    ∃ t, s.step cfg (.read (.complete (nextAck W n)) now) = some (t, []) ∧ Advanced W n g s t := by
  have hlast : (nextAck W n).lastackSent ≠ 1 := show (0 : Word) ≠ 1 by decide
  have hopen : (nextAck W n).advtWindow ≠ 0 := by
    intro hzero
    have := window_nextAck (n := n) hW (by omega)
    rw [hzero] at this
    have hz : toSigned 0 = 0 := by decide
    omega
  refine ⟨_, step_newAck hstate hlast hopen (nextAck_new h hW hrange) hin, ?_⟩
  split_ifs with hall
  · have hrecorded : InStep W (n + 1) (g + 1)
        ((s.receive (.complete (nextAck W n))).recordAck now) :=
      h.recordAck hW hrange
    have hopened : InStep W (n + 1) (g + 1)
        { (s.receive (.complete (nextAck W n))).recordAck now with
          lastAdvtWindow := toSigned (nextAck W n).advtWindow } :=
      { hrecorded with
        window := ⟨W - 1, window_nextAck hW (by omega), by omega, by omega⟩ }
    refine ⟨hopened.endCycle (by omega), rfl, rfl, rfl, rfl, ?_⟩
    rw [if_pos hall]
    exact endCycle_of_not_last hlast
  · refine ⟨h.recordAck hW hrange, rfl, rfl, rfl, rfl, ?_⟩
    rw [if_neg hall]
    exact hstate

lemma step_burst (hstate : s.state = .top) (hlt : s.index < cfg.totalNumSegments)
    (hin : InInt (s.index + s.burstSize.toNat)) (now : TimeVal) :
    s.step cfg (.go now) =
      some ({ s with
          index := s.index + s.burstSize.toNat
          totalToSend := s.burstSize
          totalToRecv := 0
          tsend := rttTs s.rttinfo now
          state := .reading },
        (List.range s.burstSize.toNat).map fun i : ℕ => .segment (s.index + i)) := by
  simp only [step, hstate, if_pos hlt, burst, checked_of_inInt hin, bind, ok_bind]
  rfl

end Sender

end TcpOverUdp
