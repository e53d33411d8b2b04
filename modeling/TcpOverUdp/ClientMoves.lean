import TcpOverUdp.Acknowledgements

namespace TcpOverUdp
open CWord

namespace Client

variable {cfg : ClientConfig} {c t : Client} {e : ClientEvent} {outs : List ClientOut} {W : ℕ}
  {b : ReceiveBuffer Segment W}

def edge (c : Client) : ℤ := c.recv.window.currentIndex + c.recv.window.receivingWindowSize

/-- The event, with the right edge where a call ends without a return. -/
def wellDefined (c : Client) : ClientEvent → ClientEvent
  | .segment segment loseData loseAck _ => .segment segment loseData loseAck fun _ => c.edge
  | .lastAck drop _ => .lastAck drop fun _ => c.edge
  | .consume drop _ => .consume drop fun _ => c.edge
  | e => e

/-- The moves of a client whose receive buffer is `b`. -/
inductive Moves (cfg : ClientConfig) (c : Client) (b : ReceiveBuffer Segment W) :
    ClientEvent → Client → ReceiveBuffer Segment W → List ClientOut → Prop
  | lost {segment loseAck junk} (hstate : c.producer = .receiving) :
    Moves cfg c b (.segment segment true loseAck junk) c b []
  | segment {segment loseAck junk b' outs} {r : Receiver Segment}
      (hstate : c.producer = .receiving) (hfollows : r.Follows b') (hnext : b'.next = b.next)
      (hgrows : b.Grows b')
      (houts : outs = if loseAck then [] else [.ack (exactAck cfg.host c.lastack b')])
      (hedge : loseAck = false → b'.next + W < 2 ^ 31) :
    Moves cfg c b (.segment segment false loseAck junk)
      { c with
        recv := r
        lastack := if cfg.producerTotal ≤ b'.missing then true else c.lastack
        producer := if cfg.producerTotal ≤ b'.missing then .unlocked else .receiving } b' outs
  | lastAck {drop junk outs} (hstate : c.producer = .unlocked)
      (houts : outs = if drop then [] else [.ack (exactAck cfg.host c.lastack b)])
      (hedge : drop = false → b.next + W < 2 ^ 31) :
    Moves cfg c b (.lastAck drop junk) { c with producer := .finished } b outs
  | consume {drop junk b' t} (hstate : c.consumer = .draining)
      (hmore : c.count < cfg.consumerTotal) (hd : Drained (W + 1) c b t b') :
    Moves cfg c b (.consume drop junk) t b' []
  | update {drop junk b' t outs} (hstate : c.consumer = .draining)
      (hmore : c.count < cfg.consumerTotal) (hd : Drained (W + 1) c b t b')
      (hneed : b'.missing < cfg.consumerTotal)
      (houts : outs = if drop then [] else [.ack (exactAck cfg.host c.lastack b')])
      (hedge : drop = false → b'.next + W < 2 ^ 31) :
    Moves cfg c b (.consume drop junk) t b' outs
  | fin (hstate : c.consumer = .draining) (hall : cfg.consumerTotal ≤ c.count) :
    Moves cfg c b .fin { c with consumer := .closing ⟨.finWait1, 3, 2⟩ } b
      [.close { finRecord with currentRequest := htonl cfg.host finRequest }]
  | close {e s consumer outs} (hstate : c.consumer = .closing s) (hcons : consumer ≠ .draining)
      (houts : ∀ o ∈ outs, ∃ a, o = .close a) :
    Moves cfg c b e { c with consumer := consumer } b outs

lemma edge_eq (hb : c.recv.Follows b) : c.edge = b.next + W := by
  rw [edge, hb.represents.next, hb.represents.size]

lemma sendClientAckWithLoss_eq {lastack drop : Bool} {junk : ℕ → ℤ} {s : SlidingWindow Segment}
    (hs : s.Represents b) (hjunk : WellDefined b junk)
    (h : sendClientAckWithLoss cfg lastack drop junk s = .ok outs) :
    outs = (if drop then [] else [.ack (exactAck cfg.host lastack b)]) ∧
      (drop = false → b.next + W < 2 ^ 31) := by
  rcases hs.sendClientAckWithLoss_cases hjunk h with ⟨rfl, rfl⟩ | ⟨rfl, hedge, rfl⟩
  · exact ⟨rfl, by simp⟩
  · exact ⟨rfl, fun _ => hedge⟩

lemma producer_moves {segment : Segment} {loseData loseAck : Bool} {junk : ℕ → ℤ}
    (hb : c.recv.Follows b) (hstate : c.producer = .receiving)
    (h : producerSection cfg c segment loseData loseAck (fun _ => c.edge) = .ok (t, outs)) :
    ∃ b', t.recv.Follows b' ∧ Moves cfg c b (.segment segment loseData loseAck junk) t b' outs := by
  have hedge := edge_eq hb
  rcases producerSection_cases h with ⟨rfl, rfl, rfl⟩ | ⟨s, n, rfl, hadd, hsend, hn, rfl⟩
  · exact ⟨b, hb, .lost hstate⟩
  · obtain ⟨b', hb', hnext, htaken, -⟩ := hb.exists_afterAdd hadd
    have hjunk : WellDefined b' fun _ => c.edge := Or.inr fun _ => by rw [hedge, hnext]
    obtain ⟨houts, hrange⟩ := sendClientAckWithLoss_eq hb'.represents hjunk hsend
    have hmissing : n = b'.missing := by
      rcases hb'.represents.nextAckIndexOr_cases hn with ⟨hn, -⟩ | ⟨hn, hfull⟩
      · exact hn
      · omega
    subst hmissing
    refine ⟨b', hb', ?_⟩
    simp only [ge_iff_le, hstate]
    exact .segment hstate hb' hnext ⟨hnext.ge, htaken⟩ houts hrange

lemma consumer_moves {drop : Bool} {junk : ℕ → ℤ} (hcfg : cfg.receivingWindowSize = W)
    (hb : c.recv.Follows b) (hstate : c.consumer = .draining) (hmore : c.count < cfg.consumerTotal)
    (h : consumerSection cfg c drop (fun _ => c.edge) = .ok (t, outs)) :
    ∃ b', t.recv.Follows b' ∧ Moves cfg c b (.consume drop junk) t b' outs := by
  obtain ⟨w, -, hdrain, houts⟩ := consumerSection_cases h
  obtain ⟨b', hd⟩ := drain_drained hb hdrain
  have hW := hb.represents.pos
  rw [hcfg, Int.toNat_natCast] at hd
  have hfree : b'.missing < b'.next + W := by
    have hle := b.missing_le_edge
    have := hd.next_eq (by omega)
    have := hd.missing_eq
    omega
  refine ⟨b', hd.follows, ?_⟩
  rcases houts with rfl | ⟨-, ⟨n, hn, hlt⟩, hsend⟩
  · exact .consume hstate hmore hd
  · obtain ⟨houts, hrange⟩ := sendClientAckWithLoss_eq hd.follows.represents (Or.inl hfree) hsend
    have hneed : (b'.missing : ℤ) < cfg.consumerTotal := by
      rcases hd.follows.represents.nextAckIndexOr_cases hn with ⟨rfl, -⟩ | ⟨-, hfull⟩
      · exact hlt
      · omega
    rw [hd.lastack] at houts
    exact .update hstate hmore hd hneed houts hrange

theorem step_moves (hcfg : cfg.receivingWindowSize = W) (hb : c.recv.Follows b)
    (h : c.step cfg (c.wellDefined e) = some (t, outs)) :
    ∃ b', t.recv.Follows b' ∧ Moves cfg c b e t b' outs := by
  have hsections := step_sections h
  cases e with
  | segment segment loseData loseAck junk =>
    cases hsections with
    | producer hstate hsection => exact producer_moves hb hstate hsection
  | lastAck drop junk =>
    cases hsections with
    | lastAck hstate hsend =>
      obtain ⟨houts, hrange⟩ :=
        sendClientAckWithLoss_eq hb.represents (Or.inr fun _ => edge_eq hb) hsend
      exact ⟨b, hb, .lastAck hstate houts hrange⟩
  | consume drop junk =>
    cases hsections with
    | consumer hstate hmore hsection => exact consumer_moves hcfg hb hstate hmore hsection
  | fin =>
    cases hsections with
    | fin hstate hall => exact ⟨b, hb, .fin hstate hall⟩
  | closeRead ack =>
    cases hsections with
    | closeRead hstate hcons houts => exact ⟨b, hb, .close hstate hcons houts⟩
  | closeTimeout =>
    cases hsections with
    | closeTimeout hstate hcons houts => exact ⟨b, hb, .close hstate hcons houts⟩

end Client

end TcpOverUdp
