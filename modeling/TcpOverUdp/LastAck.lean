import TcpOverUdp.Acknowledgements

namespace TcpOverUdp
open CWord

/-- Every record of `ActiveClose` comes after an acknowledgement that says it is the last. -/
def LastAckFirst (log : List ClientOut) : Prop :=
  ∀ pre a post, log = pre ++ .close a :: post → ∃ b, .ack b ∈ pre ∧ b.lastackSent = 1

def LastAckSent (log : List ClientOut) : Prop := ∃ a, .ack a ∈ log ∧ a.lastackSent = 1

lemma LastAckSent.append {log : List ClientOut} (h : LastAckSent log) (outs : List ClientOut) :
    LastAckSent (log ++ outs) := by
  obtain ⟨a, ha, hlast⟩ := h
  exact ⟨a, List.mem_append_left _ ha, hlast⟩

lemma LastAckFirst.append_of_sent {log : List ClientOut} (h : LastAckFirst log)
    (hsent : LastAckSent log) (outs : List ClientOut) : LastAckFirst (log ++ outs) := by
  intro pre a post heq
  rcases List.append_eq_append_iff.mp heq with ⟨l, rfl, -⟩ | ⟨l, rfl, hl⟩
  · exact hsent.append l
  · cases l with
    | nil => exact (List.append_nil pre) ▸ hsent
    | cons x l =>
      obtain ⟨rfl, -⟩ := List.cons.inj hl
      exact h pre a l rfl

lemma LastAckFirst.append_acks {log outs : List ClientOut} (h : LastAckFirst log)
    (houts : ∀ a, .close a ∉ outs) : LastAckFirst (log ++ outs) := by
  intro pre a post heq
  rcases List.append_eq_append_iff.mp heq with ⟨l, rfl, hl⟩ | ⟨l, rfl, hl⟩
  · exact absurd (by simp [hl]) (houts a)
  · cases l with
    | nil => exact absurd (by simp [← show .close a :: post = outs from hl]) (houts a)
    | cons x l =>
      obtain ⟨rfl, -⟩ := List.cons.inj hl
      exact h pre a l rfl

lemma lastAckSent_of_send {cfg : ClientConfig} {lastack drop : Bool} {junk : ℕ → ℤ}
    {s : SlidingWindow Segment} {outs : List ClientOut}
    (h : sendClientAckWithLoss cfg lastack drop junk s = .ok outs) :
    drop = false → lastack = true → LastAckSent outs := by
  rintro rfl hlast
  rcases sendClientAckWithLoss_ok h with ⟨hdrop, -⟩ | ⟨n, w, -, -, -, rfl⟩
  · cases hdrop
  · exact ⟨_, List.mem_singleton.mpr rfl, if_pos hlast⟩

namespace Client

variable {cfg : ClientConfig} {W : ℕ}

def logged (cfg : ClientConfig) : Machine (Client × List ClientOut) ClientEvent :=
  ⟨fun x e => (x.1.step cfg e).map fun (t, outs) => (t, x.2 ++ outs)⟩

lemma logged_step {x y : Client × List ClientOut} {e : ClientEvent}
    (h : (logged cfg).step x e = some y) :
    ∃ outs, x.1.step cfg e = some (y.1, outs) ∧ y.2 = x.2 ++ outs := by
  obtain ⟨⟨t, outs⟩, hstep, rfl⟩ := Option.map_eq_some_iff.mp h
  exact ⟨outs, hstep, rfl⟩

/-- The last acknowledgement is not lost by simulation; the consumer does not send its FIN
between the producer's unlock and the last acknowledgement; and the end test of the producer
has a value when it matters: on the segment that completes the file, a slot is free or the
call that ends without a return gives the right edge of the window. -/
def KeepsOrder (cfg : ClientConfig) (x : Client × List ClientOut) : ClientEvent → Prop
  | .segment segment _ _ junk =>
    ∀ s, x.1.recv.window.addSegmentToWindow segment (toSigned segment.segmentNum) = .ok s →
      (∃ m : ℕ, m < cfg.consumerTotal ∧
        ¬ (x.1.recv.afterAdd s segment (toSigned segment.segmentNum)).Accepted m) ∨
      (∃ j < s.receivingWindowSize.toNat, (s.slidingWindow j).inUse = false) ∨
      junk 2 = s.currentIndex + s.receivingWindowSize
  | .lastAck drop _ => drop = false
  | .fin => x.1.producer ≠ .unlocked
  | _ => True

/-- While the producer receives, a segment of the file is missing; when it has unlocked, the
flag is set; and when it is done, or the consumer is closing, the last acknowledgement is
sent. -/
structure OrderInv (cfg : ClientConfig) (W : ℕ) (x : Client × List ClientOut) : Prop where
  follows : ∃ b : ReceiveBuffer Segment W, x.1.recv.Follows b ∧ x.1.count = b.next ∧
    (x.1.producer = .receiving → b.missing < cfg.consumerTotal)
  unlocked : x.1.producer = .unlocked → x.1.lastack = true
  finished : x.1.producer = .finished → LastAckSent x.2
  closing : x.1.consumer ≠ .draining → LastAckSent x.2
  first : LastAckFirst x.2

lemma orderInv_start (hW : 0 < W) (hcfg : cfg.receivingWindowSize = W)
    (hone : 1 ≤ cfg.consumerTotal) : OrderInv cfg W (start cfg, []) where
  follows := by
    refine ⟨_, start_follows hW hcfg, rfl, fun _ => ?_⟩
    have hzero : (ReceiveBuffer.empty : ReceiveBuffer Segment W).missing = 0 := by
      exact (ReceiveBuffer.missing_eq_next_iff _).mpr rfl
    show (((ReceiveBuffer.empty : ReceiveBuffer Segment W).missing : ℕ) : ℤ) < _
    omega
  unlocked h := by simp [start] at h
  finished h := by simp [start] at h
  closing h := absurd rfl h
  first := by simp [LastAckFirst]

lemma OrderInv.segment {x : Client × List ClientOut} {t : Client} {outs : List ClientOut}
    {segment : Segment} {loseData loseAck : Bool} {junk : ℕ → ℤ} (h : OrderInv cfg W x)
    (htotal : cfg.producerTotal ≤ cfg.consumerTotal) (hrecv : x.1.producer = .receiving)
    (hgood : KeepsOrder cfg x (.segment segment loseData loseAck junk))
    (hsec : producerSection cfg x.1 segment loseData loseAck junk = .ok (t, outs)) :
    OrderInv cfg W (t, x.2 ++ outs) := by
  rcases producerSection_cases hsec with ⟨-, rfl, rfl⟩ | ⟨s, n, -, hadd, hsend, hn, rfl⟩
  · simpa using h
  · obtain ⟨b, hb, hcount, -⟩ := h.follows
    obtain ⟨b', hb', hnext, -⟩ := hb.exists_afterAdd hadd
    refine ⟨⟨b', hb', by rw [hnext]; exact hcount, fun hstill => ?_⟩, fun hun => ?_, fun hfin => ?_,
      fun hclose => (h.closing hclose).append _,
      h.first.append_acks (not_close_of_send hsend)⟩
    · have hlt : n < cfg.producerTotal := by
        by_contra hge
        simp [if_pos (not_lt.mp hge)] at hstill
      rcases hb'.represents.nextAckIndexOr_cases hn with ⟨rfl, -⟩ | ⟨rfl, hfull⟩
      · omega
      · rcases hgood s hadd with ⟨m, hm, hfresh⟩ | ⟨j, hj, hfree⟩ | hjunk
        · rw [hb'.accepted_natCast] at hfresh
          have := mt ReceiveBuffer.taken_of_lt_missing hfresh
          omega
        · have hsize : s.receivingWindowSize = W := hb'.represents.size
          have huse : (s.slidingWindow j).inUse = true := hb'.full_iff.mpr hfull j (by omega)
          simp [huse] at hfree
        · have hsize : s.receivingWindowSize = W := hb'.represents.size
          have hidx : s.currentIndex = b'.next := hb'.represents.next
          omega
    · by_cases hge : n ≥ cfg.producerTotal
      · exact if_pos hge
      · simp [if_neg hge, hrecv] at hun
    · by_cases hge : n ≥ cfg.producerTotal
      · simp [if_pos hge] at hfin
      · simp [if_neg hge, hrecv] at hfin

theorem OrderInv.step {x y : Client × List ClientOut} {e : ClientEvent}
    (h : OrderInv cfg W x) (htotal : cfg.producerTotal ≤ cfg.consumerTotal)
    (hgood : KeepsOrder cfg x e) (hstep : (logged cfg).step x e = some y) :
    OrderInv cfg W y := by
  obtain ⟨t, log⟩ := y
  obtain ⟨outs, hstep, rfl⟩ := logged_step hstep
  change x.1.step cfg e = some (t, outs) at hstep
  have hdone : t.recv = x.1.recv → t.count = x.1.count → t.producer = x.1.producer →
      t.lastack = x.1.lastack → LastAckSent x.2 → OrderInv cfg W (t, x.2 ++ outs) := by
    intro hr hc hp hl hsent
    refine ⟨?_, ?_, fun _ => hsent.append _, fun _ => hsent.append _,
      h.first.append_of_sent hsent _⟩
    · show ∃ b : ReceiveBuffer Segment W, t.recv.Follows b ∧ t.count = b.next ∧
        (t.producer = .receiving → b.missing < cfg.consumerTotal)
      rw [hr, hc, hp]
      exact h.follows
    · show t.producer = .unlocked → t.lastack = true
      rw [hp, hl]
      exact h.unlocked
  cases step_sections hstep with
  | producer hstate hsection => exact h.segment htotal hstate hgood hsection
  | lastAck hstate hsend =>
    obtain ⟨b, hb, hcount, -⟩ := h.follows
    obtain ⟨a, ha, hone⟩ := lastAckSent_of_send hsend hgood (h.unlocked hstate)
    have hsent : LastAckSent (x.2 ++ outs) := ⟨a, List.mem_append_right _ ha, hone⟩
    exact ⟨⟨b, hb, hcount, by simp⟩, by simp, fun _ => hsent, fun _ => hsent,
      h.first.append_acks (not_close_of_send hsend)⟩
  | consumer _ _ hsection =>
    obtain ⟨w, -, hdrain, houts⟩ := consumerSection_cases hsection
    obtain ⟨b, hb, hcount, hrecv⟩ := h.follows
    obtain ⟨b', hd⟩ := drain_drained hb hdrain
    have hacks : ∀ a, .close a ∉ outs := by
      rcases houts with rfl | ⟨-, -, hsend⟩
      · simp
      · exact not_close_of_send hsend
    have hsame := hd.missing_eq
    refine ⟨⟨b', hd.follows, ?_, fun hp => ?_⟩, fun hp => ?_, fun hp => ?_, fun hp => ?_,
      h.first.append_acks hacks⟩
    · show t.count = b'.next
      have := hd.count
      omega
    · have := hrecv (hd.producer ▸ hp)
      omega
    · exact hd.lastack.trans (h.unlocked (hd.producer ▸ hp))
    · exact (h.finished (hd.producer ▸ hp)).append _
    · exact (h.closing (hd.consumer ▸ hp)).append _
  | fin hstate hall =>
    obtain ⟨b, hb, hnext, hrecv⟩ := h.follows
    apply hdone rfl rfl rfl rfl
    cases hp : x.1.producer with
    | receiving =>
      have := hrecv hp
      have := b.next_le_missing
      omega
    | unlocked => exact absurd hp hgood
    | finished => exact h.finished hp
  | closeRead hstate => exact hdone rfl rfl rfl rfl (h.closing (by simp [hstate]))
  | closeTimeout hstate => exact hdone rfl rfl rfl rfl (h.closing (by simp [hstate]))

/-- Along a run that never sends the FIN between the unlock and the last acknowledgement, and
in which the producer notices the end, the last acknowledgement comes first. -/
theorem lastAckFirst_of_keepsOrder (hW : 0 < W) (hcfg : cfg.receivingWindowSize = W)
    (htotal : cfg.producerTotal ≤ cfg.consumerTotal) (hone : 1 ≤ cfg.consumerTotal)
    {es : List ClientEvent} {x : Client × List ClientOut}
    (hgood : (logged cfg).Along (fun x e _ => KeepsOrder cfg x e) (start cfg, []) es)
    (hrun : (logged cfg).run (start cfg, []) es = some x) : LastAckFirst x.2 :=
  (Machine.run_invariant_along (P := OrderInv cfg W)
    (fun _ _ _ h hg hstep => h.step htotal hg hstep) (orderInv_start hW hcfg hone) hgood hrun).first

theorem lastAckFirst_of_keepsOrder_one :
    ∃ x, (logged ⟨.big, .bits64, 2, 100⟩).run (start ⟨.big, .bits64, 2, 100⟩, [])
        [.segment ⟨0, fun _ => 7⟩ false false fun _ => 0, .lastAck false fun _ => 0,
          .consume false fun _ => 0, .fin] = some x ∧
      x.2 = [.ack ⟨1, 1, 0⟩, .ack ⟨1, 1, 1⟩, .close finRecord] ∧ LastAckFirst x.2 := by
  have hrun : ∃ x, (logged ⟨.big, .bits64, 2, 100⟩).run (start ⟨.big, .bits64, 2, 100⟩, [])
      [.segment ⟨0, fun _ => 7⟩ false false fun _ => 0, .lastAck false fun _ => 0,
        .consume false fun _ => 0, .fin] = some x ∧
      x.2 = [.ack ⟨1, 1, 0⟩, .ack ⟨1, 1, 1⟩, .close finRecord] := ⟨_, rfl, by decide⟩
  obtain ⟨x, hrun, hlog⟩ := hrun
  refine ⟨x, hrun, hlog, lastAckFirst_of_keepsOrder (W := 2) (by decide) rfl ?_ ?_ ?_ hrun⟩
  · decide
  · decide
  clear hrun
  intro t ht
  refine ⟨fun s hs => ?_, ?_⟩
  · cases hs
    exact Or.inr (Or.inl ⟨1, by decide, rfl⟩)
  · cases ht
    intro t ht
    refine ⟨rfl, ?_⟩
    cases ht
    intro t ht
    refine ⟨trivial, ?_⟩
    cases ht
    intro t ht
    exact ⟨show ProducerState.finished ≠ .unlocked by decide, trivial⟩

/-- The consumer takes the lock between the producer's unlock and its last acknowledgement,
and its FIN is sent first. -/
theorem not_lastAckFirst :
    ∃ x, (logged ⟨.big, .bits64, 2, 100⟩).run (start ⟨.big, .bits64, 2, 100⟩, [])
        [.segment ⟨0, fun _ => 7⟩ false false fun _ => 0, .consume false fun _ => 0, .fin,
          .lastAck false fun _ => 0] = some x ∧
      x.2 = [.ack ⟨1, 1, 0⟩, .close finRecord, .ack ⟨1, 2, 1⟩] ∧ ¬ LastAckFirst x.2 := by
  refine ⟨_, rfl, by decide, fun h => ?_⟩
  obtain ⟨a, ha, hlast⟩ := h [.ack ⟨1, 1, 0⟩] finRecord [.ack ⟨1, 2, 1⟩] (by decide)
  obtain rfl : a = ⟨1, 1, 0⟩ := by simpa using ha
  exact absurd hlast (by decide)

end Client

end TcpOverUdp
