import TcpOverUdp.Client

namespace TcpOverUdp
open CWord

def ClientEvent.locked : ClientEvent → Bool
  | .segment .. => true
  | .consume .. => true
  | _ => false

def ClientAck.request (host : ByteOrder) (a : ClientAck) : ℤ :=
  toSigned (ntohl host a.currentRequest)

def ClientAck.window (host : ByteOrder) (a : ClientAck) : ℤ := toSigned (ntohl host a.advtWindow)

namespace Client

variable {cfg : ClientConfig} {c t : Client} {e : ClientEvent} {outs : List ClientOut} {W : ℕ}
  {b : ReceiveBuffer Segment W}

lemma not_close_of_send {lastack drop : Bool} {junk : ℕ → ℤ} {s : SlidingWindow Segment}
    (h : sendClientAckWithLoss cfg lastack drop junk s = .ok outs) (a : ClientAck) :
    .close a ∉ outs := by
  rcases sendClientAckWithLoss_ok h with ⟨-, rfl⟩ | ⟨n, w, -, -, -, rfl⟩
  · simp
  · simp

lemma producerSection_cases {segment : Segment} {loseData loseAck : Bool} {junk : ℕ → ℤ}
    (h : producerSection cfg c segment loseData loseAck junk = .ok (t, outs)) :
    (loseData = true ∧ t = c ∧ outs = []) ∨
      ∃ s n, loseData = false ∧
        c.recv.window.addSegmentToWindow segment (toSigned segment.segmentNum) = .ok s ∧
        sendClientAckWithLoss cfg c.lastack loseAck junk s = .ok outs ∧
        s.nextAckIndexOr (junk 2) = .ok n ∧
        t = { c with
          recv := c.recv.afterAdd s segment (toSigned segment.segmentNum)
          lastack := if n ≥ cfg.producerTotal then true else c.lastack
          producer := if n ≥ cfg.producerTotal then .unlocked else c.producer } := by
  cases loseData with
  | true =>
    obtain ⟨rfl, rfl⟩ := Prod.mk.inj (Except.ok.inj h)
    exact Or.inl ⟨rfl, rfl, rfl⟩
  | false =>
    simp only [producerSection, bind, bind_eq_ok, Bool.false_eq_true, if_false] at h
    obtain ⟨s, hs, outs', hsend, n, hn, h⟩ := h
    refine Or.inr ⟨s, n, rfl, hs, ?_, hn, ?_⟩
    · split_ifs at h
      · rw [hsend, (Prod.mk.inj (Except.ok.inj h)).2]
      · rw [hsend, (Prod.mk.inj (Except.ok.inj h)).2]
    · split_ifs at h ⊢
      · exact (Prod.mk.inj (Except.ok.inj h)).1.symm
      · exact (Prod.mk.inj (Except.ok.inj h)).1.symm

/-- What the fetches of one section leave, of which at most `k` succeed. -/
structure Drained (k : ℕ) (c : Client) (b : ReceiveBuffer Segment W) (t : Client)
    (b' : ReceiveBuffer Segment W) : Prop where
  follows : t.recv.Follows b'
  grows : b.Grows b'
  taken_iff : ∀ n, b'.Taken n ↔ b.Taken n
  count : t.count = c.count + (b'.next - b.next)
  next_eq : b.missing < b.next + k → b'.next = b.missing
  lastack : t.lastack = c.lastack
  producer : t.producer = c.producer
  consumer : t.consumer = c.consumer

lemma Drained.missing_eq {k : ℕ} {b' : ReceiveBuffer Segment W} (h : Drained k c b t b') :
    b'.missing = b.missing :=
  le_antisymm (ReceiveBuffer.missing_mono fun n hn => (h.taken_iff n).mp hn) h.grows.missing_le

lemma drain_drained {k : ℕ} (h : c.recv.Follows b) (hdrain : drain cfg k c = .ok t) :
    ∃ b', Drained k c b t b' := by
  induction k generalizing c b with
  | zero =>
    obtain rfl := Except.ok.inj hdrain
    have hle := b.next_le_missing
    exact ⟨b, h, .refl b, fun _ => Iff.rfl, by omega, fun hlt => by omega, rfl, rfl, rfl⟩
  | succ k ih =>
    simp only [drain, bind, bind_eq_ok] at hdrain
    obtain ⟨⟨s, outIndex, outBuf⟩, hfetch, hdrain⟩ := hdrain
    have hfollows := h.afterFetch hfetch
    cases hheld : b.held b.next with
    | none =>
      obtain ⟨rfl, -, -⟩ := h.represents.fetch_of_missing hheld hfetch
      rw [if_neg (show ¬ (-1 : ℤ) ≥ 0 by omega)] at hdrain
      obtain rfl := Except.ok.inj hdrain
      have hself : b.deliver = b := by simp [ReceiveBuffer.deliver, hheld]
      rw [hself] at hfollows
      refine ⟨b, hfollows, .refl b, fun _ => Iff.rfl, ?_, fun _ => ?_, rfl, rfl, rfl⟩
      · show c.count = _
        omega
      · exact (b.missing_eq_next_iff.mpr hheld).symm
    | some x =>
      have hsome : (b.held b.next).isSome := by simp [hheld]
      obtain ⟨rfl, -, -⟩ := h.represents.fetch_of_held hsome hfetch
      rw [if_pos (show (b.next : ℤ) ≥ 0 by omega)] at hdrain
      have hnext : b.deliver.next = b.next + 1 := by simp [ReceiveBuffer.deliver, hsome]
      obtain ⟨b', hd⟩ := ih hfollows hdrain
      refine ⟨b', hd.follows, b.grows_deliver.trans hd.grows,
        fun n => (hd.taken_iff n).trans (b.taken_deliver n), ?_, fun hlt => ?_, hd.lastack,
        hd.producer, hd.consumer⟩
      · have hcount := hd.count
        rw [hnext] at hcount
        push_cast at hcount
        omega
      · rw [← b.missing_deliver]
        apply hd.next_eq
        rw [b.missing_deliver, hnext]
        omega

lemma consumerSection_cases {drop : Bool} {junk : ℕ → ℤ}
    (h : consumerSection cfg c drop junk = .ok (t, outs)) :
    ∃ w, c.recv.window.availableWindowSize (c.recv.window.nextAckIndexOr (junk 0)) = .ok w ∧
      drain cfg (cfg.receivingWindowSize.toNat + 1) c = .ok t ∧
      (outs = [] ∨ w = 0 ∧
        (∃ n, t.recv.window.nextAckIndexOr (junk 1) = .ok n ∧ n < cfg.consumerTotal) ∧
        sendClientAckWithLoss cfg t.lastack drop (fun i => junk (i + 2)) t.recv.window =
          .ok outs) := by
  simp only [consumerSection, bind, bind_eq_ok] at h
  obtain ⟨w, hw, d, hdrain, h⟩ := h
  refine ⟨w, hw, ?_⟩
  split_ifs at h with hfull
  · obtain ⟨n, hn, h⟩ := bind_eq_ok.mp h
    split_ifs at h with hlt
    · obtain ⟨outs', hsend, h⟩ := bind_eq_ok.mp h
      obtain ⟨rfl, rfl⟩ := Prod.mk.inj (Except.ok.inj h)
      exact ⟨hdrain, Or.inr ⟨hfull, ⟨n, hn, hlt⟩, hsend⟩⟩
    · obtain ⟨rfl, rfl⟩ := Prod.mk.inj (Except.ok.inj h)
      exact ⟨hdrain, Or.inl rfl⟩
  · obtain ⟨rfl, rfl⟩ := Prod.mk.inj (Except.ok.inj h)
    exact ⟨hdrain, Or.inl rfl⟩

theorem step_follows (h : c.recv.Follows b) (hstep : c.step cfg e = some (t, outs)) :
    ∃ b' : ReceiveBuffer Segment W, t.recv.Follows b' ∧ b.Grows b' := by
  cases step_sections hstep with
  | producer _ hsection =>
    rcases producerSection_cases hsection with ⟨-, rfl, -⟩ | ⟨s, n, -, hadd, -, -, rfl⟩
    · exact ⟨b, h, .refl b⟩
    · obtain ⟨b', hb', hnext, htaken, -⟩ := h.exists_afterAdd hadd
      exact ⟨b', hb', hnext.ge, htaken⟩
  | lastAck => exact ⟨b, h, .refl b⟩
  | consumer _ _ hsection =>
    obtain ⟨w, -, hdrain, -⟩ := consumerSection_cases hsection
    obtain ⟨b', hd⟩ := drain_drained h hdrain
    exact ⟨b', hd.follows, hd.grows⟩
  | fin => exact ⟨b, h, .refl b⟩
  | closeRead => exact ⟨b, h, .refl b⟩
  | closeTimeout => exact ⟨b, h, .refl b⟩

theorem run_follows {es : List ClientEvent} (h : c.recv.Follows b)
    (hrun : (machine cfg).run c es = some t) :
    ∃ b' : ReceiveBuffer Segment W, t.recv.Follows b' ∧ b.Grows b' := by
  induction es generalizing c b with
  | nil =>
    cases hrun
    exact ⟨b, h, .refl b⟩
  | cons e es ih =>
    obtain ⟨u, hu, hrun⟩ := Machine.run_cons_eq_some.mp hrun
    obtain ⟨outs, hstep⟩ := machine_step.mp hu
    obtain ⟨b₁, h₁, hg₁⟩ := step_follows h hstep
    obtain ⟨b₂, h₂, hg₂⟩ := ih h₁ hrun
    exact ⟨b₂, h₂, hg₁.trans hg₂⟩

lemma start_follows (hW : 0 < W) (hcfg : cfg.receivingWindowSize = W) :
    (start cfg).recv.Follows (ReceiveBuffer.empty (W := W)) := by
  simp only [start, hcfg]
  exact Receiver.follows_start hW

/-- The step from `c` to `t` builds the acknowledgement `a` under the lock, from the window of
`t`, and that window has a free slot. -/
structure BuildsAck (cfg : ClientConfig) (c : Client) (e : ClientEvent) (t : Client)
    (a : ClientAck) : Prop where
  step : ∃ outs, c.step cfg e = some (t, outs) ∧ .ack a ∈ outs
  locked : e.locked = true
  free : ∃ j < t.recv.window.receivingWindowSize.toNat,
    (t.recv.window.slidingWindow j).inUse = false

theorem BuildsAck.exact {a : ClientAck} (h : BuildsAck cfg c e t a) (hb : c.recv.Follows b) :
    ∃ b' : ReceiveBuffer Segment W, t.recv.Follows b' ∧ b.Grows b' ∧ b'.next + W < 2 ^ 31 ∧
      a.request cfg.host = b'.missing ∧ a.window cfg.host = b'.next + W - b'.missing := by
  obtain ⟨⟨outs, hstep, hmem⟩, hlocked, j, hj, hfree⟩ := h
  obtain ⟨b', hb', hgrows⟩ := step_follows hb hstep
  have hwell : ∀ junk, WellDefined b' junk := by
    intro junk
    left
    have hsize : t.recv.window.receivingWindowSize.toNat = W := by simp [hb'.represents.size]
    have hle := b'.missing_le_edge
    by_contra hfull
    have := hb'.full_iff.mpr (by omega) j (by omega)
    simp [hfree] at this
  have key : ∀ {lastack drop junk},
      sendClientAckWithLoss cfg lastack drop junk t.recv.window = .ok outs →
      b'.next + W < 2 ^ 31 ∧ a.request cfg.host = b'.missing ∧
        a.window cfg.host = b'.next + W - b'.missing := by
    intro lastack drop junk hsend
    rcases hb'.represents.sendClientAckWithLoss_cases (hwell junk) hsend with
      ⟨-, rfl⟩ | ⟨-, hedge, rfl⟩
    · simp at hmem
    · simp only [List.mem_singleton, ClientOut.ack.injEq] at hmem
      rw [hmem]
      exact ⟨hedge, toSigned_exactAck hedge⟩
  refine ⟨b', hb', hgrows, ?_⟩
  cases step_sections hstep with
  | producer _ hsection =>
    rcases producerSection_cases hsection with ⟨-, rfl, rfl⟩ | ⟨s, n, -, hadd, hsend, -, rfl⟩
    · simp at hmem
    · exact key hsend
  | consumer _ _ hsection =>
    obtain ⟨w, -, -, rfl | ⟨-, -, hsend⟩⟩ := consumerSection_cases hsection
    · simp at hmem
    · exact key hsend
  | lastAck => simp [ClientEvent.locked] at hlocked
  | fin => simp [ClientEvent.locked] at hlocked
  | closeRead => simp [ClientEvent.locked] at hlocked
  | closeTimeout => simp [ClientEvent.locked] at hlocked

/-- An acknowledgement asks for the first segment that has not been accepted and advertises
the window up to its right edge; neither the number nor the edge ever goes back; and every
segment inside the advertised window that has not been accepted is stored when it arrives,
however much later. -/
theorem ack_kept (hW : 0 < W) (hcfg : cfg.receivingWindowSize = W) {es : List ClientEvent}
    {a : ClientAck} (hrun : (machine cfg).run (start cfg) es = some c)
    (hack : BuildsAck cfg c e t a) :
    ((∀ m, 0 ≤ m → m < a.request cfg.host → t.recv.Accepted m) ∧
        ¬ t.recv.Accepted (a.request cfg.host)) ∧
      a.request cfg.host + a.window cfg.host = t.recv.window.currentIndex + W ∧
      (∀ pre e₁ post c₁ t₁ a₁, es = pre ++ e₁ :: post →
        (machine cfg).run (start cfg) pre = some c₁ → BuildsAck cfg c₁ e₁ t₁ a₁ →
        a₁.request cfg.host ≤ a.request cfg.host ∧
          a₁.request cfg.host + a₁.window cfg.host ≤ a.request cfg.host + a.window cfg.host) ∧
      ∀ es' u, (machine cfg).run t es' = some u → ∀ i buf, a.request cfg.host ≤ i →
        i < a.request cfg.host + a.window cfg.host → ¬ u.recv.Accepted i →
        ∃ s j, u.recv.window.addSegmentToWindow buf i = .ok s ∧
          u.recv.window.slotIndex i = .ok j ∧
          (u.recv.window.slidingWindow j).inUse = false ∧ s.slidingWindow j = ⟨true, buf⟩ := by
  obtain ⟨b₀, hb₀, -⟩ := run_follows (start_follows hW hcfg) hrun
  obtain ⟨b, hb, hgrows, hedge, hreq, hwin⟩ := hack.exact hb₀
  have hright : a.request cfg.host + a.window cfg.host = b.next + W := by omega
  refine ⟨⟨fun m h0 hm => ?_, ?_⟩, ?_, ?_, ?_⟩
  · obtain ⟨m, rfl⟩ := Int.eq_ofNat_of_zero_le h0
    rw [hb.accepted_natCast]
    exact ReceiveBuffer.taken_of_lt_missing (by omega)
  · rw [hreq, hb.accepted_natCast]
    exact b.not_taken_missing
  · rw [hright, hb.represents.next]
  · rintro pre e₁ post c₁ t₁ a₁ rfl hpre hack₁
    obtain ⟨b₁, hb₁, -⟩ := run_follows (start_follows hW hcfg) hpre
    obtain ⟨b₁', hb₁', -, -, hreq₁, hwin₁⟩ := hack₁.exact hb₁
    -- the run goes on from the state of the earlier acknowledgement
    obtain ⟨v, hv, hrest⟩ := Machine.run_append_eq_some.mp hrun
    obtain ⟨w, hw, hrest⟩ := Machine.run_cons_eq_some.mp hrest
    obtain ⟨outs, hstep, -⟩ := hack₁.step
    have hwt : w = t₁ := by
      rw [hpre] at hv
      cases hv
      obtain ⟨outs', hstep'⟩ := machine_step.mp hw
      rw [hstep] at hstep'
      exact (Prod.mk.inj (Option.some.inj hstep')).1.symm
    subst hwt
    obtain ⟨b₂, hb₂, hg₂⟩ := run_follows hb₁' hrest
    obtain ⟨b₃, -, hg₃, -, hreq₃, hwin₃⟩ := hack.exact hb₂
    have hgrow := hg₂.trans hg₃
    have hmissing := hgrow.missing_le
    have hnext := hgrow.next_le
    omega
  · intro es' u hes' i buf hi hi' hfresh
    obtain ⟨d, hd, hg⟩ := run_follows hb hes'
    obtain ⟨i, rfl⟩ := Int.eq_ofNat_of_zero_le (show 0 ≤ i by omega)
    rw [hd.accepted_natCast, ReceiveBuffer.Taken, not_or] at hfresh
    have hle := hg.next_le
    obtain ⟨s, hadd, hslot, hfree, hstored⟩ := hd.represents.addSegmentToWindow_stores buf
      (n := i) (by omega) (by omega) (by omega) (by simpa using hfresh.2)
    exact ⟨s, i % W, hadd, hslot, hfree, hstored⟩

def fourOfThree : ClientConfig := ⟨.big, .bits64, 3, 2000⟩

/-- Segment `0` has been consumed, and `2` has been acknowledged from behind the gap at `1`. -/
def drainedOnce : List ClientEvent :=
  [.segment ⟨0, fun _ => 7⟩ false false fun _ => 0, .consume false fun _ => 0,
    .segment ⟨2, fun _ => 8⟩ false false fun _ => 0]

/-- The gap is filled: the acknowledgement before was `⟨1, 3, 0⟩`. -/
theorem ack_kept_drainedOnce :
    ∃ c t c₁ t₁, (machine fourOfThree).run (start fourOfThree) drainedOnce = some c ∧
      BuildsAck fourOfThree c₁ (.segment ⟨2, fun _ => 8⟩ false false fun _ => 0) t₁ ⟨1, 3, 0⟩ ∧
      BuildsAck fourOfThree c (.segment ⟨1, fun _ => 9⟩ false false fun _ => 0) t ⟨3, 1, 0⟩ ∧
      ((∀ m, 0 ≤ m → m < 3 → t.recv.Accepted m) ∧ ¬ t.recv.Accepted 3) ∧
      3 + 1 = t.recv.window.currentIndex + 3 ∧
      (ClientAck.request .big ⟨1, 3, 0⟩ ≤ ClientAck.request .big ⟨3, 1, 0⟩ ∧
        ClientAck.request .big ⟨1, 3, 0⟩ + ClientAck.window .big ⟨1, 3, 0⟩ ≤
          ClientAck.request .big ⟨3, 1, 0⟩ + ClientAck.window .big ⟨3, 1, 0⟩) ∧
      ∀ es' u, (machine fourOfThree).run t es' = some u → ∀ i buf, 3 ≤ i → i < 3 + 1 →
        ¬ u.recv.Accepted i →
        ∃ s j, u.recv.window.addSegmentToWindow buf i = .ok s ∧
          u.recv.window.slotIndex i = .ok j ∧
          (u.recv.window.slidingWindow j).inUse = false ∧ s.slidingWindow j = ⟨true, buf⟩ := by
  obtain ⟨c₁, hbefore, t₁, hearly⟩ : ∃ c₁, (machine fourOfThree).run (start fourOfThree)
      (drainedOnce.take 2) = some c₁ ∧ ∃ t₁, BuildsAck fourOfThree c₁
        (.segment ⟨2, fun _ => 8⟩ false false fun _ => 0) t₁ ⟨1, 3, 0⟩ :=
    ⟨_, rfl, _, ⟨_, rfl, by decide⟩, rfl, 1, by decide, rfl⟩
  obtain ⟨c, hrun, t, hlate⟩ : ∃ c, (machine fourOfThree).run (start fourOfThree) drainedOnce =
      some c ∧ ∃ t, BuildsAck fourOfThree c
        (.segment ⟨1, fun _ => 9⟩ false false fun _ => 0) t ⟨3, 1, 0⟩ :=
    ⟨_, rfl, _, ⟨_, rfl, by decide⟩, rfl, 0, by decide, rfl⟩
  obtain ⟨hrequest, hedge, hbehind, hahead⟩ := ack_kept (W := 3) (by decide) rfl hrun hlate
  exact ⟨c, t, c₁, t₁, hrun, hearly, hlate, hrequest, hedge,
    hbehind _ _ [] c₁ t₁ _ rfl hbefore hearly, hahead⟩

end Client

end TcpOverUdp
