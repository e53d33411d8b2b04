import TcpOverUdp.Transfer

namespace TcpOverUdp
open CWord

namespace Client

/-- What the acknowledgements of a client tell about its receive buffer: `n` segments have
arrived once the flag is set, and once `ActiveClose` runs. -/
structure CountInv {W : ℕ} (n : ℕ) (c : Client) (b : ReceiveBuffer Segment W) : Prop where
  follows : c.recv.Follows b
  count : c.count = b.next
  lastack : c.lastack = true → n ≤ b.missing
  closing : c.consumer ≠ .draining → n ≤ b.missing

/-- The record says that `n` segments have arrived: it is marked as the last acknowledgement,
or asks for a later segment, as a FIN and its ACK do. -/
def Claims (n : ℕ) (a : ClientAck) : Prop := a.lastackSent = 1 ∨ n ≤ a.currentRequest.toNat

variable {W n : ℕ} {cfg : ClientConfig} {c t : Client} {e : ClientEvent} {outs : List ClientOut}
  {b b' : ReceiveBuffer Segment W}

lemma claims_exactAck {lastack : Bool} (hedge : b.next + W < 2 ^ 31)
    (h : Claims n (exactAck .big lastack b)) : lastack = true ∨ n ≤ b.missing := by
  rcases h with h | h
  · left
    by_contra hlast
    simp [exactAck, hlast] at h
  · right
    have hle := b.missing_le_edge
    have hnat := toNat_toUnsigned (x := b.missing) (by omega) (by omega)
    simp only [exactAck, htonl_big] at h
    omega

/-- A step of the client keeps the account, and what it sends claims no more than is there. -/
theorem CountInv.step (h : CountInv n c b) (hhost : cfg.host = .big)
    (hprod : cfg.producerTotal = n) (hcons : cfg.consumerTotal = n) (hb' : t.recv.Follows b')
    (hmove : Moves cfg c b e t b' outs) :
    CountInv n t b' ∧ b.Grows b' ∧ ∀ o ∈ outs, Claims n o.record → n ≤ b'.missing := by
  -- a client that closes has seen everything, whatever it sends
  have hack : ∀ {drop lastack : Bool} {d : ReceiveBuffer Segment W} {outs : List ClientOut},
      outs = (if drop then [] else [.ack (exactAck cfg.host lastack d)]) →
      (drop = false → d.next + W < 2 ^ 31) → (lastack = true → n ≤ d.missing) →
      ∀ o ∈ outs, Claims n o.record → n ≤ d.missing := by
    rintro drop lastack d outs rfl hedge hlast o ho hclaim
    cases drop with
    | true => simp at ho
    | false =>
      obtain rfl : o = .ack (exactAck cfg.host lastack d) := by simpa using ho
      rw [hhost] at hclaim
      rcases claims_exactAck (hedge rfl) hclaim with hl | hn
      · exact hlast hl
      · exact hn
  cases hmove with
  | lost => exact ⟨h, .refl b, by simp⟩
  | segment hstate hfollows hnext hgrows houts hedge =>
    have hmono := hgrows.missing_le
    refine ⟨⟨hfollows, by rw [hnext]; exact h.count, fun hlast => ?_, fun hc => ?_⟩, hgrows,
      hack houts hedge fun hl => (h.lastack hl).trans hmono⟩
    · by_cases hall : cfg.producerTotal ≤ b'.missing
      · omega
      · simp only [if_neg hall] at hlast
        exact (h.lastack hlast).trans hmono
    · exact (h.closing hc).trans hmono
  | lastAck hstate houts hedge =>
    exact ⟨⟨h.follows, h.count, h.lastack, h.closing⟩, .refl b, hack houts hedge h.lastack⟩
  | consume hstate hmore hd =>
    have hcount := hd.count
    refine ⟨⟨hd.follows, by have := h.count; omega, fun hl => ?_, fun hc => ?_⟩, hd.grows, by simp⟩
    · rw [hd.missing_eq]
      exact h.lastack (hd.lastack ▸ hl)
    · rw [hd.missing_eq]
      exact h.closing (hd.consumer ▸ hc)
  | update hstate hmore hd hneed houts hedge =>
    have hcount := hd.count
    have hlast : c.lastack = true → n ≤ b'.missing := fun hl => hd.missing_eq ▸ h.lastack hl
    refine ⟨⟨hd.follows, by have := h.count; omega, fun hl => hlast (hd.lastack ▸ hl),
      fun hc => ?_⟩, hd.grows, hack houts hedge hlast⟩
    rw [hd.missing_eq]
    exact h.closing (hd.consumer ▸ hc)
  | fin hstate hall =>
    have hle := b.next_le_missing
    have hcount := h.count
    have hmissing : n ≤ b.missing := by omega
    exact ⟨⟨h.follows, h.count, h.lastack, fun _ => hmissing⟩, .refl b, fun _ _ _ => hmissing⟩
  | close hstate hc houts =>
    have hmissing := h.closing (by simp [hstate])
    exact ⟨⟨h.follows, h.count, h.lastack, fun _ => hmissing⟩, .refl b, fun _ _ _ => hmissing⟩

end Client

namespace Transfer

variable {cfg : TransferConfig} {x y : Transfer} {e : TransferEvent}

/-- When the server leaves its loop at its test, the record heard last asks for nothing of
the file. -/
def EndsOnRequest (cfg : TransferConfig) (x : Transfer) : TransferEvent → Prop
  | .server (.go _) _ => x.sender.state = .top → cfg.totalNumSegments ≤ x.sender.index →
      ∃ a ∈ x.heard.getLast?, cfg.totalNumSegments ≤ a.currentRequest.toNat
  | _ => True

instance (cfg : TransferConfig) (x : Transfer) : ∀ e, Decidable (EndsOnRequest cfg x e)
  | .server (.go _) _ => inferInstanceAs (Decidable (_ = _ → _ ≤ _ → ∃ a ∈ _, _ ≤ _))
  | .server (.read ..) _ | .server .timeout _ | .server .alarm _ | .serverRead .. | .client _
  | .producerRead .. | .closeRead _ => inferInstanceAs (Decidable True)

/-- Records in flight, records heard, and a server that has left its loop tell the truth about
the receive buffer. -/
def Truthful (cfg : TransferConfig) (x : Transfer) : Prop :=
  ∃ b : ReceiveBuffer Segment cfg.receivingWindowSize,
    x.client.CountInv cfg.totalNumSegments b ∧
    (∀ a ∈ x.toServer, Client.Claims cfg.totalNumSegments a → cfg.totalNumSegments ≤ b.missing) ∧
    (∀ a ∈ x.heard, Client.Claims cfg.totalNumSegments a → cfg.totalNumSegments ≤ b.missing) ∧
    (x.sender.Left → cfg.totalNumSegments ≤ b.missing)

lemma truthful_start (now : TimeVal) : Truthful cfg (start cfg now) := by
  refine ⟨_, ⟨Client.start_follows cfg.window_pos rfl, rfl, by simp [start, Client.start],
    fun h => absurd rfl h⟩, by simp [start], by simp [start, heard], ?_⟩
  rintro (h | ⟨_, _, h⟩ | ⟨_, _, h | h⟩) <;> cases h

lemma Truthful.afterClient {e' : ClientEvent} {rest : List Datagram} {t : Client}
    {outs : List ClientOut} (h : Truthful cfg x)
    (hstep : x.client.step cfg.client (x.client.wellDefined e') = some (t, outs)) :
    Truthful cfg (x.afterClient rest t outs) := by
  obtain ⟨b, hcount, hflight, hheard, hleft⟩ := h
  obtain ⟨b', hb', hmove⟩ := Client.step_moves rfl hcount.follows hstep
  obtain ⟨hcount', hgrows, houts⟩ :=
    hcount.step rfl cfg.client_producerTotal cfg.client_consumerTotal hb' hmove
  have hmono := hgrows.missing_le
  refine ⟨b', hcount', fun a ha hclaim => ?_, fun a ha hclaim => ?_, fun hl => ?_⟩
  · rcases List.mem_append.mp ha with ha | ha
    · exact (hflight a ha hclaim).trans hmono
    · obtain ⟨o, ho, rfl⟩ := List.mem_map.mp ha
      exact houts o ho hclaim
  · exact (hheard a ha hclaim).trans hmono
  · exact (hleft hl).trans hmono

theorem Truthful.step (h : Truthful cfg x) (hgood : EndsOnRequest cfg x e)
    (hstep : x.step cfg e = some y) : Truthful cfg y := by
  cases step_moves hstep with
  | @serve e bufs t outs hread hmove =>
    obtain ⟨b, hcount, hflight, hheard, hleft⟩ := h
    refine ⟨b, hcount, hflight, by rwa [heard_serve hread], fun hl => ?_⟩
    rcases hmove.left hl with hl | ⟨htop, hge⟩ | ⟨r, now, rfl, -⟩
    · exact hleft hl
    · rw [cfg.server_totalNumSegments] at hge
      obtain ⟨now, rfl⟩ := hmove.go_of_top htop
      obtain ⟨a, ha, hle⟩ := hgood htop hge
      exact hheard a (List.mem_of_getLast? ha) (Or.inr hle)
    · cases hread
  | read hrecv hmove =>
    obtain ⟨b, hcount, hflight, hheard, hleft⟩ := h
    obtain ⟨hmem, hrest⟩ := Discipline.mem_of_receive hrecv
    refine ⟨b, hcount, fun a ha => hflight a (hrest a ha), fun a ha hclaim => ?_, fun hl => ?_⟩
    · rw [heard_read] at ha
      rcases List.mem_append.mp ha with ha | ha
      · exact hheard a ha hclaim
      · obtain rfl := mem_heard_complete ha
        exact hflight _ hmem hclaim
    · rcases hmove.left hl with hl | ⟨htop, hge⟩ | ⟨r, now, he, hlast, -⟩
      · exact hleft hl
      · obtain ⟨_, he⟩ := hmove.go_of_top htop
        cases he
      · obtain ⟨rfl, -⟩ := SenderEvent.read.inj he
        exact hflight _ hmem (Or.inl hlast)
  | act hside hact => exact h.afterClient hact
  | skip => exact h

/-- Along a run in which the loop is left at its test only after a record that asks for
nothing of the file, a server that leaves its loop, because of `index` or of the last
acknowledgement, leaves it when the client has accepted the whole file. -/
theorem accepted_of_left {now : TimeVal} {es : List TransferEvent}
    (hgood : (machine cfg).Along (fun x e _ => EndsOnRequest cfg x e) (start cfg now) es)
    (hrun : (machine cfg).run (start cfg now) es = some x) (hleft : x.sender.Left) :
    ∀ m : ℕ, m < cfg.totalNumSegments → x.client.recv.Accepted m := by
  obtain ⟨b, hcount, -, -, hall⟩ := Machine.run_invariant_along (P := Truthful cfg)
    (fun _ _ _ h hg hstep => h.step hg hstep) (truthful_start now) hgood hrun
  intro m hm
  rw [hcount.follows.accepted_natCast]
  have := hall hleft
  exact ReceiveBuffer.taken_of_lt_missing (by omega)

theorem accepted_of_left_one :
    ∃ x, (machine (.zeros 100 2 .unreliable (by decide))).run
        (start (.zeros 100 2 .unreliable (by decide)) ⟨0, 0⟩)
        [.server (.go ⟨0, 0⟩) fun _ _ => 0, .producerRead 0 false false,
          .serverRead 0 ⟨0, 0⟩ fun _ _ => 0, .server (.go ⟨0, 0⟩) fun _ _ => 0,
          .server (.go ⟨0, 0⟩) fun _ _ => 0] = some x ∧ x.sender.state = .leaving .index ∧
      ∀ m : ℕ, m < (TransferConfig.zeros 100 2 .unreliable (by decide)).totalNumSegments →
        x.client.recv.Accepted m := by
  have key : ∀ {cfg : TransferConfig} {es},
      ((machine cfg).run (start cfg ⟨0, 0⟩) es).map (fun x => x.sender.state) =
        some (.leaving .index) →
      (machine cfg).Along (fun x e _ => EndsOnRequest cfg x e) (start cfg ⟨0, 0⟩) es →
      ∃ x, (machine cfg).run (start cfg ⟨0, 0⟩) es = some x ∧ x.sender.state = .leaving .index ∧
        ∀ m : ℕ, m < cfg.totalNumSegments → x.client.recv.Accepted m := by
    intro cfg es hobs hgood
    obtain ⟨x, hx, hstate⟩ := Option.map_eq_some_iff.mp hobs
    exact ⟨x, hx, hstate, accepted_of_left hgood hx (Or.inr (Or.inr ⟨.index, rfl, Or.inl hstate⟩))⟩
  exact key (by decide +kernel) (by decide +kernel)

/-- Three segments and a window of four.  Segment `2` of the second burst is lost; the
acknowledgement of segment `1` and a copy of that of segment `0` count as two new ones and
close the cycle; and the loop is left with segment `2` missing. -/
theorem not_accepted_of_left :
    ∃ x, (machine (.zeros 1020 4 .unreliable (by decide))).run
        (start (.zeros 1020 4 .unreliable (by decide)) ⟨0, 0⟩)
        [.server (.go ⟨0, 0⟩) fun _ _ => 0, .producerRead 0 false false,
          .serverRead 0 ⟨0, 0⟩ fun _ _ => 0, .server (.go ⟨0, 0⟩) fun _ _ => 0,
          .server (.go ⟨0, 0⟩) fun _ _ => 0, .producerRead 1 false false,
          .serverRead 1 ⟨0, 0⟩ fun _ _ => 0, .serverRead 0 ⟨0, 0⟩ fun _ _ => 0,
          .server (.go ⟨0, 0⟩) fun _ _ => 0, .server (.go ⟨0, 0⟩) fun _ _ => 0] = some x ∧
      x.sender.state = .leaving .index ∧
      ¬ ∀ m : ℕ, m < (TransferConfig.zeros 1020 4 .unreliable (by decide)).totalNumSegments →
        x.client.recv.Accepted m := by
  have key : ∀ {cfg : TransferConfig} {r : Option Transfer},
      (r.map fun x => (cfg.totalNumSegments, x.sender.state,
        x.client.recv.accepted.map Prod.fst)) = some (3, .leaving .index, [0, 1]) →
      ∃ x, r = some x ∧ x.sender.state = .leaving .index ∧
        ¬ ∀ m : ℕ, m < cfg.totalNumSegments → x.client.recv.Accepted m := by
    intro cfg r hobs
    obtain ⟨x, hx, hobs⟩ := Option.map_eq_some_iff.mp hobs
    obtain ⟨htotal, hobs⟩ := Prod.mk.inj hobs
    obtain ⟨hstate, haccepted⟩ := Prod.mk.inj hobs
    refine ⟨x, hx, hstate, fun hall => ?_⟩
    have hmem := hall 2 (by omega)
    rw [Receiver.Accepted, haccepted] at hmem
    simp at hmem
  exact key (by decide +kernel)

end Transfer

end TcpOverUdp
