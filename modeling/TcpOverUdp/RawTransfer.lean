import TcpOverUdp.Transfer

namespace TcpOverUdp
open CWord

/-- What an acknowledgement of a full window asks for. -/
def ClientEvent.fullRequest : ClientEvent → Option ℤ
  | .segment _ _ _ junk => some (junk 0)
  | .lastAck _ junk => some (junk 0)
  -- the first two calls of this section are not those of `SendClientAckWithLoss`
  | .consume _ junk => some (junk 2)
  | _ => none

/-- The same in a step of a transfer, where `junk` stands for the producer's calls. -/
def TransferEvent.fullRequest (junk : ℕ → ℤ) : TransferEvent → Option ℤ
  | .client e => e.fullRequest
  | .producerRead .. => some (junk 0)
  | _ => none

/-- What the window of such an acknowledgement is computed from: the value of a second call. -/
def ClientEvent.fullWindow : ClientEvent → Option ℤ
  | .segment _ _ _ junk => some (junk 1)
  | .lastAck _ junk => some (junk 1)
  -- behind the fetches of the consumer the window is not full
  | _ => none

def TransferEvent.fullWindow (junk : ℕ → ℤ) : TransferEvent → Option ℤ
  | .client e => e.fullWindow
  | .producerRead .. => some (junk 1)
  | _ => none

def ClientEvent.arrives : ClientEvent → Option ℤ
  | .segment s _ _ _ => some (toSigned s.segmentNum)
  | _ => none

def TransferEvent.closes : TransferEvent → Bool
  | .closeRead _ => true
  | _ => false

namespace Transfer

def rawAct (cfg : TransferConfig) (x : Transfer) (e : ClientEvent) (rest : List Datagram) :
    Option Transfer :=
  (x.client.step cfg.client e).map fun (t, outs) => x.afterClient rest t outs

/-- A step, where the call of `SlidingWindowGetNextAckIndex` for a full window, which ends without a
return, gives any value: an input here, where `Transfer.step` takes the right edge. -/
def rawStep (cfg : TransferConfig) (x : Transfer) : TransferEvent × (ℕ → ℤ) → Option Transfer
  | (.client e, _) => if e.reads then none else x.rawAct cfg e x.toClient
  | (.producerRead i loseData loseAck, junk) =>
    (cfg.channel.receive x.toClient i).bind fun (m, rest) =>
      match m with
      | .segment s => x.rawAct cfg (.segment s loseData loseAck junk) rest
      | .record _ =>
        if x.client.producer = .receiving then some { x with toClient := rest } else none
  | (e, _) => x.step cfg e

def rawMachine (cfg : TransferConfig) : Machine Transfer (TransferEvent × (ℕ → ℤ)) := ⟨rawStep cfg⟩

variable {cfg : TransferConfig} {x y : Transfer} {e : TransferEvent} {junk : ℕ → ℤ}

def filled (x : Transfer) : TransferEvent → TransferEvent × (ℕ → ℤ)
  | .client e => (.client (x.client.wellDefined e), fun _ => x.client.edge)
  | e => (e, fun _ => x.client.edge)

lemma reads_wellDefined (c : Client) (e : ClientEvent) : (c.wellDefined e).reads = e.reads := by
  cases e <;> rfl

theorem rawStep_filled (cfg : TransferConfig) (x : Transfer) (e : TransferEvent) :
    x.rawStep cfg (x.filled e) = x.step cfg e := by
  cases e with
  | client e =>
    simp only [filled, rawStep, step, reads_wellDefined]
    rfl
  | _ => rfl

theorem exists_raw_run {es : List TransferEvent} (h : (machine cfg).run x es = some y) :
    ∃ fs, (rawMachine cfg).run x fs = some y := by
  induction es generalizing x with
  | nil => exact ⟨[], h⟩
  | cons e es ih =>
    obtain ⟨u, hu, hrun⟩ := Machine.run_cons_eq_some.mp h
    obtain ⟨fs, hfs⟩ := ih hrun
    exact ⟨x.filled e :: fs,
      Machine.run_cons_eq_some.mpr ⟨u, (rawStep_filled cfg x e).trans hu, hfs⟩⟩

/-- The moves of a transfer: those of the server, those of the client's threads up to
`ActiveClose`, its reads, and the producer skipping a record. -/
inductive RawMoves (cfg : TransferConfig) (x : Transfer) :
    TransferEvent × (ℕ → ℤ) → Transfer → Prop
  | serve {e bufs junk t outs} (hread : e.reads = false)
      (hmove : Sender.Moves cfg.server x.sender e t outs) :
    RawMoves cfg x (.server e bufs, junk) (x.afterServer cfg e bufs x.toServer t outs)
  | read {i now bufs junk a rest t outs}
      (hrecv : cfg.channel.receive x.toServer i = some (a, rest))
      (hmove : Sender.Moves cfg.server x.sender (.read (.complete a) now) t outs) :
    RawMoves cfg x (.serverRead i now bufs, junk)
      (x.afterServer cfg (.read (.complete a) now) bufs rest t outs)
  | act {e e' junk rest t outs} (hside : e.byServer = false) (hother : e.closes = false)
      (hreads : ∀ a, e' ≠ .closeRead a) (hfull : e'.fullRequest = e.fullRequest junk)
      (hrest : ∀ m ∈ rest, m ∈ x.toClient)
      (hstep : x.client.step cfg.client e' = some (t, outs))
      (hwindow : e'.fullWindow = e.fullWindow junk) :
    RawMoves cfg x (e, junk) (x.afterClient rest t outs)
  | closeRead {i junk m rest t outs}
      (hrecv : cfg.channel.receive x.toClient i = some (m, rest))
      (hstep : x.client.step cfg.client (.closeRead m.asClientAck) = some (t, outs)) :
    RawMoves cfg x (.closeRead i, junk) (x.afterClient rest t outs)
  | skip {e junk rest} (hside : e.byServer = false) (hother : e.closes = false)
      (hrest : ∀ m ∈ rest, m ∈ x.toClient) : RawMoves cfg x (e, junk) { x with toClient := rest }

theorem rawStep_moves (h : x.rawStep cfg (e, junk) = some y) : RawMoves cfg x (e, junk) y := by
  cases e with
  | server e bufs =>
    cases step_moves (show x.step cfg (.server e bufs) = some y from h) with
    | serve hread hmove => exact .serve hread hmove
    | act hside => cases hside
    | skip hside => cases hside
  | serverRead i now bufs =>
    cases step_moves (show x.step cfg (.serverRead i now bufs) = some y from h) with
    | read hrecv hmove => exact .read hrecv hmove
    | act hside => cases hside
    | skip hside => cases hside
  | client e =>
    simp only [rawStep, Option.ite_none_left_eq_some] at h
    obtain ⟨⟨t, outs⟩, hstep, rfl⟩ := Option.map_eq_some_iff.mp h.2
    refine .act rfl rfl ?_ rfl (fun _ hm => hm) hstep rfl
    rintro a rfl
    exact h.1 rfl
  | producerRead i loseData loseAck =>
    obtain ⟨⟨m, rest⟩, hrecv, h⟩ := Option.bind_eq_some_iff.mp h
    obtain ⟨-, hrest⟩ := Discipline.mem_of_receive hrecv
    cases m with
    | segment s =>
      obtain ⟨⟨t, outs⟩, hstep, rfl⟩ := Option.map_eq_some_iff.mp h
      exact .act rfl rfl (by simp) rfl hrest hstep rfl
    | record a =>
      simp only [Option.ite_none_right_eq_some] at h
      obtain rfl := Option.some.inj h.2
      exact .skip rfl rfl hrest
  | closeRead i =>
    obtain ⟨⟨m, rest⟩, hrecv, h⟩ := Option.bind_eq_some_iff.mp h
    obtain ⟨⟨t, outs⟩, hstep, rfl⟩ := Option.map_eq_some_iff.mp h
    exact .closeRead hrecv hstep

end Transfer

namespace Client

variable {cfg : ClientConfig} {c t : Client} {e : ClientEvent} {outs : List ClientOut} {W : ℕ}
  {b : ReceiveBuffer Segment W} {a : ClientAck}

/-- An acknowledgement asks for the least missing segment, or for whatever a call that ends
without a return gives. -/
lemma request_of_send {lastack drop : Bool} {junk : ℕ → ℤ} {s : SlidingWindow Segment}
    (hs : s.Represents b) (h : sendClientAckWithLoss cfg lastack drop junk s = .ok outs)
    (ha : .ack a ∈ outs) :
    b.next + W < 2 ^ 31 ∧ (a.currentRequest = htonl cfg.host (toUnsigned b.missing) ∨
      b.missing = b.next + W ∧ a.currentRequest = htonl cfg.host (toUnsigned (junk 0))) := by
  rcases sendClientAckWithLoss_ok h with ⟨-, rfl⟩ | ⟨n, w, -, hn, hw, rfl⟩
  · cases ha
  · refine ⟨hs.edge_lt_of_availableWindowSize hw, ?_⟩
    obtain rfl : a = _ := by simpa using ha
    rcases hs.nextAckIndexOr_cases hn with ⟨rfl, -⟩ | ⟨rfl, hfull⟩
    · exact Or.inl rfl
    · exact Or.inr ⟨hfull, rfl⟩

/-- A step of the client takes nothing but the segment it reads, and acknowledges the receive
buffer it leaves; only what is asked for on behalf of a full window can be any number. -/
theorem step_asks (hb : c.recv.Follows b) (hstep : c.step cfg e = some (t, outs)) :
    ∃ b' : ReceiveBuffer Segment W, t.recv.Follows b' ∧ b.Grows b' ∧
      (∀ n : ℕ, b'.Taken n → b.Taken n ∨ (n : ℤ) ∈ e.arrives) ∧
      ∀ a, .ack a ∈ outs → b'.missing < 2 ^ 31 ∧
        (a.currentRequest = htonl cfg.host (toUnsigned b'.missing) ∨
          (b'.missing : ℤ) = c.edge ∧
            ∃ n ∈ e.fullRequest, a.currentRequest = htonl cfg.host (toUnsigned n)) := by
  have hedge : c.edge = b.next + W := edge_eq hb
  have hsend : ∀ {lastack drop : Bool} {junk : ℕ → ℤ} {s : SlidingWindow Segment}
      {b' : ReceiveBuffer Segment W} {a : ClientAck}, s.Represents b' →
      sendClientAckWithLoss cfg lastack drop junk s = .ok outs → junk 0 ∈ e.fullRequest →
      (b'.missing = b'.next + W → (b'.missing : ℤ) = c.edge) → .ack a ∈ outs →
      b'.missing < 2 ^ 31 ∧ (a.currentRequest = htonl cfg.host (toUnsigned b'.missing) ∨
        (b'.missing : ℤ) = c.edge ∧
          ∃ n ∈ e.fullRequest, a.currentRequest = htonl cfg.host (toUnsigned n)) := by
    intro lastack drop junk s b' a hs hsend hjunk hfull ha
    have hle := b'.missing_le_edge
    obtain ⟨hlt, hreq | ⟨hmissing, hreq⟩⟩ := request_of_send hs hsend ha
    · exact ⟨by omega, Or.inl hreq⟩
    · exact ⟨by omega, Or.inr ⟨hfull hmissing, _, hjunk, hreq⟩⟩
  have hclose : (∀ o ∈ outs, ∃ a, o = .close a) → ∀ a, ClientOut.ack a ∉ outs := by
    intro h a ha
    obtain ⟨a', ha'⟩ := h _ ha
    cases ha'
  cases step_sections hstep with
  | producer _ hsection =>
    rcases producerSection_cases hsection with ⟨-, rfl, rfl⟩ | ⟨s, n, -, hadd, hack, -, rfl⟩
    · exact ⟨b, hb, .refl b, fun n hn => Or.inl hn, by simp⟩
    · obtain ⟨b', hb', hnext, htaken, hnew⟩ := hb.exists_afterAdd hadd
      refine ⟨b', hb', ⟨hnext.ge, htaken⟩, fun n hn => (hnew n hn).imp_right fun h => ?_,
        fun a ha => hsend hb'.represents hack rfl (fun hfull => ?_) ha⟩
      · simp [ClientEvent.arrives, h]
      · omega
  | lastAck _ hack =>
    refine ⟨b, hb, .refl b, fun n hn => Or.inl hn,
      fun a ha => hsend hb.represents hack rfl (fun hfull => ?_) ha⟩
    omega
  | consumer _ _ hsection =>
    obtain ⟨w, -, hdrain, houts⟩ := consumerSection_cases hsection
    obtain ⟨b', hd⟩ := drain_drained hb hdrain
    refine ⟨b', hd.follows, hd.grows, fun n hn => Or.inl ((hd.taken_iff n).mp hn), ?_⟩
    rcases houts with rfl | ⟨-, -, hack⟩
    · simp
    · refine fun a ha => hsend hd.follows.represents hack rfl (fun hfull => ?_) ha
      -- a window that is full after the fetches was full before them
      have hle := b.missing_le_edge
      have hnext := hd.grows.next_le
      have hsame := hd.missing_eq
      omega
  | fin => exact ⟨b, hb, .refl b, fun n hn => Or.inl hn, by simp⟩
  | closeRead _ _ houts =>
    exact ⟨b, hb, .refl b, fun n hn => Or.inl hn, fun a ha => absurd ha (hclose houts a)⟩
  | closeTimeout _ _ houts =>
    exact ⟨b, hb, .refl b, fun n hn => Or.inl hn, fun a ha => absurd ha (hclose houts a)⟩

theorem request_of_step (hb : c.recv.Follows b) (hstep : c.step cfg e = some (t, outs))
    (ha : .ack a ∈ outs) :
    (∃ n < 2 ^ 31, a.currentRequest = htonl cfg.host (toUnsigned (n : ℕ))) ∨
      ∃ n ∈ e.fullRequest, a.currentRequest = htonl cfg.host (toUnsigned n) := by
  obtain ⟨b', -, -, -, hacks⟩ := step_asks hb hstep
  obtain ⟨hlt, hreq | ⟨-, hfull⟩⟩ := hacks a ha
  · exact Or.inl ⟨_, hlt, hreq⟩
  · exact Or.inr hfull

/-- Every acknowledgement asks for the least missing segment, if that of a full window asks for
its right edge. -/
theorem missing_of_step (hb : c.recv.Follows b) (hstep : c.step cfg e = some (t, outs))
    (hfull : ∀ n ∈ e.fullRequest, n = c.edge) :
    ∃ b' : ReceiveBuffer Segment W, t.recv.Follows b' ∧ b.Grows b' ∧
      (∀ n : ℕ, b'.Taken n → b.Taken n ∨ (n : ℤ) ∈ e.arrives) ∧
      ∀ a, .ack a ∈ outs → b'.missing < 2 ^ 31 ∧
        a.currentRequest = htonl cfg.host (toUnsigned b'.missing) := by
  obtain ⟨b', hb', hgrows, htaken, hacks⟩ := step_asks hb hstep
  refine ⟨b', hb', hgrows, htaken, fun a ha => ?_⟩
  obtain ⟨hlt, hreq | ⟨hedge, n, hn, hreq⟩⟩ := hacks a ha
  · exact ⟨hlt, hreq⟩
  · rw [hedge, ← hfull n hn]
    exact ⟨hlt, hreq⟩

end Client

end TcpOverUdp
