import TcpOverUdp.ClientLog
import TcpOverUdp.Transfer

namespace TcpOverUdp
open CWord

def SenderState.probe? : SenderState → Option Probe
  | .probing p => some p
  | _ => none

namespace Transfer

def lastRequest (heard : List ClientAck) : ℕ :=
  (heard.getLast?.map fun a => a.currentRequest.toNat).getD 0

/-- How many acknowledgements can still count as new: one for each request behind the one
heard last, up to `n`; and one more with the request heard last itself, if that is not the
one in `lastAckReceived`. -/
def newAcks (n : ℕ) (lastAckReceived : ℤ) (heard : List ClientAck) : ℕ :=
  n - lastRequest heard +
    if heard.getLast?.map ClientAck.currentRequest = some (toUnsigned lastAckReceived) then 0 else 1

/-- No timer expires.  A burst that brings `index` to `n` is larger than the number of
acknowledgements that can still count as new.  No FIN comes before the last acknowledgement.
The probe does not meet the last acknowledgement with a closed window, does not end on
another one when everything is sent, and does not time out for the eleventh time. -/
def KeepsGoing (n : ℕ) (s : Sender) (heard : List ClientAck) : SenderEvent → Prop
  | .go _ => s.state = .top → n ≤ s.index + s.burstSize.toNat →
      n ≤ lastRequest heard ∨ newAcks n s.lastAckReceived heard < s.burstSize.toNat
  | .read r _ =>
    (s.state = .reading ∨ s.state.probe?.isSome → r.over s.ack ≠ finRecord) ∧
      (s.state.probe?.isSome →
        ((r.over s.ack).lastackSent = 1 → (r.over s.ack).advtWindow ≠ 0) ∧
        (n ≤ s.index → (r.over s.ack).advtWindow ≠ 0 → (r.over s.ack).lastackSent = 1))
  | .timeout => ∀ p ∈ s.state.probe?, p.networkTimeout + 1 ≠ 11
  | .alarm => False

instance (n : ℕ) (s : Sender) (heard : List ClientAck) : ∀ e, Decidable (KeepsGoing n s heard e)
  | .go _ => inferInstanceAs (Decidable (_ = _ → _ ≤ _ → _ ∨ _))
  | .read .. => inferInstanceAs (Decidable ((_ → _) ∧ (_ → (_ → _) ∧ (_ → _ → _))))
  | .timeout => inferInstanceAs (Decidable (∀ p ∈ _, _ ≠ _))
  | .alarm => inferInstanceAs (Decidable False)

def EndsOrderly (cfg : TransferConfig) (x : Transfer) : TransferEvent → Prop
  | .server e _ => KeepsGoing cfg.totalNumSegments x.sender x.heard e
  | .serverRead i now _ => ∀ p ∈ cfg.channel.receive x.toServer i,
      KeepsGoing cfg.totalNumSegments x.sender x.heard (.read (.complete p.1) now)
  | _ => True

instance (cfg : TransferConfig) (x : Transfer) : ∀ e, Decidable (EndsOrderly cfg x e)
  | .server .. => inferInstanceAs (Decidable (KeepsGoing ..))
  | .serverRead .. => inferInstanceAs (Decidable (∀ p ∈ _, KeepsGoing ..))
  | .client _ | .producerRead .. | .closeRead _ => inferInstanceAs (Decidable True)

/-- The server has read the acknowledgements `done`, none of them the last one. -/
structure Listens (heard : List ClientAck) (done : List ClientOut) : Prop where
  plain : ∀ o ∈ done, o.Plain
  heard_eq : heard = done.map ClientOut.record

/-- Where the server stands in the log of the client, of which it has read `done`. -/
def Stands (n : ℕ) (s : Sender) (heard : List ClientAck) (done : List ClientOut) : Prop :=
  match s.state with
  | .top | .cycleEnd => Listens heard done ∧ s.index < n
  | .reading => Listens heard done ∧ (s.index < n ∨ n ≤ lastRequest heard ∨
      s.totalToRecv + newAcks n s.lastAckReceived heard < s.totalToSend)
  | .probeSleep => Listens heard done
  | .probing p => Listens heard done ∧ p.networkTimeout ≠ 11
  | .awaitFin => (∀ o ∈ done, o.isClose = false) ∧ ∃ a, .ack a ∈ done ∧ a.lastackSent = 1
  | .awaitAck _ _ => True
  | .leaving r | .done r => r = .lastAck true

variable {n : ℕ} {cfg : ServerConfig} {s t : Sender} {e : SenderEvent} {a : ClientAck}
  {heard : List ClientAck} {done rest : List ClientOut} {o : ClientOut} {outs : List SenderOut}
  {l : ℤ}

lemma lastRequest_concat : lastRequest (heard ++ [a]) = a.currentRequest.toNat := by
  simp [lastRequest]

lemma newAcks_concat : newAcks n l (heard ++ [a]) =
    n - a.currentRequest.toNat + if a.currentRequest = toUnsigned l then 0 else 1 := by
  simp [newAcks, lastRequest_concat]

lemma Listens.isClose_eq_false (h : Listens heard done) : ∀ o ∈ done, o.isClose = false := by
  intro o ho
  obtain ⟨a, rfl, -⟩ := h.plain o ho
  rfl

lemma Listens.concat (h : Listens heard done) (hlast : a.lastackSent ≠ 1) :
    Listens (heard ++ [a]) (done ++ [.ack a]) where
  plain o ho := by
    rcases List.mem_append.mp ho with ho | ho
    · exact h.plain o ho
    · exact ⟨a, List.mem_singleton.mp ho, hlast⟩
  heard_eq := by
    rw [h.heard_eq, List.map_append]
    rfl

lemma Listens.eq_ack (h : Listens heard done) (hlog : ClientOut.Ordered n (done ++ o :: rest))
    (hfin : o.record ≠ finRecord) : o = .ack o.record := by
  cases o with
  | ack a => rfl
  | close a =>
    have heq := hlog.eq_fin_of_isClose h.isClose_eq_false rfl
    exact absurd (congrArg ClientOut.record heq) hfin

/-- While acknowledgements come that are not the last one, the request heard last is one of
the file, and at most the next. -/
lemma Listens.lastRequest_lt (h : Listens heard done) (hn : 1 ≤ n)
    (hlog : ClientOut.Ordered n (done ++ .ack a :: rest)) (hlast : a.lastackSent ≠ 1) :
    lastRequest heard < n ∧ lastRequest heard ≤ a.currentRequest.toNat := by
  rw [h.heard_eq]
  rcases List.eq_nil_or_concat done with rfl | ⟨done, o, rfl⟩
  · exact ⟨hn, Nat.zero_le _⟩
  · rw [List.concat_eq_append] at h hlog ⊢
    obtain ⟨a', rfl, -⟩ := h.plain o (by simp)
    obtain ⟨-, -, hcross⟩ := List.pairwise_append.mp hlog.before
    obtain ⟨-, hle, hlt⟩ := hcross (.ack a') (by simp) (.ack a) List.mem_cons_self
    rw [List.map_append, List.map_singleton, lastRequest_concat]
    exact ⟨hlt hlast, hle⟩

lemma newAcks_duplicate (hle : lastRequest heard ≤ a.currentRequest.toNat)
    (hdup : toUnsigned l = a.currentRequest) :
    newAcks n l (heard ++ [a]) ≤ newAcks n l heard := by
  rw [newAcks_concat, if_pos hdup.symm, newAcks]
  omega

lemma newAcks_new (hle : lastRequest heard ≤ a.currentRequest.toNat)
    (hnew : toUnsigned l ≠ a.currentRequest) :
    n ≤ lastRequest (heard ++ [a]) ∨
      newAcks n (toSigned a.currentRequest) (heard ++ [a]) < newAcks n l heard := by
  rw [lastRequest_concat, newAcks_concat, if_pos (toUnsigned_toSigned _).symm, newAcks]
  by_cases hn : n ≤ a.currentRequest.toNat
  · exact Or.inl hn
  · right
    split_ifs with hl
    · obtain ⟨a', ha', heq⟩ := Option.map_eq_some_iff.mp hl
      have hlr : lastRequest heard = a'.currentRequest.toNat := by simp [lastRequest, ha']
      have hne : a'.currentRequest.toNat ≠ a.currentRequest.toNat := by
        intro hc
        exact hnew (heq ▸ BitVec.eq_of_toNat_eq hc)
      omega
    · omega

lemma Stands.serve (h : Stands n s heard done) (htotal : cfg.totalNumSegments = n)
    (hread : e.reads = false) (hgood : KeepsGoing n s heard e)
    (hmove : Sender.Moves cfg s e t outs) : Stands n t heard done := by
  cases hmove with
  | burst hs hlt =>
    simp only [Stands, hs] at h
    refine ⟨h.1, ?_⟩
    by_cases hall : (n : ℤ) ≤ s.index + s.burstSize.toNat
    · rcases hgood hs hall with hreq | hnew
      · exact Or.inr (Or.inl hreq)
      · refine Or.inr (Or.inr ?_)
        show 0 + (newAcks n s.lastAckReceived heard : ℤ) < s.burstSize
        omega
    · exact Or.inl (not_le.mp hall)
  | exhausted hs hge =>
    simp only [Stands, hs] at h
    exact absurd h.2 (by omega)
  | wake hs =>
    simp only [Stands, hs] at h
    exact ⟨h, show (0 : ℤ) ≠ 11 by decide⟩
  | nextCycle hs =>
    simp only [Stands, hs] at h
    exact h
  | finish hs =>
    simp only [Stands, hs] at h
    exact h
  | probeAgain hs htry =>
    simp only [Stands, hs] at h
    exact ⟨h.1, htry⟩
  | probeAbort hs htry => exact absurd htry (hgood _ (by rw [hs]; rfl))
  | closed hs => exact rfl
  | closeAgain hs => trivial
  | resend => exact hgood.elim
  | giveUp => exact hgood.elim
  | _ => cases hread

lemma Listens.endCycle (h : Listens heard done) (hindex : s.ack.lastackSent ≠ 1 → s.index < n) :
    Stands n s.endCycle (heard ++ [s.ack]) (done ++ [.ack s.ack]) := by
  by_cases hlast : s.ack.lastackSent = 1
  · simp only [Stands, Sender.endCycle_of_last hlast]
    refine ⟨fun o ho => ?_, s.ack, by simp, hlast⟩
    rcases List.mem_append.mp ho with ho | ho
    · exact h.isClose_eq_false o ho
    · rw [List.mem_singleton.mp ho]
      rfl
  · simp only [Stands, Sender.endCycle_of_not_last hlast]
    exact ⟨h.concat hlast, hindex hlast⟩

lemma Stands.hear {now : TimeVal} (h : Stands n s heard done) (hs : s.state = .reading)
    (hn : 1 ≤ n) (hlog : ClientOut.Ordered n (done ++ .ack a :: rest))
    (hmove : Sender.Moves cfg s (.read (.complete a) now) t outs) :
    Stands n t (heard ++ [a]) (done ++ [.ack a]) := by
  simp only [Stands, hs] at h
  obtain ⟨hlisten, hrest⟩ := h
  have hlt : a.lastackSent ≠ 1 → lastRequest heard < n ∧
      lastRequest heard ≤ a.currentRequest.toNat := hlisten.lastRequest_lt hn hlog
  have hdup : a.lastackSent ≠ 1 → toUnsigned s.lastAckReceived = a.currentRequest →
      s.index < n ∨ n ≤ lastRequest (heard ++ [a]) ∨
        s.totalToRecv + newAcks n s.lastAckReceived (heard ++ [a]) < s.totalToSend := by
    intro hlast hd
    have := newAcks_duplicate (n := n) (hlt hlast).2 hd
    rcases hrest with hi | hr | hc
    · exact Or.inl hi
    · exact absurd hr (not_le.mpr (hlt hlast).1)
    · exact Or.inr (Or.inr (by omega))
  cases hmove with
  | lastAck _ hlast => exact hlisten.endCycle fun hc => absurd hlast hc
  | zeroWindow _ hlast => exact hlisten.concat hlast
  | duplicate _ hlast _ hd =>
    simp only [Stands, Sender.receive, hs]
    exact ⟨hlisten.concat hlast, hdup hlast hd⟩
  | thirdDuplicate _ hlast _ hd =>
    simp only [Stands, Sender.receive, Sender.fastRetransmit, hs]
    exact ⟨hlisten.concat hlast, hdup hlast hd⟩
  | newAck _ hlast _ hnew =>
    simp only [Stands, Sender.receive, Sender.recordAck, hs]
    refine ⟨hlisten.concat hlast, ?_⟩
    rcases newAcks_new (hlt hlast).2 hnew with hr' | hc'
    · exact Or.inr (Or.inl hr')
    rcases hrest with hi | hr | hc
    · exact Or.inl hi
    · exact absurd hr (not_le.mpr (hlt hlast).1)
    · exact Or.inr (Or.inr (by simp only [ReadResult.over]; omega))
  | cycleDone _ hlast _ hnew hcount =>
    apply hlisten.endCycle
    intro _
    -- a request of the file is still to come, and with it a new acknowledgement
    have hpos : 0 < newAcks n s.lastAckReceived heard := by
      have := (hlt hlast).1
      rw [newAcks]
      omega
    rcases hrest with hi | hr | hc
    · exact hi
    · exact absurd hr (not_le.mpr (hlt hlast).1)
    · omega
  | reopened hp => simp [hs] at hp
  | stillClosed hp => simp [hs] at hp
  | probeAbortRead hp => simp [hs] at hp
  | finMissing hp => simp [hs] at hp
  | finAnswered hp => simp [hs] at hp
  | closed hp => simp [hs] at hp
  | closeAgain hp => simp [hs] at hp

lemma Stands.read {now : TimeVal} (h : Stands n s heard done) (hhost : cfg.host = .big)
    (hn : 1 ≤ n) (hlog : ClientOut.Ordered n (done ++ o :: rest))
    (hgood : KeepsGoing n s heard (.read (.complete o.record) now))
    (hmove : Sender.Moves cfg s (.read (.complete o.record) now) t outs) :
    Stands n t (heard ++ s.heard (.read (.complete o.record) now)) (done ++ [o]) := by
  have hreading : s.state = .reading →
      Stands n t (heard ++ s.heard (.read (.complete o.record) now)) (done ++ [o]) := by
    intro hs
    have hlisten : Listens heard done := by
      simp only [Stands, hs] at h
      exact h.1
    obtain ⟨a, rfl⟩ : ∃ a, o = .ack a := ⟨_, hlisten.eq_ack hlog (hgood.1 (Or.inl hs))⟩
    rw [show s.heard _ = [a] by simp [Sender.heard, hs, ClientOut.record, ReadResult.over]]
    exact h.hear hs hn hlog hmove
  have hprobing : ∀ p, s.state = .probing p → (Listens heard done ∧ p.networkTimeout ≠ 11) ∧
      (∃ a, o = .ack a) ∧ s.heard (.read (.complete o.record) now) = [o.record] ∧
      (o.record.lastackSent = 1 → o.record.advtWindow ≠ 0) ∧
      (n ≤ s.index → o.record.advtWindow ≠ 0 → o.record.lastackSent = 1) := by
    intro p hs
    have hsome : s.state.probe?.isSome := by rw [hs]; rfl
    simp only [Stands, hs] at h
    exact ⟨h, ⟨_, h.1.eq_ack hlog (hgood.1 (Or.inr hsome))⟩,
      by simp [Sender.heard, hs, ReadResult.over], hgood.2 hsome⟩
  cases hmove with
  | lastAck hs => exact hreading hs
  | zeroWindow hs => exact hreading hs
  | duplicate hs => exact hreading hs
  | thirdDuplicate hs => exact hreading hs
  | newAck hs => exact hreading hs
  | cycleDone hs => exact hreading hs
  | reopened hs hok hopen =>
    obtain ⟨⟨hlisten, -⟩, ⟨a, rfl⟩, hheard, -, hend⟩ := hprobing _ hs
    rw [hheard]
    apply hlisten.endCycle
    intro hlast
    by_contra hge
    exact hlast (hend (not_lt.mp hge) hopen)
  | stillClosed hs hok hzero htry =>
    obtain ⟨⟨hlisten, -⟩, ⟨a, rfl⟩, hheard, hlast, -⟩ := hprobing _ hs
    rw [hheard]
    exact ⟨hlisten.concat fun hc => hlast hc hzero, htry⟩
  | probeAbortRead hs hzero htry => exact absurd htry (hprobing _ hs).1.2
  | finMissing hs hfin =>
    simp only [Stands, hs] at h
    obtain ⟨hacks, a, ha, hlast⟩ := h
    obtain rfl := hlog.eq_fin hacks ha hlast
    rw [hhost] at hfin
    exact absurd (ntohl_big _) hfin
  | finAnswered hs => trivial
  | closed hs => exact rfl
  | closeAgain hs => trivial

/-- The server has read a first part of the client's log, and the rest is in flight. -/
def Orderly (cfg : TransferConfig) (x : Transfer) : Prop :=
  ∃ (b : ReceiveBuffer Segment cfg.receivingWindowSize) (done pending : List ClientOut),
    x.client.recv.Follows b ∧ x.client.Logs cfg.totalNumSegments b (done ++ pending) ∧
    x.toServer = pending.map ClientOut.record ∧
    Stands cfg.totalNumSegments x.sender x.heard done

section

variable {cfg : TransferConfig} {x y : Transfer} {e : TransferEvent}

lemma orderly_start (hn : 1 ≤ cfg.totalNumSegments) (now : TimeVal) :
    Orderly cfg (start cfg now) := by
  have hmissing : (ReceiveBuffer.empty : ReceiveBuffer Segment cfg.receivingWindowSize).missing =
      0 := (ReceiveBuffer.missing_eq_next_iff _).mpr rfl
  refine ⟨_, [], [], Client.start_follows cfg.window_pos rfl,
    Client.logs_start hn _ hmissing, rfl, ?_⟩
  refine ⟨⟨by simp, rfl⟩, ?_⟩
  show (0 : ℤ) < cfg.totalNumSegments
  omega

theorem Orderly.step (h : Orderly cfg x) (hchannel : cfg.channel = .reliableFifo)
    (hn : 1 ≤ cfg.totalNumSegments) (hgood : EndsOrderly cfg x e)
    (hstep : x.step cfg e = some y) : Orderly cfg y := by
  obtain ⟨b, done, pending, hfollows, hlogs, hflight, hstands⟩ := h
  cases step_moves hstep with
  | serve hread hmove =>
    refine ⟨b, done, pending, hfollows, hlogs, hflight, ?_⟩
    rw [heard_serve hread]
    exact hstands.serve cfg.server_totalNumSegments hread hgood hmove
  | @read i now bufs a rest t outs hrecv hmove =>
    have hnext := hgood _ (Option.mem_def.mpr hrecv)
    rw [hchannel] at hrecv
    rw [Discipline.receive_reliableFifo hrecv] at hflight
    obtain ⟨o, pending, rfl, rfl, rfl⟩ := List.map_eq_cons_iff.mp hflight.symm
    refine ⟨b, done ++ [o], pending, hfollows, ?_, rfl, ?_⟩
    · rw [List.append_assoc]
      exact hlogs
    · rw [heard_read]
      exact hstands.read rfl hn hlogs.ordered hnext hmove
  | @act e e' rest t outs hside hact =>
    obtain ⟨b', hb', hmove⟩ := Client.step_moves rfl hfollows hact
    have hlogs' := hlogs.step rfl cfg.client_producerTotal cfg.client_consumerTotal hmove
    rw [List.append_assoc] at hlogs'
    refine ⟨b', done, pending ++ outs, hb', hlogs', ?_, hstands⟩
    rw [List.map_append, ← hflight]
    rfl
  | skip => exact ⟨b, done, pending, hfollows, hlogs, hflight, hstands⟩

/-- On a reliable channel, along a run in which the server keeps going, it leaves its loop on
the last acknowledgement only, and with the client's FIN answered. -/
theorem lastAck_of_endsOrderly (hchannel : cfg.channel = .reliableFifo)
    (hn : 1 ≤ cfg.totalNumSegments) {now : TimeVal} {es : List TransferEvent}
    (hgood : (machine cfg).Along (fun x e _ => EndsOrderly cfg x e) (start cfg now) es)
    (hrun : (machine cfg).run (start cfg now) es = some x) (r : Ending)
    (hend : x.sender.state = .leaving r ∨ x.sender.state = .done r) : r = .lastAck true := by
  obtain ⟨b, done, pending, -, -, -, hstands⟩ := Machine.run_invariant_along (P := Orderly cfg)
    (fun _ _ _ h hg hstep => h.step hchannel hn hg hstep) (orderly_start hn now) hgood hrun
  rcases hend with hs | hs
  · simpa only [Stands, hs] using hstands
  · simpa only [Stands, hs] using hstands

/-- Two segments and a window of four.  The second burst has two segments, one beyond the
table, and the server still waits when the last acknowledgement comes. -/
theorem lastAck_of_endsOrderly_two :
    ∃ x, (machine (.zeros 600 4 .reliableFifo (by decide))).run
        (start (.zeros 600 4 .reliableFifo (by decide)) ⟨0, 0⟩)
        [.server (.go ⟨0, 0⟩) fun _ _ => 0, .producerRead 0 false false,
          .serverRead 0 ⟨0, 0⟩ fun _ _ => 0, .server (.go ⟨0, 0⟩) fun _ _ => 0,
          .server (.go ⟨0, 0⟩) fun _ _ => 0, .producerRead 0 false false,
          .serverRead 0 ⟨0, 0⟩ fun _ _ => 0, .client (.lastAck false fun _ => 0),
          .serverRead 0 ⟨0, 0⟩ fun _ _ => 0, .client (.consume false fun _ => 0), .client .fin,
          .serverRead 0 ⟨0, 0⟩ fun _ _ => 0, .closeRead 0, .closeRead 0, .closeRead 0,
          .serverRead 0 ⟨0, 0⟩ fun _ _ => 0, .serverRead 0 ⟨0, 0⟩ fun _ _ => 0,
          .server (.go ⟨0, 0⟩) fun _ _ => 0] = some x ∧
      ∃ r, x.sender.state = .done r ∧ r = .lastAck true := by
  have key : ∀ {cfg : TransferConfig} {es}, cfg.channel = .reliableFifo →
      1 ≤ cfg.totalNumSegments →
      ((machine cfg).run (start cfg ⟨0, 0⟩) es).map (fun x => x.sender.state) =
        some (.done (.lastAck true)) →
      (machine cfg).Along (fun x e _ => EndsOrderly cfg x e) (start cfg ⟨0, 0⟩) es →
      ∃ x, (machine cfg).run (start cfg ⟨0, 0⟩) es = some x ∧
        ∃ r, x.sender.state = .done r ∧ r = .lastAck true := by
    intro cfg es hchannel hn hobs hgood
    obtain ⟨x, hx, hstate⟩ := Option.map_eq_some_iff.mp hobs
    exact ⟨x, hx, _, hstate, lastAck_of_endsOrderly hchannel hn hgood hx _ (Or.inr hstate)⟩
  exact key rfl (by decide +kernel) (by decide +kernel) (by decide +kernel)

/-- One segment and a window of two.  The acknowledgement of the segment ends the cycle, and
the loop is left before the last acknowledgement is sent. -/
theorem not_lastAck_exactFit :
    ∃ x, (machine (.zeros 100 2 .reliableFifo (by decide))).run
        (start (.zeros 100 2 .reliableFifo (by decide)) ⟨0, 0⟩)
        [.server (.go ⟨0, 0⟩) fun _ _ => 0, .producerRead 0 false false,
          .serverRead 0 ⟨0, 0⟩ fun _ _ => 0, .server (.go ⟨0, 0⟩) fun _ _ => 0,
          .server (.go ⟨0, 0⟩) fun _ _ => 0] = some x ∧
      x.sender.state = .leaving .index ∧ x.client.producer = .unlocked ∧
      ¬ ∀ r, x.sender.state = .leaving r ∨ x.sender.state = .done r → r = .lastAck true := by
  have key : ∀ {r : Option Transfer}, (r.map fun x => (x.sender.state, x.client.producer)) =
      some (.leaving .index, .unlocked) →
      ∃ x, r = some x ∧ x.sender.state = .leaving .index ∧ x.client.producer = .unlocked ∧
        ¬ ∀ r, x.sender.state = .leaving r ∨ x.sender.state = .done r → r = .lastAck true := by
    intro r hobs
    obtain ⟨x, hx, hobs⟩ := Option.map_eq_some_iff.mp hobs
    obtain ⟨hstate, hproducer⟩ := Prod.mk.inj hobs
    exact ⟨x, hx, hstate, hproducer, fun h => nomatch h .index (Or.inl hstate)⟩
  exact key (by decide +kernel)

end

end Transfer

end TcpOverUdp
