import TcpOverUdp.RawTransfer

namespace TcpOverUdp
open CWord

def ConsumerState.finSeen : ConsumerState → Bool
  | .closing s => s.currentState = .closing ∨ s.currentState = .timeWait
  | _ => false

def Datagram.isFin : Datagram → Bool
  | .record a => a = finRecord
  | .segment _ => false

def Datagram.misnumbered : Datagram → Bool
  | .record _ => false
  | .segment s => s.segmentNum = finRequest

def SenderState.awaitsAck : SenderState → Bool
  | .awaitAck _ _ => true
  | _ => false

/-- How far the close has come: `PassiveClose` has read the client's FIN, has sent its own, and
`ActiveClose` has read that. -/
structure CloseLog where
  finTaken : Bool
  finSent : Bool
  finRead : Bool
  deriving DecidableEq, Repr

def CloseLog.Answered (log : CloseLog) : Prop := log.finTaken = true ∧ log.finSent = true

instance (log : CloseLog) : Decidable log.Answered :=
  inferInstanceAs (Decidable (log.finTaken = true ∧ log.finSent = true))

namespace Client

variable {cfg : ClientConfig} {c t : Client} {e : ClientEvent} {outs : List ClientOut} {W : ℕ}
  {b : ReceiveBuffer Segment W}

/-- The steps of the client as `ActiveClose` sees them: those that do not concern it, its start,
its reads and its time-outs. -/
inductive Closes (cfg : ClientConfig) (c : Client) : ClientEvent → Client → List ClientOut → Prop
  | other {e : ClientEvent} {t : Client} {outs : List ClientOut}
      (hsame : t.consumer = c.consumer) (houts : ∀ a, .close a ∉ outs) : Closes cfg c e t outs
  | fin :
    Closes cfg c .fin { c with consumer := .closing ⟨.finWait1, 3, 2⟩ }
      [.close { finRecord with currentRequest := htonl cfg.host finRequest }]
  | read {ack s} (hs : c.consumer = .closing s) :
    Closes cfg c (.closeRead ack)
      { c with consumer := .closing (activeCloseRead cfg.host s ack).1 }
      (activeCloseRead cfg.host s ack).2
  | timeout {s} (hs : c.consumer = .closing s) :
    Closes cfg c .closeTimeout
      { c with consumer := (activeCloseTimeout cfg.host s).1.elim .finished .closing }
      (activeCloseTimeout cfg.host s).2

theorem step_closes (hb : c.recv.Follows b) (h : c.step cfg e = some (t, outs)) :
    Closes cfg c e t outs := by
  have hsections := step_sections h
  cases e with
  | segment segment loseData loseAck junk =>
    cases hsections with
    | producer _ hsection =>
      rcases producerSection_cases hsection with ⟨-, rfl, rfl⟩ | ⟨s, n, -, -, hsend, -, rfl⟩
      · exact .other rfl (by simp)
      · exact .other rfl (not_close_of_send hsend)
  | lastAck drop junk =>
    cases hsections with
    | lastAck _ hsend => exact .other rfl (not_close_of_send hsend)
  | consume drop junk =>
    cases hsections with
    | consumer _ _ hsection =>
      obtain ⟨w, -, hdrain, houts⟩ := consumerSection_cases hsection
      -- the fetches stay in the consumer's loop
      obtain ⟨b', hd⟩ := drain_drained hb hdrain
      refine .other hd.consumer ?_
      rcases houts with rfl | ⟨-, -, hsend⟩
      · simp
      · exact not_close_of_send hsend
  | fin =>
    cases hsections with
    | fin => exact .fin
  | closeRead ack =>
    simp only [step] at h
    split at h
    · rename_i s hs
      obtain ⟨rfl, rfl⟩ := Prod.mk.inj (Option.some.inj h)
      exact .read hs
    · cases h
  | closeTimeout =>
    simp only [step] at h
    split at h
    · rename_i s hs
      have htimeout : Closes cfg c .closeTimeout _ _ := .timeout hs
      split at h
      · rename_i s' outs' hout
        obtain ⟨rfl, rfl⟩ := Prod.mk.inj (Option.some.inj h)
        rwa [hout] at htimeout
      · rename_i outs' hout
        obtain ⟨rfl, rfl⟩ := Prod.mk.inj (Option.some.inj h)
        rwa [hout] at htimeout
    · cases h

lemma activeCloseRead_records (s : CloseState) (ack : ClientAck) {a : ClientAck}
    (ha : .close a ∈ (activeCloseRead .big s ack).2) :
    a = finRecord ∨
      (ack.currentRequest = finRequest ∧ a = { ack with currentRequest := ackRequest }) := by
  unfold activeCloseRead at ha
  split_ifs at ha with hack hfin
  · cases hs : s.currentState <;> simp [hs] at ha
  · obtain rfl : a = _ := by simpa using ha
    exact Or.inr ⟨hfin, rfl⟩
  · obtain rfl : a = _ := by simpa using ha
    exact Or.inl rfl

lemma activeCloseRead_finSeen (s : CloseState) (ack : ClientAck)
    (h : (ConsumerState.closing (activeCloseRead .big s ack).1).finSeen = true) :
    (ConsumerState.closing s).finSeen = true ∨ ack.currentRequest = finRequest := by
  by_cases hfin : ack.currentRequest = finRequest
  · exact Or.inr hfin
  · refine Or.inl ?_
    unfold activeCloseRead at h
    rw [show ntohl .big ack.currentRequest = ack.currentRequest from rfl, if_neg hfin] at h
    split_ifs at h
    -- an ACK leads from CLOSING to TIME_WAIT, and from FIN_WAIT1 to neither of them
    · cases hs : s.currentState <;> simp_all [ConsumerState.finSeen]
    · exact h

lemma activeCloseTimeout_records (s : CloseState) {a : ClientAck}
    (ha : .close a ∈ (activeCloseTimeout .big s).2) : a = finRecord := by
  unfold activeCloseTimeout at ha
  split_ifs at ha
  · cases ha
  · cases ha
  · cases ha
  · exact ClientOut.close.inj (List.mem_singleton.mp ha)

lemma activeCloseTimeout_finSeen (s : CloseState)
    (h : ((activeCloseTimeout .big s).1.elim ConsumerState.finished .closing).finSeen = true) :
    (ConsumerState.closing s).finSeen = true := by
  unfold activeCloseTimeout at h
  split_ifs at h
  · cases h
  · exact h
  · cases h
  · exact h

lemma close_records (hb : c.recv.Follows b) (hhost : cfg.host = .big)
    (hstep : c.step cfg e = some (t, outs)) {a : ClientAck} (ha : .close a ∈ outs) :
    a = finRecord ∨ ∃ ack, e = .closeRead ack ∧ ack.currentRequest = finRequest ∧
      a = { ack with currentRequest := ackRequest } := by
  cases step_closes hb hstep with
  | other hsame houts => exact absurd ha (houts a)
  | fin =>
    rw [hhost] at ha
    obtain rfl : a = _ := by simpa using ha
    exact Or.inl rfl
  | @read ack s hs =>
    rw [hhost] at ha
    exact (activeCloseRead_records s ack ha).imp_right fun ⟨hfin, ha⟩ => ⟨ack, rfl, hfin, ha⟩
  | timeout hs =>
    rw [hhost] at ha
    exact Or.inl (activeCloseTimeout_records _ ha)

lemma finSeen_step (hb : c.recv.Follows b) (hhost : cfg.host = .big)
    (hstep : c.step cfg e = some (t, outs)) (hseen : t.consumer.finSeen = true) :
    c.consumer.finSeen = true ∨ ∃ ack, e = .closeRead ack ∧ ack.currentRequest = finRequest := by
  cases step_closes hb hstep with
  | other hsame houts => exact Or.inl (hsame ▸ hseen)
  | fin => cases hseen
  | @read ack s hs =>
    rw [hhost] at hseen
    rw [hs]
    exact (activeCloseRead_finSeen s ack hseen).imp_right fun hfin => ⟨ack, rfl, hfin⟩
  | timeout hs =>
    rw [hhost] at hseen
    rw [hs]
    exact Or.inl (activeCloseTimeout_finSeen _ hseen)

end Client

namespace Sender

variable {cfg : ServerConfig} {s t : Sender} {e : SenderEvent} {outs : List SenderOut}

lemma endCycle_ne_awaitAck (s : Sender) (n : ℤ) (a : ClientAck) :
    s.endCycle.state ≠ .awaitAck n a := by
  rw [endCycle_state]
  split_ifs <;> simp

/-- The records of the server, and the wait for their answer, come from a round of
`PassiveClose`: the first, for a FIN, or a later one. -/
lemma Moves.replies (h : Moves cfg s e t outs) :
    ((∀ n a, t.state ≠ .awaitAck n a) ∧ ∀ a, .record a ∉ outs) ∨
      ((∃ n a, s.state = .awaitAck n a) ∨ s.state = .awaitFin ∧ ∃ r now, e = .read r now ∧
          ntohl cfg.host (r.over s.ack).currentRequest = finRequest) ∧
        ∃ n a, t = (s.closeReply cfg n a).1 ∧ outs = (s.closeReply cfg n a).2 := by
  cases h with
  | finAnswered hs hfin => exact Or.inr ⟨Or.inr ⟨hs, _, _, rfl, hfin⟩, _, _, rfl, rfl⟩
  | closeAgain hs => exact Or.inr ⟨Or.inl ⟨_, _, hs⟩, _, _, rfl, rfl⟩
  | burst => exact Or.inl ⟨by simp, by simp⟩
  | lastAck => exact Or.inl ⟨endCycle_ne_awaitAck _, by simp⟩
  | duplicate hs => exact Or.inl ⟨by simp [receive, hs], by simp⟩
  | thirdDuplicate hs => exact Or.inl ⟨by simp [receive, fastRetransmit, hs], by simp⟩
  | newAck hs => exact Or.inl ⟨by simp [receive, recordAck, hs], by simp⟩
  | cycleDone => exact Or.inl ⟨endCycle_ne_awaitAck _, by simp⟩
  | reopened => exact Or.inl ⟨endCycle_ne_awaitAck _, by simp⟩
  | resend hon htry => exact Or.inl ⟨by simp [onAlarm_of_try htry], by simp⟩
  | giveUp hon hmax => exact Or.inl ⟨by simp [onAlarm_of_max hmax], by simp⟩
  | _ => exact Or.inl ⟨by simp [disarm], by simp⟩

end Sender

namespace Transfer

def takesFin (cfg : TransferConfig) (x : Transfer) : TransferEvent → Bool
  | .serverRead i _ _ =>
    x.sender.state = .awaitFin && (cfg.channel.receive x.toServer i).any fun p => p.1 = finRecord
  | _ => false

def sendsFin (x : Transfer) (e : TransferEvent) (y : Transfer) : Bool :=
  e.byServer && (y.toClient.drop x.toClient.length).any Datagram.isFin

def readsFin (cfg : TransferConfig) (x : Transfer) : TransferEvent → Bool
  | .closeRead i => (cfg.channel.receive x.toClient i).any fun p => p.1.isFin
  | _ => false

def readsMisnumbered (cfg : TransferConfig) (x : Transfer) : TransferEvent → Bool
  | .closeRead i => (cfg.channel.receive x.toClient i).any fun p => p.1.misnumbered
  | _ => false

def takesAck (cfg : TransferConfig) (x : Transfer) : TransferEvent → Bool
  | .serverRead i _ _ =>
    x.sender.state.awaitsAck &&
      (cfg.channel.receive x.toServer i).any fun p => p.1.currentRequest = ackRequest
  | _ => false

def logClose (cfg : TransferConfig) (x : Transfer) (e : TransferEvent) (y : Transfer)
    (log : CloseLog) : CloseLog where
  finTaken := log.finTaken || x.takesFin cfg e
  finSent := log.finSent || x.sendsFin e y
  finRead := log.finRead || x.readsFin cfg e

def closeLogging (cfg : TransferConfig) : Machine (Transfer × CloseLog) (TransferEvent × (ℕ → ℤ)) :=
  (rawMachine cfg).ghost fun x e y log => logClose cfg x e.1 y log

def startClose (cfg : TransferConfig) (now : TimeVal) : Transfer × CloseLog :=
  (start cfg now, ⟨false, false, false⟩)

/-- The client is in CLOSING or TIME_WAIT only if `PassiveClose` has read its FIN and the server
has sent its own; `PassiveClose` succeeds only if the client has read that. -/
def Agree (cfg : TransferConfig) (x : Transfer × CloseLog) (e : TransferEvent × (ℕ → ℤ))
    (y : Transfer × CloseLog) : Prop :=
  (y.1.client.consumer.finSeen = true → y.2.Answered) ∧
    (x.1.takesAck cfg e.1 = true → x.2.finRead = true)

/-- `ActiveClose` reads no data segment with the number of a FIN before it has read the server's
FIN, and no acknowledgement of a full window asks for the number of a FIN or an ACK. -/
def Distinct (cfg : TransferConfig) (x : Transfer × CloseLog) (e : TransferEvent × (ℕ → ℤ))
    (_ : Transfer × CloseLog) : Prop :=
  (x.1.readsMisnumbered cfg e.1 = true → x.2.finRead = true) ∧
    ∀ n ∈ e.1.fullRequest e.2, toUnsigned n ≠ finRequest ∧ toUnsigned n ≠ ackRequest

instance (cfg : TransferConfig) (x y : Transfer × CloseLog) (e : TransferEvent × (ℕ → ℤ)) :
    Decidable (Agree cfg x e y) := inferInstanceAs (Decidable ((_ → _) ∧ (_ → _)))

instance (cfg : TransferConfig) (x y : Transfer × CloseLog) (e : TransferEvent × (ℕ → ℤ)) :
    Decidable (Distinct cfg x e y) :=
  inferInstanceAs (Decidable ((_ → _) ∧ ∀ n ∈ e.1.fullRequest e.2, _))

/-- What holds of the close in a run whose steps are distinct. -/
structure Closing (cfg : TransferConfig) (x : Transfer × CloseLog) : Prop where
  follows : ∃ b : ReceiveBuffer Segment cfg.receivingWindowSize, x.1.client.recv.Follows b
  awaiting : ∀ n a, x.1.sender.state = .awaitAck n a → x.2.Answered
  record : ∀ a, .record a ∈ x.1.toClient →
    x.2.Answered ∧ (a = finRecord ∨ a.currentRequest = ackRequest)
  read : x.2.finRead = true → x.2.Answered
  seen : x.1.client.consumer.finSeen = true → x.2.Answered
  fin : ∀ a ∈ x.1.toServer, a.currentRequest = finRequest → a = finRecord
  ack : ∀ a ∈ x.1.toServer, a.currentRequest = ackRequest → x.2.finRead = true

variable {cfg : TransferConfig} {x y : Transfer × CloseLog} {e : TransferEvent × (ℕ → ℤ)}

lemma closing_start (now : TimeVal) : Closing cfg (startClose cfg now) where
  follows := ⟨_, Client.start_follows cfg.window_pos rfl⟩
  awaiting n a h := by cases h
  record a h := by cases h
  read h := by cases h
  seen h := by cases h
  fin a h := by cases h
  ack a h := by cases h

lemma record_mem_datagrams (cfg : TransferConfig) (bufs : ℕ → Payload) {outs : List SenderOut}
    {a : ClientAck} :
    .record a ∈ outs.zipIdx.map (fun p => cfg.datagram (bufs p.2) p.1) ↔ .record a ∈ outs := by
  have hout : ∀ (o : SenderOut) (buf : Payload),
      cfg.datagram buf o = .record a ↔ o = .record a := by
    intro o buf
    cases o with
    | record a' => simp [TransferConfig.datagram]
    | segment n =>
      simp only [TransferConfig.datagram]
      split <;> simp
  simp only [List.mem_map, hout]
  constructor
  · rintro ⟨⟨o, i⟩, hmem, rfl⟩
    exact List.fst_mem_of_mem_zipIdx hmem
  · intro hmem
    obtain ⟨i, hi, hget⟩ := List.getElem_of_mem hmem
    exact ⟨(.record a, i), by rw [List.mem_zipIdx_iff_getElem?, ← hget]; simp [hi], rfl⟩

lemma finRecord_mem_closeReply (scfg : ServerConfig) (hhost : scfg.host = .big) (s : Sender) (n : ℤ)
    (a : ClientAck) :
    .record finRecord ∈ (s.closeReply scfg n a).2 ∧
      ∀ r, .record r ∈ (s.closeReply scfg n a).2 →
        r = finRecord ∨ r.currentRequest = ackRequest := by
  simp only [Sender.closeReply, hhost, htonl_big]
  constructor
  · exact List.mem_cons_of_mem _ (List.mem_singleton.mpr rfl)
  · intro r hr
    rcases List.mem_cons.mp hr with h | h
    · obtain rfl := SenderOut.record.inj h
      exact Or.inr rfl
    · obtain rfl := SenderOut.record.inj (List.mem_singleton.mp h)
      exact Or.inl rfl

lemma Closing.afterServer {e : SenderEvent} {bufs : ℕ → Payload} {rest : List ClientAck}
    {t : Sender} {outs : List SenderOut} {log : CloseLog} (h : Closing cfg x)
    (hmove : Sender.Moves cfg.server x.1.sender e t outs) (hrest : ∀ a ∈ rest, a ∈ x.1.toServer)
    (hmono : x.2.Answered → log.Answered) (hread : log.finRead = x.2.finRead)
    (hsent : .record finRecord ∈ outs → log.finSent = true)
    (htaken : x.1.sender.state = .awaitFin → ∀ r now, e = .read r now →
      (r.over x.1.sender.ack).currentRequest = finRequest → log.finTaken = true) :
    Closing cfg (x.1.afterServer cfg e bufs rest t outs, log) := by
  have hreply : ((∀ n a, t.state ≠ .awaitAck n a) ∧ ∀ a, .record a ∉ outs) ∨
      log.Answered ∧ ∀ a, .record a ∈ outs → a = finRecord ∨ a.currentRequest = ackRequest := by
    -- a later round of `PassiveClose` has a first one before it
    rcases hmove.replies with hnone | ⟨hfrom, n, a, -, rfl⟩
    · exact Or.inl hnone
    · obtain ⟨hfin, hall⟩ := finRecord_mem_closeReply cfg.server rfl x.1.sender n a
      refine Or.inr ⟨?_, hall⟩
      rcases hfrom with ⟨n, a, hs⟩ | ⟨hs, r, now, he, hreq⟩
      · exact hmono (h.awaiting n a hs)
      · exact ⟨htaken hs r now he hreq, hsent hfin⟩
  refine ⟨h.follows, fun n a hs => ?_, fun a ha => ?_, fun hr => ?_, fun hs => hmono (h.seen hs),
    fun a ha => h.fin a (hrest a ha), fun a ha hack => ?_⟩
  · rcases hreply with ⟨hnone, -⟩ | ⟨hanswered, -⟩
    · exact absurd hs (hnone n a)
    · exact hanswered
  · rcases List.mem_append.mp ha with hold | hnew
    · exact ⟨hmono (h.record a hold).1, (h.record a hold).2⟩
    · rw [record_mem_datagrams] at hnew
      rcases hreply with ⟨-, hnone⟩ | ⟨hanswered, hall⟩
      · exact absurd hnew (hnone a)
      · exact ⟨hanswered, hall a hnew⟩
  · exact hmono (h.read (hread ▸ hr))
  · exact hread.trans (h.ack a (hrest a ha) hack)

lemma toUnsigned_ne_closing {n : ℕ} (hn : n < 2 ^ 31) :
    toUnsigned n ≠ finRequest ∧ toUnsigned n ≠ ackRequest := by
  have hnat := toNat_toUnsigned (x := n) (by omega) (by omega)
  constructor
  · intro h
    rw [h, toNat_finRequest] at hnat
    omega
  · intro h
    rw [h, toNat_ackRequest] at hnat
    omega

lemma Closing.afterClient {e : ClientEvent} {rest : List Datagram} {t : Client}
    {outs : List ClientOut} {log : CloseLog} (h : Closing cfg x)
    (hstep : x.1.client.step cfg.client e = some (t, outs))
    (hfull : ∀ n ∈ e.fullRequest, toUnsigned n ≠ finRequest ∧ toUnsigned n ≠ ackRequest)
    (hrest : ∀ m ∈ rest, m ∈ x.1.toClient) (hmono : x.2.finRead = true → log.finRead = true)
    (hsame : log.Answered ↔ x.2.Answered) (hread : log.finRead = true → x.2.Answered)
    (hfin : ∀ ack, e = .closeRead ack → ack.currentRequest = finRequest → log.finRead = true) :
    Closing cfg (x.1.afterClient rest t outs, log) := by
  obtain ⟨b, hb⟩ := h.follows
  have hdata : ∀ a, .ack a ∈ outs →
      a.currentRequest ≠ finRequest ∧ a.currentRequest ≠ ackRequest := by
    intro a ha
    rcases Client.request_of_step hb hstep ha with ⟨n, hn, hreq⟩ | ⟨n, hn, hreq⟩
    · rw [hreq]
      exact toUnsigned_ne_closing hn
    · rw [hreq]
      exact hfull n hn
  have hclose : ∀ a, .close a ∈ outs →
      a = finRecord ∨ (a.currentRequest = ackRequest ∧ log.finRead = true) := by
    intro a ha
    refine (Client.close_records hb rfl hstep ha).imp_right ?_
    rintro ⟨ack, he, hreq, rfl⟩
    exact ⟨rfl, hfin ack he hreq⟩
  have hout : ∀ o ∈ outs, (o.record.currentRequest = finRequest → o.record = finRecord) ∧
      (o.record.currentRequest = ackRequest → log.finRead = true) := by
    intro o ho
    cases o with
    | ack a => exact ⟨fun hf => absurd hf (hdata a ho).1, fun ha => absurd ha (hdata a ho).2⟩
    | close a =>
      rcases hclose a ho with rfl | ⟨hack, hlog⟩
      · exact ⟨fun _ => rfl, fun ha => absurd ha (by decide)⟩
      · exact ⟨fun hf => absurd (hack.symm.trans hf) (by decide), fun _ => hlog⟩
  obtain ⟨b', hb', -⟩ := Client.step_follows hb hstep
  refine ⟨⟨b', hb'⟩, fun n a hs => hsame.mpr (h.awaiting n a hs), fun a ha => ?_,
    fun hr => hsame.mpr (hread hr), fun hs => hsame.mpr ?_, fun a ha hreq => ?_,
    fun a ha hreq => ?_⟩
  · obtain ⟨hanswered, ha⟩ := h.record a (hrest _ ha)
    exact ⟨hsame.mpr hanswered, ha⟩
  · rcases Client.finSeen_step hb rfl hstep hs with hold | ⟨ack, he, hreq⟩
    · exact h.seen hold
    · exact hread (hfin ack he hreq)
  · rcases List.mem_append.mp ha with hold | hnew
    · exact h.fin a hold hreq
    · obtain ⟨o, ho, rfl⟩ := List.mem_map.mp hnew
      exact (hout o ho).1 hreq
  · rcases List.mem_append.mp ha with hold | hnew
    · exact hmono (h.ack a hold hreq)
    · obtain ⟨o, ho, rfl⟩ := List.mem_map.mp hnew
      exact (hout o ho).2 hreq

lemma logClose_eq {t u : Transfer} {e : TransferEvent} {log : CloseLog} (hside : e.byServer = false)
    (hother : e.closes = false) : logClose cfg t e u log = log := by
  cases e with
  | server | serverRead => cases hside
  | closeRead => cases hother
  | client | producerRead => simp [logClose, takesFin, sendsFin, readsFin, TransferEvent.byServer]

lemma answered_logClose {t u : Transfer} {e : TransferEvent} {log : CloseLog} (h : log.Answered) :
    (logClose cfg t e u log).Answered := by
  obtain ⟨ht, hs⟩ := h
  exact ⟨by simp [logClose, ht], by simp [logClose, hs]⟩

lemma finSent_logClose {t : Transfer} {e : TransferEvent} {log : CloseLog} {e' : SenderEvent}
    {bufs : ℕ → Payload} {rest : List ClientAck} {s : Sender} {outs : List SenderOut}
    (hside : e.byServer = true) (hmem : .record finRecord ∈ outs) :
    (logClose cfg t e (t.afterServer cfg e' bufs rest s outs) log).finSent = true := by
  have hnew := (record_mem_datagrams cfg bufs).mpr hmem
  simp only [logClose, sendsFin, hside, afterServer, List.drop_left, Bool.true_and,
    Bool.or_eq_true]
  exact Or.inr (List.any_eq_true.mpr ⟨_, hnew, by simp [Datagram.isFin]⟩)

theorem Closing.step (h : Closing cfg x) (hdistinct : Distinct cfg x e y)
    (hstep : (closeLogging cfg).step x e = some y) : Closing cfg y := by
  obtain ⟨hraw, hlog⟩ := Machine.ghost_step.mp hstep
  obtain ⟨e, junk⟩ := e
  obtain ⟨u, log⟩ := y
  obtain ⟨hseg, hfull⟩ := hdistinct
  simp only at hlog hraw
  subst hlog
  cases rawStep_moves hraw with
  | serve hread hmove =>
    refine h.afterServer hmove (fun _ ha => ha) answered_logClose (by simp [logClose, readsFin])
      (finSent_logClose rfl) ?_
    rintro - r now rfl
    cases hread
  | @read i now bufs junk a rest t outs hrecv hmove =>
    obtain ⟨ha, hrest⟩ := Discipline.mem_of_receive hrecv
    refine h.afterServer hmove hrest answered_logClose (by simp [logClose, readsFin])
      (finSent_logClose rfl) ?_
    -- under the condition, what has the number of a FIN is the client's FIN
    rintro hs r now' he hreq
    obtain ⟨rfl, -⟩ := SenderEvent.read.inj he
    obtain rfl : a = finRecord := h.fin a ha hreq
    simp [logClose, takesFin, hs, hrecv]
  | act hside hother hreads hsame hrest hact =>
    rw [logClose_eq hside hother]
    exact h.afterClient hact (hsame ▸ hfull) hrest id Iff.rfl h.read
      fun ack he => absurd he (hreads ack)
  | @closeRead i junk m rest t outs hrecv hact =>
    obtain ⟨hm, hrest⟩ := Discipline.mem_of_receive hrecv
    refine h.afterClient hact (by simp [ClientEvent.fullRequest]) hrest
      (fun hr => by simp [logClose, hr])
      (by simp [CloseLog.Answered, logClose, takesFin, sendsFin, TransferEvent.byServer]) ?_ ?_
    · intro hr
      rcases (Bool.or_eq_true _ _).mp hr with hold | hnew
      · exact h.read hold
      · cases m with
        | segment s => simp [readsFin, hrecv, Datagram.isFin] at hnew
        | record a => exact (h.record a hm).1
    -- what is taken for a FIN is a record, or a segment that comes after one
    · rintro ack he hreq
      obtain rfl := ClientEvent.closeRead.inj he
      cases m with
      | segment s =>
        have hnumber : s.segmentNum = finRequest := hreq
        have hread : x.2.finRead = true :=
          hseg (by simp [readsMisnumbered, hrecv, Datagram.misnumbered, hnumber])
        simp [logClose, hread]
      | record a =>
        rcases (h.record a hm).2 with rfl | hack
        · simp [logClose, readsFin, hrecv, Datagram.isFin]
        · exact absurd (hack.symm.trans hreq) (by decide)
  | skip hside hother hrest =>
    rw [logClose_eq hside hother]
    exact ⟨h.follows, h.awaiting, fun a ha => h.record a (hrest _ ha), h.read, h.seen, h.fin,
      h.ack⟩

/-- In a run whose steps are all distinct, the two sides agree on the close. -/
theorem agree_of_distinct (cfg : TransferConfig) (now : TimeVal)
    {es : List (TransferEvent × (ℕ → ℤ))}
    (h : (closeLogging cfg).Along (Distinct cfg) (startClose cfg now) es) :
    (closeLogging cfg).Along (Agree cfg) (startClose cfg now) es := by
  refine Machine.along_imp_along (P := Closing cfg) (fun _ _ _ hx hd hstep => hx.step hd hstep) ?_
    (closing_start now) h
  intro x e y hx hstep hdistinct
  refine ⟨(hx.step hdistinct hstep).seen, fun htakes => ?_⟩
  obtain ⟨e, junk⟩ := e
  cases e with
  | serverRead i now bufs =>
    simp only [takesAck, Bool.and_eq_true, Option.any_eq_true, decide_eq_true_eq] at htakes
    obtain ⟨-, ⟨a, rest⟩, hrecv, hreq⟩ := htakes
    exact hx.ack a (Discipline.mem_of_receive hrecv).1 hreq
  | _ => cases htakes

/-- One segment, whose acknowledgement is lost; the last acknowledgement and the close. -/
def orderlyClose : List (TransferEvent × (ℕ → ℤ)) :=
  [.server (.go ⟨0, 0⟩) fun _ _ => 0, .producerRead 0 false true,
    .client (.lastAck false fun _ => 0), .client (.consume false fun _ => 0), .client .fin,
    .serverRead 0 ⟨0, 0⟩ fun _ _ => 0, .serverRead 0 ⟨0, 0⟩ fun _ _ => 0, .closeRead 0,
    .closeRead 0, .serverRead 0 ⟨0, 0⟩ fun _ _ => 0].map fun e => (e, fun _ => 0)

theorem agree_orderlyClose :
    (closeLogging (.zeros 100 2 .reliableFifo (by decide))).Along
        (Agree (.zeros 100 2 .reliableFifo (by decide)))
        (startClose (.zeros 100 2 .reliableFifo (by decide)) ⟨0, 0⟩) orderlyClose ∧
      ((closeLogging (.zeros 100 2 .reliableFifo (by decide))).run
        (startClose (.zeros 100 2 .reliableFifo (by decide)) ⟨0, 0⟩) orderlyClose).map
        (fun x => (x.1.sender.state, x.1.client.consumer.finSeen, x.2)) =
          some (.leaving (.lastAck true), true, ⟨true, true, true⟩) :=
  ⟨agree_of_distinct _ _ (by decide +kernel), by decide +kernel⟩

/-- Both acknowledgements are lost.  The server's loop takes the FIN for a closed window and
probes with the number of the FIN, which `ActiveClose` takes for the server's. -/
def probedClose : List (TransferEvent × (ℕ → ℤ)) :=
  [.server (.go ⟨0, 0⟩) fun _ _ => 0, .producerRead 0 false true,
    .client (.lastAck true fun _ => 0), .client (.consume false fun _ => 0), .client .fin,
    .serverRead 0 ⟨0, 0⟩ fun _ _ => 0, .server (.go ⟨3, 0⟩) fun _ _ => 0,
    .closeRead 1].map fun e => (e, fun _ => 0)

/-- The client is in CLOSING, and `PassiveClose` has read nothing. -/
theorem not_agree :
    ¬ (closeLogging (.zeros 100 2 .unreliable (by decide))).Along
        (Agree (.zeros 100 2 .unreliable (by decide)))
        (startClose (.zeros 100 2 .unreliable (by decide)) ⟨0, 0⟩) probedClose ∧
      ((closeLogging (.zeros 100 2 .unreliable (by decide))).run
        (startClose (.zeros 100 2 .unreliable (by decide)) ⟨0, 0⟩) probedClose).map
        (fun x => (x.1.sender.state, x.1.client.consumer, x.2)) =
          some (.probing ⟨6, 6, 0⟩, .closing ⟨.closing, 3, 2⟩, ⟨false, false, false⟩) :=
  ⟨by decide +kernel, by decide +kernel⟩

end Transfer

end TcpOverUdp
