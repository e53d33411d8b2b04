import TcpOverUdp.CloseAgreement
import TcpOverUdp.FlowControl

namespace TcpOverUdp
open CWord

instance (r : ReadResult) : Decidable (r = .error) :=
  match r with
  | .error => .isTrue rfl
  | .complete _ | .short _ => .isFalse (by simp)

namespace Sender

instance (s : Sender) (P : Probe → Prop) [DecidablePred P] :
    Decidable (∃ p, s.state = .probing p ∧ P p) :=
  match h : s.state with
  | .probing p => decidable_of_iff (P p) (by simp)
  | .top | .reading | .probeSleep | .cycleEnd | .awaitFin | .awaitAck _ _ | .leaving _ | .done _ =>
    .isFalse (by simp)

instance (s : Sender) : DecidablePred s.Resends
  | .go _ => inferInstanceAs (Decidable (_ = _))
  | .read _ _ =>
    inferInstanceAs (Decidable
      ((_ ∧ _ ∧ _ ∧ _ ∧ _) ∨ _ ∧ _ ∧ ∃ p : Probe, _ ∧ p.networkTimeout ≠ 11))
  | .timeout => inferInstanceAs (Decidable (∃ p : Probe, _ ∧ p.networkTimeout + 1 ≠ 11))
  | .alarm => inferInstanceAs (Decidable (_ = _))

variable {cfg : ServerConfig} {s t : Sender} {e : SenderEvent} {outs : List SenderOut}

def requested (s : Sender) (e : SenderEvent) : ℕ :=
  ((s.heard e).getLast?.getD s.ack).currentRequest.toNat

lemma Moves.requested_eq (h : Moves cfg s e t outs) :
    t.ack.currentRequest.toNat = s.requested e := by
  rw [h.ack_eq, requested]

lemma getLast?_heard {a : ClientAck} (h : a ∈ s.heard e) :
    (s.heard e).getLast?.getD s.ack = a := by
  cases e with
  | read r now =>
    cases r with
    | error => cases h
    | _ => cases hs : s.state <;> simp_all [heard]
  | _ => cases h

lemma index_lt_of_step (h : s.step cfg e = some (t, outs)) (hs : s.index < 2 ^ 31) :
    t.index < 2 ^ 31 := by
  have hmove := step_moves h
  rcases hmove.counters.1 with heq | ⟨htop, hlt, -⟩
  · rwa [heq]
  · obtain ⟨now, rfl⟩ := hmove.go_of_top htop
    simp only [step, htop, if_pos hlt, toOption_eq_some, burst, bind, checked_bind_eq_ok] at h
    obtain ⟨rfl, -⟩ := Prod.mk.inj (Except.ok.inj h.2)
    exact h.1.2

/-- The segments of a step: those of a burst, which `index` counts, or the one asked for last. -/
lemma Moves.segment_cases (h : Moves cfg s e t outs) (hlast : InInt s.lastAckReceived) {k : ℤ}
    (hk : .segment k ∈ outs) :
    (s.state = .top ∧ s.index ≤ k ∧ k < t.index) ∨
      (s.Resends e ∧ k = toSigned t.ack.currentRequest) := by
  by_cases htop : s.state = .top
  · left
    obtain ⟨now, rfl, ⟨-, hindex, rfl⟩ | ⟨-, rfl⟩⟩ := h.cases_of_top htop
    · obtain ⟨i, hi, hik⟩ := List.mem_map.mp hk
      rw [List.mem_range] at hi
      obtain rfl : s.index + i = k := SenderOut.segment.inj hik
      exact ⟨htop, by omega, by omega⟩
    · cases hk
  · exact Or.inr ((h.segment_mem_iff hlast htop k).mp hk)

lemma isData_of_lt {a : ClientAck} (h : a.currentRequest.toNat < 2 ^ 31) : a.IsData := by
  constructor
  · intro hfin
    rw [hfin, toNat_finRequest] at h
    omega
  · intro hack
    rw [hack, toNat_ackRequest] at h
    omega

lemma Moves.ne_done (h : Moves cfg s e t outs) (r : Ending) : s.state ≠ .done r := by
  intro hdone
  cases h with
  | resend hon => simp [alarmEnabled, hdone] at hon
  | giveUp hon => simp [alarmEnabled, hdone] at hon
  | readError hs => rcases hs with ⟨p, hs⟩ | hs | ⟨n, a, hs⟩ <;> simp [hdone] at hs
  | _ hs => simp [hdone] at hs

/-- The server has taken a record of the close for an acknowledgement that closes the window, or
is done. -/
def Stuck (s : Sender) : Prop :=
  (s.state = .probeSleep ∧ ¬ s.ack.IsData) ∨ s.state = .leaving .giveUp ∨ ∃ r, s.state = .done r

/-- A stuck server hears nothing more as long as it sends only what an acknowledgement of data
asks for. -/
lemma Stuck.step (hs : s.Stuck) (h : Moves cfg s e t outs) (hdata : s.Resends e → t.ack.IsData) :
    t.Stuck ∧ s.heard e = [] ∧ ¬ s.Resends e := by
  rcases hs with ⟨hstate, hclose⟩ | hstate | ⟨r, hstate⟩
  · cases h with
    | wake hs => exact absurd (hdata hs) hclose
    | resend hon htry =>
      rw [onAlarm_ack] at hdata
      exact absurd (hdata htry) hclose
    | giveUp hon hmax =>
      exact ⟨Or.inr (Or.inl (onAlarm_of_max hmax)), rfl, by simp [Resends, hmax]⟩
    | readError hs => rcases hs with ⟨p, hs⟩ | hs | ⟨n, a, hs⟩ <;> simp [hstate] at hs
    | _ hs => simp [hstate] at hs
  · cases h with
    | finish => exact ⟨Or.inr (Or.inr ⟨_, rfl⟩), rfl, by simp [Resends, hstate]⟩
    | resend hon => simp [alarmEnabled, hstate] at hon
    | giveUp hon => simp [alarmEnabled, hstate] at hon
    | readError hs => rcases hs with ⟨p, hs⟩ | hs | ⟨n, a, hs⟩ <;> simp [hstate] at hs
    | _ hs => simp [hstate] at hs
  · exact absurd hstate (h.ne_done r)

lemma Moves.stuck (h : Moves cfg s e t outs) (hdata : s.Resends e → t.ack.IsData) {a : ClientAck}
    (ha : a ∈ s.heard e) (hclose : ¬ a.IsData) (hzero : a.advtWindow = 0)
    (hlast : a.lastackSent ≠ 1) : t.Stuck := by
  cases e with
  | read r now =>
    have hreads : s.state = .reading ∨ ∃ p, s.state = .probing p := by
      cases r with
      | error => cases ha
      | _ => cases hs : s.state <;> simp_all [heard]
    obtain rfl : r.over s.ack = a := (heard_getLast? hreads).symm.trans (getLast?_heard ha)
    cases h with
    | lastAck _ hone => exact absurd hone hlast
    | zeroWindow => exact Or.inl ⟨rfl, hclose⟩
    | duplicate _ _ hopen => exact absurd hzero hopen
    | thirdDuplicate _ _ hopen => exact absurd hzero hopen
    | newAck _ _ hopen => exact absurd hzero hopen
    | cycleDone _ _ hopen => exact absurd hzero hopen
    | reopened _ _ hopen => exact absurd hzero hopen
    | stillClosed hs hok _ htry => exact absurd (hdata (Or.inr ⟨hok, hzero, _, hs, htry⟩)) hclose
    | readError | probeAbortRead => exact Or.inr (Or.inr ⟨_, rfl⟩)
    | finMissing hs | finAnswered hs | closed hs | closeAgain hs =>
      rcases hreads with hr | ⟨p, hr⟩ <;> simp [hr] at hs
  | _ => cases ha

end Sender

def ClientEvent.ReadsFrom (flight : List Datagram) : ClientEvent → Prop
  | .segment s _ _ _ => .segment s ∈ flight
  | .closeRead a => ∃ m ∈ flight, a = m.asClientAck
  | _ => True

namespace Transfer

def serverEvent (cfg : TransferConfig) (x : Transfer) : TransferEvent → Option SenderEvent
  | .server e _ => some e
  | .serverRead i now _ =>
    (cfg.channel.receive x.toServer i).map fun p => .read (.complete p.1) now
  | _ => none

def sent (cfg : TransferConfig) (x : Transfer) (e : TransferEvent) : List ℤ :=
  ((x.serverEvent cfg e).bind fun e => x.sender.step cfg.server e).elim [] fun p =>
    p.2.filterMap fun
      | .segment k => some k
      | .record _ => none

/-- No segment is sent with a number below what a record heard so far asks for, and `index` is
not below it where a cycle starts. -/
def Needed (cfg : TransferConfig) (x : Transfer) (e : TransferEvent × (ℕ → ℤ)) (y : Transfer) :
    Prop :=
  (∀ k ∈ x.sent cfg e.1, ∀ a ∈ y.heard, (a.currentRequest.toNat : ℤ) ≤ k) ∧
    (y.sender.state = .top → ∀ a ∈ y.heard, (a.currentRequest.toNat : ℤ) ≤ y.sender.index)

/-- The segment asked for last is sent only if `index` counts it, and an acknowledgement of a full
window asks for its right edge. -/
def SendsAgain (cfg : TransferConfig) (x : Transfer) (e : TransferEvent × (ℕ → ℤ)) (_ : Transfer) :
    Prop :=
  (∀ e' ∈ x.serverEvent cfg e.1, x.sender.Resends e' → x.sender.requested e' < x.sender.index) ∧
    ∀ n ∈ e.1.fullRequest e.2, n = x.client.edge

instance (cfg : TransferConfig) (x y : Transfer) (e : TransferEvent × (ℕ → ℤ)) :
    Decidable (Needed cfg x e y) :=
  inferInstanceAs (Decidable ((∀ k ∈ _, ∀ a ∈ _, _ ≤ k) ∧ (_ = _ → ∀ a ∈ _, _ ≤ _)))

instance (cfg : TransferConfig) (x y : Transfer) (e : TransferEvent × (ℕ → ℤ)) :
    Decidable (SendsAgain cfg x e y) :=
  inferInstanceAs (Decidable ((∀ e' ∈ x.serverEvent cfg e.1, _ → _ < _) ∧ ∀ n ∈ _, n = _))

variable {cfg : TransferConfig} {x y : Transfer} {e : TransferEvent} {junk : ℕ → ℤ}
  {e' : SenderEvent} {outs : List SenderOut}

/-- A step of the server, over a channel that keeps the order. -/
structure Served (cfg : TransferConfig) (x : Transfer) (e : SenderEvent) (outs : List SenderOut)
    (y : Transfer) : Prop where
  step : x.sender.step cfg.server e = some (y.sender, outs)
  client : y.client = x.client
  toClient : ∃ bufs : ℕ → Payload,
    y.toClient = x.toClient ++ outs.zipIdx.map fun p => cfg.datagram (bufs p.2) p.1
  heard : y.heard = x.heard ++ x.sender.heard e
  records : (y.heard ++ y.toServer).Sublist (x.heard ++ x.toServer)

structure Acted (cfg : TransferConfig) (x : Transfer) (e : ClientEvent) (outs : List ClientOut)
    (y : Transfer) : Prop where
  step : x.client.step cfg.client e = some (y.client, outs)
  reads : e.ReadsFrom x.toClient
  sender : y.sender = x.sender
  heard : y.heard = x.heard
  toClient : ∀ m ∈ y.toClient, m ∈ x.toClient
  toServer : y.toServer = x.toServer ++ outs.map ClientOut.record

lemma served_of_serve {e' : SenderEvent} {bufs : ℕ → Payload} {rest : List ClientAck}
    (h : x.serve cfg e' bufs rest = some y)
    (hheard : ∀ t outs, (x.afterServer cfg e' bufs rest t outs).heard =
      x.heard ++ x.sender.heard e')
    (hrest : (x.sender.heard e' ++ rest).Sublist x.toServer) :
    ∃ outs, Served cfg x e' outs y := by
  obtain ⟨⟨t, outs⟩, hstep, rfl⟩ := Option.map_eq_some_iff.mp h
  refine ⟨outs, hstep, rfl, ⟨bufs, rfl⟩, hheard t outs, ?_⟩
  rw [hheard t outs, List.append_assoc]
  exact hrest.append_left x.heard

/-- A step of a transfer is a step of the server, or of the client, or it skips a datagram. -/
theorem rawStep_cases (hfifo : cfg.channel = .lossyFifo) (h : x.rawStep cfg (e, junk) = some y) :
    (∃ e' outs, x.serverEvent cfg e = some e' ∧ Served cfg x e' outs y) ∨
      x.serverEvent cfg e = none ∧
        ((∃ e' outs, e'.fullRequest = e.fullRequest junk ∧ Acted cfg x e' outs y) ∨
          ∃ rest, (∀ m ∈ rest, m ∈ x.toClient) ∧ y = { x with toClient := rest }) := by
  cases e with
  | server e bufs =>
    simp only [rawStep, step, Option.ite_none_left_eq_some, Bool.not_eq_true] at h
    have hrest : (x.sender.heard e ++ x.toServer).Sublist x.toServer := by
      rw [heard_of_not_reads h.1, List.nil_append]
    obtain ⟨outs, hserved⟩ := served_of_serve h.2 (fun t outs => heard_serve_append h.1) hrest
    exact Or.inl ⟨_, outs, rfl, hserved⟩
  | serverRead i now bufs =>
    obtain ⟨⟨a, rest⟩, hrecv, h⟩ := Option.bind_eq_some_iff.mp h
    have hevent : x.serverEvent cfg (.serverRead i now bufs) = some (.read (.complete a) now) := by
      simp [serverEvent, hrecv]
    rw [hfifo] at hrecv
    obtain ⟨lost, hlost⟩ := Discipline.receive_lossyFifo hrecv
    -- the record read is the only one heard
    have hheard : (x.sender.heard (.read (.complete a) now)).Sublist [a] := by
      simp only [Sender.heard]
      split
      · exact List.Sublist.refl _
      · exact List.Sublist.refl _
      · exact List.nil_sublist _
    have hrest : (x.sender.heard (.read (.complete a) now) ++ rest).Sublist x.toServer := by
      rw [hlost]
      exact (hheard.append_right rest).trans (List.sublist_append_right lost (a :: rest))
    obtain ⟨outs, hserved⟩ := served_of_serve h (fun t outs => heard_read) hrest
    exact Or.inl ⟨_, outs, hevent, hserved⟩
  | client e =>
    simp only [rawStep, Option.ite_none_left_eq_some, Bool.not_eq_true] at h
    obtain ⟨⟨t, outs⟩, hstep, rfl⟩ := Option.map_eq_some_iff.mp h.2
    refine Or.inr ⟨rfl, Or.inl ⟨e, outs, rfl, hstep, ?_, rfl, rfl, fun _ hm => hm, rfl⟩⟩
    cases e with
    | segment | closeRead => cases h.1
    | _ => trivial
  | producerRead i loseData loseAck =>
    obtain ⟨⟨m, rest⟩, hrecv, h⟩ := Option.bind_eq_some_iff.mp h
    obtain ⟨hm, hrest⟩ := Discipline.mem_of_receive hrecv
    refine Or.inr ⟨rfl, ?_⟩
    cases m with
    | segment s =>
      obtain ⟨⟨t, outs⟩, hstep, rfl⟩ := Option.map_eq_some_iff.mp h
      exact Or.inl ⟨_, outs, rfl, hstep, hm, rfl, rfl, hrest, rfl⟩
    | record a =>
      simp only [Option.ite_none_right_eq_some] at h
      exact Or.inr ⟨rest, hrest, (Option.some.inj h.2).symm⟩
  | closeRead i =>
    obtain ⟨⟨m, rest⟩, hrecv, h⟩ := Option.bind_eq_some_iff.mp h
    obtain ⟨hm, hrest⟩ := Discipline.mem_of_receive hrecv
    obtain ⟨⟨t, outs⟩, hstep, rfl⟩ := Option.map_eq_some_iff.mp h
    exact Or.inr ⟨rfl, Or.inl ⟨_, outs, rfl, hstep, ⟨m, hm, rfl⟩, rfl, rfl, hrest, rfl⟩⟩

/-- Every segment the client has, or is going to get, is below `index`. -/
structure Numbered (cfg : TransferConfig) (x : Transfer)
    (b : ReceiveBuffer Segment cfg.receivingWindowSize) : Prop where
  follows : x.client.recv.Follows b
  index : 0 ≤ x.sender.index ∧ x.sender.index < 2 ^ 31
  taken : ∀ n, b.Taken n → (n : ℤ) < x.sender.index
  segment : ∀ s, .segment s ∈ x.toClient → (s.segmentNum.toNat : ℤ) < x.sender.index
  record : ∀ a, .record a ∈ x.toClient → a = finRecord ∨ a.currentRequest = ackRequest

/-- The acknowledgements of data, those heard before those in flight, ask for more and more, up to
segment `m`; the records of the close describe a closed window. -/
structure Rising (x : Transfer) (m : ℕ) : Prop where
  rising : (x.heard ++ x.toServer).Pairwise fun a a' =>
    a.IsData → a'.IsData → a.currentRequest.toNat ≤ a'.currentRequest.toNat
  data : ∀ a ∈ x.heard ++ x.toServer, a.IsData → a.currentRequest.toNat ≤ m
  close : ∀ a ∈ x.heard ++ x.toServer, ¬ a.IsData → a.advtWindow = 0 ∧ a.lastackSent ≠ 1

/-- `ack` is the record heard last, and the server is stuck once it has heard a record of the
close. -/
structure Listening (cfg : TransferConfig) (x : Transfer) : Prop where
  ack : x.sender.ack = Sender.lastHeard cfg.server x.heard
  lastAckReceived : InInt x.sender.lastAckReceived
  phase : (∀ a ∈ x.heard, a.IsData) ∨ x.sender.Stuck

/-- What a run keeps whose steps send only what `index` counts. -/
def InStep (cfg : TransferConfig) (x : Transfer) : Prop :=
  ∃ b, Numbered cfg x b ∧ Rising x b.missing ∧ Listening cfg x

lemma inStep_start (now : TimeVal) : InStep cfg (start cfg now) := by
  have hindex : (0 : ℤ) < 2 ^ 31 := by decide
  have hlast : InInt (-1) := by decide
  refine ⟨.empty, ⟨Client.start_follows cfg.window_pos rfl, ⟨le_rfl, hindex⟩, ?_, ?_, ?_⟩,
    ⟨?_, ?_, ?_⟩, ⟨rfl, hlast, Or.inl ?_⟩⟩
  · rintro n (h | h) <;> simp at h
  · simp [start]
  · simp [start]
  · simp [start, heard]
  · simp [start, heard]
  · simp [start, heard]
  · simp [start, heard]

variable {b : ReceiveBuffer Segment cfg.receivingWindowSize}

lemma Numbered.missing_le (h : Numbered cfg x b) : (b.missing : ℤ) ≤ x.sender.index := by
  by_contra hlt
  have := h.index.1
  have htaken := h.taken x.sender.index.toNat (ReceiveBuffer.taken_of_lt_missing (by omega))
  omega

lemma InStep.heard_le (h : InStep cfg x) (hfree : ¬ x.sender.Stuck) {a : ClientAck}
    (ha : a ∈ x.heard) : (a.currentRequest.toNat : ℤ) ≤ x.sender.index := by
  obtain ⟨b, hnum, hrise, hlisten⟩ := h
  have hle := hrise.data a (List.mem_append_left _ ha) (hlisten.phase.resolve_right hfree a ha)
  have := hnum.missing_le
  omega

lemma Rising.le_last {m : ℕ} (h : Rising x m) (hdata : ∀ a ∈ x.heard, a.IsData) {a : ClientAck}
    (ha : a ∈ x.heard) :
    a.currentRequest.toNat ≤ (Sender.lastHeard cfg.server x.heard).currentRequest.toNat := by
  have hne := List.ne_nil_of_mem ha
  have hlast := (List.pairwise_append.mp h.rising).1.rel_getLast_of_rel_getLast_getLast ha
    fun _ _ => le_rfl
  rw [Sender.lastHeard, List.getLast?_eq_some_getLast hne, Option.getD_some]
  exact hlast (hdata a ha) (hdata _ (List.getLast_mem hne))

lemma isData_of_sendsAgain (hindex : x.sender.index < 2 ^ 31)
    (hmove : Sender.Moves cfg.server x.sender e' y.sender outs)
    (hold : x.sender.Resends e' → x.sender.requested e' < x.sender.index)
    (hresend : x.sender.Resends e') :
    y.sender.ack.IsData ∧ (y.sender.ack.currentRequest.toNat : ℤ) < x.sender.index := by
  have hlt := hold hresend
  rw [← hmove.requested_eq] at hlt
  exact ⟨Sender.isData_of_lt (by omega), hlt⟩

lemma Numbered.segment_lt (h : Numbered cfg x b) (hlast : InInt x.sender.lastAckReceived)
    (hmove : Sender.Moves cfg.server x.sender e' y.sender outs)
    (hold : x.sender.Resends e' → x.sender.requested e' < x.sender.index) {k : ℤ}
    (hk : .segment k ∈ outs) : 0 ≤ k ∧ k < y.sender.index := by
  have hindex := h.index
  rcases hmove.segment_cases hlast hk with ⟨-, hge, hlt⟩ | ⟨hresend, rfl⟩
  · exact ⟨by omega, hlt⟩
  · obtain ⟨-, hlt⟩ := isData_of_sendsAgain hindex.2 hmove hold hresend
    rw [toSigned_of_lt (by omega)]
    rcases hmove.counters.1 with heq | ⟨-, -, heq⟩
    · omega
    · omega

lemma segmentNum_datagram {buf : Payload} {o : SenderOut} {s : Segment}
    (h : cfg.datagram buf o = .segment s) : ∃ k, o = .segment k ∧ s.segmentNum = toUnsigned k := by
  cases o with
  | record a => cases h
  | segment k =>
    refine ⟨k, rfl, ?_⟩
    simp only [TransferConfig.datagram] at h
    split at h
    · rename_i hsend
      obtain rfl := Datagram.segment.inj h
      unfold sendSegment at hsend
      split_ifs at hsend
      · split at hsend
        · rw [← Except.ok.inj hsend]
        · cases hsend
    · obtain rfl := Datagram.segment.inj h
      rfl

lemma Numbered.served (h : Numbered cfg x b) (hlast : InInt x.sender.lastAckReceived)
    (hserved : Served cfg x e' outs y)
    (hold : x.sender.Resends e' → x.sender.requested e' < x.sender.index) : Numbered cfg y b := by
  have hmove := Sender.step_moves hserved.step
  have hmono : x.sender.index ≤ y.sender.index := by
    rcases hmove.counters.1 with heq | ⟨-, -, heq⟩ <;> omega
  obtain ⟨bufs, hflight⟩ := hserved.toClient
  obtain ⟨hnonneg, hlt⟩ := h.index
  have hlt' := Sender.index_lt_of_step hserved.step hlt
  refine ⟨by rw [hserved.client]; exact h.follows, ⟨by omega, hlt'⟩,
    fun n hn => (h.taken n hn).trans_le hmono, fun s hs => ?_, fun a ha => ?_⟩
  · rw [hflight] at hs
    rcases List.mem_append.mp hs with hold' | hnew
    · exact (h.segment s hold').trans_le hmono
    · obtain ⟨⟨o, i⟩, ho, hdatagram⟩ := List.mem_map.mp hnew
      obtain ⟨k, rfl, hnumber⟩ := segmentNum_datagram hdatagram
      obtain ⟨hk0, hk⟩ := h.segment_lt hlast hmove hold (List.fst_mem_of_mem_zipIdx ho)
      rw [hnumber, toNat_toUnsigned hk0 (by omega)]
      exact hk
  · rw [hflight] at ha
    rcases List.mem_append.mp ha with hold' | hnew
    · exact h.record a hold'
    · rw [record_mem_datagrams] at hnew
      rcases hmove.replies with ⟨-, hnone⟩ | ⟨-, n, a', -, rfl⟩
      · exact absurd hnew (hnone a)
      · exact (finRecord_mem_closeReply cfg.server rfl x.sender n a').2 a hnew

lemma Rising.served {m : ℕ} (h : Rising x m) (hserved : Served cfg x e' outs y) : Rising y m :=
  ⟨h.rising.sublist hserved.records, fun a ha => h.data a (hserved.records.subset ha),
    fun a ha => h.close a (hserved.records.subset ha)⟩

lemma Listening.served {m : ℕ} (h : Listening cfg x) (hrise : Rising y m)
    (hserved : Served cfg x e' outs y) (hdata : x.sender.Resends e' → y.sender.ack.IsData) :
    Listening cfg y := by
  have hmove := Sender.step_moves hserved.step
  refine ⟨?_, ?_, ?_⟩
  · rw [hserved.heard, Sender.lastHeard_append, ← h.ack]
    exact hmove.ack_eq
  · rcases hmove.counters.2 with heq | heq
    · rw [heq]
      exact h.lastAckReceived
    · rw [heq]
      exact toSigned_inInt _
  · rcases h.phase with hall | hstuck
    · by_cases hnew : ∀ a ∈ x.sender.heard e', a.IsData
      · rw [hserved.heard]
        exact Or.inl fun a ha => (List.mem_append.mp ha).elim (hall a) (hnew a)
      · simp only [not_forall] at hnew
        obtain ⟨a, ha, hclose⟩ := hnew
        have hmem : a ∈ y.heard := by
          rw [hserved.heard]
          exact List.mem_append_right _ ha
        obtain ⟨hzero, hlast⟩ := hrise.close a (List.mem_append_left _ hmem) hclose
        exact Or.inr (hmove.stuck hdata ha hclose hzero hlast)
    · exact Or.inr (hstuck.step hmove hdata).1

lemma Listening.le_of_resends {m : ℕ} (h : Listening cfg x) (hlisten : Listening cfg y)
    (hrise : Rising y m) (hserved : Served cfg x e' outs y) (hresend : x.sender.Resends e')
    (hdata : x.sender.Resends e' → y.sender.ack.IsData) {a : ClientAck} (ha : a ∈ y.heard) :
    a.currentRequest.toNat ≤ y.sender.ack.currentRequest.toNat := by
  have hmove := Sender.step_moves hserved.step
  have hall : ∀ a ∈ x.heard, a.IsData := by
    refine h.phase.resolve_right fun hstuck => ?_
    exact (hstuck.step hmove hdata).2.2 hresend
  have hnew : ∀ a ∈ x.sender.heard e', a.IsData := by
    intro a ha
    have heq : (x.sender.heard e').getLast?.getD x.sender.ack = a :=
      Sender.getLast?_heard ha
    rw [← heq, ← hmove.ack_eq]
    exact hdata hresend
  have hboth : ∀ a ∈ y.heard, a.IsData := by
    intro a ha
    rw [hserved.heard] at ha
    exact (List.mem_append.mp ha).elim (hall a) (hnew a)
  rw [hlisten.ack]
  exact hrise.le_last hboth ha

lemma Numbered.close_records (h : Numbered cfg x b) {e : ClientEvent} {outs : List ClientOut}
    (hacted : Acted cfg x e outs y) {a : ClientAck} (ha : .close a ∈ outs) :
    ¬ a.IsData ∧ a.advtWindow = 0 ∧ a.lastackSent ≠ 1 := by
  have hfin : ¬ finRecord.IsData ∧ finRecord.advtWindow = 0 ∧ finRecord.lastackSent ≠ 1 := by
    decide
  rcases Client.close_records h.follows rfl hacted.step ha with rfl | ⟨ack, rfl, hreq, rfl⟩
  · exact hfin
  · obtain ⟨m, hm, rfl⟩ := hacted.reads
    cases m with
    | segment s =>
      -- no segment has the number of a FIN
      have hlt := h.segment s hm
      have hindex := h.index.2
      rw [show s.segmentNum = finRequest from hreq, toNat_finRequest] at hlt
      omega
    | record r =>
      rcases h.record r hm with rfl | hack
      · exact ⟨fun hdata => hdata.2 rfl, hfin.2⟩
      · exact absurd (hack.symm.trans hreq) (by decide)

/-- What the client sends in a step: acknowledgements of data that ask for segment `m`, and records
that describe a closed window. -/
def Asks (m : ℕ) (outs : List ClientOut) : Prop :=
  ∀ a ∈ outs.map ClientOut.record, (a.IsData → a.currentRequest.toNat = m) ∧
    (¬ a.IsData → a.advtWindow = 0 ∧ a.lastackSent ≠ 1)

lemma Numbered.acted (h : Numbered cfg x b) {e : ClientEvent} {outs : List ClientOut}
    (hacted : Acted cfg x e outs y) (hfull : ∀ n ∈ e.fullRequest, n = x.client.edge) :
    ∃ b', Numbered cfg y b' ∧ b.missing ≤ b'.missing ∧ Asks b'.missing outs := by
  obtain ⟨b', hb', hgrows, htaken, hacks⟩ := Client.missing_of_step h.follows hacted.step hfull
  refine ⟨b', ⟨hb', ?_, fun n hn => ?_, fun s hs => ?_, fun a ha => ?_⟩, hgrows.missing_le, ?_⟩
  · rw [hacted.sender]
    exact h.index
  · rw [hacted.sender]
    rcases htaken n hn with hold | hnew
    · exact h.taken n hold
    · cases e with
      | segment s loseData loseAck junk =>
        have hlt := h.segment s hacted.reads
        have hn' : toSigned s.segmentNum = n := Option.some.inj hnew
        simp only [toSigned, BitVec.toInt] at hn'
        omega
      | _ => cases hnew
  · rw [hacted.sender]
    exact h.segment s (hacted.toClient _ hs)
  · exact h.record a (hacted.toClient _ ha)
  · intro a ha
    obtain ⟨o, ho, rfl⟩ := List.mem_map.mp ha
    cases o with
    | ack a =>
      obtain ⟨hlt, hreq⟩ := hacks a ho
      have hnat : a.currentRequest.toNat = b'.missing := by
        have hcast := toNat_toUnsigned (x := b'.missing) (by omega) (by omega)
        rw [hreq]
        exact_mod_cast hcast
      have hdata : a.IsData := Sender.isData_of_lt (by rw [hnat]; exact hlt)
      exact ⟨fun _ => hnat, fun hclose => absurd hdata hclose⟩
    | close a =>
      have hclose := h.close_records hacted ho
      exact ⟨fun hdata => absurd hdata hclose.1, fun _ => hclose.2⟩

lemma Rising.acted {m m' : ℕ} (h : Rising x m) {e : ClientEvent} {outs : List ClientOut}
    (hacted : Acted cfg x e outs y) (hmono : m ≤ m') (hasks : Asks m' outs) : Rising y m' := by
  have hrecords : y.heard ++ y.toServer =
      (x.heard ++ x.toServer) ++ outs.map ClientOut.record := by
    rw [hacted.heard, hacted.toServer, List.append_assoc]
  refine ⟨?_, fun a ha hdata => ?_, fun a ha hclose => ?_⟩
  · rw [hrecords, List.pairwise_append]
    refine ⟨h.rising, List.pairwise_of_forall_mem_list fun a ha a' ha' hdata hdata' => ?_,
      fun a ha a' ha' hdata hdata' => ?_⟩
    · rw [(hasks a ha).1 hdata, (hasks a' ha').1 hdata']
    · rw [(hasks a' ha').1 hdata']
      exact (h.data a ha hdata).trans hmono
  · rw [hrecords] at ha
    rcases List.mem_append.mp ha with hold | hnew
    · exact (h.data a hold hdata).trans hmono
    · exact ((hasks a hnew).1 hdata).le
  · rw [hrecords] at ha
    rcases List.mem_append.mp ha with hold | hnew
    · exact h.close a hold hclose
    · exact (hasks a hnew).2 hclose

lemma Listening.acted (h : Listening cfg x) {e : ClientEvent} {outs : List ClientOut}
    (hacted : Acted cfg x e outs y) : Listening cfg y := by
  obtain ⟨hack, hlast, hphase⟩ := h
  rw [← hacted.sender] at hack hlast hphase
  rw [← hacted.heard] at hack hphase
  exact ⟨hack, hlast, hphase⟩

theorem InStep.step (h : InStep cfg x) (hfifo : cfg.channel = .lossyFifo)
    (hagain : SendsAgain cfg x (e, junk) y) (hstep : x.rawStep cfg (e, junk) = some y) :
    InStep cfg y := by
  obtain ⟨b, hnum, hrise, hlisten⟩ := h
  obtain ⟨hold, hfull⟩ := hagain
  rcases rawStep_cases hfifo hstep with
    ⟨e', outs, hevent, hserved⟩ | ⟨-, ⟨e', outs, hsame, hacted⟩ | ⟨rest, hrest, rfl⟩⟩
  · have hold' := hold e' hevent
    have hrise' := hrise.served hserved
    refine ⟨b, hnum.served hlisten.lastAckReceived hserved hold', hrise',
      hlisten.served hrise' hserved fun hresend => ?_⟩
    exact (isData_of_sendsAgain hnum.index.2 (Sender.step_moves hserved.step) hold' hresend).1
  · obtain ⟨b', hnum', hmono, hasks⟩ := hnum.acted hacted (hsame ▸ hfull)
    exact ⟨b', hnum', hrise.acted hacted hmono hasks, hlisten.acted hacted⟩
  · exact ⟨b, ⟨hnum.follows, hnum.index, hnum.taken, fun s hs => hnum.segment s (hrest _ hs),
      fun a ha => hnum.record a (hrest _ ha)⟩, ⟨hrise.rising, hrise.data, hrise.close⟩,
      ⟨hlisten.ack, hlisten.lastAckReceived, hlisten.phase⟩⟩

lemma not_stuck_of_top {s : Sender} (htop : s.state = .top) : ¬ s.Stuck := by
  simp [Sender.Stuck, htop]

theorem InStep.needed (h : InStep cfg x) (hfifo : cfg.channel = .lossyFifo)
    (hagain : SendsAgain cfg x (e, junk) y) (hstep : x.rawStep cfg (e, junk) = some y) :
    Needed cfg x (e, junk) y := by
  have hy := h.step hfifo hagain hstep
  refine ⟨fun k hk a ha => ?_, fun htop a ha => hy.heard_le (not_stuck_of_top htop) ha⟩
  rcases rawStep_cases hfifo hstep with ⟨e', outs, hevent, hserved⟩ | ⟨hnone, -⟩
  · have hmem : .segment k ∈ outs := by
      simp only [sent, hevent, Option.bind_some, hserved.step, Option.elim_some,
        List.mem_filterMap] at hk
      obtain ⟨o, ho, hsome⟩ := hk
      cases o with
      | segment n => exact Option.some.inj hsome ▸ ho
      | record r => cases hsome
    have hmove := Sender.step_moves hserved.step
    have hx := h
    obtain ⟨b, hnum, hrise, hlisten⟩ := h
    obtain ⟨b', hnum', hrise', hlisten'⟩ := hy
    rcases hmove.segment_cases hlisten.lastAckReceived hmem with ⟨htop, hge, -⟩ | ⟨hresend, rfl⟩
    · -- a burst starts at `index`
      have hnil : x.sender.heard e' = [] := by
        obtain ⟨now, rfl⟩ := hmove.go_of_top htop
        rfl
      rw [hserved.heard, hnil, List.append_nil] at ha
      exact (hx.heard_le (not_stuck_of_top htop) ha).trans hge
    · have hdata := isData_of_sendsAgain hnum.index.2 hmove (hagain.1 e' hevent)
      have hlt := (hdata hresend).2
      have hindex := hnum.index.2
      rw [toSigned_of_lt (by omega)]
      exact_mod_cast hlisten.le_of_resends hlisten' hrise' hserved hresend
        (fun h => (hdata h).1) ha
  · simp [sent, hnone] at hk

/-- Over a channel that keeps the order, a run whose steps send only what `index` counts sends no
segment after an acknowledgement that asks for a later one. -/
theorem needed_of_sendsAgain (cfg : TransferConfig) (hfifo : cfg.channel = .lossyFifo)
    (now : TimeVal) {es : List (TransferEvent × (ℕ → ℤ))}
    (h : (rawMachine cfg).Along (SendsAgain cfg) (start cfg now) es) :
    (rawMachine cfg).Along (Needed cfg) (start cfg now) es :=
  Machine.along_imp_along (P := InStep cfg)
    (fun _ _ _ hx hagain hstep => hx.step hfifo hagain hstep)
    (fun _ _ _ hx hstep hagain => hx.needed hfifo hagain hstep) (inStep_start now) h

/-- Five segments and a window of eight.  Segment `1` is lost, and is sent again when the timer
expires. -/
def lostSegment : List (TransferEvent × (ℕ → ℤ)) :=
  [.server (.go ⟨0, 0⟩) fun _ _ => 0, .producerRead 0 false false,
    .serverRead 0 ⟨0, 0⟩ fun _ _ => 0, .server (.go ⟨0, 0⟩) fun _ _ => 0,
    .server (.go ⟨0, 0⟩) fun _ _ => 0, .producerRead 1 false false,
    .serverRead 0 ⟨0, 0⟩ fun _ _ => 0, .server .alarm fun _ _ => 0,
    .producerRead 0 false false, .serverRead 0 ⟨0, 0⟩ fun _ _ => 0].map fun e => (e, fun _ => 8)

theorem needed_lostSegment :
    (rawMachine (.zeros 2540 8 .lossyFifo (by decide))).Along
        (Needed (.zeros 2540 8 .lossyFifo (by decide)))
        (start (.zeros 2540 8 .lossyFifo (by decide)) ⟨0, 0⟩) lostSegment ∧
      ((rawMachine (.zeros 2540 8 .lossyFifo (by decide))).run
        (start (.zeros 2540 8 .lossyFifo (by decide)) ⟨0, 0⟩) lostSegment).map
        (fun x => (x.sender.index, x.heard.map ClientAck.currentRequest)) =
          some (3, [1, 1, 3]) :=
  ⟨needed_of_sendsAgain _ rfl _ (by decide +kernel), by decide +kernel⟩

/-- The acknowledgement of segment `1` is lost, and the next one asks for segment `3`.  When the
timer expires, segment `3` is sent, which no burst has sent yet; its acknowledgement ends the
cycle. -/
def lostAck : List (TransferEvent × (ℕ → ℤ)) :=
  [.server (.go ⟨0, 0⟩) fun _ _ => 0, .producerRead 0 false false,
    .serverRead 0 ⟨0, 0⟩ fun _ _ => 0, .server (.go ⟨0, 0⟩) fun _ _ => 0,
    .server (.go ⟨0, 0⟩) fun _ _ => 0, .producerRead 0 false true, .producerRead 0 false false,
    .serverRead 0 ⟨0, 0⟩ fun _ _ => 0, .server .alarm fun _ _ => 0,
    .producerRead 0 false false, .serverRead 0 ⟨0, 0⟩ fun _ _ => 0,
    .server (.go ⟨0, 0⟩) fun _ _ => 0].map fun e => (e, fun _ => 8)

/-- The cycle that follows starts at segment `3`, with `4` asked for, and sends it once more. -/
theorem not_needed :
    ¬ (rawMachine (.zeros 2540 8 .lossyFifo (by decide))).Along
        (Needed (.zeros 2540 8 .lossyFifo (by decide)))
        (start (.zeros 2540 8 .lossyFifo (by decide)) ⟨0, 0⟩) lostAck ∧
      ((rawMachine (.zeros 2540 8 .lossyFifo (by decide))).run
        (start (.zeros 2540 8 .lossyFifo (by decide)) ⟨0, 0⟩) lostAck).map
        (fun x => (x.sender.index, x.heard.map ClientAck.currentRequest,
          x.sent (.zeros 2540 8 .lossyFifo (by decide))
            (.server (.go ⟨0, 0⟩) fun _ _ => 0))) = some (3, [1, 3, 4], [3, 4]) :=
  ⟨by decide +kernel, by decide +kernel⟩

end Transfer

end TcpOverUdp
