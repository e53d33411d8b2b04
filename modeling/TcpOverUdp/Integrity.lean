import TcpOverUdp.FileStream

namespace TcpOverUdp
open CWord

namespace Sender

/-- The numbers the server takes for `SendSegment` are `int`s. -/
structure InRange (s : Sender) : Prop where
  index_nonneg : 0 ≤ s.index
  index : InInt s.index
  lastAckReceived : InInt s.lastAckReceived

variable {cfg : ServerConfig} {s t : Sender} {e : SenderEvent} {outs : List SenderOut}

lemma inRange_start (now : TimeVal) : InRange (start cfg now) where
  index_nonneg := le_rfl
  index := by
    show InInt 0
    decide
  lastAckReceived := by
    show InInt (-1)
    decide

lemma InRange.step (h : InRange s) (hstep : s.step cfg e = some (t, outs)) : InRange t := by
  have hmoves := step_moves hstep
  obtain ⟨hindex, hlast⟩ := hmoves.counters
  refine ⟨?_, ?_, ?_⟩
  · have := h.index_nonneg
    omega
  -- `index` moves in a burst only, and the step exists because its sum is an `int`
  · rcases hindex with hindex | ⟨htop, hlt, -⟩
    · exact hindex ▸ h.index
    · obtain ⟨now, rfl⟩ := hmoves.go_of_top htop
      simp only [Sender.step, htop, if_pos hlt, toOption_eq_some, burst, bind,
        checked_bind_eq_ok] at hstep
      obtain ⟨rfl, -⟩ := Prod.mk.inj (Except.ok.inj hstep.2)
      exact hstep.1
  · rcases hlast with hlast | hlast
    · exact hlast ▸ h.lastAckReceived
    · rw [hlast]
      exact toSigned_inInt _

lemma InRange.segment (h : InRange s) (hstep : s.step cfg e = some (t, outs)) {n : ℤ}
    (hn : .segment n ∈ outs) : InInt n := by
  have hmoves := step_moves hstep
  have hnext := h.step hstep
  by_cases htop : s.state = .top
  -- a burst stays below the new `index`; every other segment is one that a record asks for
  · obtain ⟨now, -, ⟨-, hindex, rfl⟩ | ⟨-, rfl⟩⟩ := hmoves.cases_of_top htop
    · simp only [List.mem_map, List.mem_range, SenderOut.segment.injEq] at hn
      obtain ⟨i, hi, rfl⟩ := hn
      have h0 := h.index_nonneg
      have h1 := hnext.index.2
      exact ⟨by omega, by omega⟩
    · cases hn
  · obtain ⟨-, rfl⟩ := (hmoves.segment_mem_iff h.lastAckReceived htop n).mp hn
    exact toSigned_inInt _

end Sender

namespace TransferConfig

variable {cfg : TransferConfig} {buf : Payload} {n : ℤ} {s : Segment}

lemma announced (cfg : TransferConfig) : cfg.client.Announced cfg.file := by
  have hlt := cfg.file_lt
  exact ⟨hlt, toSigned_toUnsigned ⟨by omega, by omega⟩⟩

lemma datagram_num (h : cfg.datagram buf (.segment n) = .segment s) :
    s.segmentNum = toUnsigned n := by
  simp only [datagram, sendSegment] at h
  split_ifs at h with h0
  · cases hget : (initializeFileSegmentInfo cfg.serverSizeT cfg.file.length)[n.toNat]? with
    | none =>
      simp only [hget, Datagram.segment.injEq] at h
      rw [← h]
    | some entry =>
      simp only [hget, Datagram.segment.injEq] at h
      rw [← h]
  · simp only [Datagram.segment.injEq] at h
    rw [← h]

theorem carries_datagram (hn : InInt n) (h : cfg.datagram buf (.segment n) = .segment s) :
    Carries cfg.file (toSigned s.segmentNum, s) := by
  have hnum : toSigned s.segmentNum = n := by rw [datagram_num h, toSigned_toUnsigned hn]
  rw [hnum]
  -- `Carries` asks nothing of a number that the table does not have
  intro k hk hlt
  obtain rfl : n = k := hk
  have hsent := sendSegment_eq cfg.serverSizeT (fun _ => buf) cfg.file_lt hlt
  simp only [datagram, hsent, Datagram.segment.injEq] at h
  rw [← h]
  exact carries_sentSegment _ hlt k rfl hlt

end TransferConfig

namespace Transfer

variable {cfg : TransferConfig} {x y : Transfer} {e : TransferEvent × (ℕ → ℤ)}

/-- What is in flight is genuine, and so is what the client has. -/
structure Genuine (cfg : TransferConfig) (x : Transfer) : Prop where
  sender : Sender.InRange x.sender
  flight : ∀ s, .segment s ∈ x.toClient → Carries cfg.file (toSigned s.segmentNum, s)
  client : ∃ b : ReceiveBuffer Segment cfg.receivingWindowSize,
    Client.Filed cfg.client cfg.file x.client b

/-- A transfer that starts with records of the handshake in flight, in both directions. -/
def startAmid (cfg : TransferConfig) (now : TimeVal) (toClient toServer : List ClientAck) :
    Transfer :=
  { start cfg now with toClient := toClient.map .record, toServer := toServer }

lemma genuine_startAmid (now : TimeVal) (toClient toServer : List ClientAck) :
    Genuine cfg (startAmid cfg now toClient toServer) where
  sender := Sender.inRange_start now
  flight s hs := by
    obtain ⟨a, -, ha⟩ := List.mem_map.mp hs
    cases ha
  client := ⟨_, Client.filed_start cfg.window_pos rfl⟩

lemma segment_mem_sent {outs : List SenderOut} {bufs : ℕ → Payload} {s : Segment}
    (h : .segment s ∈ outs.zipIdx.map fun p => cfg.datagram (bufs p.2) p.1) :
    ∃ n buf, .segment n ∈ outs ∧ cfg.datagram buf (.segment n) = .segment s := by
  obtain ⟨⟨o, i⟩, hp, heq⟩ := List.mem_map.mp h
  have ho : o ∈ outs := List.fst_mem_of_mem_zipIdx hp
  cases o with
  | segment n => exact ⟨n, _, ho, heq⟩
  | record a => cases heq

theorem Genuine.step (h : Genuine cfg x) (hstep : x.rawStep cfg e = some y) : Genuine cfg y := by
  cases rawStep_sides hstep with
  -- the server adds to what is in flight, the client takes from it
  | server _ _ hsender =>
    refine ⟨h.sender.step hsender, fun s hs => ?_, h.client⟩
    rcases List.mem_append.mp hs with hs | hs
    · exact h.flight s hs
    · obtain ⟨n, buf, hn, heq⟩ := segment_mem_sent hs
      exact TransferConfig.carries_datagram (h.sender.segment hsender hn) heq
  | client _ _ hrest hread hclient =>
    obtain ⟨b, hb⟩ := h.client
    refine ⟨h.sender, fun s hs => h.flight s (hrest _ hs), ?_⟩
    exact hb.step cfg.announced rfl
      (fun s loseData loseAck junk he => h.flight s (hread s loseData loseAck junk he)) hclient
  | skip _ _ hrest => exact ⟨h.sender, fun s hs => h.flight s (hrest _ hs), h.client⟩

/-- The client's file is a stream of the server's. -/
theorem simulation_fileStream (cfg : TransferConfig) :
    (rawMachine cfg).Simulation (fileStream cfg.file).machine
      (fun x _ y => Client.writes cfg.client x.client y.client)
      fun x p => Genuine cfg x ∧ p = (x.client.recv.delivered.length, x.client.written) := by
  refine .of_invariant (fun _ _ _ h hstep => h.step hstep) ?_
  rintro x e y _ h rfl hstep
  obtain ⟨b, hb⟩ := h.client
  obtain ⟨b', hb'⟩ := (h.step hstep).client
  have hmore : x.client.recv.delivered <+: y.client.recv.delivered := by
    cases rawStep_sides hstep with
    | server => exact List.prefix_rfl
    | client _ _ _ _ hclient => exact (Client.step_logs hclient).1
    | skip => exact List.prefix_rfl
  exact ⟨_, hb.run cfg.announced hb' hmore, rfl⟩

lemma out_of_run_amid {now : TimeVal} {toClient toServer : List ClientAck}
    {es : List (TransferEvent × (ℕ → ℤ))}
    (hrun : (rawMachine cfg).run (startAmid cfg now toClient toServer) es = some x) :
    ∃ n : ℕ, x.client.count = n ∧ (fileStream cfg.file).Out n x.client.written ∧
      (x.client.consumer ≠ .draining → cfg.totalNumSegments ≤ n) := by
  obtain ⟨_, hstream, hgenuine, rfl⟩ :=
    (simulation_fileStream cfg).run ⟨genuine_startAmid now toClient toServer, rfl⟩ hrun
  obtain ⟨b, hb⟩ := hgenuine.client
  refine ⟨_, hb.tidy.count, ChunkStream.out_of_run hstream, fun hc => ?_⟩
  have hall := hb.done hc
  rw [hb.tidy.count, cfg.client_consumerTotal] at hall
  exact_mod_cast hall

lemma out_of_run {now : TimeVal} {es : List (TransferEvent × (ℕ → ℤ))}
    (hrun : (rawMachine cfg).run (start cfg now) es = some x) :
    ∃ n : ℕ, x.client.count = n ∧ (fileStream cfg.file).Out n x.client.written ∧
      (x.client.consumer ≠ .draining → cfg.totalNumSegments ≤ n) :=
  @out_of_run_amid cfg x now [] [] es hrun

/-- In every run of a transfer, with any loss, duplication, delay and reordering, and with any
schedule, the client has written the first segments of the file, each as far as it arrives, and
behind the last one nothing but whole segments; and it closes when it has the last one. -/
theorem writes_file_in_order {now : TimeVal} {es : List (TransferEvent × (ℕ → ℤ))}
    (hrun : (rawMachine cfg).run (start cfg now) es = some x) :
    ∃ n : ℕ, x.client.count = n ∧
      (n ≤ cfg.totalNumSegments → x.client.written = (arriving cfg.file).take (n * 508)) ∧
      (cfg.totalNumSegments ≤ n → ∃ extra, x.client.written = arriving cfg.file ++ extra ∧
        extra.length = (n - cfg.totalNumSegments) * 508) ∧
      (x.client.consumer ≠ .draining → cfg.totalNumSegments ≤ n) := by
  obtain ⟨n, hcount, hout, hdone⟩ := out_of_run hrun
  exact ⟨n, hcount, fun hn => hout.eq_take hn, fun hn => hout.of_total_le hn, hdone⟩

def twoSegments : TransferConfig := .zeros 600 4 .unreliable (by decide)

/-- The first segment is lost, sent again when the timer expires, and comes twice. -/
def resentSegment : List (TransferEvent × (ℕ → ℤ)) :=
  [.server (.go ⟨0, 0⟩) fun _ _ => 0, .producerRead 0 true false, .server .alarm fun _ _ => 0,
    .producerRead 1 false false, .client (.consume false fun _ => 0),
    .serverRead 0 ⟨0, 0⟩ fun _ _ => 0, .server (.go ⟨0, 0⟩) fun _ _ => 0,
    .server (.go ⟨0, 0⟩) fun _ _ => 0, .producerRead 1 false false, .producerRead 2 false false,
    .client (.consume false fun _ => 0), .client .fin].map fun e => (e, fun _ => 4)

theorem writes_file_in_order_resentSegment :
    ∃ x, (rawMachine twoSegments).run (start twoSegments ⟨0, 0⟩) resentSegment = some x ∧
      x.client.written.length = 600 ∧
      ∃ n : ℕ, x.client.count = n ∧
        (n ≤ twoSegments.totalNumSegments →
          x.client.written = (arriving twoSegments.file).take (n * 508)) ∧
        (twoSegments.totalNumSegments ≤ n → ∃ extra,
          x.client.written = arriving twoSegments.file ++ extra ∧
            extra.length = (n - twoSegments.totalNumSegments) * 508) ∧
        (x.client.consumer ≠ .draining → twoSegments.totalNumSegments ≤ n) := by
  have hlength : ((rawMachine twoSegments).run (start twoSegments ⟨0, 0⟩) resentSegment).map
      (fun x => x.client.written.length) = some 600 := by decide +kernel
  obtain ⟨x, hx, hlength⟩ := Option.map_eq_some_iff.mp hlength
  exact ⟨x, hx, hlength, writes_file_in_order hx⟩

end Transfer

end TcpOverUdp
