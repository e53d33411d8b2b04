import TcpOverUdp.InOrder
import TcpOverUdp.SenderIndex

namespace TcpOverUdp
open CWord

namespace Transfer

variable {cfg : TransferConfig} {x y z : Transfer} {W n g j k : ℕ} {es fs : List TransferEvent}

/-- What no step of these runs reads: the fill of the segments, and the values of calls that end
without a return. -/
def blank : ℕ → Payload := fun _ _ => 0

/-- No loss is simulated and no timer expires. -/
def calm : TransferEvent → Bool
  | .server (.go _) _ | .serverRead _ _ _ | .producerRead _ false false => true
  | .client (.consume false _) | .client (.lastAck false _) | .client .fin => true
  | _ => false

/-- `SendSegment` finds the numbers it is given in the table. -/
def SendsInTable (cfg : TransferConfig) (x : Transfer) : TransferEvent → Prop
  | .server e _ => Sender.InTable cfg.server (x.sender, []) e
  | .serverRead i now _ => ∀ a rest, cfg.channel.receive x.toServer i = some (a, rest) →
      Sender.InTable cfg.server (x.sender, []) (.read (.complete a) now)
  | _ => True

structure Leads (cfg : TransferConfig) (x : Transfer) (es : List TransferEvent) (y : Transfer) :
    Prop where
  calm : ∀ e ∈ es, calm e = true
  run : (machine cfg).run x es = some y
  inTable : (machine cfg).Along (fun x e _ => x.SendsInTable cfg e) x es

lemma Leads.refl (cfg : TransferConfig) (x : Transfer) : Leads cfg x [] x :=
  ⟨by simp, rfl, trivial⟩

lemma Leads.trans (h : Leads cfg x es y) (h' : Leads cfg y fs z) : Leads cfg x (es ++ fs) z where
  calm e he := (List.mem_append.mp he).elim (h.calm e) (h'.calm e)
  run := Machine.run_append_eq_some.mpr ⟨y, h.run, h'.run⟩
  inTable := Machine.along_append h.run h.inTable h'.inTable

lemma leads_singleton {e : TransferEvent} (hcalm : calm e = true)
    (hstep : (machine cfg).step x e = some y) (htable : x.SendsInTable cfg e) :
    Leads cfg x [e] y where
  calm := by simpa using hcalm
  run := Machine.run_singleton hstep
  inTable _ _ := ⟨htable, trivial⟩

lemma inTable_of_nil {s t : Sender} {e : SenderEvent} (h : s.step cfg.server e = some (t, [])) :
    Sender.InTable cfg.server (s, []) e := by
  intro t' outs n hstep hn
  obtain ⟨-, rfl⟩ := Prod.mk.inj (Option.some.inj (h.symm.trans hstep))
  cases hn

/-- The size of burst `k` with a window of `W`, when nothing is lost and the client keeps up. -/
def burstAt (W k : ℕ) : ℕ := min (2 ^ k) (W - 1)

/-- The segments of the first `k` bursts. -/
def sentBy (W : ℕ) : ℕ → ℕ
  | 0 => 0
  | k + 1 => sentBy W k + burstAt W k

lemma burstAt_pos (hW : 2 ≤ W) (k : ℕ) : 0 < burstAt W k := by
  have := Nat.two_pow_pos k
  unfold burstAt
  omega

lemma le_sentBy (hW : 2 ≤ W) (k : ℕ) : k ≤ sentBy W k := by
  induction k with
  | zero => exact Nat.zero_le _
  | succ k ih =>
    have := burstAt_pos hW k
    rw [sentBy]
    omega

lemma exists_sentBy (hW : 2 ≤ W) (total : ℕ) :
    ∃ k, sentBy W k ≤ total ∧ total < sentBy W (k + 1) := by
  by_contra hnone
  simp only [not_exists, not_and, not_lt] at hnone
  have hall : ∀ k, sentBy W k ≤ total := by
    intro k
    induction k with
    | zero => exact Nat.zero_le _
    | succ k ih => exact hnone k ih
  have := le_sentBy hW (total + 1)
  have := hall (total + 1)
  omega

def segmentsFrom (cfg : TransferConfig) (n k : ℕ) : List Datagram :=
  (List.range' n k).map fun i : ℕ => cfg.datagram (blank 0) (.segment i)

structure AtTop (cfg : TransferConfig) (k : ℕ) (x : Transfer) : Prop where
  client : ∃ last, Client.UpToDate cfg.receivingWindowSize (sentBy cfg.receivingWindowSize k) last
    x.client ∧ (sentBy cfg.receivingWindowSize k < cfg.totalNumSegments → last = false)
  server : Sender.InStep cfg.receivingWindowSize (sentBy cfg.receivingWindowSize k) (2 ^ k) x.sender
  burst : x.sender.burstSize = burstAt cfg.receivingWindowSize k
  state : x.sender.state = .top
  index : x.sender.index = sentBy cfg.receivingWindowSize k
  toClient : x.toClient = []
  toServer : x.toServer = []

/-- In a cycle, with `n` segments transferred and `j` in flight; `last` once the client has all. -/
structure Underway (cfg : TransferConfig) (n g j : ℕ) (last : Bool) (x : Transfer) : Prop where
  client : Client.UpToDate cfg.receivingWindowSize n last x.client
  server : Sender.InStep cfg.receivingWindowSize n g x.sender
  state : x.sender.state = if j = 0 then .cycleEnd else .reading
  window : j = 0 → toSigned x.sender.ack.advtWindow = (cfg.receivingWindowSize - 1 : ℕ)
  index : x.sender.index = n + j
  received : 0 ≤ x.sender.totalToRecv
  expected : x.sender.totalToRecv + j = x.sender.totalToSend
  burst_le : x.sender.totalToSend ≤ cfg.receivingWindowSize
  toClient : x.toClient = segmentsFrom cfg n j
  toServer : x.toServer = []

lemma atTop_start (hW : 2 ≤ cfg.receivingWindowSize) (now : TimeVal) :
    AtTop cfg 0 (start cfg now) := by
  have hlt := cfg.window_lt
  have hnat := toNat_toUnsigned (x := cfg.receivingWindowSize) (by omega) (by omega)
  have hsigned : toSigned (toUnsigned (cfg.receivingWindowSize : ℤ)) = cfg.receivingWindowSize :=
    toSigned_toUnsigned ⟨by omega, by omega⟩
  have hone : (1 : Word).toNat = 1 := rfl
  refine ⟨⟨false, ⟨⟨_, Client.start_follows cfg.window_pos rfl, rfl, fun _ => rfl⟩, rfl, rfl, rfl,
    rfl⟩, fun _ => rfl⟩, ⟨rfl, ?_, ?_, rfl, ?_⟩, ?_, rfl, rfl, rfl, rfl⟩
  · show (toUnsigned (cfg.receivingWindowSize : ℤ)).toNat = _
    omega
  · show 1 ≤ cfg.receivingWindowSize
    omega
  · exact ⟨cfg.receivingWindowSize, hsigned, by omega, le_rfl⟩
  · -- the client's whole window is larger than the first `cwindow`
    have hless : ¬ toUnsigned (cfg.receivingWindowSize : ℤ) < 1 := by
      rw [BitVec.lt_def, hone]
      omega
    have hsize : (start cfg now).sender.burstSize = 1 := by
      show (if toUnsigned (toSigned (toUnsigned (cfg.receivingWindowSize : ℤ))) < 1 then _ else _) = _
      rw [toUnsigned_toSigned, if_neg hless]
      rfl
    rw [hsize, burstAt]
    omega

lemma map_zipIdx_fst {α β : Type} (f : α → β) (l : List α) :
    (l.zipIdx.map fun p => f p.1) = l.map f := by
  conv_rhs => rw [← List.zipIdx_map_fst 0 l, List.map_map]
  rfl

lemma AtTop.burst_step (h : AtTop cfg k x) (hW : 2 ≤ cfg.receivingWindowSize)
    (hrange : cfg.totalNumSegments + cfg.receivingWindowSize < 2 ^ 31)
    (hfits : sentBy cfg.receivingWindowSize (k + 1) ≤ cfg.totalNumSegments) (now : TimeVal) :
    ∃ y, Leads cfg x [.server (.go now) fun _ => blank 0] y ∧
      Underway cfg (sentBy cfg.receivingWindowSize k) (2 ^ k) (burstAt cfg.receivingWindowSize k)
        false y := by
  obtain ⟨last, hclient, hlast⟩ := h.client
  have hpos := burstAt_pos hW k
  have hle : burstAt cfg.receivingWindowSize k ≤ cfg.receivingWindowSize := by
    unfold burstAt
    omega
  rw [sentBy] at hfits
  obtain rfl := hlast (by omega)
  have hsize : x.sender.burstSize.toNat = burstAt cfg.receivingWindowSize k := by
    rw [h.burst, Int.toNat_natCast]
  have hlt : x.sender.index < cfg.server.totalNumSegments := by
    rw [h.index, cfg.server_totalNumSegments]
    omega
  have hin : InInt (x.sender.index + x.sender.burstSize.toNat) := by
    rw [h.index, hsize]
    exact ⟨by omega, by omega⟩
  have hstep := Sender.step_burst h.state hlt hin now
  refine ⟨_, leads_singleton rfl (congrArg (Option.map _) hstep) ?_, hclient,
    ⟨h.server.last, h.server.ssthresh, h.server.cwindow_le, h.server.grown, h.server.window⟩,
    (if_neg (by omega)).symm, by omega, ?_, le_rfl, ?_, ?_, ?_, h.toServer⟩
  · intro t outs m hmove hm
    obtain ⟨-, rfl⟩ := Prod.mk.inj (Option.some.inj (hstep.symm.trans hmove))
    simp only [List.mem_map, List.mem_range, SenderOut.segment.injEq] at hm
    obtain ⟨i, hi, rfl⟩ := hm
    rw [h.index, cfg.server_totalNumSegments]
    omega
  · show x.sender.index + x.sender.burstSize.toNat = _
    rw [h.index, hsize]
  · show 0 + (burstAt cfg.receivingWindowSize k : ℤ) = x.sender.burstSize
    rw [h.burst, zero_add]
  · show x.sender.burstSize ≤ _
    rw [h.burst]
    exact_mod_cast hle
  · show x.toClient ++ _ = _
    rw [h.toClient, List.nil_append, map_zipIdx_fst (cfg.datagram (blank 0)), hsize, List.map_map,
      segmentsFrom, List.range'_eq_map_range, List.map_map]
    apply List.map_congr_left
    intro i _
    simp only [Function.comp, h.index]
    push_cast
    rfl

lemma exists_segment (cfg : TransferConfig) (hn : n < 2 ^ 31) :
    ∃ s, cfg.datagram (blank 0) (.segment n) = .segment s ∧ toSigned s.segmentNum = n := by
  obtain ⟨s, hs⟩ : ∃ s, cfg.datagram (blank 0) (.segment n) = .segment s := by
    simp only [TransferConfig.datagram]
    split <;> exact ⟨_, rfl⟩
  refine ⟨s, hs, ?_⟩
  rw [TransferConfig.datagram_num hs, toSigned_toUnsigned ⟨by omega, by omega⟩]

lemma receive_head {α : Type} (m : α) (rest : List α) :
    Discipline.reliableFifo.receive (m :: rest) 0 = some (m, rest) := rfl

lemma Underway.client_round (h : Underway cfg n g (j + 1) false x)
    (hchannel : cfg.channel = .reliableFifo) (hW : 2 ≤ cfg.receivingWindowSize)
    (hrange : cfg.totalNumSegments + cfg.receivingWindowSize < 2 ^ 31)
    (hn : n < cfg.totalNumSegments) :
    ∃ t, (machine cfg).run x
        [.producerRead 0 false false, .client (.consume false fun _ => 0)] =
          some { x with
            client := t
            toClient := segmentsFrom cfg (n + 1) j
            toServer := [Sender.nextAck cfg.receivingWindowSize n] } ∧
      Client.UpToDate cfg.receivingWindowSize (n + 1)
        (decide (cfg.totalNumSegments ≤ n + 1)) t := by
  obtain ⟨s, hs, hnum⟩ := exists_segment cfg (n := n) (by omega)
  have hmore : (n : ℤ) < cfg.client.consumerTotal := by
    rw [cfg.client_consumerTotal]
    exact_mod_cast hn
  obtain ⟨u, hread, hconsume⟩ := h.client.next cfg.client rfl hW (by omega) hnum hmore
    fun _ => x.client.edge
  obtain ⟨t, hconsume, ht⟩ := hconsume fun _ => u.edge
  refine ⟨t, ?_, ?_⟩
  · have hflight : x.toClient = .segment s :: segmentsFrom cfg (n + 1) j := by
      rw [h.toClient, segmentsFrom, List.range'_succ, List.map_cons, hs]
      rfl
    have hfirst : (machine cfg).step x (.producerRead 0 false false) =
        some (x.afterClient (segmentsFrom cfg (n + 1) j) u
          [.ack (Sender.nextAck cfg.receivingWindowSize n)]) := by
      show (cfg.channel.receive x.toClient 0).bind _ = _
      rw [hchannel, hflight, receive_head]
      exact congrArg (Option.map _) hread
    have hsecond : (machine cfg).step
        (x.afterClient (segmentsFrom cfg (n + 1) j) u
          [.ack (Sender.nextAck cfg.receivingWindowSize n)])
        (.client (.consume false fun _ => 0)) =
          some ((x.afterClient (segmentsFrom cfg (n + 1) j) u
            [.ack (Sender.nextAck cfg.receivingWindowSize n)]).afterClient
              (segmentsFrom cfg (n + 1) j) t []) := congrArg (Option.map _) hconsume
    rw [Machine.run_cons_eq_some]
    refine ⟨_, hfirst, Machine.run_singleton (hsecond.trans ?_)⟩
    simp [afterClient, h.toServer, ClientOut.record]
  · have htotal : (cfg.client.producerTotal ≤ (n : ℤ) + 1) ↔ cfg.totalNumSegments ≤ n + 1 := by
      rw [cfg.client_producerTotal]
      omega
    simpa only [htotal] using ht

lemma leads_serverRead {a : ClientAck} {now : TimeVal} {u : Sender}
    (hchannel : cfg.channel = .reliableFifo) (hflight : x.toServer = [a])
    (hread : x.sender.step cfg.server (.read (.complete a) now) = some (u, [])) :
    Leads cfg x [.serverRead 0 now fun _ => blank 0]
      (x.afterServer cfg (.read (.complete a) now) (fun _ => blank 0) [] u []) := by
  have hreceive : cfg.channel.receive x.toServer 0 = some (a, []) := by
    rw [hchannel, hflight, receive_head]
  refine leads_singleton rfl ?_ ?_
  · show (cfg.channel.receive x.toServer 0).bind _ = _
    rw [hreceive]
    exact congrArg (Option.map _) hread
  · intro b rest hb
    obtain ⟨rfl, -⟩ := Prod.mk.inj (Option.some.inj (hreceive.symm.trans hb))
    exact inTable_of_nil hread

lemma Underway.round (h : Underway cfg n g (j + 1) false x)
    (hchannel : cfg.channel = .reliableFifo) (hW : 2 ≤ cfg.receivingWindowSize)
    (hrange : cfg.totalNumSegments + cfg.receivingWindowSize < 2 ^ 31)
    (hn : n < cfg.totalNumSegments) (now : TimeVal) :
    ∃ es y, Leads cfg x es y ∧
      Underway cfg (n + 1) (g + 1) j (decide (cfg.totalNumSegments ≤ n + 1)) y := by
  obtain ⟨t, hclient, ht⟩ := h.client_round hchannel hW hrange hn
  have hreading : x.sender.state = .reading := by simpa using h.state
  have hexpected := h.expected
  have hburst := h.burst_le
  have hreceived := h.received
  have hlt := cfg.window_lt
  obtain ⟨u, hread, hu⟩ := h.server.next cfg.server hW (by omega) hreading
    ⟨by omega, by omega⟩ now
  set z : Transfer := { x with
    client := t
    toClient := segmentsFrom cfg (n + 1) j
    toServer := [Sender.nextAck cfg.receivingWindowSize n] }
  have hsecond : Leads cfg z [.serverRead 0 now fun _ => blank 0] _ :=
    leads_serverRead hchannel rfl hread
  have hfirst : Leads cfg x
      [.producerRead 0 false false, .client (.consume false fun _ => 0)] z :=
    ⟨by simp [calm], hclient, fun _ _ => ⟨trivial, fun _ _ => ⟨trivial, trivial⟩⟩⟩
  refine ⟨_, _, hfirst.trans hsecond, ht, hu.inStep, ?_, fun _ => ?_, ?_, ?_, ?_, ?_, ?_, rfl⟩
  · show u.state = _
    rw [hu.state]
    exact if_congr (by omega) rfl rfl
  · show toSigned u.ack.advtWindow = _
    rw [hu.ack]
    exact Sender.window_nextAck hW hlt
  · show u.index = _
    rw [hu.index, h.index]
    push_cast
    ring
  · show 0 ≤ u.totalToRecv
    rw [hu.totalToRecv]
    omega
  · show u.totalToRecv + j = u.totalToSend
    rw [hu.totalToRecv, hu.totalToSend]
    omega
  · show u.totalToSend ≤ _
    rw [hu.totalToSend]
    exact hburst
  · show segmentsFrom cfg (n + 1) j ++ _ = _
    exact List.append_nil _

lemma Underway.rounds (h : Underway cfg n g j false x)
    (hchannel : cfg.channel = .reliableFifo) (hW : 2 ≤ cfg.receivingWindowSize)
    (hrange : cfg.totalNumSegments + cfg.receivingWindowSize < 2 ^ 31)
    (hfits : n + j ≤ cfg.totalNumSegments) (now : TimeVal) :
    ∃ es y last, Leads cfg x es y ∧ Underway cfg (n + j) (g + j) 0 last y ∧
      (n + j < cfg.totalNumSegments → last = false) := by
  induction j generalizing n g x with
  | zero => exact ⟨[], x, false, .refl cfg x, h, fun _ => rfl⟩
  | succ j ih =>
    obtain ⟨es, y, hes, hy⟩ := h.round hchannel hW hrange (by omega) now
    cases j with
    | zero =>
      refine ⟨es, y, _, hes, hy, fun hmore => ?_⟩
      rw [decide_eq_false_iff_not]
      omega
    | succ j =>
      have hmore : decide (cfg.totalNumSegments ≤ n + 1) = false := by
        rw [decide_eq_false_iff_not]
        omega
      rw [hmore] at hy
      obtain ⟨fs, z, last, hfs, hz, hlast⟩ := ih hy (by omega)
      have hn : n + 1 + (j + 1) = n + (j + 1 + 1) := by omega
      have hg : g + 1 + (j + 1) = g + (j + 1 + 1) := by omega
      rw [hn, hg] at hz
      exact ⟨es ++ fs, z, last, hes.trans hfs, hz, fun hlt => hlast (by omega)⟩

lemma Underway.top {last : Bool}
    (h : Underway cfg (sentBy cfg.receivingWindowSize k + burstAt cfg.receivingWindowSize k)
      (2 ^ k + burstAt cfg.receivingWindowSize k) 0 last x)
    (hlast : sentBy cfg.receivingWindowSize (k + 1) < cfg.totalNumSegments → last = false)
    (now : TimeVal) :
    ∃ y, Leads cfg x [.server (.go now) fun _ => blank 0] y ∧ AtTop cfg (k + 1) y := by
  have hlt := cfg.window_lt
  have hstate : x.sender.state = .cycleEnd := by simpa using h.state
  have hstep : x.sender.step cfg.server (.go now) =
      some (Sender.disarm
        { x.sender with lastAdvtWindow := toSigned x.sender.ack.advtWindow } now .top, []) := by
    simp only [Sender.step, hstate]
  -- `cwindow` has doubled, as far as the client's window goes
  have hdouble : min (2 ^ k + burstAt cfg.receivingWindowSize k) (cfg.receivingWindowSize - 1) =
      burstAt cfg.receivingWindowSize (k + 1) := by
    simp only [burstAt, pow_succ]
    omega
  have hserver : Sender.InStep cfg.receivingWindowSize (sentBy cfg.receivingWindowSize (k + 1))
      (2 ^ (k + 1)) (Sender.disarm
        { x.sender with lastAdvtWindow := toSigned x.sender.ack.advtWindow } now .top) :=
    ⟨h.server.last, h.server.ssthresh, h.server.cwindow_le, h.server.grown.trans hdouble,
      ⟨cfg.receivingWindowSize - 1, h.window rfl, by omega, by omega⟩⟩
  refine ⟨_, leads_singleton rfl (congrArg (Option.map _) hstep) (inTable_of_nil hstep),
    ⟨last, h.client, hlast⟩, hserver, hserver.burstSize hlt (h.window rfl), rfl, ?_, ?_,
    h.toServer⟩
  · show x.sender.index = _
    rw [h.index, sentBy]
    push_cast
    ring
  · show x.toClient ++ _ = _
    rw [h.toClient]
    rfl

lemma AtTop.cycle (h : AtTop cfg k x) (hchannel : cfg.channel = .reliableFifo)
    (hW : 2 ≤ cfg.receivingWindowSize)
    (hrange : cfg.totalNumSegments + cfg.receivingWindowSize < 2 ^ 31)
    (hfits : sentBy cfg.receivingWindowSize (k + 1) ≤ cfg.totalNumSegments) (now : TimeVal) :
    ∃ es y, Leads cfg x es y ∧ AtTop cfg (k + 1) y := by
  obtain ⟨u, hburst, hu⟩ := h.burst_step hW hrange hfits now
  obtain ⟨es, v, last, hrounds, hv, hlast⟩ := hu.rounds hchannel hW hrange hfits now
  obtain ⟨y, htop, hy⟩ := hv.top hlast now
  exact ⟨_, y, (hburst.trans hrounds).trans htop, hy⟩

lemma exists_atTop (hchannel : cfg.channel = .reliableFifo) (hW : 2 ≤ cfg.receivingWindowSize)
    (hrange : cfg.totalNumSegments + cfg.receivingWindowSize < 2 ^ 31) (now : TimeVal)
    (hfits : sentBy cfg.receivingWindowSize k ≤ cfg.totalNumSegments) :
    ∃ es y, Leads cfg (start cfg now) es y ∧ AtTop cfg k y := by
  induction k with
  | zero => exact ⟨[], _, .refl cfg _, atTop_start hW now⟩
  | succ k ih =>
    have hbefore := hfits
    rw [sentBy] at hbefore
    obtain ⟨es, y, hes, hy⟩ := ih (by omega)
    obtain ⟨fs, z, hfs, hz⟩ := hy.cycle hchannel hW hrange hfits now
    exact ⟨es ++ fs, z, hes.trans hfs, hz⟩

lemma fin_step (cfg : TransferConfig) (hcons : x.client.consumer = .draining)
    (hall : cfg.totalNumSegments ≤ x.client.count) :
    ∃ y, (machine cfg).step x (.client .fin) = some y ∧ y.sender = x.sender ∧
      y.client.count = x.client.count ∧ y.client.consumer ≠ .draining := by
  have hdone : ¬ x.client.count < cfg.client.consumerTotal := by
    rw [cfg.client_consumerTotal]
    omega
  have hstep : x.client.step cfg.client .fin = some ({ x.client with
      consumer := .closing ⟨.finWait1, 3, 2⟩ },
      [.close { finRecord with currentRequest := htonl cfg.client.host finRequest }]) := by
    simp only [Client.step]
    rw [if_pos ⟨hcons, hdone⟩]
  exact ⟨_, congrArg (Option.map _) hstep, rfl, rfl, by simp [afterClient]⟩

lemma AtTop.finish (h : AtTop cfg k x)
    (hall : sentBy cfg.receivingWindowSize k = cfg.totalNumSegments) (now : TimeVal) :
    ∃ es y, Leads cfg x es y ∧ y.sender.state = .leaving .index ∧
      y.client.consumer ≠ .draining ∧ y.client.count = cfg.totalNumSegments := by
  obtain ⟨last, hclient, -⟩ := h.client
  have hge : ¬ x.sender.index < cfg.server.totalNumSegments := by
    rw [h.index, cfg.server_totalNumSegments]
    omega
  have hstep : x.sender.step cfg.server (.go now) =
      some ({ x.sender with state := .leaving .index }, []) := by
    simp only [Sender.step, h.state, if_neg hge]
  set u := x.afterServer cfg (.go now) (fun _ => blank 0) x.toServer
    { x.sender with state := .leaving .index } [] with hu
  have hleave : Leads cfg x [.server (.go now) fun _ => blank 0] u :=
    leads_singleton rfl (congrArg (Option.map _) hstep) (inTable_of_nil hstep)
  have hcount : u.client.count = cfg.totalNumSegments := by
    rw [← hall]
    exact hclient.count
  obtain ⟨y, hy, hsender, hcount', hclosing⟩ := fin_step cfg (x := u) hclient.consumer hcount.ge
  refine ⟨_, y, hleave.trans (leads_singleton rfl hy trivial), ?_, hclosing, hcount'.trans hcount⟩
  rw [hsender]
  rfl

/-- A client that has taken the segments of the file, and no more, has written what arrives of
it. -/
lemma written_of_count {es : List TransferEvent} {now : TimeVal}
    (hrun : (machine cfg).run (start cfg now) es = some x)
    (hcount : x.client.count = cfg.totalNumSegments) : x.client.written = arriving cfg.file := by
  obtain ⟨fs, hraw⟩ := exists_raw_run hrun
  obtain ⟨n, hn, hout, -⟩ := out_of_run hraw
  obtain rfl : n = cfg.totalNumSegments := by omega
  have htotal : (fileStream cfg.file).total = cfg.totalNumSegments := rfl
  obtain ⟨extra, hwritten, hextra⟩ := hout.of_total_le htotal.le
  rw [htotal, Nat.sub_self, Nat.zero_mul] at hextra
  rw [hwritten, List.length_eq_zero_iff.mp hextra, List.append_nil]
  rfl

/-- If the bursts add up to the file, there is a run without a loss or a timeout in which they are
sent, the client takes them all, and the server leaves its loop at the test. -/
lemma exists_complete_run (hchannel : cfg.channel = .reliableFifo)
    (hW : 2 ≤ cfg.receivingWindowSize)
    (hrange : cfg.totalNumSegments + cfg.receivingWindowSize < 2 ^ 31)
    (hall : sentBy cfg.receivingWindowSize k = cfg.totalNumSegments) (now : TimeVal) :
    ∃ es x, Leads cfg (start cfg now) es x ∧ x.sender.state = .leaving .index ∧
      x.client.consumer ≠ .draining ∧ x.client.written = arriving cfg.file := by
  obtain ⟨es, y, hes, hy⟩ := exists_atTop hchannel hW hrange now hall.le
  obtain ⟨fs, z, hfs, hstate, hclosing, hcount⟩ := hy.finish hall now
  have hrun := hes.trans hfs
  exact ⟨es ++ fs, z, hrun, hstate, hclosing, written_of_count hrun.run hcount⟩

/-- Over a reliable channel, with a client that keeps up: the bursts grow to the window less one.
If they add up to the file, there is a run without a loss or a timeout in which every number sent
is in the table, the client writes the file as far as it arrives and starts to close, and the
server leaves its loop at the test, without `PassiveClose`.  If they do not, there is such a run up
to the last burst that fits, and the next one of the server reaches beyond the table. -/
theorem exists_lossless_run (hchannel : cfg.channel = .reliableFifo)
    (hW : 2 ≤ cfg.receivingWindowSize)
    (hrange : cfg.totalNumSegments + cfg.receivingWindowSize < 2 ^ 31) (now : TimeVal) :
    ∃ k es x, (∀ e ∈ es, calm e) ∧ (machine cfg).run (start cfg now) es = some x ∧
      (machine cfg).Along (fun x e _ => x.SendsInTable cfg e) (start cfg now) es ∧
      (sentBy cfg.receivingWindowSize k = cfg.totalNumSegments ∧
          x.sender.state = .leaving .index ∧ x.client.consumer ≠ .draining ∧
          x.client.written = arriving cfg.file ∨
        sentBy cfg.receivingWindowSize k < cfg.totalNumSegments ∧
          cfg.totalNumSegments < sentBy cfg.receivingWindowSize (k + 1) ∧
          x.sender.state = .top ∧ x.sender.index = sentBy cfg.receivingWindowSize k ∧
          x.sender.burstSize = burstAt cfg.receivingWindowSize k ∧
          x.client.written =
            (arriving cfg.file).take (sentBy cfg.receivingWindowSize k * 508)) := by
  obtain ⟨k, hle, hlt⟩ := exists_sentBy hW cfg.totalNumSegments
  rcases hle.eq_or_lt with hall | hmore
  · obtain ⟨es, x, hrun, hend⟩ := exists_complete_run hchannel hW hrange hall now
    exact ⟨k, es, x, hrun.calm, hrun.run, hrun.inTable, Or.inl ⟨hall, hend⟩⟩
  · obtain ⟨es, x, hrun, htop⟩ := exists_atTop hchannel hW hrange now hle
    obtain ⟨fs, hraw⟩ := exists_raw_run hrun.run
    obtain ⟨n, hcount, hout, -⟩ := out_of_run hraw
    obtain ⟨last, hclient, -⟩ := htop.client
    have hn : n = sentBy cfg.receivingWindowSize k := by
      have := hclient.count
      omega
    rw [hn] at hout
    exact ⟨k, es, x, hrun.calm, hrun.run, hrun.inTable, Or.inr ⟨hmore, hlt, htop.state, htop.index,
      htop.burst, hout.eq_take hle⟩⟩

/-- Nine segments and a window of four: the bursts are of `1`, `2`, `3` and `3` segments. -/
def nineSegments : TransferConfig := .zeros 4500 4 .reliableFifo (by decide)

theorem exists_lossless_run_nineSegments :
    ∃ es x, (∀ e ∈ es, calm e) ∧
      (machine nineSegments).run (start nineSegments ⟨0, 0⟩) es = some x ∧
      (machine nineSegments).Along (fun x e _ => x.SendsInTable nineSegments e)
        (start nineSegments ⟨0, 0⟩) es ∧
      x.sender.state = .leaving .index ∧ x.client.consumer ≠ .draining ∧
      x.client.written = arriving nineSegments.file := by
  have hlength : nineSegments.file.length = 4500 := List.length_replicate
  have htotal : nineSegments.totalNumSegments = 9 := by
    rw [TransferConfig.totalNumSegments, hlength]
  have hrange : nineSegments.totalNumSegments + nineSegments.receivingWindowSize < 2 ^ 31 := by
    rw [htotal]
    decide
  obtain ⟨k, es, x, hcalm, hrun, htable, ⟨-, hend⟩ | ⟨hless, hmore, -⟩⟩ :=
    exists_lossless_run rfl (show 2 ≤ 4 by decide) hrange ⟨0, 0⟩
  · exact ⟨es, x, hcalm, hrun, htable, hend⟩
  · rw [htotal] at hless hmore
    have hk : k < 9 := (le_sentBy (show 2 ≤ 4 by decide) k).trans_lt hless
    have hfits : ∀ k < 9, sentBy 4 k < 9 → ¬ 9 < sentBy 4 (k + 1) := by decide
    exact absurd hmore (hfits k hk hless)

end Transfer

end TcpOverUdp
