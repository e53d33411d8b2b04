import TcpOverUdp.Congestion
import TcpOverUdp.Parties
import TcpOverUdp.CloseAgreement
import TcpOverUdp.FlowControl

namespace TcpOverUdp
open CWord

namespace Sender

variable {cfg : ServerConfig} {s t : Sender} {e : SenderEvent} {outs : List SenderOut} {bound : ℕ}

/-- The windows of the server, with a peer that advertises at most `bound`. -/
structure Capped (bound : ℕ) (s : Sender) : Prop where
  window : ∃ w : Word, s.lastAdvtWindow = toSigned w ∧ w.toNat ≤ bound
  cwindow_pos : 0 < s.cwindow.toNat
  cwindow_le : s.cwindow.toNat ≤ max 5 bound

lemma Capped.advertised (h : Capped bound s) : s.advertised ≤ bound := by
  obtain ⟨w, hw, hle⟩ := h.window
  rwa [advertised_eq hw]

lemma Capped.step (h : Capped bound s) (hmove : Moves cfg s e t outs)
    (hack : t.lastAdvtWindow ≠ s.lastAdvtWindow → t.ack.advtWindow.toNat ≤ bound)
    (hover : s.state = .reading → ∀ r now, e = .read r now →
      (r.over s.ack).advtWindow.toNat ≤ bound) : Capped bound t := by
  have hcontrol := hmove.congestion
  have hpeers : ∀ w ∈ CongestionSignal.peers (s.signals e), w ≤ max 5 bound :=
    fun w hw => le_max_of_le_right (peers_signals_le h.advertised hover w hw)
  refine ⟨?_, CongestionControl.cwnd_pos_of_run h.cwindow_pos hcontrol,
    CongestionControl.cwnd_le_of_run h.cwindow_le (le_max_left 5 bound) hpeers hcontrol⟩
  by_cases hsame : t.lastAdvtWindow = s.lastAdvtWindow
  · rw [hsame]
    exact h.window
  · obtain ⟨heq, -⟩ := hmove.lastAdvtWindow.resolve_left hsame
    exact ⟨t.ack.advtWindow, heq, hack hsame⟩

lemma Capped.burstSize_le (h : Capped bound s) : s.burstSize.toNat ≤ bound := by
  obtain ⟨w, hw, hle⟩ := h.window
  exact (Transfer.burstSize_le hw).trans hle

end Sender

namespace Client

variable {cfg : ClientConfig} {c t : Client} {e : ClientEvent} {outs : List ClientOut} {W : ℕ}
  {b : ReceiveBuffer Segment W}

/-- No acknowledgement advertises more than the window, if a full one is computed from a number of
the window or from its right edge. -/
lemma window_of_send {lastack drop : Bool} {junk : ℕ → ℤ} {s : SlidingWindow Segment}
    {a : ClientAck}
    (hs : s.Represents b) (hhost : cfg.host = .big) (hW : W < 2 ^ 31)
    (hfull : b.missing = b.next + W → b.next ≤ junk 1 ∧ junk 1 ≤ b.next + W)
    (h : sendClientAckWithLoss cfg lastack drop junk s = .ok outs) (ha : .ack a ∈ outs) :
    a.advtWindow.toNat ≤ W := by
  rcases sendClientAckWithLoss_ok h with ⟨-, rfl⟩ | ⟨n, w, -, -, hw, rfl⟩
  · cases ha
  obtain rfl : a = _ := by simpa using ha
  simp only [SlidingWindow.availableWindowSize, bind, bind_eq_ok, checked_eq_ok, hs.size,
    hs.next] at hw
  obtain ⟨_, ⟨-, rfl⟩, m, hm, -, rfl⟩ := hw
  have hle := b.next_le_missing
  have hedge := b.missing_le_edge
  have hrange : (b.next : ℤ) ≤ m ∧ m ≤ b.next + W := by
    rcases hs.nextAckIndexOr_cases hm with ⟨rfl, -⟩ | ⟨rfl, hmissing⟩
    · omega
    · exact hfull hmissing
  have hnat := toNat_toUnsigned (x := W + b.next - m) (by omega) (by omega)
  simp only [hhost, htonl_big]
  omega

lemma window_le_of_step (hhost : cfg.host = .big) (hcfg : cfg.receivingWindowSize = W)
    (hW : W < 2 ^ 31) (hb : c.recv.Follows b)
    (hfull : ∀ n ∈ e.fullWindow, c.recv.window.currentIndex ≤ n ∧ n ≤ c.edge)
    (hstep : c.step cfg e = some (t, outs)) :
    (∃ b' : ReceiveBuffer Segment W, t.recv.Follows b') ∧
      ∀ o ∈ outs, o.record.IsData → o.record.advtWindow.toNat ≤ W := by
  obtain ⟨b', hb', -⟩ := step_follows hb hstep
  refine ⟨⟨b', hb'⟩, fun o ho hdata => ?_⟩
  cases o with
  | close a =>
    -- the records of the close are not of data, whatever window they give
    rcases close_records hb hhost hstep ho with rfl | ⟨ack, -, -, rfl⟩
    · exact absurd rfl hdata.1
    · exact absurd rfl hdata.2
  | ack a =>
    rw [edge_eq hb, hb.represents.next] at hfull
    have hclose : ¬ ∀ o ∈ outs, ∃ a, o = ClientOut.close a := by
      intro hall
      obtain ⟨a', ha'⟩ := hall _ ho
      cases ha'
    cases step_sections hstep with
    | producer _ hsection =>
      rcases producerSection_cases hsection with ⟨-, -, rfl⟩ | ⟨s, n, -, hadd, hsend, -, -⟩
      · cases ho
      · obtain ⟨u, hu, hnext, -, -⟩ := hb.exists_afterAdd hadd
        refine window_of_send hu.represents hhost hW (fun _ => ?_) hsend ho
        rw [hnext]
        exact hfull _ rfl
    | lastAck _ hsend => exact window_of_send hb.represents hhost hW (fun _ => hfull _ rfl) hsend ho
    | consumer _ _ hsection =>
      obtain ⟨w, -, hdrain, rfl | ⟨-, -, hsend⟩⟩ := consumerSection_cases hsection
      · cases ho
      · obtain ⟨u, hd⟩ := drain_drained hb hdrain
        rw [hcfg, Int.toNat_natCast] at hd
        refine window_of_send hd.follows.represents hhost hW (fun hmissing => ?_) hsend ho
        -- the fetches have emptied the window
        have hpos := hb.represents.pos
        have hle := b.missing_le_edge
        have := hd.next_eq (by omega)
        have := hd.missing_eq
        omega
    | fin => simp at ho
    | closeRead _ _ houts => exact absurd houts hclose
    | closeTimeout _ _ houts => exact absurd houts hclose

end Client

namespace Transfer

variable {cfg : TransferConfig} {x y : Transfer} {e : TransferEvent × (ℕ → ℤ)}

/-- The records of data, in flight or heard, advertise no more than the window of the client, and
the server keeps to it as long as it hears no other records. -/
structure Windowed (cfg : TransferConfig) (x : Transfer) : Prop where
  heardInv : HeardInv cfg x
  follows : ∃ b : ReceiveBuffer Segment cfg.receivingWindowSize, x.client.recv.Follows b
  flight : ∀ a ∈ x.toServer, a.IsData → a.advtWindow.toNat ≤ cfg.receivingWindowSize
  heard : ∀ a ∈ x.heard, a.IsData → a.advtWindow.toNat ≤ cfg.receivingWindowSize
  capped : (∀ a ∈ x.heard, a.IsData) → x.sender.Capped cfg.receivingWindowSize

lemma windowed_start (now : TimeVal) : Windowed cfg (start cfg now) where
  heardInv := heardInv_start now
  follows := ⟨_, Client.start_follows cfg.window_pos rfl⟩
  flight := by simp [start]
  heard := by simp [start, Transfer.heard]
  capped _ := by
    have hlt := cfg.window_lt
    have hnat := toNat_toUnsigned (x := cfg.receivingWindowSize) (by omega) (by omega)
    exact ⟨⟨toUnsigned cfg.receivingWindowSize, rfl, by omega⟩, Nat.one_pos,
      le_max_of_le_left (show 1 ≤ 5 by decide)⟩

lemma Fresh.lastAdvtWindow {s t : Sender} {e : SenderEvent} {outs : List SenderOut}
    (h : Fresh cfg s) (hread : e.reads = false) (hmove : Sender.Moves cfg.server s e t outs) :
    t.lastAdvtWindow = s.lastAdvtWindow := by
  rcases hmove.lastAdvtWindow with heq | ⟨-, ⟨hend, -⟩ | hack⟩
  · exact heq
  · simp [Fresh, hend] at h
  · cases e with
    | read r now => cases hread
    | _ => cases hack

lemma Windowed.afterServer {e : SenderEvent} {bufs : ℕ → Payload} {rest : List ClientAck}
    {t : Sender} {outs : List SenderOut} (h : Windowed cfg x)
    (hmove : Sender.Moves cfg.server x.sender e t outs)
    (hheard : (x.afterServer cfg e bufs rest t outs).heard = x.heard ++ x.sender.heard e)
    (hinv : HeardInv cfg (x.afterServer cfg e bufs rest t outs))
    (hflight : ∀ a ∈ x.sender.heard e, a ∈ x.toServer) (hrest : ∀ a ∈ rest, a ∈ x.toServer)
    (hfresh : x.heard ++ x.sender.heard e = [] → t.lastAdvtWindow = x.sender.lastAdvtWindow)
    (hover : x.sender.state = .reading → ∀ r now, e = .read r now →
      r.over x.sender.ack ∈ x.sender.heard e) :
    Windowed cfg (x.afterServer cfg e bufs rest t outs) where
  heardInv := hinv
  follows := h.follows
  flight a ha := h.flight a (hrest a ha)
  heard a ha := by
    rw [hheard] at ha
    exact (List.mem_append.mp ha).elim (h.heard a) fun hnew => h.flight a (hflight a hnew)
  capped hdata := by
    rw [hheard] at hdata
    have hnew : ∀ a ∈ x.sender.heard e, a.advtWindow.toNat ≤ cfg.receivingWindowSize :=
      fun a ha => h.flight a (hflight a ha) (hdata a (List.mem_append_right _ ha))
    refine (h.capped fun a ha => hdata a (List.mem_append_left _ ha)).step hmove
      (fun hne => ?_) fun hs r now he => hnew _ (hover hs r now he)
    -- something has been heard, and `ack` holds the last of it
    obtain ⟨a, ha⟩ : ∃ a, (x.heard ++ x.sender.heard e).getLast? = some a := by
      rw [← Option.isSome_iff_exists, List.getLast?_isSome]
      exact fun hnil => hne (hfresh hnil)
    have hack : (x.afterServer cfg e bufs rest t outs).sender.ack = a := by
      rw [hinv.ack, hheard, Sender.lastHeard, ha, Option.getD_some]
    rw [hack]
    rcases List.mem_append.mp (List.mem_of_getLast? ha) with hold | hnow
    · exact h.heard a hold (hdata a (List.mem_append_left _ hold))
    · exact hnew a hnow

lemma HeardInv.rawStep (h : HeardInv cfg x) (hstep : x.rawStep cfg e = some y) :
    HeardInv cfg y := by
  obtain ⟨e, junk⟩ := e
  cases rawStep_moves hstep with
  | serve hread hmove =>
    exact h.afterServer hmove (heard_serve_append hread)
      fun hnil _ => (h.fresh hnil).serve hread hmove
  | read hrecv hmove =>
    refine h.afterServer hmove heard_read fun hnil hnone => ?_
    rw [(h.fresh hnil).heard_ne_nil hmove] at hnone
    cases hnone
  | act => exact ⟨h.index, h.ack, h.fresh, h.window⟩
  | closeRead => exact ⟨h.index, h.ack, h.fresh, h.window⟩
  | skip => exact ⟨h.index, h.ack, h.fresh, h.window⟩

/-- The call of `SlidingWindowGetNextAckIndex` for the window of an acknowledgement, where it ends
without a return, gives a number of the window or its right edge. -/
def LeavesInWindow (x : Transfer) (e : TransferEvent × (ℕ → ℤ)) : Prop :=
  ∀ n ∈ e.1.fullWindow e.2, x.client.recv.window.currentIndex ≤ n ∧ n ≤ x.client.edge

instance (x : Transfer) (e : TransferEvent × (ℕ → ℤ)) : Decidable (x.LeavesInWindow e) :=
  inferInstanceAs (Decidable (∀ n ∈ e.1.fullWindow e.2, _))

lemma Windowed.afterClient {e : ClientEvent} {rest : List Datagram} {t : Client}
    {outs : List ClientOut} (h : Windowed cfg x)
    (hfull : ∀ n ∈ e.fullWindow, x.client.recv.window.currentIndex ≤ n ∧ n ≤ x.client.edge)
    (hinv : HeardInv cfg (x.afterClient rest t outs))
    (hstep : x.client.step cfg.client e = some (t, outs)) :
    Windowed cfg (x.afterClient rest t outs) := by
  obtain ⟨b, hb⟩ := h.follows
  obtain ⟨hfollows, houts⟩ := Client.window_le_of_step rfl rfl cfg.window_lt hb hfull hstep
  refine ⟨hinv, hfollows, fun a ha hdata => ?_, h.heard, h.capped⟩
  rcases List.mem_append.mp ha with ha | ha
  · exact h.flight a ha hdata
  · obtain ⟨o, ho, rfl⟩ := List.mem_map.mp ha
    exact houts o ho hdata

theorem Windowed.rawStep (h : Windowed cfg x) (hfull : x.LeavesInWindow e)
    (hstep : x.rawStep cfg e = some y) : Windowed cfg y := by
  have hinv := h.heardInv.rawStep hstep
  obtain ⟨e, junk⟩ := e
  cases rawStep_moves hstep with
  | serve hread hmove =>
    have hnone := heard_of_not_reads (s := x.sender) hread
    refine h.afterServer hmove (heard_serve_append hread) hinv (by simp [hnone])
      (fun _ ha => ha) (fun hnil => ?_) fun _ r now he => ?_
    · rw [hnone, List.append_nil] at hnil
      exact (h.heardInv.fresh hnil).lastAdvtWindow hread hmove
    · rw [he] at hread
      cases hread
  | @read i now bufs junk a rest t outs hrecv hmove =>
    obtain ⟨hmem, hrest⟩ := Discipline.mem_of_receive hrecv
    refine h.afterServer hmove heard_read hinv
      (fun b hb => mem_heard_complete hb ▸ hmem) hrest (fun hnil => ?_) fun hs r now' he => ?_
    · obtain ⟨hold, hnew⟩ := List.append_eq_nil_iff.mp hnil
      rw [(h.heardInv.fresh hold).heard_ne_nil hmove] at hnew
      cases hnew
    · obtain ⟨rfl, rfl⟩ := SenderEvent.read.inj he
      simp [Sender.heard, hs]
  | act hside hother hreads hrequest hrest hact hwindow =>
    exact h.afterClient (fun n hn => hfull n (hwindow ▸ hn)) hinv hact
  | closeRead hrecv hact => exact h.afterClient (by simp [ClientEvent.fullWindow]) hinv hact
  | skip => exact ⟨hinv, h.follows, h.flight, h.heard, h.capped⟩

def learnt (cfg : TransferConfig) (now : TimeVal) (es : List (TransferEvent × (ℕ → ℤ))) :
    List CongestionSignal :=
  Sender.signalsIn cfg.server (Sender.start cfg.server now)
    ((rawMachine cfg).trace (serverEvents cfg) (start cfg now) es)

/-- In every run of a transfer in which the server hears acknowledgements of data only, and those
of a full window are computed from a number of the window or from its right edge: `ssthresh` is the
window of the client halved once for each timeout, but not below two; `cwindow` is at least one,
and at most the window of the client or five; and no burst is longer than that window. -/
theorem congestion_within_window {now : TimeVal} {es : List (TransferEvent × (ℕ → ℤ))}
    (hfull : (rawMachine cfg).Along (fun x e _ => x.LeavesInWindow e) (start cfg now) es)
    (hrun : (rawMachine cfg).run (start cfg now) es = some x) (hdata : ∀ a ∈ x.heard, a.IsData) :
    x.sender.ssthresh.toNat = CongestionControl.threshold 2 cfg.receivingWindowSize
        ((learnt cfg now es).count .timeout) ∧
      1 ≤ x.sender.cwindow.toNat ∧ x.sender.cwindow.toNat ≤ max 5 cfg.receivingWindowSize ∧
      x.sender.burstSize.toNat ≤ cfg.receivingWindowSize := by
  have hwindowed : Windowed cfg x :=
    Machine.run_invariant_along (M := rawMachine cfg) (fun _ _ _ h hfull hstep =>
      h.rawStep hfull hstep) (windowed_start now) hfull hrun
  have hcapped := hwindowed.capped hdata
  refine ⟨?_, hcapped.cwindow_pos, hcapped.cwindow_le, hcapped.burstSize_le⟩
  obtain ⟨_, _, hcontrol, rfl, rfl⟩ := (simulation_sender cfg).comp
    (Sender.simulation_congestion cfg.server) rfl rfl hrun
  have hlt := cfg.window_lt
  have hnat := toNat_toUnsigned (x := cfg.receivingWindowSize) (by omega) (by omega)
  have hstart : (Sender.start cfg.server now).congestion.ssthresh = cfg.receivingWindowSize := by
    show (toUnsigned (cfg.receivingWindowSize : ℤ)).toNat = _
    omega
  rw [← hstart]
  exact CongestionControl.ssthresh_of_run hcontrol

def threeSegments : TransferConfig := .zeros 1020 4 .unreliable (by decide)

/-- The first segment is sent again when the timer expires; its acknowledgement opens the next
burst. -/
def expiredOnce : List (TransferEvent × (ℕ → ℤ)) :=
  [.server (.go ⟨0, 0⟩) fun _ _ => 0, .server .alarm fun _ _ => 0, .producerRead 0 false false,
    .serverRead 0 ⟨0, 0⟩ fun _ _ => 0, .server (.go ⟨0, 0⟩) fun _ _ => 0,
    .server (.go ⟨0, 0⟩) fun _ _ => 0].map fun e => (e, fun _ => 4)

theorem congestion_within_window_expiredOnce :
    ∃ x, (rawMachine threeSegments).run (start threeSegments ⟨0, 0⟩) expiredOnce = some x ∧
      x.heard = [⟨1, 3, 0⟩] ∧ (learnt threeSegments ⟨0, 0⟩ expiredOnce).count .timeout = 1 ∧
      x.sender.ssthresh.toNat = CongestionControl.threshold 2 threeSegments.receivingWindowSize
        ((learnt threeSegments ⟨0, 0⟩ expiredOnce).count .timeout) ∧
      1 ≤ x.sender.cwindow.toNat ∧
      x.sender.cwindow.toNat ≤ max 5 threeSegments.receivingWindowSize ∧
      x.sender.burstSize.toNat ≤ threeSegments.receivingWindowSize := by
  have hobs : ((rawMachine threeSegments).run (start threeSegments ⟨0, 0⟩) expiredOnce).map heard =
      some [⟨1, 3, 0⟩] := by decide +kernel
  obtain ⟨x, hx, hheard⟩ := Option.map_eq_some_iff.mp hobs
  have hdata : ∀ a ∈ x.heard, a.IsData := by
    rw [hheard]
    decide
  exact ⟨x, hx, hheard, by decide +kernel, congestion_within_window (by decide +kernel) hx hdata⟩

end Transfer

end TcpOverUdp
