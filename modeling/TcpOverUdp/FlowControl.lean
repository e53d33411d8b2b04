import TcpOverUdp.Transfer

namespace TcpOverUdp
open CWord

def ClientAck.IsData (a : ClientAck) : Prop :=
  a.currentRequest ≠ finRequest ∧ a.currentRequest ≠ ackRequest

instance (a : ClientAck) : Decidable a.IsData := inferInstanceAs (Decidable (_ ∧ _))

namespace Transfer

variable {cfg : TransferConfig} {x y : Transfer} {e : TransferEvent}

/-- The largest right edge among the acknowledgements of data the server has heard, and the
original window of the client before the first of them. -/
def advertised (cfg : TransferConfig) (x : Transfer) : ℕ :=
  ((x.heard.filter fun a => a.IsData).map ClientAck.rightEdge).max?.getD cfg.receivingWindowSize

/-- Every segment of a burst lies below the advertised edge. -/
def WithinAdvertised (cfg : TransferConfig) (x : Transfer) (e : TransferEvent) : Prop :=
  ∀ now bufs t outs (n : ℤ), e = .server (.go now) bufs → x.sender.state = .top →
    x.sender.step cfg.server (.go now) = some (t, outs) → .segment n ∈ outs →
    n < x.advertised cfg

/-- A burst after the first record starts where the record heard last asks for data, or
below. -/
def StartsAtRequest (cfg : TransferConfig) (x : Transfer) : TransferEvent → Prop
  | .server (.go _) _ => x.sender.state = .top → x.sender.index < cfg.totalNumSegments →
      ∀ a ∈ x.heard.getLast?, a.IsData ∧ x.sender.index ≤ a.currentRequest.toNat
  | _ => True

instance (cfg : TransferConfig) (x : Transfer) : ∀ e, Decidable (StartsAtRequest cfg x e)
  | .server (.go _) _ => inferInstanceAs (Decidable (_ = _ → _ < _ → ∀ a ∈ _, _ ∧ _))
  | .server (.read ..) _ | .server .timeout _ | .server .alarm _ | .serverRead .. | .client _
  | .producerRead .. | .closeRead _ => inferInstanceAs (Decidable True)

lemma burstSize_le {s : Sender} {w : Word} (h : s.lastAdvtWindow = toSigned w) :
    s.burstSize.toNat ≤ w.toNat := by
  have hsigned : ∀ v : Word, (toSigned v).toNat ≤ v.toNat := by
    intro v
    simp only [toSigned, BitVec.toInt]
    omega
  unfold Sender.burstSize
  split_ifs with hlt
  · rw [h]
    exact hsigned w
  · rw [h, toUnsigned_toSigned, BitVec.not_lt, BitVec.le_def] at hlt
    exact (hsigned s.cwindow).trans hlt

lemma rightEdge_le_advertised {a : ClientAck} (ha : a ∈ x.heard) (hdata : a.IsData) :
    a.rightEdge ≤ x.advertised cfg := by
  apply List.le_max?_getD_of_mem
  apply List.mem_map_of_mem
  simpa [List.mem_filter] using ⟨ha, hdata⟩

lemma HeardInv.withinAdvertised (h : HeardInv cfg x) (hstart : StartsAtRequest cfg x e) :
    WithinAdvertised cfg x e := by
  rintro now bufs t outs n rfl htop hstep hn
  obtain ⟨-, ⟨hlt, rfl⟩ | ⟨-, rfl⟩⟩ := (Sender.step_moves hstep).of_top htop
  · rw [cfg.server_totalNumSegments] at hlt
    obtain ⟨i, hi, hin⟩ := List.mem_map.mp hn
    rw [List.mem_range] at hi
    obtain rfl : x.sender.index + i = n := by simpa using hin
    cases hlast : x.heard.getLast? with
    | none =>
      have hnil : x.heard = [] := List.getLast?_eq_none_iff.mp hlast
      rcases h.fresh hnil with ⟨-, hindex, hwin⟩ | hr | ⟨r, hr⟩ | ⟨r, hr⟩
      · have hW := cfg.window_lt
        have hsize := burstSize_le (w := toUnsigned cfg.receivingWindowSize)
          (hwin.trans (toSigned_toUnsigned ⟨by omega, by omega⟩).symm)
        have hnat := toNat_toUnsigned (x := cfg.receivingWindowSize) (by omega) (by omega)
        simp only [advertised, hnil, List.filter_nil, List.map_nil, List.max?_nil,
          Option.getD_none]
        omega
      · simp [hr] at htop
      · simp [hr] at htop
      · simp [hr] at htop
    | some a =>
      obtain ⟨hdata, hle⟩ := hstart htop hlt a hlast
      have hedge : a.rightEdge ≤ x.advertised cfg :=
        rightEdge_le_advertised (List.mem_of_getLast? hlast) hdata
      have hsize := burstSize_le (h.window htop a hlast)
      unfold ClientAck.rightEdge at hedge
      omega
  · cases hn

/-- Along a run in which every burst starts no later than the record heard last asks for, no
new data goes beyond what the client has advertised. -/
theorem withinAdvertised_of_startsAtRequest {now : TimeVal} {es : List TransferEvent}
    (h : (machine cfg).Along (fun x e _ => StartsAtRequest cfg x e) (start cfg now) es) :
    (machine cfg).Along (fun x e _ => WithinAdvertised cfg x e) (start cfg now) es :=
  Machine.along_imp (P := HeardInv cfg) (fun _ _ _ hx hstep => hx.step hstep)
    (fun _ _ _ hx _ hstart => hx.withinAdvertised hstart) (heardInv_start now) h

theorem withinAdvertised_two_bursts :
    (machine (.zeros 1020 4 .unreliable (by decide))).Along
      (fun x e _ => WithinAdvertised (.zeros 1020 4 .unreliable (by decide)) x e)
      (start (.zeros 1020 4 .unreliable (by decide)) ⟨0, 0⟩)
      [.server (.go ⟨0, 0⟩) fun _ _ => 0, .producerRead 0 false false,
        .serverRead 0 ⟨0, 0⟩ fun _ _ => 0, .server (.go ⟨0, 0⟩) fun _ _ => 0,
        .server (.go ⟨0, 0⟩) fun _ _ => 0] :=
  withinAdvertised_of_startsAtRequest (by decide +kernel)

/-- Three segments and a window of two.  Segments `0` and `1` fill the window, and the server
enters its probe on the acknowledgement that says so; a copy of the first acknowledgement,
which asks for segment `1` with room for one, ends the probe.  The next burst sends segment
`2`, for which nobody has advertised room. -/
theorem not_withinAdvertised_stale :
    ∃ x, (machine (.zeros 1020 2 .unreliable (by decide))).run
        (start (.zeros 1020 2 .unreliable (by decide)) ⟨0, 0⟩)
        [.server (.go ⟨0, 0⟩) fun _ _ => 0, .producerRead 0 false false,
          .serverRead 0 ⟨0, 0⟩ fun _ _ => 0, .server (.go ⟨0, 0⟩) fun _ _ => 0,
          .server (.go ⟨0, 0⟩) fun _ _ => 0, .producerRead 1 false false,
          .serverRead 1 ⟨0, 0⟩ fun _ _ => 0, .server (.go ⟨0, 0⟩) fun _ _ => 0,
          .serverRead 0 ⟨0, 0⟩ fun _ _ => 0, .server (.go ⟨0, 0⟩) fun _ _ => 0] = some x ∧
      ¬ WithinAdvertised (.zeros 1020 2 .unreliable (by decide)) x
        (.server (.go ⟨0, 0⟩) fun _ _ => 0) := by
  have key : ∀ {cfg : TransferConfig} {r : Option Transfer},
      (r.map fun x => (x.advertised cfg, x.sender.state,
        (x.sender.step cfg.server (.go ⟨0, 0⟩)).map Prod.snd)) =
        some (2, .top, some [.segment 2]) →
      ∃ x, r = some x ∧ ¬ WithinAdvertised cfg x (.server (.go ⟨0, 0⟩) fun _ _ => 0) := by
    intro cfg r hobs
    obtain ⟨x, hx, hobs⟩ := Option.map_eq_some_iff.mp hobs
    obtain ⟨hedge, hobs⟩ := Prod.mk.inj hobs
    obtain ⟨htop, hout⟩ := Prod.mk.inj hobs
    obtain ⟨⟨t, outs⟩, hstep, rfl⟩ := Option.map_eq_some_iff.mp hout
    refine ⟨x, hx, fun h => ?_⟩
    have hlt := h ⟨0, 0⟩ _ t _ 2 rfl htop hstep (by simp)
    omega
  exact key (by decide +kernel)

end Transfer

end TcpOverUdp
