import TcpOverUdp.Sender
import TcpOverUdp.Lib.Machine

namespace TcpOverUdp
open CWord

lemma ServerConfig.totalNumSegments_lt (cfg : ServerConfig) : cfg.totalNumSegments < 2 ^ 31 := by
  have := cfg.fileLength_lt
  rw [totalNumSegments, getSegmentCount_eq _ cfg.fileLength_lt]
  omega

lemma toSigned_mem_iff (w : Word) {n : ℤ} (hn : n ≤ 2 ^ 31) :
    (0 ≤ toSigned w ∧ toSigned w < n) ↔ (w.toNat : ℤ) < n := by
  by_cases hw : w.toNat < 2 ^ 31
  · rw [toSigned_of_lt hw]
    omega
  · simp only [toSigned, BitVec.toInt]
    omega

namespace Sender

def hearing (cfg : ServerConfig) : Machine (Sender × List ClientAck) SenderEvent :=
  ⟨fun x e => (x.1.step cfg e).map fun (t, _) => (t, x.2 ++ x.1.heard e)⟩

def lastHeard (cfg : ServerConfig) (heard : List ClientAck) : ClientAck :=
  heard.getLast?.getD cfg.uninitialisedAck

lemma lastHeard_append (cfg : ServerConfig) (heard rest : List ClientAck) :
    lastHeard cfg (heard ++ rest) = rest.getLast?.getD (lastHeard cfg heard) := by
  rw [lastHeard, List.getLast?_append]
  cases rest.getLast? <;> rfl

/-- Every segment the step sends is in the table. -/
def InTable (cfg : ServerConfig) (x : Sender × List ClientAck) (e : SenderEvent) : Prop :=
  ∀ t outs n, x.1.step cfg e = some (t, outs) → .segment n ∈ outs →
    0 ≤ n ∧ n < cfg.totalNumSegments

/-- A burst is no longer than what remains of the file, and when the segment asked for last
is sent, the record heard last, that of this step included, asks for a segment of the file. -/
def Fits (cfg : ServerConfig) (x : Sender × List ClientAck) (e : SenderEvent) : Prop :=
  (x.1.state = .top → x.1.index < cfg.totalNumSegments →
      x.1.index + x.1.burstSize.toNat ≤ cfg.totalNumSegments) ∧
    (x.1.Resends e → (lastHeard cfg (x.2 ++ x.1.heard e)).currentRequest.toNat <
      cfg.totalNumSegments)

/-- The counters are in range, and `ack` is the record heard last. -/
structure IndexInv (cfg : ServerConfig) (x : Sender × List ClientAck) : Prop where
  ack : x.1.ack = lastHeard cfg x.2
  index : 0 ≤ x.1.index
  lastAckReceived : InInt x.1.lastAckReceived

lemma indexInv_start (cfg : ServerConfig) (now : TimeVal) : IndexInv cfg (start cfg now, []) where
  ack := rfl
  index := le_rfl
  lastAckReceived := by
    show InInt (-1)
    decide

lemma hearing_step {cfg : ServerConfig} {x y : Sender × List ClientAck} {e : SenderEvent}
    (h : (hearing cfg).step x e = some y) :
    ∃ outs, x.1.step cfg e = some (y.1, outs) ∧ y.2 = x.2 ++ x.1.heard e := by
  obtain ⟨⟨t, outs⟩, hstep, rfl⟩ := Option.map_eq_some_iff.mp h
  exact ⟨outs, hstep, rfl⟩

lemma IndexInv.step {cfg : ServerConfig} {x y : Sender × List ClientAck} {e : SenderEvent}
    (h : IndexInv cfg x) (hstep : (hearing cfg).step x e = some y) : IndexInv cfg y := by
  obtain ⟨outs, hstep, hheard⟩ := hearing_step hstep
  have hmoves := step_moves hstep
  obtain ⟨hindex, hlast⟩ := hmoves.counters
  refine ⟨?_, ?_, ?_⟩
  · rw [hheard, lastHeard_append, ← h.ack]
    exact hmoves.ack_eq
  · have := h.index
    omega
  · rcases hlast with hlast | hlast
    · exact hlast ▸ h.lastAckReceived
    · rw [hlast]
      exact toSigned_inInt _

/-- In one step, the segments sent are in the table exactly when the burst fits and the
record heard last asks for a segment of the file. -/
lemma IndexInv.inTable_iff {cfg : ServerConfig} {x y : Sender × List ClientAck}
    {e : SenderEvent} (h : IndexInv cfg x) (hstep : (hearing cfg).step x e = some y) :
    InTable cfg x e ↔ Fits cfg x e := by
  have hindex := h.index
  obtain ⟨outs, hstep', hheard⟩ := hearing_step hstep
  have hy := (h.step hstep).ack
  have hmoves := step_moves hstep'
  have hall : InTable cfg x e ↔ ∀ n, .segment n ∈ outs → 0 ≤ n ∧ n < cfg.totalNumSegments := by
    constructor
    · exact fun hin n hn => hin _ _ n hstep' hn
    · intro hin t outs' n ht hn
      obtain ⟨-, rfl⟩ := Prod.mk.inj (Option.some.inj (hstep'.symm.trans ht))
      exact hin n hn
  rw [hall]
  by_cases htop : x.1.state = .top
  · obtain ⟨hnone, ⟨hlt, rfl⟩ | ⟨hge, rfl⟩⟩ := hmoves.of_top htop
    · simp only [Fits, htop, hlt, hnone, true_implies, false_implies, and_true, List.mem_map,
        List.mem_range, SenderOut.segment.injEq]
      constructor
      · intro hin
        by_contra hgt
        have hlast := hin (x.1.index + (x.1.burstSize.toNat - 1 : ℕ)) ⟨_, by omega, rfl⟩
        omega
      · rintro hfit n ⟨i, hi, rfl⟩
        omega
    · simp [Fits, htop, hnone, not_lt.mpr hge]
  · have hmem := hmoves.segment_mem_iff h.lastAckReceived htop
    simp only [hmem, Fits, htop, false_implies, true_and, ← hheard, ← hy]
    have hrange := toSigned_mem_iff y.1.ack.currentRequest
      (le_of_lt cfg.totalNumSegments_lt)
    constructor
    · exact fun hall hr => hrange.mp (hall _ ⟨hr, rfl⟩)
    · rintro hall n ⟨hr, rfl⟩
      exact hrange.mpr (hall hr)

/-- Over a whole run, every segment sent is an entry of the table if and only if every burst
fits in what remains of the file and every segment sent again is asked for by a record, heard
last, that asks for a segment of the file. -/
theorem inTable_iff_fits (cfg : ServerConfig) (now : TimeVal) (es : List SenderEvent) :
    (hearing cfg).Along (fun x e _ => InTable cfg x e) (start cfg now, []) es ↔
      (hearing cfg).Along (fun x e _ => Fits cfg x e) (start cfg now, []) es :=
  Machine.along_congr (P := IndexInv cfg) (fun _ _ _ h hstep => h.step hstep)
    (fun _ _ _ h hstep => h.inTable_iff hstep) (indexInv_start cfg now) es

/-- A file of two segments and a window of four: the acknowledgement of segment `0` doubles
the congestion window, and the next burst sends the segments `1` and `2`. -/
theorem not_inTable_burst :
    ∃ x, (hearing ⟨.big, .bits64, 1000, by decide, 4, ⟨0, 0, 0⟩, true⟩).run
        (start ⟨.big, .bits64, 1000, by decide, 4, ⟨0, 0, 0⟩, true⟩ ⟨0, 0⟩, [])
        [.go ⟨0, 0⟩, .read (.complete ⟨1, 3, 0⟩) ⟨0, 0⟩, .go ⟨0, 0⟩] = some x ∧
      ¬ InTable ⟨.big, .bits64, 1000, by decide, 4, ⟨0, 0, 0⟩, true⟩ x (.go ⟨0, 0⟩) := by
  refine ⟨_, rfl, fun h => ?_⟩
  have hlt := (h _ _ 2 rfl (by decide)).2
  exact absurd hlt (by decide)

end Sender

end TcpOverUdp
