import TcpOverUdp.Rtt
import TcpOverUdp.Lib.Machine

namespace TcpOverUdp
open CWord

inductive RttEvent
  | stop (ms : Word)
  | newpack
  | timeout
  deriving DecidableEq, Repr

namespace RttInfo

def step (ptr : RttInfo) : RttEvent → RttInfo
  | .stop ms => rttStop ptr ms
  | .newpack => rttNewpack ptr
  | .timeout => (rttTimeout ptr).1

def machine : Machine RttInfo RttEvent := ⟨fun ptr e => some (ptr.step e)⟩

def Computed (ptr : RttInfo) : Prop := ptr.rto = rttMinmax (rttRtoCalc ptr)

lemma computed_rttInit (tv : TimeVal) : Computed (rttInit tv) := rfl

lemma Computed.step {ptr : RttInfo} (h : Computed ptr) (e : RttEvent) : Computed (ptr.step e) := by
  cases e with
  | stop ms => rfl
  | newpack => exact h
  | timeout => rfl

theorem Computed.run {ptr ptr' : RttInfo} {es : List RttEvent} (h : Computed ptr)
    (hrun : machine.run ptr es = some ptr') : Computed ptr' := by
  apply Machine.run_invariant _ h hrun
  intro s e t hs hstep
  rw [← Option.some.inj hstep]
  exact hs.step e

lemma Computed.rto_mem {ptr : RttInfo} (h : Computed ptr) :
    rttRxtMin ≤ ptr.rto ∧ ptr.rto ≤ rttRxtMax := by
  rw [show ptr.rto = _ from h]
  exact rttMinmax_mem _

lemma Computed.rttTimeout_fst {ptr : RttInfo} (h : Computed ptr) :
    (rttTimeout ptr).1 = { ptr with nrexmt := ptr.nrexmt + 1 } := by
  have hcalc : rttRtoCalc { ptr with rto := wrap (ptr.rto * 2) } = rttRtoCalc ptr := rfl
  simp only [rttTimeout, hcalc, ← show ptr.rto = _ from h]

theorem Computed.iterate_timeout {ptr : RttInfo} (h : Computed ptr) (k : ℕ) :
    (fun p => (rttTimeout p).1)^[k] ptr = { ptr with nrexmt := ptr.nrexmt + k } := by
  induction k with
  | zero => simp
  | succ k ih =>
    have hk : Computed { ptr with nrexmt := ptr.nrexmt + k } := h
    rw [Function.iterate_succ_apply', ih, hk.rttTimeout_fst]
    simp [add_assoc]

/-- The timer backs off at its upper bound only, where there is nothing left to double. -/
theorem backoff_iff (tv : TimeVal) {es : List RttEvent} {ptr : RttInfo}
    (hrun : machine.run (rttInit tv) es = some ptr) (k : ℕ) (hk : 1 ≤ k) :
    ((fun p => (rttTimeout p).1)^[k] ptr).rto = min (2 ^ k * ptr.rto) rttRxtMax ↔
      ptr.rto = rttRxtMax := by
  have hcomp := (computed_rttInit tv).run hrun
  have hmem := hcomp.rto_mem
  have hpow : 2 * ptr.rto ≤ 2 ^ k * ptr.rto := by
    have h2 : (2 : ℤ) ^ 1 ≤ 2 ^ k := pow_le_pow_right₀ (by norm_num) hk
    have hpos : 0 ≤ ptr.rto := by
      unfold rttRxtMin at hmem
      omega
    simpa using mul_le_mul_of_nonneg_right h2 hpos
  rw [hcomp.iterate_timeout k]
  show ptr.rto = _ ↔ _
  unfold rttRxtMin rttRxtMax at *
  omega

/-- One sample of eight seconds takes the timer to its upper bound. -/
theorem backoff_iff_long_sample :
    ((fun p => (rttTimeout p).1)^[1] (rttStop (rttInit ⟨0, 0⟩) 8000)).rto =
      min (2 ^ 1 * (rttStop (rttInit ⟨0, 0⟩) 8000).rto) rttRxtMax := by
  have hrun : machine.run (rttInit ⟨0, 0⟩) [.stop 8000] =
      some (rttStop (rttInit ⟨0, 0⟩) 8000) := rfl
  apply (backoff_iff ⟨0, 0⟩ hrun 1 le_rfl).mpr
  decide

theorem not_backoff_init :
    ¬ ∀ (tv : TimeVal) (es : List RttEvent) (ptr : RttInfo),
      machine.run (rttInit tv) es = some ptr → ∀ k : ℕ, 1 ≤ k →
        ((fun p => (rttTimeout p).1)^[k] ptr).rto = min (2 ^ k * ptr.rto) rttRxtMax := by
  intro h
  have := h ⟨0, 0⟩ [] (rttInit ⟨0, 0⟩) rfl 1 le_rfl
  revert this
  decide

end RttInfo

end TcpOverUdp
