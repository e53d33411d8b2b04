import TcpOverUdp.Backoff
import TcpOverUdp.Lib.Smoothing

namespace TcpOverUdp
open CWord

def absDelta (delta : ℤ) : Except Fault ℤ := if delta < 0 then checked (-delta) else .ok delta

/-- `rtt_stop`, with every operation on `int` checked. -/
def rttStopChecked (ptr : RttInfo) (ms : Word) : Except Fault RttInfo := do
  let rtt := toSigned ms
  let delta ← checked (rtt - ptr.srtt)
  let srtt ← checked (ptr.srtt + delta.tdiv 8)
  let delta ← absDelta delta
  let diff ← checked (delta - ptr.rttvar)
  let rttvar ← checked (ptr.rttvar + diff.tdiv 4)
  let ptr := { ptr with rtt := rtt, srtt := srtt, rttvar := rttvar }
  .ok { ptr with rto := rttMinmax (rttRtoCalc ptr) }

/-- `rtt_timeout`, with the doubling checked.  The count of timeouts is no estimator. -/
def rttTimeoutChecked (ptr : RttInfo) : Except Fault RttInfo := do
  let rto ← checked (ptr.rto * 2)
  let ptr := { ptr with rto := rto }
  let ptr := { ptr with rto := rttMinmax (rttRtoCalc ptr) }
  .ok { ptr with nrexmt := ptr.nrexmt + 1 }

def itValue (ptr : RttInfo) : TimeVal :=
  ⟨(rttStart ptr).tdiv 1000, (rttStart ptr).tmod 1000 * 1000⟩

namespace RttInfo

def stepChecked (ptr : RttInfo) : RttEvent → Except Fault RttInfo
  | .stop ms => rttStopChecked ptr ms
  | .newpack => .ok (rttNewpack ptr)
  | .timeout => rttTimeoutChecked ptr

/-- The machine whose steps are undefined where an operation overflows. -/
def checkedMachine : Machine RttInfo RttEvent := ⟨fun ptr e => (ptr.stepChecked e).toOption⟩

/-- What `rtt_stop` is for: the one estimator is smoothed by the sample, the other by the distance
of the sample from the first. -/
def smoothed (ptr : RttInfo) (m : ℤ) : RttInfo :=
  let ptr' := { ptr with
    rtt := m
    srtt := smooth 8 ptr.srtt m
    rttvar := smooth 4 ptr.rttvar |m - ptr.srtt| }
  { ptr' with rto := rttMinmax (rttRtoCalc ptr') }

variable {ptr p : RttInfo} {ms : Word}

lemma absDelta_eq_ok {delta dist : ℤ} (h : absDelta delta = .ok dist) :
    (if delta < 0 then wrap (-delta) else delta) = dist := by
  unfold absDelta at h
  split_ifs at h ⊢ with hneg
  · obtain ⟨hin, rfl⟩ := checked_eq_ok.mp h
    exact wrap_of_inInt hin
  · exact Except.ok.inj h

lemma step_of_stepChecked {e : RttEvent} (h : ptr.stepChecked e = .ok p) : ptr.step e = p := by
  cases e with
  | stop ms =>
    obtain ⟨delta, hdelta, h⟩ := bind_eq_ok.mp h
    obtain ⟨srtt, hsrtt, h⟩ := bind_eq_ok.mp h
    obtain ⟨dist, hdist, h⟩ := bind_eq_ok.mp h
    obtain ⟨diff, hdiff, h⟩ := bind_eq_ok.mp h
    obtain ⟨rttvar, hrttvar, h⟩ := bind_eq_ok.mp h
    obtain ⟨hindelta, rfl⟩ := checked_eq_ok.mp hdelta
    obtain ⟨hinsrtt, rfl⟩ := checked_eq_ok.mp hsrtt
    obtain ⟨hindiff, rfl⟩ := checked_eq_ok.mp hdiff
    obtain ⟨hinrttvar, rfl⟩ := checked_eq_ok.mp hrttvar
    rw [← Except.ok.inj h]
    simp only [step, rttStop, wrap_of_inInt hindelta, wrap_of_inInt hinsrtt, absDelta_eq_ok hdist,
      wrap_of_inInt hindiff, wrap_of_inInt hinrttvar]
  | newpack => exact Except.ok.inj h
  | timeout =>
    obtain ⟨rto, hrto, h⟩ := bind_eq_ok.mp h
    obtain ⟨hin, rfl⟩ := checked_eq_ok.mp hrto
    rw [← Except.ok.inj h]
    simp only [step, rttTimeout, wrap_of_inInt hin]

lemma absDelta_of_inInt {delta : ℤ} (h : InInt (-delta)) : absDelta delta = .ok |delta| := by
  unfold absDelta
  split_ifs with hneg
  · rw [checked_of_inInt h, abs_of_neg hneg]
  · rw [abs_of_nonneg (not_lt.mp hneg)]

structure Bounded (M : ℤ) (ptr : RttInfo) : Prop where
  srtt : 0 ≤ ptr.srtt ∧ ptr.srtt ≤ M
  rttvar : 0 ≤ ptr.rttvar ∧ ptr.rttvar ≤ M

variable {M : ℤ}

lemma Bounded.distance (h : Bounded M ptr) {m : ℤ} (hm : 0 ≤ m ∧ m ≤ M) :
    0 ≤ |m - ptr.srtt| ∧ |m - ptr.srtt| ≤ M := by
  have := h.srtt
  exact ⟨abs_nonneg _, abs_le.mpr ⟨by omega, by omega⟩⟩

lemma Bounded.smoothed (h : Bounded M ptr) {m : ℤ} (hm : 0 ≤ m ∧ m ≤ M) :
    Bounded M (ptr.smoothed m) where
  srtt := smooth_mem (by norm_num) h.srtt hm
  rttvar := smooth_mem (by norm_num) h.rttvar (h.distance hm)

lemma Bounded.rttStopChecked (h : Bounded M ptr) (hM : M < 2 ^ 31) (hms : (ms.toNat : ℤ) ≤ M) :
    rttStopChecked ptr ms = .ok (ptr.smoothed ms.toNat) := by
  have hsample : 0 ≤ (ms.toNat : ℤ) ∧ (ms.toNat : ℤ) ≤ M := ⟨by omega, hms⟩
  have hdist := h.distance hsample
  have hsrtt := h.srtt
  have hrttvar := h.rttvar
  have hsrtt' := (h.smoothed hsample).srtt
  have hrttvar' := (h.smoothed hsample).rttvar
  simp only [RttInfo.smoothed] at hsrtt' hrttvar'
  have hsigned : toSigned ms = ms.toNat := toSigned_of_lt (by omega)
  have hdelta : checked ((ms.toNat : ℤ) - ptr.srtt) = .ok (ms.toNat - ptr.srtt) :=
    checked_of_inInt ⟨by omega, by omega⟩
  have hmove : checked (ptr.srtt + (ms.toNat - ptr.srtt).tdiv 8) =
      .ok (smooth 8 ptr.srtt ms.toNat) :=
    checked_of_inInt ⟨le_trans (by norm_num) hsrtt'.1, lt_of_le_of_lt hsrtt'.2 hM⟩
  have habs : absDelta (ms.toNat - ptr.srtt) = .ok |ms.toNat - ptr.srtt| :=
    absDelta_of_inInt ⟨by omega, by omega⟩
  have hdiff : checked (|(ms.toNat : ℤ) - ptr.srtt| - ptr.rttvar) =
      .ok (|ms.toNat - ptr.srtt| - ptr.rttvar) :=
    checked_of_inInt ⟨by omega, by omega⟩
  have hmove' : checked (ptr.rttvar + (|(ms.toNat : ℤ) - ptr.srtt| - ptr.rttvar).tdiv 4) =
      .ok (smooth 4 ptr.rttvar |ms.toNat - ptr.srtt|) :=
    checked_of_inInt ⟨le_trans (by norm_num) hrttvar'.1, lt_of_le_of_lt hrttvar'.2 hM⟩
  simp only [TcpOverUdp.rttStopChecked, bind, hsigned, hdelta, ok_bind, hmove, habs, hdiff, hmove',
    RttInfo.smoothed]

def SampleLe (M : ℤ) : RttEvent → Prop
  | .stop ms => (ms.toNat : ℤ) ≤ M
  | _ => True

/-- The estimators are bounded, and the timeout is what they make of it. -/
structure Sound (M : ℤ) (ptr : RttInfo) : Prop extends Bounded M ptr where
  computed : Computed ptr

lemma sound_rttInit (hM : 0 ≤ M) (tv : TimeVal) : Sound M (rttInit tv) where
  srtt := ⟨le_rfl, hM⟩
  rttvar := ⟨le_rfl, hM⟩
  computed := computed_rttInit tv

lemma Sound.step (h : Sound M ptr) (hM : M < 2 ^ 31) {e : RttEvent} (he : SampleLe M e) :
    ptr.stepChecked e = .ok (ptr.step e) ∧ Sound M (ptr.step e) := by
  have hcomp := h.computed.step e
  cases e with
  | stop ms =>
    have hok := h.toBounded.rttStopChecked hM he
    have hstep : ptr.step (.stop ms) = ptr.smoothed ms.toNat := step_of_stepChecked hok
    have hb := h.toBounded.smoothed (m := ms.toNat) ⟨by omega, he⟩
    rw [hstep] at hcomp ⊢
    exact ⟨hok, ⟨hb, hcomp⟩⟩
  | newpack => exact ⟨rfl, ⟨⟨h.srtt, h.rttvar⟩, hcomp⟩⟩
  | timeout =>
    have hmem := h.computed.rto_mem
    have hdouble : checked (ptr.rto * 2) = .ok (ptr.rto * 2) := by
      apply checked_of_inInt
      unfold InInt
      unfold rttRxtMin rttRxtMax at hmem
      omega
    have hok : ptr.stepChecked .timeout = .ok (ptr.step .timeout) := by
      obtain ⟨q, hq⟩ : ∃ q, ptr.stepChecked .timeout = .ok q := by
        simp only [stepChecked, rttTimeoutChecked, bind, hdouble, ok_bind]
        exact ⟨_, rfl⟩
      rw [hq, step_of_stepChecked hq]
    exact ⟨hok, ⟨⟨h.srtt, h.rttvar⟩, hcomp⟩⟩

theorem Sound.run (h : Sound M ptr) (hM : M < 2 ^ 31) {es : List RttEvent}
    (hes : ∀ e ∈ es, SampleLe M e) :
    ∃ p, checkedMachine.run ptr es = some p ∧ machine.run ptr es = some p ∧ Sound M p := by
  induction es generalizing ptr with
  | nil => exact ⟨ptr, rfl, rfl, h⟩
  | cons e es ih =>
    obtain ⟨he, hrest⟩ := List.forall_mem_cons.mp hes
    obtain ⟨hok, hsound⟩ := h.step hM he
    obtain ⟨p, hchecked, hrun, hp⟩ := ih hsound hrest
    refine ⟨p, ?_, ?_, hp⟩
    · exact Machine.run_cons_eq_some.mpr ⟨_, congrArg Except.toOption hok, hchecked⟩
    · exact Machine.run_cons_eq_some.mpr ⟨_, rfl, hrun⟩

lemma rttMinmax_eq (rto : ℤ) : rttMinmax rto = min (max rto rttRxtMin) rttRxtMax := by
  unfold rttMinmax rttRxtMin rttRxtMax
  split_ifs <;> omega

/-- The timer is a valid time, not zero, and as long as the timeout in milliseconds. -/
structure SetTo (it : TimeVal) (rto : ℤ) : Prop where
  sec : 0 ≤ it.tvSec
  usec : 0 ≤ it.tvUsec ∧ it.tvUsec < 1000000
  nonzero : it.tvSec ≠ 0 ∨ it.tvUsec ≠ 0
  value : it.tvSec * 1000000 + it.tvUsec = rto * 1000

lemma Computed.setTo (h : Computed ptr) : SetTo (itValue ptr) ptr.rto := by
  have hmem := h.rto_mem
  unfold rttRxtMin rttRxtMax at hmem
  have hnonneg : 0 ≤ ptr.rto := by omega
  have hsec : (itValue ptr).tvSec = ptr.rto / 1000 := Int.tdiv_eq_ediv_of_nonneg hnonneg
  have husec : (itValue ptr).tvUsec = ptr.rto % 1000 * 1000 := by
    show ptr.rto.tmod 1000 * 1000 = _
    rw [Int.tmod_eq_emod_of_nonneg hnonneg]
  constructor <;> simp only [hsec, husec] <;> omega

lemma nrexmt_le_length {tv : TimeVal} {es : List RttEvent}
    (hrun : machine.run (rttInit tv) es = some ptr) :
    0 ≤ ptr.nrexmt ∧ ptr.nrexmt ≤ es.length := by
  apply Machine.run_history (P := fun past p => 0 ≤ p.nrexmt ∧ p.nrexmt ≤ (past.length : ℤ)) _ _
    hrun
  · rintro past p e q ⟨h0, hle⟩ hstep
    rw [← Option.some.inj hstep]
    cases e <;> simp [step] <;> omega
  · simp [rttInit]

/-- After any calls with samples up to `M`, the estimators are between zero and `M`, nothing has
overflowed, and the timer is set to what they make of the timeout.  The count of timeouts is no
more than the number of calls. -/
theorem estimators_sound (M : ℕ) (hM : M < 2 ^ 31) (tv : TimeVal) (es : List RttEvent)
    (hes : ∀ e ∈ es, SampleLe M e) :
    ∃ ptr, checkedMachine.run (rttInit tv) es = some ptr ∧
      machine.run (rttInit tv) es = some ptr ∧
      (0 ≤ ptr.srtt ∧ ptr.srtt ≤ M) ∧ (0 ≤ ptr.rttvar ∧ ptr.rttvar ≤ M) ∧
      ptr.rto = min (max (ptr.srtt + 4 * ptr.rttvar) rttRxtMin) rttRxtMax ∧
      SetTo (itValue ptr) ptr.rto ∧ (0 ≤ ptr.nrexmt ∧ ptr.nrexmt ≤ es.length) := by
  obtain ⟨ptr, hchecked, hrun, hsound⟩ :=
    (sound_rttInit (by omega) tv).run (by exact_mod_cast hM) hes
  refine ⟨ptr, hchecked, hrun, hsound.srtt, hsound.rttvar, ?_, hsound.computed.setTo,
    nrexmt_le_length hrun⟩
  rw [← rttMinmax_eq]
  exact hsound.computed

/-- A sample at the top of the range, a timeout and a sample of zero. -/
theorem estimators_sound_top :
    ∃ ptr, checkedMachine.run (rttInit ⟨0, 0⟩) [.stop 2147483647, .timeout, .stop 0] = some ptr ∧
      0 ≤ ptr.srtt ∧ SetTo (itValue ptr) ptr.rto := by
  obtain ⟨ptr, hchecked, -, hsrtt, -, -, hset, -⟩ :=
    estimators_sound 2147483647 (by norm_num) ⟨0, 0⟩ [.stop 2147483647, .timeout, .stop 0]
      (by simp [SampleLe])
  exact ⟨ptr, hchecked, hsrtt.1, hset⟩

def Settled (s : ℤ) (ptr : RttInfo) : Prop :=
  |s - ptr.srtt| ≤ 7 ∧ |(|s - ptr.srtt|) - ptr.rttvar| ≤ 3

theorem settled_iff {s : ℤ} :
    Settled s ptr ↔ (ptr.smoothed s).srtt = ptr.srtt ∧ (ptr.smoothed s).rttvar = ptr.rttvar := by
  simp only [smoothed, smooth_eq_self_iff (show (0 : ℤ) < 8 by norm_num),
    smooth_eq_self_iff (show (0 : ℤ) < 4 by norm_num), Settled]
  omega

def after (s : Word) (ptr : RttInfo) (n : ℕ) : RttInfo := (fun p => rttStop p s)^[n] ptr

lemma after_succ (s : Word) (ptr : RttInfo) (n : ℕ) :
    after s ptr (n + 1) = rttStop (after s ptr n) s := Function.iterate_succ_apply' _ n ptr

lemma Bounded.after (h : Bounded M ptr) (hM : M < 2 ^ 31) (hms : (ms.toNat : ℤ) ≤ M) (n : ℕ) :
    Bounded M (after ms ptr n) ∧ after ms ptr (n + 1) = (after ms ptr n).smoothed ms.toNat := by
  have hnext : ∀ {p : RttInfo}, Bounded M p → rttStop p ms = p.smoothed ms.toNat :=
    fun hp => step_of_stepChecked (e := .stop ms) (hp.rttStopChecked hM hms)
  have hbound : Bounded M (RttInfo.after ms ptr n) := by
    induction n with
    | zero => exact h
    | succ n ih =>
      rw [after_succ, hnext ih]
      exact ih.smoothed ⟨by omega, hms⟩
  exact ⟨hbound, by rw [after_succ, hnext hbound]⟩

lemma Bounded.srtt_after (h : Bounded M ptr) (hM : M < 2 ^ 31) (hms : (ms.toNat : ℤ) ≤ M) (n : ℕ) :
    (RttInfo.after ms ptr (n + 1)).srtt = smooth 8 (RttInfo.after ms ptr n).srtt ms.toNat :=
  congrArg RttInfo.srtt (h.after hM hms n).2

lemma Bounded.settles (h : Bounded M ptr) (hM : M < 2 ^ 31) (hms : (ms.toNat : ℤ) ≤ M) :
    ∃ N, ∀ n ≥ N, Settled ms.toNat (RttInfo.after ms ptr n) := by
  obtain ⟨N, -, hstop, hclose⟩ := exists_stopped (k := 8) (N := 0) (by norm_num)
    (u := fun n => (RttInfo.after ms ptr n).srtt) fun n _ => h.srtt_after hM hms n
  have htarget : ∀ n ≥ N, (RttInfo.after ms ptr (n + 1)).rttvar =
      smooth 4 (RttInfo.after ms ptr n).rttvar
        |ms.toNat - (RttInfo.after ms ptr N).srtt| := by
    intro n hn
    rw [← hstop n hn]
    exact congrArg RttInfo.rttvar (h.after hM hms n).2
  obtain ⟨N', hN', hstop', hclose'⟩ := exists_stopped (k := 4) (by norm_num)
    (u := fun n => (RttInfo.after ms ptr n).rttvar) htarget
  refine ⟨N', fun n hn => ?_⟩
  have hsrtt := hstop n (le_trans hN' hn)
  have hrttvar := hstop' n hn
  rw [Settled, hsrtt, hrttvar]
  omega

/-- Under a constant sample, the estimators come to rest near it, the first one on a straight
way. -/
theorem estimators_converge (s : Word) (hs : s.toNat < 2 ^ 31) (ptr : RttInfo)
    (hsrtt : 0 ≤ ptr.srtt ∧ ptr.srtt < 2 ^ 31) (hrttvar : 0 ≤ ptr.rttvar ∧ ptr.rttvar < 2 ^ 31) :
    (∃ N, ∀ n ≥ N, Settled s.toNat (after s ptr n)) ∧
      (ptr.srtt ≤ s.toNat → ∀ n, (after s ptr n).srtt ≤ (after s ptr (n + 1)).srtt ∧
        (after s ptr (n + 1)).srtt ≤ s.toNat) ∧
      (s.toNat ≤ ptr.srtt → ∀ n, s.toNat ≤ (after s ptr (n + 1)).srtt ∧
        (after s ptr (n + 1)).srtt ≤ (after s ptr n).srtt) := by
  have hbound : Bounded (2 ^ 31 - 1) ptr := ⟨by omega, by omega⟩
  have hM : (2 ^ 31 - 1 : ℤ) < 2 ^ 31 := by norm_num
  have hle : (s.toNat : ℤ) ≤ 2 ^ 31 - 1 := by omega
  have hpos : (0 : ℤ) < 8 := by norm_num
  have hsmooth := hbound.srtt_after hM hle
  exact ⟨hbound.settles hM hle, rises_of_le hpos (u := fun n => (after s ptr n).srtt) hsmooth,
    falls_of_ge hpos (u := fun n => (after s ptr n).srtt) hsmooth⟩

/-- From `rtt_init`, with a sample of one second again and again. -/
theorem estimators_converge_second :
    ∃ N, ∀ n ≥ N, Settled (1000 : ℕ) (after 1000 (rttInit ⟨0, 0⟩) n) :=
  (estimators_converge 1000 (by decide) (rttInit ⟨0, 0⟩) (by decide) (by decide)).1

end RttInfo

end TcpOverUdp
