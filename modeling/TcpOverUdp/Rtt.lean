import TcpOverUdp.Lib.CWord

namespace TcpOverUdp
open CWord

structure TimeVal where
  tvSec : ℤ
  tvUsec : ℤ
  deriving DecidableEq, Repr

/-- `struct rtt_info`, in integer milliseconds.  Sums that leave the range of `int` wrap. -/
structure RttInfo where
  /-- most recent measured RTT -/
  rtt : ℤ
  /-- smoothed RTT estimator -/
  srtt : ℤ
  /-- smoothed mean deviation -/
  rttvar : ℤ
  /-- current RTO to use -/
  rto : ℤ
  /-- # times retransmitted: 0, 1, 2, ... -/
  nrexmt : ℤ
  base : Word
  deriving DecidableEq, Repr

def rttRxtMin : ℤ := 1000

def rttRxtMax : ℤ := 3000

def rttMaxNrexmt : ℤ := 12

/-- `rtt_minmax`.  Rounding its argument to `float` moves no value across the two bounds,
and what lies between them is exact. -/
def rttMinmax (rto : ℤ) : ℤ :=
  if rto < rttRxtMin then rttRxtMin else if rto > rttRxtMax then rttRxtMax else rto

def rttRtoCalc (ptr : RttInfo) : ℤ := ptr.srtt + 4 * ptr.rttvar

/-- `rtt_init`.  The assignment of `0.75` to an `int` leaves `0`. -/
def rttInit (tv : TimeVal) : RttInfo :=
  let ptr : RttInfo := ⟨0, 0, 0, 0, 0, toUnsigned (tv.tvSec * 1000)⟩
  { ptr with rto := rttMinmax (rttRtoCalc ptr) }

def rttTs (ptr : RttInfo) (tv : TimeVal) : Word :=
  toUnsigned (tv.tvSec * 1000 - ptr.base.toNat + tv.tvUsec.tdiv 1000)

def rttNewpack (ptr : RttInfo) : RttInfo := { ptr with nrexmt := 0 }

def rttStart (ptr : RttInfo) : ℤ := ptr.rto

def rttStop (ptr : RttInfo) (ms : Word) : RttInfo :=
  let rtt := toSigned ms
  let delta := wrap (rtt - ptr.srtt)
  let srtt := wrap (ptr.srtt + delta.tdiv 8)
  let delta := if delta < 0 then wrap (-delta) else delta
  let rttvar := wrap (ptr.rttvar + (wrap (delta - ptr.rttvar)).tdiv 4)
  let ptr := { ptr with rtt := rtt, srtt := srtt, rttvar := rttvar }
  { ptr with rto := rttMinmax (rttRtoCalc ptr) }

/-- `rtt_timeout`: whether it returns a negative value is the second component. -/
def rttTimeout (ptr : RttInfo) : RttInfo × Bool :=
  let ptr := { ptr with rto := wrap (ptr.rto * 2) }
  let ptr := { ptr with rto := rttMinmax (rttRtoCalc ptr) }
  let ptr := { ptr with nrexmt := ptr.nrexmt + 1 }
  (ptr, decide (ptr.nrexmt > rttMaxNrexmt))

@[simp] lemma rttStop_nrexmt (ptr : RttInfo) (ms : Word) : (rttStop ptr ms).nrexmt = ptr.nrexmt :=
  rfl

@[simp] lemma rttNewpack_nrexmt (ptr : RttInfo) : (rttNewpack ptr).nrexmt = 0 := rfl

@[simp] lemma rttTimeout_fst_nrexmt (ptr : RttInfo) :
    (rttTimeout ptr).1.nrexmt = ptr.nrexmt + 1 := rfl

lemma rttTimeout_snd (ptr : RttInfo) : (rttTimeout ptr).2 = true ↔ rttMaxNrexmt ≤ ptr.nrexmt := by
  simp only [rttTimeout, decide_eq_true_eq]
  omega

lemma rttMinmax_mem (rto : ℤ) : rttRxtMin ≤ rttMinmax rto ∧ rttMinmax rto ≤ rttRxtMax := by
  unfold rttMinmax rttRxtMin rttRxtMax
  split_ifs <;> omega

theorem rttStart_pos (tv : TimeVal) (ptr : RttInfo) (ms : Word) :
    0 < rttStart (rttInit tv) ∧ 0 < rttStart (rttStop ptr ms) ∧
      0 < rttStart (rttTimeout ptr).1 := by
  have hpos : ∀ rto, 0 < rttMinmax rto := by
    intro rto
    have := (rttMinmax_mem rto).1
    unfold rttRxtMin at this
    omega
  simp only [rttStart, rttInit, rttStop, rttTimeout, hpos, and_self]

end TcpOverUdp
