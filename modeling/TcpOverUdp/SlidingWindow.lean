import TcpOverUdp.Lib.ReceiveBuffer

namespace TcpOverUdp
open CWord

structure Slot (α : Type) where
  inUse : Bool
  segmentData : α

def Slot.content {α : Type} (x : Slot α) : Option α := if x.inUse then some x.segmentData else none

/-- The variables of `slidingwindow.c`, with the window size from `clientInput`.  Segment `n` goes
into slot `n % receivingWindowSize`, and its number is not stored. -/
structure SlidingWindow (α : Type) where
  receivingWindowSize : ℤ
  slidingWindow : ℕ → Slot α
  currentIndex : ℤ

namespace SlidingWindow

variable {α : Type}

def init [Inhabited α] (receivingWindowSize : ℤ) : SlidingWindow α where
  receivingWindowSize := receivingWindowSize
  slidingWindow _ := ⟨false, default⟩
  currentIndex := 0

/-- The slot of segment `n`, `slidingWindow[n % clientInput.receivingWindowSize]`. -/
def slotIndex (s : SlidingWindow α) (n : ℤ) : Except Fault ℕ := do
  let r ← rem n s.receivingWindowSize
  if 0 ≤ r ∧ r < s.receivingWindowSize then .ok r.toNat else .error .outOfBounds

def nextAckLoop (s : SlidingWindow α) : ℕ → ℤ → Except Fault ℤ
  -- the loop ends and the function has no return statement left
  | 0, _ => .error .noReturn
  | k + 1, i => do
    let n ← checked (s.currentIndex + i)
    let j ← s.slotIndex n
    if (s.slidingWindow j).inUse then nextAckLoop s k (i + 1) else .ok n

def getNextAckIndex (s : SlidingWindow α) : Except Fault ℤ :=
  s.nextAckLoop s.receivingWindowSize.toNat 0

/-- `SlidingWindowGetAvailableWindowSize`, given what the call in it returns. -/
def availableWindowSize (s : SlidingWindow α) (next : Except Fault ℤ) : Except Fault ℤ := do
  let edge ← checked (s.receivingWindowSize + s.currentIndex)
  let n ← next
  checked (edge - n)

def getAvailableWindowSize (s : SlidingWindow α) : Except Fault ℤ :=
  s.availableWindowSize s.getNextAckIndex

def addSegmentToWindow (s : SlidingWindow α) (buf : α) (index : ℤ) :
    Except Fault (SlidingWindow α) := do
  let indexInWindow ← checked (index - s.currentIndex)
  if indexInWindow < 0 ∨ indexInWindow ≥ s.receivingWindowSize then .ok s
  else
    let j ← s.slotIndex index
    if (s.slidingWindow j).inUse then .ok s
    else .ok { s with slidingWindow := Function.update s.slidingWindow j ⟨true, buf⟩ }

/-- `SlidingWindowFetchAndRemoveSegmentFromWindow`: the window, `*outIndex`, and the bytes
copied to `outBuf` if any are. -/
def fetchAndRemoveSegmentFromWindow (s : SlidingWindow α) :
    Except Fault (SlidingWindow α × ℤ × Option α) := do
  let j ← s.slotIndex s.currentIndex
  let slot := s.slidingWindow j
  if slot.inUse then
    let next ← checked (s.currentIndex + 1)
    .ok ({ s with
        slidingWindow := Function.update s.slidingWindow j { slot with inUse := false }
        currentIndex := next }, s.currentIndex, some slot.segmentData)
  else .ok (s, -1, none)

/-- Whether a call with `index` has put a segment into a slot that was free. -/
def hasStored (s s' : SlidingWindow α) (index : ℤ) : Bool :=
  match s.slotIndex index with
  | .ok j => !(s.slidingWindow j).inUse && (s'.slidingWindow j).inUse
  | .error _ => false

@[simp] lemma hasStored_self (s : SlidingWindow α) (index : ℤ) : hasStored s s index = false := by
  unfold hasStored
  split <;> simp

structure Represents {W : ℕ} (s : SlidingWindow α) (b : ReceiveBuffer α W) : Prop where
  size : s.receivingWindowSize = W
  pos : 0 < W
  next : s.currentIndex = b.next
  content : ∀ n, b.next ≤ n → n < b.next + W → (s.slidingWindow (n % W)).content = b.held n

variable {W : ℕ} {s s' : SlidingWindow α} {b : ReceiveBuffer α W}

lemma represents_init [Inhabited α] (hW : 0 < W) :
    Represents (init (W : ℤ) : SlidingWindow α) (ReceiveBuffer.empty (W := W)) where
  size := rfl
  pos := hW
  next := rfl
  content _ _ _ := rfl

lemma eq_of_mod_eq {a m n : ℕ} (hm : a ≤ m) (hm' : m < a + W) (hn : a ≤ n) (hn' : n < a + W)
    (h : m % W = n % W) : m = n := by
  have key : ∀ {x y : ℕ}, a ≤ x → y < a + W → x ≤ y → x % W = y % W → x = y := by
    intro x y hx hy hxy hmod
    have hdvd : W ∣ y - x := (Nat.modEq_iff_dvd' hxy).mp hmod
    have := Nat.eq_zero_of_dvd_of_lt hdvd (by omega)
    omega
  rcases le_total m n with hle | hle
  · exact key hm hn' hle h
  · exact (key hn hm' hle h.symm).symm

lemma Represents.slotIndex_natCast (h : Represents s b) (n : ℕ) :
    s.slotIndex n = .ok (n % W) := by
  have hpos := h.pos
  have hlt : n % W < W := Nat.mod_lt _ hpos
  have hmod : (n : ℤ) % (W : ℤ) = ((n % W : ℕ) : ℤ) := rfl
  rw [slotIndex, h.size, rem_of_nonneg (by omega) (by omega), hmod]
  exact if_pos ⟨by omega, by omega⟩

lemma Represents.inUse_eq (h : Represents s b) {n : ℕ} (h0 : b.next ≤ n) (h1 : n < b.next + W) :
    (s.slidingWindow (n % W)).inUse = (b.held n).isSome := by
  rw [← h.content n h0 h1, Slot.content]
  split <;> simp_all

lemma Represents.nextAckLoop_succ (h : Represents s b) {k i : ℕ} (hi : b.next + i ≤ b.missing)
    (hiW : i < W) (hin : InInt (s.currentIndex + i)) :
    s.nextAckLoop (k + 1) i =
      if b.missing = b.next + i then .ok (b.missing : ℤ) else s.nextAckLoop k (i + 1) := by
  have hn : checked (s.currentIndex + i) = .ok ((b.next + i : ℕ) : ℤ) := by
    rw [checked_of_inInt hin, h.next]
    push_cast
    rfl
  simp only [nextAckLoop, hn, bind, ok_bind, h.slotIndex_natCast,
    h.inUse_eq (n := b.next + i) (by omega) (by omega)]
  by_cases hfound : b.missing = b.next + i
  · have hfree : b.held (b.next + i) = none := hfound ▸ b.held_missing
    rw [hfree, if_neg (by simp), if_pos hfound, hfound]
  · have htaken := ReceiveBuffer.taken_of_lt_missing (b := b) (n := b.next + i) (by omega)
    rw [if_pos (htaken.resolve_left (by omega)), if_neg hfound]

lemma Represents.nextAckLoop_eq (h : Represents s b) (hrange : b.next + W < 2 ^ 31) (k i : ℕ)
    (hk : i + k = W) (hi : b.next + i ≤ b.missing) :
    s.nextAckLoop k i =
      if b.missing < b.next + W then .ok (b.missing : ℤ) else .error .noReturn := by
  induction k generalizing i with
  | zero => rw [if_neg (by omega), nextAckLoop]
  | succ k ih =>
    have hin : InInt (s.currentIndex + i) := by
      rw [h.next]
      exact ⟨by omega, by omega⟩
    rw [h.nextAckLoop_succ hi (by omega) hin]
    by_cases hfound : b.missing = b.next + i
    · rw [if_pos hfound, if_pos (by omega)]
    · rw [if_neg hfound]
      exact ih (i + 1) (by omega) (by omega)

lemma Represents.nextAckLoop_cases (h : Represents s b) (k i : ℕ) (hk : i + k = W)
    (hi : b.next + i ≤ b.missing) :
    (∀ n, s.nextAckLoop k i = .ok n → n = b.missing ∧ b.missing < b.next + W) ∧
      (s.nextAckLoop k i = .error .noReturn → b.missing = b.next + W) := by
  have hle := b.missing_le_edge
  induction k generalizing i with
  | zero =>
    refine ⟨fun n hn => ?_, fun _ => by omega⟩
    cases hn
  | succ k ih =>
    by_cases hin : InInt (s.currentIndex + i)
    · rw [h.nextAckLoop_succ hi (by omega) hin]
      split_ifs with hfound
      · refine ⟨fun n hn => ⟨(Except.ok.inj hn).symm, by omega⟩, fun hn => by cases hn⟩
      · exact ih (i + 1) (by omega) (by omega)
    · simp only [nextAckLoop, checked, if_neg hin]
      exact ⟨fun n hn => (by cases hn), fun hn => by cases hn⟩

theorem Represents.getNextAckIndex_eq (h : Represents s b) (hrange : b.next + W < 2 ^ 31) :
    s.getNextAckIndex =
      if b.missing < b.next + W then .ok (b.missing : ℤ) else .error .noReturn := by
  rw [getNextAckIndex, h.size, Int.toNat_natCast]
  exact h.nextAckLoop_eq hrange W 0 (by omega) b.next_le_missing

/-- An arrival with a number below the window, negative numbers included, is ignored. -/
theorem Represents.addSegmentToWindow_of_lt (h : Represents s b) {x : α} {index : ℤ}
    (hlt : index < b.next) (hadd : s.addSegmentToWindow x index = .ok s') : s' = s := by
  simp only [addSegmentToWindow, bind, checked_bind_eq_ok, h.next] at hadd
  rw [if_pos (Or.inl (by omega))] at hadd
  exact (Except.ok.inj hadd.2).symm

theorem Represents.addSegmentToWindow_of_ge (h : Represents s b) {x : α} {n : ℕ}
    (hge : b.next ≤ n) (hadd : s.addSegmentToWindow x n = .ok s') :
    Represents s' (b.accept n x) := by
  simp only [addSegmentToWindow, bind, checked_bind_eq_ok, h.next, h.size] at hadd
  replace hadd := hadd.2
  by_cases hout : n < b.next + W
  · rw [if_neg (by omega), h.slotIndex_natCast] at hadd
    simp only [ok_bind, h.inUse_eq hge hout] at hadd
    by_cases hheld : b.held n = none
    · rw [hheld, if_neg (by simp), Except.ok.injEq] at hadd
      subst hadd
      refine ⟨rfl, h.pos, by simp, fun m h0 h1 => ?_⟩
      rw [ReceiveBuffer.accept_next] at h0 h1
      by_cases hmn : m = n
      · subst hmn
        simp [ReceiveBuffer.accept_held_self hge hout hheld, Slot.content]
      · rw [ReceiveBuffer.accept_held_of_ne hmn, ← h.content m h0 h1]
        have hne : m % W ≠ n % W := fun hmod => hmn (eq_of_mod_eq h0 h1 hge hout hmod)
        simp only [Function.update_of_ne hne]
    · rw [if_pos (Option.isSome_iff_ne_none.mpr hheld), Except.ok.injEq] at hadd
      rw [ReceiveBuffer.accept_of_not fun hc => hheld hc.2.2, ← hadd]
      exact h
  · rw [if_pos (Or.inr (by omega)), Except.ok.injEq] at hadd
    rw [ReceiveBuffer.accept_of_not fun hc => hout hc.2.1, ← hadd]
    exact h

/-- The ring stores an arrival exactly when the receive buffer takes it for the first time. -/
theorem Represents.hasStored_iff (h : Represents s b) {x : α} {n : ℕ}
    (hadd : s.addSegmentToWindow x n = .ok s') :
    hasStored s s' n = true ↔ b.next ≤ n ∧ n < b.next + W ∧ b.held n = none := by
  rcases Nat.lt_or_ge n b.next with hlt | hge
  · rw [h.addSegmentToWindow_of_lt (by omega) hadd, hasStored_self]
    simp only [Bool.false_eq_true, false_iff]
    omega
  · have h' := h.addSegmentToWindow_of_ge hge hadd
    by_cases hin : n < b.next + W
    · have huse := h.inUse_eq hge hin
      have huse' := h'.inUse_eq (n := n) (by simpa using hge) (by simpa using hin)
      simp only [hasStored, h.slotIndex_natCast, huse, huse', hge, hin, true_and]
      by_cases hheld : b.held n = none
      · simp [hheld, ReceiveBuffer.accept_held_self hge hin hheld]
      · rw [ReceiveBuffer.accept_of_not fun hc => hheld hc.2.2]
        simp [hheld]
    · have hout : ((n : ℤ) - b.next < 0 ∨ (n : ℤ) - b.next ≥ W) := Or.inr (by omega)
      simp only [addSegmentToWindow, bind, checked_bind_eq_ok, h.next, h.size, if_pos hout,
        Except.ok.injEq] at hadd
      rw [← hadd.2, hasStored_self]
      simp [hin]

theorem Represents.addSegmentToWindow_ok (h : Represents s b) (hrange : b.next < 2 ^ 31) (x : α)
    {n : ℕ} (hn : n < 2 ^ 31) : ∃ t, s.addSegmentToWindow x n = .ok t := by
  have hin : InInt ((n : ℤ) - b.next) := ⟨by omega, by omega⟩
  simp only [addSegmentToWindow, bind, h.next, checked_of_inInt hin, ok_bind,
    h.slotIndex_natCast]
  split_ifs <;> exact ⟨_, rfl⟩

theorem Represents.addSegmentToWindow_stores (h : Represents s b) (x : α) {n : ℕ}
    (hn : n < 2 ^ 31) (h0 : b.next ≤ n) (h1 : n < b.next + W) (hfree : b.held n = none) :
    ∃ t, s.addSegmentToWindow x n = .ok t ∧ s.slotIndex n = .ok (n % W) ∧
      (s.slidingWindow (n % W)).inUse = false ∧ t.slidingWindow (n % W) = ⟨true, x⟩ := by
  have hin : InInt ((n : ℤ) - b.next) := ⟨by omega, by omega⟩
  have huse : (s.slidingWindow (n % W)).inUse = false := by simp [h.inUse_eq h0 h1, hfree]
  refine ⟨{ s with slidingWindow := Function.update s.slidingWindow (n % W) ⟨true, x⟩ }, ?_,
    h.slotIndex_natCast n, huse, Function.update_self ..⟩
  simp only [addSegmentToWindow, bind, h.next, h.size, checked_of_inInt hin, ok_bind,
    h.slotIndex_natCast]
  rw [if_neg (by omega), if_neg (by simp [huse])]

theorem Represents.fetch_of_held (h : Represents s b) {outIndex : ℤ} {outBuf : Option α}
    (hheld : (b.held b.next).isSome)
    (hfetch : s.fetchAndRemoveSegmentFromWindow = .ok (s', outIndex, outBuf)) :
    outIndex = b.next ∧ outBuf = b.held b.next ∧ Represents s' b.drop := by
  have hpos := h.pos
  have huse := h.inUse_eq (n := b.next) le_rfl (by omega)
  simp only [fetchAndRemoveSegmentFromWindow, h.next, h.slotIndex_natCast, bind, ok_bind,
    huse] at hfetch
  rw [if_pos hheld] at hfetch
  obtain ⟨-, hfetch⟩ := checked_bind_eq_ok.mp hfetch
  simp only [Except.ok.injEq, Prod.mk.injEq] at hfetch
  obtain ⟨rfl, rfl, rfl⟩ := hfetch
  refine ⟨rfl, ?_, h.size, hpos, by simp, fun n h0 h1 => ?_⟩
  · rw [← h.content b.next le_rfl (by omega), Slot.content, if_pos (by rw [huse, hheld])]
  · rw [ReceiveBuffer.drop_next] at h0 h1
    rw [ReceiveBuffer.drop_held_of_ne (by omega)]
    -- the slot just freed belongs to the number that has entered the window
    by_cases hedge : n = b.next + W
    · have hout : b.held n = none := by
        by_contra hne
        have := (b.held_window _ (Option.isSome_iff_ne_none.mpr hne)).2
        omega
      rw [hout]
      simp [hedge, Slot.content]
    · have hne : n % W ≠ b.next % W := by
        intro hmod
        have := eq_of_mod_eq (a := b.next) (by omega) (by omega) le_rfl (by omega) hmod
        omega
      simp only [Function.update_of_ne hne]
      exact h.content n (by omega) (by omega)

theorem Represents.fetch_of_missing (h : Represents s b) {outIndex : ℤ} {outBuf : Option α}
    (hheld : b.held b.next = none)
    (hfetch : s.fetchAndRemoveSegmentFromWindow = .ok (s', outIndex, outBuf)) :
    outIndex = -1 ∧ outBuf = none ∧ s' = s := by
  have hpos := h.pos
  simp only [fetchAndRemoveSegmentFromWindow, h.next, h.slotIndex_natCast, bind, ok_bind,
    h.inUse_eq (n := b.next) le_rfl (by omega), hheld] at hfetch
  rw [if_neg (by simp), Except.ok.injEq, Prod.mk.injEq, Prod.mk.injEq] at hfetch
  exact ⟨hfetch.2.1.symm, hfetch.2.2.symm, hfetch.1.symm⟩

theorem Represents.fetch_ok (h : Represents s b) (hrange : b.next + 1 < 2 ^ 31) :
    ∃ t, s.fetchAndRemoveSegmentFromWindow = .ok t := by
  have hin : InInt ((b.next : ℤ) + 1) := ⟨by omega, by omega⟩
  simp only [fetchAndRemoveSegmentFromWindow, h.next, h.slotIndex_natCast, bind, ok_bind,
    checked_of_inInt hin]
  split_ifs <;> exact ⟨_, rfl⟩

end SlidingWindow

end TcpOverUdp
