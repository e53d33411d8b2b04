import Mathlib

namespace TcpOverUdp

def smooth (k x y : ℤ) : ℤ := x + (y - x).tdiv k

section Step

variable {k x y : ℤ}

lemma smooth_of_le (h : x ≤ y) : smooth k x y = x + (y - x) / k := by
  rw [smooth, Int.tdiv_eq_ediv_of_nonneg (by omega)]

lemma smooth_of_ge (h : y ≤ x) : smooth k x y = x - (x - y) / k := by
  rw [smooth, ← neg_sub x y, Int.neg_tdiv, Int.tdiv_eq_ediv_of_nonneg (by omega)]
  ring

lemma smooth_mem_of_le (hk : 0 < k) (h : x ≤ y) : x ≤ smooth k x y ∧ smooth k x y ≤ y := by
  have hnonneg : 0 ≤ (y - x) / k := Int.ediv_nonneg (by omega) hk.le
  have hle : (y - x) / k ≤ y - x := Int.ediv_le_self k (by omega)
  rw [smooth_of_le h]
  omega

lemma smooth_mem_of_ge (hk : 0 < k) (h : y ≤ x) : y ≤ smooth k x y ∧ smooth k x y ≤ x := by
  have hnonneg : 0 ≤ (x - y) / k := Int.ediv_nonneg (by omega) hk.le
  have hle : (x - y) / k ≤ x - y := Int.ediv_le_self k (by omega)
  rw [smooth_of_ge h]
  omega

lemma smooth_mem {a b : ℤ} (hk : 0 < k) (hx : a ≤ x ∧ x ≤ b) (hy : a ≤ y ∧ y ≤ b) :
    a ≤ smooth k x y ∧ smooth k x y ≤ b := by
  rcases le_total x y with h | h
  · have := smooth_mem_of_le hk h
    omega
  · have := smooth_mem_of_ge hk h
    omega

lemma smooth_of_close (h : |y - x| < k) : smooth k x y = x := by
  rw [abs_lt] at h
  rcases le_total x y with hle | hle
  · rw [smooth_of_le hle, Int.ediv_eq_zero_of_lt (by omega) (by omega), add_zero]
  · rw [smooth_of_ge hle, Int.ediv_eq_zero_of_lt (by omega) (by omega), sub_zero]

lemma abs_sub_smooth_lt (hk : 0 < k) (h : k ≤ |y - x|) : |y - smooth k x y| < |y - x| := by
  rcases le_total x y with hle | hle
  · have hmem := smooth_mem_of_le hk hle
    rw [abs_of_nonneg (by omega)] at h
    have hpos : 1 ≤ (y - x) / k := (Int.le_ediv_iff_mul_le hk).mpr (by omega)
    rw [abs_of_nonneg (by omega), abs_of_nonneg (by omega), smooth_of_le hle]
    omega
  · have hmem := smooth_mem_of_ge hk hle
    rw [abs_of_nonpos (by omega)] at h
    have hpos : 1 ≤ (x - y) / k := (Int.le_ediv_iff_mul_le hk).mpr (by omega)
    rw [abs_of_nonpos (by omega), abs_of_nonpos (by omega), smooth_of_ge hle]
    omega

lemma smooth_eq_self_iff (hk : 0 < k) : smooth k x y = x ↔ |y - x| < k := by
  constructor
  · intro h
    by_contra hfar
    have := abs_sub_smooth_lt hk (not_lt.mp hfar)
    rw [h] at this
    omega
  · exact smooth_of_close

end Step

variable {k y : ℤ} {u : ℕ → ℤ} {N : ℕ}

theorem rises_of_le (hk : 0 < k) (hu : ∀ n, u (n + 1) = smooth k (u n) y) (h : u 0 ≤ y) (n : ℕ) :
    u n ≤ u (n + 1) ∧ u (n + 1) ≤ y := by
  have hbelow : u n ≤ y := by
    induction n with
    | zero => exact h
    | succ n ih =>
      rw [hu]
      exact (smooth_mem_of_le hk ih).2
  rw [hu]
  exact smooth_mem_of_le hk hbelow

theorem falls_of_ge (hk : 0 < k) (hu : ∀ n, u (n + 1) = smooth k (u n) y) (h : y ≤ u 0) (n : ℕ) :
    y ≤ u (n + 1) ∧ u (n + 1) ≤ u n := by
  have habove : y ≤ u n := by
    induction n with
    | zero => exact h
    | succ n ih =>
      rw [hu]
      exact (smooth_mem_of_ge hk ih).1
  rw [hu]
  exact smooth_mem_of_ge hk habove

lemma eq_of_close (hu : ∀ n ≥ N, u (n + 1) = smooth k (u n) y) (hclose : |y - u N| < k) {n : ℕ}
    (hn : N ≤ n) : u n = u N := by
  induction n, hn using Nat.le_induction with
  | base => rfl
  | succ n hn ih => rw [hu n hn, ih, smooth_of_close hclose]

theorem exists_stopped (hk : 0 < k) (hu : ∀ n ≥ N, u (n + 1) = smooth k (u n) y) :
    ∃ M ≥ N, (∀ n ≥ M, u n = u M) ∧ |y - u M| < k := by
  induction hd : (y - u N).natAbs using Nat.strong_induction_on generalizing N with
  | h d ih =>
    by_cases hclose : |y - u N| < k
    · exact ⟨N, le_rfl, fun n hn => eq_of_close hu hclose hn, hclose⟩
    · -- the distance is the measure
      have hless := abs_sub_smooth_lt hk (not_lt.mp hclose)
      rw [← hu N le_rfl, ← Int.natCast_natAbs, ← Int.natCast_natAbs, hd] at hless
      obtain ⟨M, hM, hstop⟩ :=
        ih _ (by exact_mod_cast hless) (fun n hn => hu n (by omega)) rfl
      exact ⟨M, by omega, hstop⟩

end TcpOverUdp
