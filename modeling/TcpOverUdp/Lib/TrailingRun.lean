import Mathlib.Data.List.DropRight
import Mathlib.Tactic.Common

namespace TcpOverUdp

variable {α : Type*} [DecidableEq α]

def trailing (a : α) (l : List α) : ℕ := (l.rtakeWhile (· = a)).length

@[simp] lemma trailing_nil (a : α) : trailing a [] = 0 := rfl

@[simp] lemma trailing_concat_self (a : α) (l : List α) :
    trailing a (l ++ [a]) = trailing a l + 1 := by
  unfold trailing
  rw [List.rtakeWhile_concat_pos _ _ _ (by simp), List.length_append, List.length_singleton]

lemma trailing_concat_of_ne {a b : α} (h : b ≠ a) (l : List α) : trailing a (l ++ [b]) = 0 := by
  unfold trailing
  rw [List.rtakeWhile_concat_neg _ _ _ (by simpa using h), List.length_nil]

lemma trailing_eq_zero_iff {a : α} {l : List α} : trailing a l = 0 ↔ l.getLast? ≠ some a := by
  cases l using List.reverseRecOn with
  | nil => simp
  | append_singleton l b =>
    by_cases h : b = a
    · subst h
      simp
    · simp [trailing_concat_of_ne h, h]

theorem trailing_eq_iff {a : α} {l : List α} {k : ℕ} :
    trailing a l = k ↔ ∃ pre, l = pre ++ List.replicate k a ∧ pre.getLast? ≠ some a := by
  constructor
  · intro h
    refine ⟨l.rdropWhile (· = a), ?_, ?_⟩
    · have hrun : l.rtakeWhile (· = a) = List.replicate k a :=
        List.eq_replicate_iff.mpr ⟨h, fun b hb => by simpa using List.mem_rtakeWhile_imp hb⟩
      rw [← hrun, List.rdropWhile_append_rtakeWhile]
    · intro hlast
      have hne : l.rdropWhile (· = a) ≠ [] := by
        rintro hnil
        rw [hnil] at hlast
        cases hlast
      rw [List.getLast?_eq_some_getLast hne] at hlast
      exact List.rdropWhile_last_not _ _ hne (by simpa using hlast)
  · rintro ⟨pre, rfl, hpre⟩
    induction k with
    | zero => simpa [trailing_eq_zero_iff] using hpre
    | succ k ih => rw [List.replicate_succ', ← List.append_assoc, trailing_concat_self, ih]

end TcpOverUdp
