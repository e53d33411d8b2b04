import Mathlib

namespace TcpOverUdp

structure BoundedMap (κ ν : Type*) (n : ℕ) where
  lookup : κ → Option ν
  keys : Finset κ
  mem_keys : ∀ k, k ∈ keys ↔ (lookup k).isSome
  card_le : keys.card ≤ n

namespace BoundedMap

variable {κ ν : Type*} {n : ℕ}

def empty : BoundedMap κ ν n where
  lookup _ := none
  keys := ∅
  mem_keys := by simp
  card_le := Nat.zero_le n

lemma not_mem_keys {m : BoundedMap κ ν n} {k : κ} : k ∉ m.keys ↔ m.lookup k = none := by
  rw [m.mem_keys, Bool.not_eq_true, Option.isSome_eq_false_iff, Option.isNone_iff_eq_none]

variable [DecidableEq κ]

/-- The map after a key has come, which is new and finds room, or leaves it as it is. -/
def insert (m : BoundedMap κ ν n) (k : κ) (v : ν) : BoundedMap κ ν n :=
  if h : k ∉ m.keys ∧ m.keys.card < n then
    { lookup := Function.update m.lookup k (some v)
      keys := Insert.insert k m.keys
      mem_keys := by
        intro l
        by_cases hl : l = k
        · simp [hl]
        · simp [hl, m.mem_keys]
      card_le := by
        rw [Finset.card_insert_of_notMem h.1]
        exact h.2 }
  else m

def erase (m : BoundedMap κ ν n) (k : κ) : BoundedMap κ ν n where
  lookup := Function.update m.lookup k none
  keys := m.keys.erase k
  mem_keys := by
    intro l
    by_cases hl : l = k
    · simp [hl]
    · simp [hl, m.mem_keys]
  card_le := (Finset.card_erase_le).trans m.card_le

def modify (m : BoundedMap κ ν n) (k : κ) (f : ν → ν) : BoundedMap κ ν n where
  lookup := Function.update m.lookup k ((m.lookup k).map f)
  keys := m.keys
  mem_keys := by
    intro l
    by_cases hl : l = k
    · simp [hl, m.mem_keys]
    · simp [hl, m.mem_keys]
  card_le := m.card_le

variable {m : BoundedMap κ ν n} {k : κ}

lemma lookup_insert_of_room (h : k ∉ m.keys) (hroom : m.keys.card < n) (v : ν) :
    (m.insert k v).lookup = Function.update m.lookup k (some v) := by
  rw [insert, dif_pos ⟨h, hroom⟩]

lemma insert_of_full (hfull : ¬ m.keys.card < n) (v : ν) : m.insert k v = m :=
  dif_neg fun h => hfull h.2

end BoundedMap

end TcpOverUdp
