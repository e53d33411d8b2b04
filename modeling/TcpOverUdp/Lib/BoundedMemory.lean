import Mathlib

namespace TcpOverUdp

structure BoundedMemory (α : Type*) (n : ℕ) where
  keys : List α
  nodup : keys.Nodup
  length_le : keys.length ≤ n

def AmongFirst {α : Type*} [DecidableEq α] (n : ℕ) (history : List α) (k : α) : Prop :=
  ∃ before after, history = before ++ k :: after ∧ k ∉ before ∧ before.toFinset.card < n

lemma AmongFirst.mem {α : Type*} [DecidableEq α] {n : ℕ} {history : List α} {k : α}
    (h : AmongFirst n history k) : k ∈ history := by
  obtain ⟨before, after, rfl, -, -⟩ := h
  simp

lemma amongFirst_concat {α : Type*} [DecidableEq α] {n : ℕ} {history : List α} {k l : α} :
    AmongFirst n (history ++ [l]) k ↔
      AmongFirst n history k ∨ (k = l ∧ k ∉ history ∧ history.toFinset.card < n) := by
  constructor
  · rintro ⟨before, after, heq, hk, hlt⟩
    rcases List.eq_nil_or_concat after with rfl | ⟨after, x, rfl⟩
    · obtain ⟨rfl, hlast⟩ := List.append_inj' heq rfl
      obtain rfl : l = k := by simpa using hlast
      exact Or.inr ⟨rfl, hk, hlt⟩
    · rw [List.concat_eq_append, ← List.cons_append, ← List.append_assoc] at heq
      obtain ⟨rfl, -⟩ := List.append_inj' heq rfl
      exact Or.inl ⟨before, after, rfl, hk, hlt⟩
  · rintro (⟨before, after, rfl, hk, hlt⟩ | ⟨rfl, hk, hlt⟩)
    · exact ⟨before, after ++ [l], by simp, hk, hlt⟩
    · exact ⟨history, [], rfl, hk, hlt⟩

namespace BoundedMemory

variable {α : Type*} {n : ℕ}

def empty : BoundedMemory α n where
  keys := []
  nodup := List.nodup_nil
  length_le := Nat.zero_le n

variable [DecidableEq α]

/-- The memory after a key has come, which is new and finds room, or leaves it as it is. -/
def insert (m : BoundedMemory α n) (k : α) : BoundedMemory α n :=
  if h : k ∉ m.keys ∧ m.keys.length < n then
    { keys := k :: m.keys
      nodup := List.nodup_cons.mpr ⟨h.1, m.nodup⟩
      length_le := h.2 }
  else m

def ofHistory (n : ℕ) (history : List α) : BoundedMemory α n := history.foldl insert empty

lemma insert_keys_of_room {m : BoundedMemory α n} {k : α} (h : k ∉ m.keys)
    (hroom : m.keys.length < n) : (m.insert k).keys = k :: m.keys := by
  rw [insert, dif_pos ⟨h, hroom⟩]

lemma insert_of_full {m : BoundedMemory α n} (hfull : ¬ m.keys.length < n) (k : α) :
    m.insert k = m := dif_neg fun h => hfull h.2

lemma insert_of_mem {m : BoundedMemory α n} {k : α} (h : k ∈ m.keys) : m.insert k = m :=
  dif_neg fun hc => hc.1 h

lemma mem_insert {m : BoundedMemory α n} {k l : α} :
    l ∈ (m.insert k).keys ↔ l ∈ m.keys ∨ (l = k ∧ m.keys.length < n) := by
  by_cases hk : k ∈ m.keys
  · rw [insert_of_mem hk]
    constructor
    · exact Or.inl
    · rintro (h | ⟨rfl, -⟩)
      · exact h
      · exact hk
  · by_cases hroom : m.keys.length < n
    · rw [insert_keys_of_room hk hroom, List.mem_cons, or_comm]
      simp [hroom]
    · simp [insert_of_full hroom, hroom]

@[simp] lemma ofHistory_nil : (ofHistory n ([] : List α)).keys = [] := rfl

@[simp] lemma ofHistory_concat (history : List α) (k : α) :
    ofHistory n (history ++ [k]) = (ofHistory n history).insert k := by
  simp [ofHistory, List.foldl_append]

lemma mem_ofHistory_of_room {history : List α} (hroom : (ofHistory n history).keys.length < n) :
    ∀ k, k ∈ (ofHistory n history).keys ↔ k ∈ history := by
  induction history using List.reverseRecOn with
  | nil => simp
  | append_singleton history k ih =>
    have hle : (ofHistory n history).keys.length < n := by
      by_contra hfull
      rw [ofHistory_concat, insert_of_full hfull] at hroom
      exact hfull hroom
    intro l
    rw [ofHistory_concat, mem_insert, ih hle]
    simp [hle]

lemma mem_of_mem_ofHistory {history : List α} {k : α} (h : k ∈ (ofHistory n history).keys) :
    k ∈ history := by
  induction history using List.reverseRecOn with
  | nil => exact h
  | append_singleton history l ih =>
    rw [ofHistory_concat, mem_insert] at h
    rcases h with h | ⟨rfl, -⟩
    · exact List.mem_append_left _ (ih h)
    · simp

lemma length_ofHistory_lt_iff (history : List α) :
    (ofHistory n history).keys.length < n ↔ history.toFinset.card < n := by
  have hcard : (ofHistory n history).keys.toFinset.card = (ofHistory n history).keys.length :=
    List.toFinset_card_of_nodup (ofHistory n history).nodup
  constructor
  · intro hroom
    have heq : (ofHistory n history).keys.toFinset = history.toFinset := by
      ext k
      simpa using mem_ofHistory_of_room hroom k
    rw [← heq, hcard]
    exact hroom
  · intro hlt
    have hsub : (ofHistory n history).keys.toFinset ⊆ history.toFinset := by
      intro k hk
      simpa using mem_of_mem_ofHistory (List.mem_toFinset.mp hk)
    have := Finset.card_le_card hsub
    omega

theorem mem_ofHistory_iff (history : List α) (k : α) :
    k ∈ (ofHistory n history).keys ↔ AmongFirst n history k := by
  induction history using List.reverseRecOn with
  | nil => simp [AmongFirst]
  | append_singleton history l ih =>
    rw [ofHistory_concat, mem_insert, amongFirst_concat, ih, length_ofHistory_lt_iff]
    constructor
    · rintro (h | ⟨rfl, hlt⟩)
      · exact Or.inl h
      · by_cases hk : k ∈ history
        · -- with room left, what has come before is remembered
          have hroom := (length_ofHistory_lt_iff history).mpr hlt
          exact Or.inl (ih.mp ((mem_ofHistory_of_room hroom k).mpr hk))
        · exact Or.inr ⟨rfl, hk, hlt⟩
    · rintro (h | ⟨rfl, -, hlt⟩)
      · exact Or.inl h
      · exact Or.inr ⟨rfl, hlt⟩

end BoundedMemory

end TcpOverUdp
