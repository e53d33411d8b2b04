import TcpOverUdp.Lib.Machine

namespace TcpOverUdp

/-- A receive buffer with room for `W` items.  Only numbers inside the window are held. -/
structure ReceiveBuffer (α : Type*) (W : ℕ) where
  next : ℕ
  held : ℕ → Option α
  held_window : ∀ n, (held n).isSome → next ≤ n ∧ n < next + W

namespace ReceiveBuffer

variable {α : Type*} {W : ℕ}

def empty : ReceiveBuffer α W where
  next := 0
  held _ := none
  held_window _ h := absurd h (by simp)

/-- The arrival of item `n`: held if it is inside the window and not held already. -/
def accept (b : ReceiveBuffer α W) (n : ℕ) (x : α) : ReceiveBuffer α W :=
  if h : b.next ≤ n ∧ n < b.next + W ∧ b.held n = none then
    { next := b.next
      held := Function.update b.held n (some x)
      held_window := by
        intro m hm
        by_cases hmn : m = n
        · subst hmn
          exact ⟨h.1, h.2.1⟩
        · rw [Function.update_of_ne hmn] at hm
          exact b.held_window m hm }
  else b

def drop (b : ReceiveBuffer α W) : ReceiveBuffer α W where
  next := b.next + 1
  held := Function.update b.held b.next none
  held_window := by
    intro n hn
    have hne : n ≠ b.next := by
      rintro rfl
      simp at hn
    rw [Function.update_of_ne hne] at hn
    have := b.held_window n hn
    omega

def deliver (b : ReceiveBuffer α W) : ReceiveBuffer α W :=
  if (b.held b.next).isSome then b.drop else b

def Taken (b : ReceiveBuffer α W) (n : ℕ) : Prop := n < b.next ∨ (b.held n).isSome

instance (b : ReceiveBuffer α W) (n : ℕ) : Decidable (b.Taken n) :=
  inferInstanceAs (Decidable (_ ∨ _))

lemma not_taken_edge (b : ReceiveBuffer α W) : ¬ b.Taken (b.next + W) := by
  rintro (h | h)
  · omega
  · have := (b.held_window _ h).2
    omega

lemma exists_not_taken (b : ReceiveBuffer α W) : ∃ n, ¬ b.Taken n := ⟨_, b.not_taken_edge⟩

/-- The least number that is not taken: what a cumulative acknowledgement asks for. -/
def missing (b : ReceiveBuffer α W) : ℕ := Nat.find b.exists_not_taken

lemma not_taken_missing (b : ReceiveBuffer α W) : ¬ b.Taken b.missing :=
  Nat.find_spec b.exists_not_taken

lemma taken_of_lt_missing {b : ReceiveBuffer α W} {n : ℕ} (h : n < b.missing) : b.Taken n :=
  not_not.mp (Nat.find_min b.exists_not_taken h)

lemma missing_le_edge (b : ReceiveBuffer α W) : b.missing ≤ b.next + W :=
  Nat.find_min' b.exists_not_taken b.not_taken_edge

lemma next_le_missing (b : ReceiveBuffer α W) : b.next ≤ b.missing := by
  by_contra h
  exact b.not_taken_missing (Or.inl (by omega))

lemma missing_eq {b : ReceiveBuffer α W} {n : ℕ} (hn : ¬ b.Taken n)
    (hlt : ∀ m < n, b.Taken m) : b.missing = n := by
  have hle : b.missing ≤ n := Nat.find_min' b.exists_not_taken hn
  by_contra hne
  exact b.not_taken_missing (hlt _ (by omega))

theorem missing_mono {V : ℕ} {b : ReceiveBuffer α W} {c : ReceiveBuffer α V}
    (h : ∀ n, b.Taken n → c.Taken n) : b.missing ≤ c.missing := by
  by_contra hlt
  exact c.not_taken_missing (h _ (taken_of_lt_missing (by omega)))

@[simp] lemma empty_next : (empty : ReceiveBuffer α W).next = 0 := rfl

@[simp] lemma empty_held (n : ℕ) : (empty : ReceiveBuffer α W).held n = none := rfl

@[simp] lemma accept_next (b : ReceiveBuffer α W) (n : ℕ) (x : α) :
    (b.accept n x).next = b.next := by
  unfold accept
  split <;> rfl

lemma accept_of_not {b : ReceiveBuffer α W} {n : ℕ} {x : α}
    (h : ¬ (b.next ≤ n ∧ n < b.next + W ∧ b.held n = none)) : b.accept n x = b := dif_neg h

lemma accept_held_self {b : ReceiveBuffer α W} {n : ℕ} {x : α} (h0 : b.next ≤ n)
    (h1 : n < b.next + W) (h2 : b.held n = none) : (b.accept n x).held n = some x := by
  rw [accept, dif_pos ⟨h0, h1, h2⟩]
  exact Function.update_self ..

lemma accept_held_of_ne {b : ReceiveBuffer α W} {m n : ℕ} {x : α} (h : m ≠ n) :
    (b.accept n x).held m = b.held m := by
  unfold accept
  split
  · exact Function.update_of_ne h ..
  · rfl

@[simp] lemma drop_next (b : ReceiveBuffer α W) : b.drop.next = b.next + 1 := rfl

lemma drop_held_of_ne {b : ReceiveBuffer α W} {n : ℕ} (h : n ≠ b.next) :
    b.drop.held n = b.held n := Function.update_of_ne h ..

lemma taken_accept {b : ReceiveBuffer α W} {n : ℕ} {x : α} {m : ℕ} :
    (b.accept n x).Taken m ↔ b.Taken m ∨ (m = n ∧ b.next ≤ n ∧ n < b.next + W) := by
  by_cases h : b.next ≤ n ∧ n < b.next + W ∧ b.held n = none
  · by_cases hm : m = n
    · subst hm
      simp [Taken, accept_held_self h.1 h.2.1 h.2.2, h.1, h.2.1]
    · simp [Taken, accept_held_of_ne hm, hm]
  · rw [accept_of_not h]
    constructor
    · exact Or.inl
    · rintro (hm | ⟨rfl, h0, h1⟩)
      · exact hm
      · right
        rw [Option.isSome_iff_ne_none]
        exact fun h2 => h ⟨h0, h1, h2⟩

lemma taken_drop {b : ReceiveBuffer α W} (h : (b.held b.next).isSome) {m : ℕ} :
    b.drop.Taken m ↔ b.Taken m := by
  by_cases hm : m = b.next
  · subst hm
    simp [Taken, h]
  · have : m < b.next + 1 ↔ m < b.next := by omega
    simp [Taken, drop_held_of_ne hm, this]

@[simp] lemma taken_deliver (b : ReceiveBuffer α W) (m : ℕ) : b.deliver.Taken m ↔ b.Taken m := by
  unfold deliver
  split_ifs with h
  · exact taken_drop h
  · rfl

@[simp] lemma missing_deliver (b : ReceiveBuffer α W) : b.deliver.missing = b.missing :=
  le_antisymm (missing_mono fun _ hn => (b.taken_deliver _).mp hn)
    (missing_mono fun _ hn => (b.taken_deliver _).mpr hn)

lemma next_le_deliver (b : ReceiveBuffer α W) : b.next ≤ b.deliver.next := by
  unfold deliver
  split_ifs
  · exact Nat.le_succ _
  · exact le_rfl

lemma missing_eq_edge_iff (b : ReceiveBuffer α W) :
    b.missing = b.next + W ↔ ∀ n, b.next ≤ n → n < b.next + W → (b.held n).isSome := by
  constructor
  · intro h n h0 h1
    rcases taken_of_lt_missing (b := b) (n := n) (by omega) with hlt | hs
    · omega
    · exact hs
  · intro h
    apply missing_eq b.not_taken_edge
    intro m hm
    by_cases hlt : m < b.next
    · exact Or.inl hlt
    · exact Or.inr (h m (by omega) hm)

lemma missing_eq_next_iff (b : ReceiveBuffer α W) : b.missing = b.next ↔ b.held b.next = none := by
  constructor
  · intro h
    have := b.not_taken_missing
    rw [h, Taken, not_or] at this
    simpa using this.2
  · intro h
    refine missing_eq ?_ fun m hm => Or.inl hm
    simp [Taken, h]

lemma held_missing (b : ReceiveBuffer α W) : b.held b.missing = none := by
  have h := b.not_taken_missing
  rw [Taken, not_or] at h
  simpa using h.2

structure Grows (b c : ReceiveBuffer α W) : Prop where
  next_le : b.next ≤ c.next
  taken : ∀ n, b.Taken n → c.Taken n

lemma Grows.refl (b : ReceiveBuffer α W) : b.Grows b := ⟨le_rfl, fun _ h => h⟩

lemma Grows.trans {b c d : ReceiveBuffer α W} (h : b.Grows c) (h' : c.Grows d) : b.Grows d :=
  ⟨h.next_le.trans h'.next_le, fun n hn => h'.taken n (h.taken n hn)⟩

lemma Grows.missing_le {b c : ReceiveBuffer α W} (h : b.Grows c) : b.missing ≤ c.missing :=
  missing_mono h.taken

lemma grows_deliver (b : ReceiveBuffer α W) : b.Grows b.deliver :=
  ⟨b.next_le_deliver, fun n hn => (b.taken_deliver n).mpr hn⟩

end ReceiveBuffer

end TcpOverUdp
