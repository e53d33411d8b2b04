import TcpOverUdp.Lib.Machine

namespace TcpOverUdp

/-- Data in `total` chunks of `size` items, of which the last may be short or empty. -/
structure ChunkStream (β : Type*) where
  data : List β
  size : ℕ
  total : ℕ
  covers : data.length ≤ total * size

namespace ChunkStream

variable {β : Type*} (c : ChunkStream β)

def chunk (n : ℕ) : List β := (c.data.drop (n * c.size)).take c.size

def Follows (n : ℕ) (x : List β) : Prop :=
  if n < c.total then x = c.chunk n else x.length = c.size

instance [DecidableEq β] (n : ℕ) (x : List β) : Decidable (c.Follows n x) :=
  inferInstanceAs (Decidable (ite ..))

/-- The stream as a machine: how many chunks have come out, and what they hold. -/
def machine [DecidableEq β] : Machine (ℕ × List β) (List β) :=
  ⟨fun p x => if c.Follows p.1 x then some (p.1 + 1, p.2 ++ x) else none⟩

/-- What has come out after `n` chunks: the data so far, and what is behind it. -/
def Out (n : ℕ) (out : List β) : Prop :=
  ∃ extra, out = c.data.take (n * c.size) ++ extra ∧ extra.length = (n - c.total) * c.size

variable {c}

lemma follows_of_lt {n : ℕ} {x : List β} (h : n < c.total) : c.Follows n x ↔ x = c.chunk n := by
  rw [Follows, if_pos h]

lemma follows_of_le {n : ℕ} {x : List β} (h : c.total ≤ n) :
    c.Follows n x ↔ x.length = c.size := by
  rw [Follows, if_neg (by omega)]

lemma out_zero : c.Out 0 [] := ⟨[], by simp, by simp⟩

lemma Out.follows {n : ℕ} {out x : List β} (h : c.Out n out) (hx : c.Follows n x) :
    c.Out (n + 1) (out ++ x) := by
  obtain ⟨extra, rfl, hextra⟩ := h
  by_cases hn : n < c.total
  · have hnil : extra = [] := by
      rw [Nat.sub_eq_zero_of_le hn.le, Nat.zero_mul] at hextra
      exact List.length_eq_zero_iff.mp hextra
    rw [follows_of_lt hn] at hx
    refine ⟨[], ?_, ?_⟩
    · rw [hx, hnil, chunk, Nat.succ_mul, List.take_add]
      simp
    · rw [Nat.sub_eq_zero_of_le hn, Nat.zero_mul, List.length_nil]
  · rw [follows_of_le (not_lt.mp hn)] at hx
    have hle : c.total * c.size ≤ n * c.size := Nat.mul_le_mul_right _ (not_lt.mp hn)
    have hle' : n * c.size ≤ (n + 1) * c.size := Nat.mul_le_mul_right _ n.le_succ
    have hcovers := c.covers
    refine ⟨extra ++ x, ?_, ?_⟩
    · rw [List.take_of_length_le (by omega), List.take_of_length_le (by omega), List.append_assoc]
    · rw [List.length_append, hextra, hx, ← Nat.succ_mul]
      congr 1
      omega

lemma Out.eq_take {n : ℕ} {out : List β} (h : c.Out n out) (hn : n ≤ c.total) :
    out = c.data.take (n * c.size) := by
  obtain ⟨extra, rfl, hextra⟩ := h
  rw [Nat.sub_eq_zero_of_le hn, Nat.zero_mul] at hextra
  rw [List.length_eq_zero_iff.mp hextra, List.append_nil]

lemma Out.of_total_le {n : ℕ} {out : List β} (h : c.Out n out) (hn : c.total ≤ n) :
    ∃ extra, out = c.data ++ extra ∧ extra.length = (n - c.total) * c.size := by
  obtain ⟨extra, rfl, hextra⟩ := h
  have hle : c.total * c.size ≤ n * c.size := Nat.mul_le_mul_right _ hn
  have hcovers := c.covers
  exact ⟨extra, by rw [List.take_of_length_le (by omega)], hextra⟩

variable [DecidableEq β]

lemma step_eq_some {p q : ℕ × List β} {x : List β} :
    c.machine.step p x = some q ↔ c.Follows p.1 x ∧ q = (p.1 + 1, p.2 ++ x) := by
  simp [machine, eq_comm]

lemma run_eq_some {n : ℕ} {out : List β} {xs : List (List β)}
    (h : ∀ i (hi : i < xs.length), c.Follows (n + i) xs[i]) :
    c.machine.run (n, out) xs = some (n + xs.length, out ++ xs.flatten) := by
  induction xs generalizing n out with
  | nil => simp
  | cons x xs ih =>
    have hx : c.Follows n x := h 0 (by simp)
    have hrest := @ih (n + 1) (out ++ x) fun i hi => by
      have := h (i + 1) (by simpa using hi)
      rwa [List.getElem_cons_succ, show n + (i + 1) = n + 1 + i by omega] at this
    rw [Machine.run_cons_eq_some]
    refine ⟨_, step_eq_some.mpr ⟨hx, rfl⟩, hrest.trans ?_⟩
    rw [List.length_cons, List.flatten_cons, List.append_assoc]
    congr 2
    omega

theorem out_of_run {p : ℕ × List β} {xs : List (List β)}
    (h : c.machine.run (0, []) xs = some p) : c.Out p.1 p.2 := by
  refine Machine.run_invariant (P := fun p => c.Out p.1 p.2) (fun p x q hp hq => ?_) out_zero h
  obtain ⟨hx, rfl⟩ := step_eq_some.mp hq
  exact hp.follows hx

end ChunkStream

end TcpOverUdp
