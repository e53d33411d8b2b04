import Mathlib

namespace TcpOverUdp

/-- What a channel can do to the messages in flight. -/
inductive Discipline
  /-- loss, duplication, delay and reordering: any message sent can come, any number of times -/
  | unreliable
  /-- loss only: a message that comes leaves those sent before it behind -/
  | lossyFifo
  /-- neither -/
  | reliableFifo
  deriving DecidableEq, Repr

namespace Discipline

variable {α : Type*}

def receive (d : Discipline) (flight : List α) (i : ℕ) : Option (α × List α) :=
  match d, flight[i]? with
  | .unreliable, some m => some (m, flight)
  | .lossyFifo, some m => some (m, flight.drop (i + 1))
  | .reliableFifo, some m => if i = 0 then some (m, flight.tail) else none
  | _, none => none

theorem receive_map {β : Type*} (d : Discipline) (f : α → β) (flight : List α) (i : ℕ) :
    d.receive (flight.map f) i = (d.receive flight i).map fun p => (f p.1, p.2.map f) := by
  simp only [receive, List.getElem?_map]
  cases flight[i]? with
  | none => cases d <;> rfl
  | some m =>
    cases d with
    | unreliable => rfl
    | lossyFifo => simp only [Option.map_some, List.map_drop]
    | reliableFifo =>
      split_ifs
      · simp only [Option.map_some, List.map_tail]
      · rfl

theorem mem_of_receive {d : Discipline} {flight rest : List α} {i : ℕ} {m : α}
    (h : d.receive flight i = some (m, rest)) : m ∈ flight ∧ ∀ x ∈ rest, x ∈ flight := by
  unfold receive at h
  split at h
  · rename_i hm
    obtain ⟨rfl, rfl⟩ := Prod.mk.inj (Option.some.inj h)
    exact ⟨List.mem_of_getElem? hm, fun _ hx => hx⟩
  · rename_i hm
    obtain ⟨rfl, rfl⟩ := Prod.mk.inj (Option.some.inj h)
    exact ⟨List.mem_of_getElem? hm, fun _ hx => List.mem_of_mem_drop hx⟩
  · rename_i hm
    split_ifs at h
    obtain ⟨rfl, rfl⟩ := Prod.mk.inj (Option.some.inj h)
    exact ⟨List.mem_of_getElem? hm, fun _ hx => List.mem_of_mem_tail hx⟩
  · cases h

/-- A channel that loses without reordering hands over a message behind some that are lost. -/
theorem receive_lossyFifo {flight rest : List α} {i : ℕ} {m : α}
    (h : lossyFifo.receive flight i = some (m, rest)) : ∃ lost, flight = lost ++ m :: rest := by
  unfold receive at h
  split at h
  · contradiction
  · rename_i hm
    obtain ⟨rfl, rfl⟩ := Prod.mk.inj (Option.some.inj h)
    obtain ⟨hi, rfl⟩ := List.getElem?_eq_some_iff.mp hm
    refine ⟨flight.take i, ?_⟩
    rw [← List.drop_eq_getElem_cons hi, List.take_append_drop]
  · contradiction
  · cases h

theorem receive_reliableFifo {flight rest : List α} {i : ℕ} {m : α}
    (h : reliableFifo.receive flight i = some (m, rest)) : flight = m :: rest := by
  unfold receive at h
  split at h
  · contradiction
  · contradiction
  · rename_i hm
    split_ifs at h with hi
    obtain ⟨rfl, rfl⟩ := Prod.mk.inj (Option.some.inj h)
    subst hi
    cases flight with
    | nil => cases hm
    | cons x l => rw [Option.some.inj hm, List.tail_cons]
  · cases h

end Discipline

end TcpOverUdp
