import TcpOverUdp.Lib.Machine

namespace TcpOverUdp
namespace Machine

variable {σ ε : Type*} {M : Machine σ ε} {P : σ → Prop} {G : ε → Prop} {s t : σ} {es : List ε}

/-- In a run of events that satisfy `G`, the potential at the start pays for all steps. -/
theorem cost_le_potential (potential : σ → ℕ) (cost : ε → ℕ)
    (hstep : ∀ s e t, P s → G e → M.step s e = some t → P t ∧ potential t + cost e ≤ potential s)
    (hs : P s) (hG : ∀ e ∈ es, G e) (hrun : M.run s es = some t) :
    potential t + (es.map cost).sum ≤ potential s := by
  induction es generalizing s with
  | nil =>
    cases hrun
    simp
  | cons e es ih =>
    obtain ⟨u, hu, hrest⟩ := run_cons_eq_some.mp hrun
    obtain ⟨hG, hGs⟩ := List.forall_mem_cons.mp hG
    obtain ⟨hPu, hpay⟩ := hstep s e u hs hG hu
    have := ih hPu hGs hrest
    rw [List.map_cons, List.sum_cons]
    omega

theorem length_le_potential (potential : σ → ℕ)
    (hstep : ∀ s e t, P s → G e → M.step s e = some t → P t ∧ potential t < potential s)
    (hs : P s) (hG : ∀ e ∈ es, G e) (hrun : M.run s es = some t) :
    potential t + es.length ≤ potential s := by
  have h := cost_le_potential potential (fun _ => 1)
    (fun s e t hP hG ht => ?_) hs hG hrun
  · simpa using h
  · obtain ⟨hPt, hlt⟩ := hstep s e t hP hG ht
    exact ⟨hPt, hlt⟩

end Machine
end TcpOverUdp
