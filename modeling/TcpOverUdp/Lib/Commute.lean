import TcpOverUdp.Lib.Machine

namespace TcpOverUdp
namespace Machine

variable {σ ε : Type*} {M : Machine σ ε} {P : σ → Prop} {s t : σ} {e : ε} {es fs : List ε}

/-- The events of a list keep `P`, and where it holds they commute and are idempotent. -/
structure Commute (M : Machine σ ε) (P : σ → Prop) (es : List ε) : Prop where
  keep : ∀ s t, P s → ∀ e ∈ es, M.step s e = some t → P t
  comm : ∀ s, P s → ∀ e ∈ es, ∀ f ∈ es, M.run s [e, f] = M.run s [f, e]
  idem : ∀ s, P s → ∀ e ∈ es, M.run s [e, e] = M.run s [e]

lemma run_cons_eq_bind (s : σ) (e : ε) (es : List ε) :
    M.run s (e :: es) = (M.step s e).bind fun t => M.run t es := rfl

lemma run_append_eq_bind (s : σ) (es fs : List ε) :
    M.run s (es ++ fs) = (M.run s es).bind fun t => M.run t fs := by
  induction es generalizing s with
  | nil => rfl
  | cons e es ih =>
    rw [List.cons_append, run_cons_eq_bind, run_cons_eq_bind, Option.bind_assoc]
    simp only [ih]

lemma run_cons_congr (h : ∀ t, M.step s e = some t → M.run t es = M.run t fs) :
    M.run s (e :: es) = M.run s (e :: fs) := by
  rw [run_cons_eq_bind, run_cons_eq_bind]
  cases hstep : M.step s e with
  | none => rfl
  | some t => exact h t hstep

namespace Commute

lemma mono (h : M.Commute P es) (hsub : fs ⊆ es) : M.Commute P fs where
  keep s t hs e he := h.keep s t hs e (hsub he)
  comm s hs e he f hf := h.comm s hs e (hsub he) f (hsub hf)
  idem s hs e he := h.idem s hs e (hsub he)

theorem run_perm (h : M.Commute P es) (hperm : es.Perm fs) (hs : P s) :
    M.run s es = M.run s fs := by
  induction hperm generalizing s with
  | nil => rfl
  | cons e _ ih =>
    exact run_cons_congr fun t ht =>
      ih (h.mono (List.subset_cons_self _ _)) (h.keep s t hs e List.mem_cons_self ht)
  | swap e f es =>
    have hswap := h.comm s hs f List.mem_cons_self e (by simp)
    rw [← List.singleton_append, ← List.singleton_append (l := es), ← List.append_assoc,
      run_append_eq_bind, List.singleton_append, hswap, ← run_append_eq_bind]
    rfl
  | trans hfirst _ ih₁ ih₂ => exact (ih₁ h hs).trans (ih₂ (h.mono hfirst.symm.subset) hs)

lemma run_cons_of_mem (h : M.Commute P es) (he : e ∈ es) (hs : P s) :
    M.run s (e :: es) = M.run s es := by
  obtain ⟨before, after, rfl⟩ := List.append_of_mem he
  have hperm : (before ++ e :: after).Perm (e :: (before ++ after)) := List.perm_middle
  have hcons : M.Commute P (e :: (before ++ e :: after)) :=
    h.mono (List.cons_subset.mpr ⟨he, List.Subset.refl _⟩)
  calc
    M.run s (e :: (before ++ e :: after)) = M.run s ([e, e] ++ (before ++ after)) :=
      hcons.run_perm (hperm.cons e) hs
    _ = M.run s ([e] ++ (before ++ after)) := by
      rw [run_append_eq_bind, h.idem s hs e he, ← run_append_eq_bind]
    _ = M.run s (before ++ e :: after) := (h.run_perm hperm hs).symm

lemma run_append_of_subset (h : M.Commute P fs) (hsub : es ⊆ fs) (hs : P s) :
    M.run s (es ++ fs) = M.run s fs := by
  induction es with
  | nil => rfl
  | cons e es ih =>
    obtain ⟨he, hrest⟩ := List.cons_subset.mp hsub
    have happ : M.Commute P (es ++ fs) :=
      h.mono (List.append_subset.mpr ⟨hrest, List.Subset.refl _⟩)
    rw [List.cons_append, happ.run_cons_of_mem (List.mem_append_right _ he) hs]
    exact ih hrest

theorem run_eq_of_mem_iff (h : M.Commute P es) (hsame : ∀ e, e ∈ es ↔ e ∈ fs) (hs : P s) :
    M.run s es = M.run s fs := by
  have hes : es ⊆ fs := fun e he => (hsame e).mp he
  have hfs : fs ⊆ es := fun e he => (hsame e).mpr he
  rw [← h.run_append_of_subset hfs hs, ← (h.mono hfs).run_append_of_subset hes hs]
  exact (h.mono (List.append_subset.mpr ⟨hfs, List.Subset.refl _⟩)).run_perm
    List.perm_append_comm hs

end Commute

end Machine
end TcpOverUdp
