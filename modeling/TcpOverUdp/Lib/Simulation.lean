import TcpOverUdp.Lib.Machine

namespace TcpOverUdp

/-- `l` has the members of `l₁` and those of `l₂`, both in their order. -/
inductive Interleaving {α : Type*} : List α → List α → List α → Prop
  | nil : Interleaving [] [] []
  | left {l₁ l₂ l : List α} (a : α) (h : Interleaving l₁ l₂ l) : Interleaving (a :: l₁) l₂ (a :: l)
  | right {l₁ l₂ l : List α} (a : α) (h : Interleaving l₁ l₂ l) : Interleaving l₁ (a :: l₂) (a :: l)

namespace Interleaving

variable {α : Type*} {l₁ l₂ l : List α}

lemma append_left (h : Interleaving l₁ l₂ l) (k : List α) :
    Interleaving (k ++ l₁) l₂ (k ++ l) := by
  induction k with
  | nil => exact h
  | cons a k ih => exact ih.left a

lemma append_right (h : Interleaving l₁ l₂ l) (k : List α) :
    Interleaving l₁ (k ++ l₂) (k ++ l) := by
  induction k with
  | nil => exact h
  | cons a k ih => exact ih.right a

lemma eq_left (h : Interleaving l₁ [] l) : l = l₁ := by
  generalize hnil : ([] : List α) = l₂ at h
  induction h with
  | nil => rfl
  | left a _ ih => rw [ih hnil]
  | right a _ _ => cases hnil

lemma perm (h : Interleaving l₁ l₂ l) : l.Perm (l₁ ++ l₂) := by
  induction h with
  | nil => exact .refl _
  | left a _ ih => exact ih.cons a
  | right a _ ih => exact (ih.cons a).trans List.perm_middle.symm

lemma sublist_left (h : Interleaving l₁ l₂ l) : l₁.Sublist l := by
  induction h with
  | nil => exact .refl _
  | left a _ ih => exact ih.cons_cons a
  | right a _ ih => exact ih.cons a

lemma sublist_right (h : Interleaving l₁ l₂ l) : l₂.Sublist l := by
  induction h with
  | nil => exact .refl _
  | left a _ ih => exact ih.cons a
  | right a _ ih => exact ih.cons_cons a

end Interleaving

namespace Machine

variable {σ τ υ ε δ γ : Type*} {M : Machine σ ε} {N : Machine τ δ} {K : Machine υ γ}

def trace (M : Machine σ ε) (label : σ → ε → σ → List δ) : σ → List ε → List δ
  | _, [] => []
  | s, e :: es =>
    match M.step s e with
    | some t => label s e t ++ trace M label t es
    | none => []

/-- Every step of `M` from a state that `R` relates to one of `N` is matched there by the steps
its label lists. -/
def Simulation (M : Machine σ ε) (N : Machine τ δ) (label : σ → ε → σ → List δ)
    (R : σ → τ → Prop) : Prop :=
  ∀ ⦃s e t a⦄, R s a → M.step s e = some t → ∃ b, N.run a (label s e t) = some b ∧ R t b

variable {label : σ → ε → σ → List δ} {R : σ → τ → Prop} {s t : σ} {a : τ} {es : List ε}

lemma run_singleton {e : ε} (h : M.step s e = some t) : M.run s [e] = some t :=
  run_cons_eq_some.mpr ⟨t, h, rfl⟩

/-- If `f` carries the steps of `M` to those of `N`, and those that cannot happen to such that
cannot, it carries the runs. -/
theorem run_map {N : Machine τ ε} {f : σ → τ}
    (h : ∀ s e, N.step (f s) e = (M.step s e).map f) (s : σ) (es : List ε) :
    N.run (f s) es = (M.run s es).map f := by
  induction es generalizing s with
  | nil => rfl
  | cons e es ih =>
    rw [run, run, h]
    cases M.step s e with
    | none => rfl
    | some t => exact ih t

@[simp] lemma trace_nil : M.trace label s [] = [] := rfl

lemma trace_cons {e : ε} (h : M.step s e = some t) :
    M.trace label s (e :: es) = label s e t ++ M.trace label t es := by
  simp [trace, h]

/-- If each label is that of a first kind and then that of a second, a run shows the two traces
interleaved. -/
theorem trace_interleaves {label₁ label₂ : σ → ε → σ → List δ} {P : σ → Prop}
    (hP : ∀ s e t, P s → M.step s e = some t → P t)
    (hlabel : ∀ s e t, P s → M.step s e = some t → label s e t = label₁ s e t ++ label₂ s e t)
    (hs : P s) (es : List ε) :
    Interleaving (M.trace label₁ s es) (M.trace label₂ s es) (M.trace label s es) := by
  induction es generalizing s with
  | nil => exact .nil
  | cons e es ih =>
    cases hstep : M.step s e with
    | none =>
      simp only [trace, hstep]
      exact .nil
    | some u =>
      rw [trace_cons hstep, trace_cons hstep, trace_cons hstep, hlabel s e u hs hstep,
        List.append_assoc]
      have hrest := ih (hP s e u hs hstep)
      exact (hrest.append_right (label₂ s e u)).append_left (label₁ s e u)

namespace Simulation

theorem run (h : M.Simulation N label R) (hR : R s a) (hrun : M.run s es = some t) :
    ∃ b, N.run a (M.trace label s es) = some b ∧ R t b := by
  induction es generalizing s a with
  | nil =>
    cases hrun
    exact ⟨a, rfl, hR⟩
  | cons e es ih =>
    obtain ⟨u, hu, hrest⟩ := run_cons_eq_some.mp hrun
    obtain ⟨b, hb, hRb⟩ := h hR hu
    obtain ⟨c, hc, hRc⟩ := ih hRb hrest
    refine ⟨c, ?_, hRc⟩
    rw [trace_cons hu, run_append_eq_some]
    exact ⟨b, hb, hc⟩

/-- Simulations compose: the steps of `N` that match a step of `M` are matched in `K`. -/
theorem comp {label' : τ → δ → τ → List γ} {S : τ → υ → Prop} (h : M.Simulation N label R)
    (h' : N.Simulation K label' S) {c : υ} (hR : R s a) (hS : S a c)
    (hrun : M.run s es = some t) :
    ∃ b d, K.run c (N.trace label' a (M.trace label s es)) = some d ∧ R t b ∧ S b d := by
  obtain ⟨b, hb, hRb⟩ := h.run hR hrun
  obtain ⟨d, hd, hSd⟩ := h'.run hS hb
  exact ⟨b, d, hd, hRb, hSd⟩

theorem of_invariant {P : σ → Prop} (hP : ∀ s e t, P s → M.step s e = some t → P t)
    (h : ∀ ⦃s e t a⦄, P s → R s a → M.step s e = some t →
      ∃ b, N.run a (label s e t) = some b ∧ R t b) :
    M.Simulation N label fun s a => P s ∧ R s a := by
  rintro s e t a ⟨hp, hR⟩ hstep
  obtain ⟨b, hb, hRb⟩ := h hp hR hstep
  exact ⟨b, hb, hP s e t hp hstep, hRb⟩

end Simulation

end Machine
end TcpOverUdp
