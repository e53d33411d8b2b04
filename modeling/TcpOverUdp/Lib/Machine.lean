import TcpOverUdp.Lib.CWord

namespace TcpOverUdp

/-- A machine with states `σ` and events `ε`: `step s e` is `none` when `e` is disabled in `s`, or
its effect is undefined. -/
structure Machine (σ ε : Type*) where
  step : σ → ε → Option σ

namespace Machine

variable {σ ε : Type*} (M : Machine σ ε)

def run : σ → List ε → Option σ
  | s, [] => some s
  | s, e :: es => (M.step s e).bind fun t => run t es

def Along (Q : σ → ε → σ → Prop) : σ → List ε → Prop
  | _, [] => True
  | s, e :: es => ∀ t, M.step s e = some t → Q s e t ∧ Along Q t es

instance decidableAlong (Q : σ → ε → σ → Prop) [∀ s e t, Decidable (Q s e t)] :
    ∀ s es, Decidable (M.Along Q s es)
  | _, [] => inferInstanceAs (Decidable True)
  | s, e :: es =>
    match h : M.step s e with
    | none => .isTrue fun t ht => by simp [h] at ht
    | some t =>
      haveI := decidableAlong Q t es
      decidable_of_iff (Q s e t ∧ M.Along Q t es)
        ⟨fun hq u hu => by cases h.symm.trans hu; exact hq, fun hall => hall t h⟩

variable {M}

@[simp] lemma run_nil (s : σ) : M.run s [] = some s := rfl

lemma run_cons_eq_some {s t : σ} {e : ε} {es : List ε} :
    M.run s (e :: es) = some t ↔ ∃ u, M.step s e = some u ∧ M.run u es = some t := by
  simp [run, Option.bind_eq_some_iff]

lemma run_append_eq_some {s t : σ} {es fs : List ε} :
    M.run s (es ++ fs) = some t ↔ ∃ u, M.run s es = some u ∧ M.run u fs = some t := by
  induction es generalizing s with
  | nil => simp
  | cons e es ih =>
    simp only [List.cons_append, run_cons_eq_some, ih]
    constructor
    · rintro ⟨v, hv, u, hu, ht⟩
      exact ⟨u, ⟨v, hv, hu⟩, ht⟩
    · rintro ⟨u, ⟨v, hv, hu⟩, ht⟩
      exact ⟨v, hv, u, hu, ht⟩

lemma run_concat_eq_some {s t : σ} {es : List ε} {e : ε} :
    M.run s (es ++ [e]) = some t ↔ ∃ u, M.run s es = some u ∧ M.step u e = some t := by
  simp [run_append_eq_some, run_cons_eq_some]

theorem run_invariant {P : σ → Prop} (hstep : ∀ s e t, P s → M.step s e = some t → P t)
    {s t : σ} {es : List ε} (hs : P s) (hrun : M.run s es = some t) : P t := by
  induction es generalizing s with
  | nil =>
    cases hrun
    exact hs
  | cons e es ih =>
    obtain ⟨u, hu, hut⟩ := run_cons_eq_some.mp hrun
    exact ih (hstep s e u hs hu) hut

theorem run_invariant_along {P : σ → Prop} {G : σ → ε → σ → Prop}
    (hstep : ∀ s e t, P s → G s e t → M.step s e = some t → P t)
    {s t : σ} {es : List ε} (hs : P s) (hG : M.Along G s es) (hrun : M.run s es = some t) :
    P t := by
  induction es generalizing s with
  | nil =>
    cases hrun
    exact hs
  | cons e es ih =>
    obtain ⟨u, hu, hut⟩ := run_cons_eq_some.mp hrun
    obtain ⟨hg, hrest⟩ := hG u hu
    exact ih (hstep s e u hs hg hu) hrest hut

/-- The invariant rule for properties of the state and of the events before it. -/
theorem run_history {P : List ε → σ → Prop}
    (hstep : ∀ past s e t, P past s → M.step s e = some t → P (past ++ [e]) t)
    {s t : σ} {es : List ε} (hs : P [] s) (hrun : M.run s es = some t) : P es t := by
  induction es using List.reverseRecOn generalizing t with
  | nil =>
    cases hrun
    exact hs
  | append_singleton es e ih =>
    obtain ⟨u, hu, ht⟩ := run_concat_eq_some.mp hrun
    exact hstep es u e t (ih hu) ht

theorem run_history_along {P : List ε → σ → Prop} {G : σ → ε → σ → Prop}
    (hstep : ∀ past s e t, P past s → G s e t → M.step s e = some t → P (past ++ [e]) t)
    {s t : σ} {es : List ε} (hs : P [] s) (hG : M.Along G s es) (hrun : M.run s es = some t) :
    P es t := by
  suffices h : ∀ past, P past s → P (past ++ es) t from h [] hs
  clear hs
  induction es generalizing s with
  | nil =>
    cases hrun
    intro past hs
    rw [List.append_nil]
    exact hs
  | cons e es ih =>
    intro past hs
    obtain ⟨u, hu, hut⟩ := run_cons_eq_some.mp hrun
    obtain ⟨hg, hrest⟩ := hG u hu
    rw [List.append_cons]
    exact ih hrest hut (past ++ [e]) (hstep past s e u hs hg hu)

lemma along_of_forall {Q : σ → ε → σ → Prop} {s : σ} {es : List ε}
    (h : ∀ e ∈ es, ∀ s t, Q s e t) : M.Along Q s es := by
  induction es generalizing s with
  | nil => trivial
  | cons e es ih =>
    intro t _
    exact ⟨h e List.mem_cons_self s t, ih fun e' he' => h e' (List.mem_cons_of_mem e he')⟩

lemma along_iff_of_run {Q : ε → Prop} {s t : σ} {es : List ε} (hrun : M.run s es = some t) :
    M.Along (fun _ e _ => Q e) s es ↔ ∀ e ∈ es, Q e := by
  constructor
  · intro h
    induction es generalizing s with
    | nil => simp
    | cons e es ih =>
      obtain ⟨u, hu, hut⟩ := run_cons_eq_some.mp hrun
      obtain ⟨hq, hrest⟩ := h u hu
      exact List.forall_mem_cons.mpr ⟨hq, ih hut hrest⟩
  · intro h
    exact along_of_forall fun e he _ _ => h e he

lemma along_append {Q : σ → ε → σ → Prop} {s t : σ} {es fs : List ε} (hrun : M.run s es = some t)
    (h : M.Along Q s es) (h' : M.Along Q t fs) : M.Along Q s (es ++ fs) := by
  induction es generalizing s with
  | nil =>
    cases hrun
    exact h'
  | cons e es ih =>
    obtain ⟨u, hu, hrest⟩ := run_cons_eq_some.mp hrun
    intro v hv
    obtain rfl := Option.some.inj (hu.symm.trans hv)
    obtain ⟨hfirst, hmore⟩ := h u hu
    exact ⟨hfirst, ih hrest hmore⟩

lemma along_and {Q R : σ → ε → σ → Prop} {s : σ} {es : List ε} :
    M.Along (fun s e t => Q s e t ∧ R s e t) s es ↔ M.Along Q s es ∧ M.Along R s es := by
  induction es generalizing s with
  | nil => simp [Along]
  | cons e es ih =>
    simp only [Along, ih]
    constructor
    · intro h
      exact ⟨fun t ht => ⟨(h t ht).1.1, (h t ht).2.1⟩, fun t ht => ⟨(h t ht).1.2, (h t ht).2.2⟩⟩
    · intro h t ht
      exact ⟨⟨(h.1 t ht).1, (h.2 t ht).1⟩, (h.1 t ht).2, (h.2 t ht).2⟩

/-- A property `R` of steps follows from `Q` along a run if it does under `P`, which the
steps that satisfy `Q` keep. -/
theorem along_imp_along {P : σ → Prop} {Q R : σ → ε → σ → Prop}
    (hstep : ∀ s e t, P s → Q s e t → M.step s e = some t → P t)
    (hQR : ∀ s e t, P s → M.step s e = some t → Q s e t → R s e t)
    {s : σ} (hs : P s) {es : List ε} (h : M.Along Q s es) : M.Along R s es := by
  induction es generalizing s with
  | nil => trivial
  | cons e es ih =>
    intro t ht
    obtain ⟨hq, hrest⟩ := h t ht
    exact ⟨hQR s e t hs ht hq, ih (hstep s e t hs hq ht) hrest⟩

/-- Two properties of steps that agree under `P` hold together along a run, if the steps that
satisfy them keep `P`. -/
theorem along_congr_along {P : σ → Prop} {Q R : σ → ε → σ → Prop}
    (hstep : ∀ s e t, P s → Q s e t → M.step s e = some t → P t)
    (hQR : ∀ s e t, P s → M.step s e = some t → (Q s e t ↔ R s e t))
    {s : σ} (hs : P s) (es : List ε) : M.Along Q s es ↔ M.Along R s es :=
  ⟨along_imp_along hstep (fun s e t hp ht => (hQR s e t hp ht).mp) hs,
    along_imp_along (fun s e t hp hr ht => hstep s e t hp ((hQR s e t hp ht).mpr hr) ht)
      (fun s e t hp ht => (hQR s e t hp ht).mpr) hs⟩

/-- Along a run that keeps the invariant `P`, a property of steps follows from another one
if it does under `P`. -/
theorem along_imp {P : σ → Prop} {Q R : σ → ε → σ → Prop}
    (hstep : ∀ s e t, P s → M.step s e = some t → P t)
    (hQR : ∀ s e t, P s → M.step s e = some t → Q s e t → R s e t)
    {s : σ} (hs : P s) {es : List ε} (h : M.Along Q s es) : M.Along R s es :=
  along_imp_along (fun s e t hp _ ht => hstep s e t hp ht) hQR hs h

/-- Along a run that keeps the invariant `P`, two properties of steps that agree
under `P` hold together. -/
theorem along_congr {P : σ → Prop} {Q R : σ → ε → σ → Prop}
    (hstep : ∀ s e t, P s → M.step s e = some t → P t)
    (hQR : ∀ s e t, P s → M.step s e = some t → (Q s e t ↔ R s e t))
    {s : σ} (hs : P s) (es : List ε) : M.Along Q s es ↔ M.Along R s es :=
  along_congr_along (fun s e t hp _ ht => hstep s e t hp ht) hQR hs es

/-- The machine with a history variable: what `update` makes of each step. -/
def ghost (M : Machine σ ε) {γ : Type*} (update : σ → ε → σ → γ → γ) : Machine (σ × γ) ε :=
  ⟨fun p e => (M.step p.1 e).map fun t => (t, update p.1 e t p.2)⟩

lemma ghost_step {γ : Type*} {update : σ → ε → σ → γ → γ} {p q : σ × γ} {e : ε} :
    (M.ghost update).step p e = some q ↔
      M.step p.1 e = some q.1 ∧ q.2 = update p.1 e q.1 p.2 := by
  simp only [ghost, Option.map_eq_some_iff]
  constructor
  · rintro ⟨t, ht, rfl⟩
    exact ⟨ht, rfl⟩
  · rintro ⟨ht, hq⟩
    exact ⟨q.1, ht, Prod.ext rfl hq.symm⟩

end Machine

end TcpOverUdp
