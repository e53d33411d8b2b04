import TcpOverUdp.Delivery
import TcpOverUdp.Lib.Commute
import TcpOverUdp.Lib.Simulation

namespace TcpOverUdp
open CWord

variable {α : Type}

namespace SlidingWindow

def put (s : SlidingWindow α) (j : ℕ) (x : α) : SlidingWindow α :=
  if (s.slidingWindow j).inUse then s
  else { s with slidingWindow := Function.update s.slidingWindow j ⟨true, x⟩ }

def target (s : SlidingWindow α) (index : ℤ) : Except Fault (Option ℕ) := do
  let indexInWindow ← checked (index - s.currentIndex)
  if indexInWindow < 0 ∨ indexInWindow ≥ s.receivingWindowSize then .ok none
  else (s.slotIndex index).map some

def place (s : SlidingWindow α) (x : α) : Option ℕ → SlidingWindow α
  | none => s
  | some j => s.put j x

lemma addSegmentToWindow_eq (s : SlidingWindow α) (x : α) (index : ℤ) :
    s.addSegmentToWindow x index = (s.target index).map (s.place x) := by
  simp only [addSegmentToWindow, target, bind]
  cases checked (index - s.currentIndex) with
  | error f => rfl
  | ok d =>
    simp only [Except.bind]
    split_ifs
    · rfl
    · cases s.slotIndex index with
      | error f => rfl
      | ok j =>
        simp only [Except.map, place, put]
        split_ifs <;> rfl

lemma target_put (s : SlidingWindow α) (j : ℕ) (x : α) (index : ℤ) :
    (s.put j x).target index = s.target index := by
  unfold put
  split_ifs <;> rfl

lemma target_place (s : SlidingWindow α) (o : Option ℕ) (x : α) (index : ℤ) :
    (s.place x o).target index = s.target index := by
  cases o with
  | none => rfl
  | some j => exact target_put s j x index

lemma put_put (s : SlidingWindow α) (j : ℕ) (x : α) : (s.put j x).put j x = s.put j x := by
  have hfull : ((s.put j x).slidingWindow j).inUse = true := by
    unfold put
    split_ifs with h
    · exact h
    · simp
  rw [put, if_pos hfull]

lemma put_comm (s : SlidingWindow α) {i j : ℕ} (hne : i ≠ j) (x y : α) :
    (s.put i x).put j y = (s.put j y).put i x := by
  by_cases hi : (s.slidingWindow i).inUse <;> by_cases hj : (s.slidingWindow j).inUse <;>
    simp [put, hi, hj, hne, hne.symm, Function.update_comm hne]

variable {W : ℕ} {s : SlidingWindow α} {b : ReceiveBuffer α W}

lemma slotIndex_of_target {index : ℤ} {j : ℕ} (h : s.target index = .ok (some j)) :
    s.currentIndex ≤ index ∧ index < s.currentIndex + s.receivingWindowSize ∧
      s.slotIndex index = .ok j := by
  simp only [target, bind, checked_bind_eq_ok] at h
  obtain ⟨-, h⟩ := h
  split_ifs at h with hout
  · cases h
  · cases hslot : s.slotIndex index with
    | error f =>
      rw [hslot] at h
      cases h
    | ok k =>
      rw [hslot] at h
      obtain rfl : k = j := Option.some.inj (Except.ok.inj h)
      exact ⟨by omega, by omega, rfl⟩

lemma Represents.target_inj (h : s.Represents b) {m n : ℤ} {j : ℕ}
    (hm : s.target m = .ok (some j)) (hn : s.target n = .ok (some j)) : m = n := by
  obtain ⟨hm0, hm1, hmj⟩ := slotIndex_of_target hm
  obtain ⟨hn0, hn1, hnj⟩ := slotIndex_of_target hn
  rw [h.next] at hm0 hm1 hn0 hn1
  rw [h.size] at hm1 hn1
  lift m to ℕ using by omega
  lift n to ℕ using by omega
  rw [h.slotIndex_natCast] at hmj hnj
  have hmod : m % W = n % W := (Except.ok.inj hmj).trans (Except.ok.inj hnj).symm
  rw [eq_of_mod_eq (a := b.next) (by omega) (by omega) (by omega) (by omega) hmod]

end SlidingWindow

namespace Receiver

def seen (r : Receiver α) : SlidingWindow α × List (ℤ × α) := (r.window, r.delivered)

def bareStep (p : SlidingWindow α × List (ℤ × α)) :
    Call α → Option (SlidingWindow α × List (ℤ × α))
  | .add buf index => (p.1.addSegmentToWindow buf index).toOption.map fun s => (s, p.2)
  | .fetch =>
    p.1.fetchAndRemoveSegmentFromWindow.toOption.map fun (s, outIndex, outBuf) =>
      (s, p.2 ++ outBuf.toList.map fun x => (outIndex, x))

def bareCalls (α : Type) : Machine (SlidingWindow α × List (ℤ × α)) (Call α) := ⟨bareStep⟩

lemma bareCalls_run (r : Receiver α) (es : List (Call α)) :
    (bareCalls α).run r.seen es = ((calls α).run r es).map seen := by
  refine Machine.run_map (fun r c => ?_) r es
  cases c with
  | add buf index =>
    simp only [bareCalls, bareStep, calls, step, seen, Option.map_map]
    rfl
  | fetch =>
    simp only [bareCalls, bareStep, calls, step, seen, Option.map_map]
    rfl

def arrivals (batch : List (ℤ × α)) : List (Call α) := batch.map fun p => .add p.2 p.1

variable {W : ℕ} {batch : List (ℤ × α)}

def Consistent (batch : List (ℤ × α)) : Prop := ∀ p ∈ batch, ∀ q ∈ batch, p.1 = q.1 → p = q

instance [DecidableEq α] (batch : List (ℤ × α)) : Decidable (Consistent batch) :=
  inferInstanceAs (Decidable (∀ p ∈ batch, _))

def Buffers (W : ℕ) (p : SlidingWindow α × List (ℤ × α)) : Prop :=
  ∃ b : ReceiveBuffer α W, p.1.Represents b

lemma bareStep_add (p : SlidingWindow α × List (ℤ × α)) (x : α) (index : ℤ) :
    bareStep p (.add x index) = (p.1.target index).toOption.map fun o => (p.1.place x o, p.2) := by
  rw [bareStep, SlidingWindow.addSegmentToWindow_eq]
  cases p.1.target index <;> rfl

lemma buffers_step {p q : SlidingWindow α × List (ℤ × α)} {c : Call α} (h : Buffers W p)
    (hstep : bareStep p c = some q) : Buffers W q := by
  obtain ⟨b, hb⟩ := h
  cases c with
  | add buf index =>
    obtain ⟨s, hs, rfl⟩ := Option.map_eq_some_iff.mp hstep
    rw [toOption_eq_some] at hs
    rcases lt_or_ge index b.next with hlt | hge
    · rw [hb.addSegmentToWindow_of_lt hlt hs]
      exact ⟨b, hb⟩
    · lift index to ℕ using by omega
      exact ⟨_, hb.addSegmentToWindow_of_ge (by omega) hs⟩
  | fetch =>
    obtain ⟨⟨s, outIndex, outBuf⟩, hs, rfl⟩ := Option.map_eq_some_iff.mp hstep
    rw [toOption_eq_some] at hs
    cases hheld : b.held b.next with
    | none =>
      obtain ⟨-, -, rfl⟩ := hb.fetch_of_missing hheld hs
      exact ⟨b, hb⟩
    | some x =>
      obtain ⟨-, -, hdrop⟩ := hb.fetch_of_held (by simp [hheld]) hs
      exact ⟨_, hdrop⟩

lemma bareStep_comm {p : SlidingWindow α × List (ℤ × α)} (h : Buffers W p) {m n : ℤ} {x y : α}
    (hsame : m = n → x = y) :
    (bareStep p (.add x m)).bind (fun q => bareStep q (.add y n)) =
      (bareStep p (.add y n)).bind fun q => bareStep q (.add x m) := by
  obtain ⟨b, hb⟩ := h
  -- neither call moves the target of the other: whether one faults depends on `p` alone
  simp only [bareStep_add]
  cases hm : p.1.target m with
  | error f =>
    cases hn : p.1.target n with
    | error g => rfl
    | ok o =>
      simp only [Except.toOption, Option.map_some, Option.map_none, Option.bind_some,
        Option.bind_none, SlidingWindow.target_place, hm]
  | ok o =>
    cases hn : p.1.target n with
    | error g =>
      simp only [Except.toOption, Option.map_some, Option.map_none, Option.bind_some,
        Option.bind_none, SlidingWindow.target_place, hn]
    | ok o' =>
      simp only [Except.toOption, Option.map_some, Option.bind_some, SlidingWindow.target_place,
        hm, hn]
      cases o with
      | none => rfl
      | some i =>
        cases o' with
        | none => rfl
        | some j =>
          -- one slot means one number, and so one content
          by_cases hij : i = j
          · subst hij
            rw [hsame (hb.target_inj hm hn)]
          · simp only [SlidingWindow.place, SlidingWindow.put_comm p.1 hij x y]

lemma bareStep_idem (p : SlidingWindow α × List (ℤ × α)) (x : α) (n : ℤ) :
    (bareStep p (.add x n)).bind (fun q => bareStep q (.add x n)) = bareStep p (.add x n) := by
  simp only [bareStep_add]
  cases hn : p.1.target n with
  | error f => rfl
  | ok o =>
    simp only [Except.toOption, Option.map_some, Option.bind_some, SlidingWindow.target_place, hn]
    cases o with
    | none => rfl
    | some j => simp only [SlidingWindow.place, SlidingWindow.put_put]

theorem commute_arrivals (h : Consistent batch) :
    (bareCalls α).Commute (Buffers W) (arrivals batch) := by
  refine ⟨fun p q hp c _ hstep => buffers_step hp hstep, fun p hp c hc d hd => ?_,
    fun p _ c hc => ?_⟩
  · obtain ⟨⟨m, x⟩, hmem, rfl⟩ := List.mem_map.mp hc
    obtain ⟨⟨n, y⟩, hmem', rfl⟩ := List.mem_map.mp hd
    have hsame : m = n → x = y := fun heq => (Prod.mk.inj (h _ hmem _ hmem' heq)).2
    simpa [Machine.run, bareCalls] using bareStep_comm hp hsame
  · obtain ⟨⟨n, x⟩, -, rfl⟩ := List.mem_map.mp hc
    simpa [Machine.run, bareCalls] using bareStep_idem p x n

/-- The calls of a run: the arrivals of each batch, and a fetch behind it. -/
def schedule (batches : List (List (ℤ × α))) : List (Call α) :=
  batches.flatMap fun batch => arrivals batch ++ [.fetch]

lemma mem_arrivals_iff {batch' : List (ℤ × α)} (hsame : ∀ p, p ∈ batch ↔ p ∈ batch') (c : Call α) :
    c ∈ arrivals batch ↔ c ∈ arrivals batch' := by
  simp only [arrivals, List.mem_map, hsame]

lemma bareCalls_schedule {batches batches' : List (List (ℤ × α))}
    (hsame : List.Forall₂ (fun l l' => ∀ p, p ∈ l ↔ p ∈ l') batches batches')
    (hcons : ∀ l ∈ batches, Consistent l) {p : SlidingWindow α × List (ℤ × α)}
    (hp : Buffers W p) :
    (bareCalls α).run p (schedule batches) = (bareCalls α).run p (schedule batches') := by
  induction hsame generalizing p with
  | nil => rfl
  | @cons l l' batches batches' hl _ ih =>
    obtain ⟨hlcons, hrest⟩ := List.forall_mem_cons.mp hcons
    have hbatch := (commute_arrivals (W := W) hlcons).run_eq_of_mem_iff (mem_arrivals_iff hl) hp
    simp only [schedule, List.flatMap_cons, List.append_assoc]
    rw [Machine.run_append_eq_bind, Machine.run_append_eq_bind, hbatch]
    cases hrun : (bareCalls α).run p (arrivals l') with
    | none => rfl
    | some q =>
      have hq : Buffers W q :=
        Machine.run_invariant (M := bareCalls α) (P := Buffers W)
          (fun _ _ _ h hstep => buffers_step h hstep) hp hrun
      refine Machine.run_cons_congr fun r hr => ?_
      exact ih hrest (buffers_step (c := .fetch) hq hr)

/-- The window and what is handed out depend on which segments arrive between two fetches, and
not on the order in which they arrive, nor on how often. -/
theorem schedule_congr [Inhabited α] (hW : 0 < W) {batches batches' : List (List (ℤ × α))}
    (hsame : List.Forall₂ (fun l l' => ∀ p, p ∈ l ↔ p ∈ l') batches batches')
    (hcons : ∀ l ∈ batches, Consistent l) :
    ((calls α).run (start (W : ℤ)) (schedule batches)).map seen =
      ((calls α).run (start (W : ℤ)) (schedule batches')).map seen := by
  have hstart : Buffers W (start (W : ℤ) : Receiver α).seen :=
    ⟨_, SlidingWindow.represents_init hW⟩
  rw [← bareCalls_run, ← bareCalls_run]
  exact bareCalls_schedule hsame hcons hstart

/-- The second segment comes first and twice, and the third one twice. -/
theorem schedule_congr_repeated :
    ((calls ℕ).run (start (2 : ℕ)) (schedule [[(0, 7), (1, 8)], [(2, 9)]])).map seen =
      ((calls ℕ).run (start (2 : ℕ))
        (schedule [[(1, 8), (0, 7), (1, 8)], [(2, 9), (2, 9)]])).map seen := by
  refine schedule_congr (by decide) (.cons (fun p => ?_) (.cons (fun p => ?_) .nil)) ?_
  · simp only [List.mem_cons, List.not_mem_nil, or_false]
    tauto
  · simp
  · decide

end Receiver

end TcpOverUdp
