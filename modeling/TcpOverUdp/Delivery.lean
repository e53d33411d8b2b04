import TcpOverUdp.SlidingWindow

namespace TcpOverUdp
open CWord

variable {α : Type}

inductive Call (α : Type)
  | add (buf : α) (index : ℤ)
  | fetch

/-- The window with the log of its accepted arrivals and of its successful fetches. -/
structure Receiver (α : Type) where
  window : SlidingWindow α
  accepted : List (ℤ × α)
  delivered : List (ℤ × α)

namespace Receiver

def start [Inhabited α] (receivingWindowSize : ℤ) : Receiver α :=
  ⟨SlidingWindow.init receivingWindowSize, [], []⟩

def afterAdd (r : Receiver α) (s : SlidingWindow α) (buf : α) (index : ℤ) : Receiver α where
  window := s
  accepted :=
    if SlidingWindow.hasStored r.window s index then r.accepted ++ [(index, buf)] else r.accepted
  delivered := r.delivered

def afterFetch (r : Receiver α) (s : SlidingWindow α) (outIndex : ℤ) (outBuf : Option α) :
    Receiver α where
  window := s
  accepted := r.accepted
  delivered := r.delivered ++ outBuf.toList.map fun x => (outIndex, x)

def step (r : Receiver α) : Call α → Option (Receiver α)
  | .add buf index =>
    (r.window.addSegmentToWindow buf index).toOption.map fun s => r.afterAdd s buf index
  | .fetch =>
    r.window.fetchAndRemoveSegmentFromWindow.toOption.map fun (s, outIndex, outBuf) =>
      r.afterFetch s outIndex outBuf

def Accepted (r : Receiver α) (n : ℤ) : Prop := n ∈ r.accepted.map Prod.fst

def Stored (r : Receiver α) (n : ℤ) : Prop := r.Accepted n ∧ n ∉ r.delivered.map Prod.fst

def calls (α : Type) : Machine (Receiver α) (Call α) := ⟨step⟩

structure Follows {W : ℕ} (r : Receiver α) (b : ReceiveBuffer α W) : Prop where
  represents : r.window.Represents b
  accepted_iff : ∀ n, r.Accepted n ↔ ∃ m : ℕ, n = m ∧ b.Taken m
  accepted_nodup : (r.accepted.map Prod.fst).Nodup
  held_mem : ∀ n x, b.held n = some x → ((n : ℤ), x) ∈ r.accepted
  delivered_fst : r.delivered.map Prod.fst = (List.range b.next).map Nat.cast
  delivered_mem : ∀ p ∈ r.delivered, p ∈ r.accepted

variable {W : ℕ} {r r' : Receiver α} {b : ReceiveBuffer α W}

lemma follows_start [Inhabited α] (hW : 0 < W) :
    (start (W : ℤ) : Receiver α).Follows (ReceiveBuffer.empty (W := W)) where
  represents := SlidingWindow.represents_init hW
  accepted_iff n := by simp [start, Accepted, ReceiveBuffer.Taken]
  accepted_nodup := List.nodup_nil
  held_mem n x h := by simp at h
  delivered_fst := rfl
  delivered_mem p h := by simp [start] at h

lemma Follows.length_delivered (h : r.Follows b) : r.delivered.length = b.next := by
  simpa using congrArg List.length h.delivered_fst

lemma Follows.accepted_natCast (h : r.Follows b) (n : ℕ) : r.Accepted n ↔ b.Taken n := by
  rw [h.accepted_iff]
  constructor
  · rintro ⟨m, hm, ht⟩
    rwa [Int.ofNat_inj.mp hm]
  · intro ht
    exact ⟨n, rfl, ht⟩

lemma step_eq_some {c : Call α} (h : r.step c = some r') :
    (∃ buf index s, c = .add buf index ∧ r.window.addSegmentToWindow buf index = .ok s ∧
        r' = r.afterAdd s buf index) ∨
      ∃ s outIndex outBuf, c = .fetch ∧
        r.window.fetchAndRemoveSegmentFromWindow = .ok (s, outIndex, outBuf) ∧
        r' = r.afterFetch s outIndex outBuf := by
  cases c with
  | add buf index =>
    obtain ⟨s, hs, rfl⟩ := Option.map_eq_some_iff.mp h
    exact Or.inl ⟨buf, index, s, rfl, CWord.toOption_eq_some.mp hs, rfl⟩
  | fetch =>
    obtain ⟨⟨s, outIndex, outBuf⟩, hs, rfl⟩ := Option.map_eq_some_iff.mp h
    exact Or.inr ⟨s, outIndex, outBuf, rfl, CWord.toOption_eq_some.mp hs, rfl⟩

lemma Follows.afterAdd_of_lt (h : r.Follows b) {s : SlidingWindow α} {buf : α} {index : ℤ}
    (hlt : index < b.next) (hadd : r.window.addSegmentToWindow buf index = .ok s) :
    r.afterAdd s buf index = r := by
  rw [h.represents.addSegmentToWindow_of_lt hlt hadd, afterAdd, SlidingWindow.hasStored_self]
  rfl

theorem Follows.afterAdd_of_ge (h : r.Follows b) {s : SlidingWindow α} {buf : α} {n : ℕ}
    (hge : b.next ≤ n) (hadd : r.window.addSegmentToWindow buf n = .ok s) :
    (r.afterAdd s buf n).Follows (b.accept n buf) := by
  have hrep := h.represents.addSegmentToWindow_of_ge hge hadd
  by_cases hnew : SlidingWindow.hasStored r.window s n = true
  · obtain ⟨-, hin, hfree⟩ := (h.represents.hasStored_iff hadd).mp hnew
    rw [afterAdd, if_pos hnew]
    have hfresh : ¬ r.Accepted n := by
      rw [h.accepted_natCast]
      rintro (hc | hc)
      · omega
      · simp [hfree] at hc
    refine ⟨hrep, fun m => ?_, ?_, fun m x hx => ?_, ?_, fun p hp => ?_⟩
    · simp only [Accepted, List.map_append, List.mem_append, List.map_cons, List.map_nil,
        List.mem_singleton]
      rw [← Accepted, h.accepted_iff]
      constructor
      · rintro (⟨k, rfl, hk⟩ | rfl)
        · exact ⟨k, rfl, ReceiveBuffer.taken_accept.mpr (Or.inl hk)⟩
        · exact ⟨n, rfl, ReceiveBuffer.taken_accept.mpr (Or.inr ⟨rfl, hge, hin⟩)⟩
      · rintro ⟨k, rfl, hk⟩
        rcases ReceiveBuffer.taken_accept.mp hk with hk | ⟨rfl, -, -⟩
        · exact Or.inl ⟨k, rfl, hk⟩
        · exact Or.inr rfl
    · rw [List.map_append, List.nodup_append]
      refine ⟨h.accepted_nodup, by simp, fun a ha c hc => ?_⟩
      rintro rfl
      simp only [List.map_cons, List.map_nil, List.mem_singleton] at hc
      exact hfresh (hc ▸ ha)
    · by_cases hmn : m = n
      · subst hmn
        rw [ReceiveBuffer.accept_held_self hge hin hfree] at hx
        cases hx
        simp
      · rw [ReceiveBuffer.accept_held_of_ne hmn] at hx
        exact List.mem_append_left _ (h.held_mem m x hx)
    · rw [ReceiveBuffer.accept_next]
      exact h.delivered_fst
    · exact List.mem_append_left _ (h.delivered_mem p hp)
  · rw [afterAdd, if_neg hnew]
    rw [h.represents.hasStored_iff hadd] at hnew
    rw [ReceiveBuffer.accept_of_not hnew] at hrep ⊢
    exact ⟨hrep, h.accepted_iff, h.accepted_nodup, h.held_mem, h.delivered_fst,
      h.delivered_mem⟩

theorem Follows.afterFetch (h : r.Follows b) {s : SlidingWindow α} {outIndex : ℤ}
    {outBuf : Option α}
    (hfetch : r.window.fetchAndRemoveSegmentFromWindow = .ok (s, outIndex, outBuf)) :
    (r.afterFetch s outIndex outBuf).Follows b.deliver := by
  cases hheld : b.held b.next with
  | none =>
    obtain ⟨rfl, rfl, rfl⟩ := h.represents.fetch_of_missing hheld hfetch
    simpa [ReceiveBuffer.deliver, hheld, Receiver.afterFetch] using h
  | some x =>
    have hsome : (b.held b.next).isSome := by simp [hheld]
    obtain ⟨rfl, rfl, hrep⟩ := h.represents.fetch_of_held hsome hfetch
    rw [ReceiveBuffer.deliver, if_pos hsome]
    refine ⟨hrep, fun n => ?_, h.accepted_nodup, fun n y hy => ?_, ?_, fun p hp => ?_⟩
    · simp only [ReceiveBuffer.taken_drop hsome]
      exact h.accepted_iff n
    · have hne : n ≠ b.next := by
        rintro rfl
        simp [ReceiveBuffer.drop] at hy
      rw [ReceiveBuffer.drop_held_of_ne hne] at hy
      exact h.held_mem n y hy
    · simp [Receiver.afterFetch, hheld, h.delivered_fst, List.range_succ]
    · rcases List.mem_append.mp hp with hp | hp
      · exact h.delivered_mem p hp
      · rw [hheld] at hp
        simp only [Option.toList_some, List.map_cons, List.map_nil, List.mem_singleton] at hp
        subst hp
        exact h.held_mem _ x hheld

theorem Follows.exists_afterAdd (h : r.Follows b) {s : SlidingWindow α} {buf : α} {index : ℤ}
    (hadd : r.window.addSegmentToWindow buf index = .ok s) :
    ∃ c : ReceiveBuffer α W, (r.afterAdd s buf index).Follows c ∧ c.next = b.next ∧
      (∀ n, b.Taken n → c.Taken n) ∧
      ∀ n, c.Taken n → b.Taken n ∨ (n : ℤ) = index := by
  by_cases hlt : index < b.next
  · rw [h.afterAdd_of_lt hlt hadd]
    exact ⟨b, h, rfl, fun _ hn => hn, fun _ hn => Or.inl hn⟩
  · obtain ⟨n, rfl⟩ := Int.eq_ofNat_of_zero_le (show 0 ≤ index by omega)
    refine ⟨_, h.afterAdd_of_ge (by omega) hadd, by simp,
      fun m hm => ReceiveBuffer.taken_accept.mpr (Or.inl hm), fun m hm => ?_⟩
    rcases ReceiveBuffer.taken_accept.mp hm with hm | ⟨rfl, -, -⟩
    · exact Or.inl hm
    · exact Or.inr rfl

theorem Follows.step {c : Call α} (h : r.Follows b) (hstep : r.step c = some r') :
    ∃ c : ReceiveBuffer α W, r'.Follows c := by
  rcases step_eq_some hstep with ⟨buf, index, s, -, hadd, rfl⟩ | ⟨s, _, _, -, hfetch, rfl⟩
  · obtain ⟨c, hc, -⟩ := h.exists_afterAdd hadd
    exact ⟨c, hc⟩
  · exact ⟨_, h.afterFetch hfetch⟩

theorem exists_follows [Inhabited α] (hW : 0 < W) {cs : List (Call α)}
    (hrun : (calls α).run (start (W : ℤ)) cs = some r) : ∃ b : ReceiveBuffer α W, r.Follows b :=
  Machine.run_invariant (P := fun r => ∃ b : ReceiveBuffer α W, r.Follows b)
    (fun _ _ _ ⟨_, h⟩ hstep => h.step hstep) ⟨_, follows_start hW⟩ hrun

lemma Follows.stored_natCast (h : r.Follows b) (n : ℕ) : r.Stored n ↔ (b.held n).isSome := by
  rw [Stored, h.accepted_natCast, h.delivered_fst]
  have hmem : (n : ℤ) ∈ (List.range b.next).map Nat.cast ↔ n < b.next := by simp
  rw [hmem]
  constructor
  · rintro ⟨hlt | hheld, hn⟩
    · exact absurd hlt hn
    · exact hheld
  · intro hheld
    exact ⟨Or.inr hheld, by have := (b.held_window n hheld).1; omega⟩

lemma Follows.isLeast_missing (h : r.Follows b) :
    IsLeast {n : ℤ | r.window.currentIndex ≤ n ∧ ¬ r.Stored n} b.missing := by
  constructor
  · refine ⟨?_, ?_⟩
    · rw [h.represents.next]
      exact_mod_cast b.next_le_missing
    · rw [h.stored_natCast, b.held_missing]
      simp
  · rintro n ⟨hn, hfree⟩
    rw [h.represents.next] at hn
    obtain ⟨m, rfl⟩ := Int.eq_ofNat_of_zero_le (show 0 ≤ n by omega)
    rw [h.stored_natCast] at hfree
    by_contra hlt
    have := ReceiveBuffer.taken_of_lt_missing (b := b) (n := m) (by omega)
    exact hfree (this.resolve_left (by omega))

lemma exists_mod_eq {a j W : ℕ} (hj : j < W) : ∃ n, a ≤ n ∧ n < a + W ∧ n % W = j := by
  have hlt : a % W < W := Nat.mod_lt _ (by omega)
  have hdiv := Nat.div_add_mod a W
  rcases Nat.lt_or_ge j (a % W) with hjr | hjr
  · refine ⟨j + W * (a / W + 1), ?_, ?_, ?_⟩
    · rw [Nat.mul_succ]
      omega
    · rw [Nat.mul_succ]
      omega
    · rw [Nat.add_mul_mod_self_left, Nat.mod_eq_of_lt hj]
  · refine ⟨j + W * (a / W), by omega, by omega, ?_⟩
    rw [Nat.add_mul_mod_self_left, Nat.mod_eq_of_lt hj]

lemma Follows.full_iff (h : r.Follows b) :
    (∀ j < W, (r.window.slidingWindow j).inUse = true) ↔ b.missing = b.next + W := by
  rw [b.missing_eq_edge_iff]
  constructor
  · intro hall n h0 h1
    rw [← h.represents.inUse_eq h0 h1]
    exact hall _ (Nat.mod_lt _ h.represents.pos)
  · intro hheld j hj
    obtain ⟨n, h0, h1, rfl⟩ := exists_mod_eq (a := b.next) hj
    rw [h.represents.inUse_eq h0 h1]
    exact hheld n h0 h1

/-- `SlidingWindowGetNextAckIndex` returns the least missing number, and the available
window is within bounds and `0` exactly when all slots are in use. -/
def AckExact (r : Receiver α) : Prop :=
  ∃ n a, r.window.getNextAckIndex = .ok n ∧
    IsLeast {m | r.window.currentIndex ≤ m ∧ ¬ r.Stored m} n ∧
    r.window.getAvailableWindowSize = .ok a ∧ 0 ≤ a ∧ a ≤ r.window.receivingWindowSize ∧
    (a = 0 ↔ ∀ j < r.window.receivingWindowSize.toNat, (r.window.slidingWindow j).inUse = true)

/-- The acknowledgement function is exact in the reachable states with a free slot, and
in no other: with every slot in use it ends without a value.  The second condition says
that the right edge of the window is an `int`. -/
theorem ackExact_iff [Inhabited α] (hW : 0 < W) {cs : List (Call α)}
    (hrun : (calls α).run (start (W : ℤ)) cs = some r) :
    r.AckExact ↔ (∃ j < W, (r.window.slidingWindow j).inUse = false) ∧
      r.window.currentIndex + W < 2 ^ 31 := by
  obtain ⟨b, h⟩ := exists_follows hW hrun
  have hrep := h.represents
  have hfree : (∃ j < W, (r.window.slidingWindow j).inUse = false) ↔ b.missing < b.next + W := by
    have hle := b.missing_le_edge
    have hfull := h.full_iff.not
    push Not at hfull
    simp only [Bool.not_eq_true, ne_eq] at hfull
    rw [hfull]
    omega
  rw [hfree, hrep.next]
  constructor
  · rintro ⟨n, a, hn, -, ha, -⟩
    simp only [SlidingWindow.getAvailableWindowSize, SlidingWindow.availableWindowSize, bind,
      checked_bind_eq_ok, hrep.size, hrep.next] at ha
    have hrange : b.next + W < 2 ^ 31 := by
      have := ha.1.2
      omega
    rw [hrep.getNextAckIndex_eq hrange] at hn
    refine ⟨?_, by omega⟩
    by_contra hc
    rw [if_neg hc] at hn
    cases hn
  · rintro ⟨hmissing, hrange⟩
    have hnext : r.window.getNextAckIndex = .ok (b.missing : ℤ) := by
      rw [hrep.getNextAckIndex_eq (by omega), if_pos hmissing]
    have hge := b.next_le_missing
    refine ⟨b.missing, b.next + W - b.missing, hnext, h.isLeast_missing, ?_, by omega, ?_, ?_⟩
    · have hedge : InInt ((W : ℤ) + b.next) := ⟨by omega, by omega⟩
      have hdiff : InInt ((W : ℤ) + b.next - b.missing) := ⟨by omega, by omega⟩
      simp only [SlidingWindow.getAvailableWindowSize, SlidingWindow.availableWindowSize, bind,
        hnext, hrep.size, hrep.next, checked_of_inInt hedge, ok_bind, checked_of_inInt hdiff]
      rw [add_comm]
    · rw [hrep.size]
      omega
    · rw [hrep.size, Int.toNat_natCast, h.full_iff]
      omega

/-- Segments `0` and `1` have been fetched; `2` and `4` are stored around a hole, `4` in the slot
that `1` had. -/
def aroundHole : List (Call UInt8) := [.add 7 1, .add 8 0, .fetch, .fetch, .add 5 4, .add 6 2]

theorem ackExact_iff_aroundHole :
    ∃ r, (calls UInt8).run (start 3) aroundHole = some r ∧ r.window.currentIndex = 2 ∧
      r.window.getNextAckIndex = .ok 3 ∧ r.AckExact := by
  have hobs : ((calls UInt8).run (start 3) aroundHole).map (fun r => (r.window.currentIndex,
      (r.window.slidingWindow 0).inUse, r.window.getNextAckIndex.toOption)) =
        some (2, false, some 3) := by decide +kernel
  obtain ⟨r, hr, hobs⟩ := Option.map_eq_some_iff.mp hobs
  obtain ⟨hindex, hobs⟩ := Prod.mk.inj hobs
  obtain ⟨hfree, hnext⟩ := Prod.mk.inj hobs
  refine ⟨r, hr, hindex, CWord.toOption_eq_some.mp hnext,
    (ackExact_iff (W := 3) (by decide) hr).mpr ⟨⟨0, by decide, hfree⟩, ?_⟩⟩
  rw [hindex]
  decide

/-- A window of one slot that has accepted segment `0` has no number to ask for. -/
theorem not_ackExact_full :
    ∃ r, (calls UInt8).run (start 1) [.add 7 0] = some r ∧ ¬ r.AckExact := by
  refine ⟨_, rfl, ?_⟩
  rintro ⟨n, a, hn, -⟩
  cases hn

lemma accepted_step {c : Call α} (hstep : r.step c = some r') {p : ℤ × α}
    (hp : p ∈ r'.accepted) : p ∈ r.accepted ∨ c = .add p.2 p.1 := by
  rcases step_eq_some hstep with ⟨buf, index, s, rfl, -, rfl⟩ | ⟨s, _, _, -, -, rfl⟩
  · simp only [afterAdd] at hp
    split at hp
    · rcases List.mem_append.mp hp with hp | hp
      · exact Or.inl hp
      · rw [List.mem_singleton.mp hp]
        exact Or.inr rfl
    · exact Or.inl hp
  · exact Or.inl hp

lemma accepted_mem_calls {cs : List (Call α)} {r₀ : Receiver α}
    (hrun : (calls α).run r₀ cs = some r) {p : ℤ × α} (hp : p ∈ r.accepted) :
    p ∈ r₀.accepted ∨ .add p.2 p.1 ∈ cs := by
  induction cs generalizing r₀ with
  | nil =>
    cases hrun
    exact Or.inl hp
  | cons c cs ih =>
    obtain ⟨r₁, hstep, hrest⟩ := Machine.run_cons_eq_some.mp hrun
    rcases ih hrest with h1 | h1
    · rcases accepted_step hstep h1 with h2 | h2
      · exact Or.inl h2
      · exact Or.inr (by simp [h2])
    · exact Or.inr (List.mem_cons_of_mem _ h1)

/-- In every state a run passes through, the right edge of the window is an `int`. -/
def InRange [Inhabited α] (W : ℕ) (cs : List (Call α)) : Prop :=
  ∀ pre post r, cs = pre ++ post → (calls α).run (start (W : ℤ)) pre = some r →
    r.window.currentIndex + W < 2 ^ 31

lemma length_delivered_step {c : Call α} (hstep : r.step c = some r') :
    r'.delivered.length ≤ r.delivered.length + 1 := by
  rcases step_eq_some hstep with ⟨_, _, _, -, -, rfl⟩ | ⟨s, outIndex, outBuf, -, -, rfl⟩
  · exact Nat.le_succ _
  · cases outBuf <;> simp [afterFetch]

lemma length_delivered_le {cs : List (Call α)} {r₀ : Receiver α}
    (hrun : (calls α).run r₀ cs = some r) :
    r.delivered.length ≤ r₀.delivered.length + cs.length := by
  induction cs generalizing r₀ with
  | nil =>
    cases hrun
    exact Nat.le_add_right _ _
  | cons c cs ih =>
    obtain ⟨r₁, hstep, hrest⟩ := Machine.run_cons_eq_some.mp hrun
    have hfirst := length_delivered_step hstep
    have hlater := ih hrest
    rw [List.length_cons]
    omega

lemma inRange_of_length [Inhabited α] (hW : 0 < W) {cs : List (Call α)}
    (h : cs.length + W < 2 ^ 31) : InRange W cs := by
  rintro pre post r rfl hrun
  obtain ⟨b, hb⟩ := exists_follows hW hrun
  have hle := length_delivered_le hrun
  rw [hb.length_delivered] at hle
  rw [hb.represents.next]
  simp only [start, List.length_nil, List.length_append] at hle h
  omega

lemma exists_run [Inhabited α] (hW : 0 < W) {cs : List (Call α)}
    (hadd : ∀ x i, .add x i ∈ cs → 0 ≤ i ∧ i < 2 ^ 31) (hrange : InRange W cs) :
    ∃ r, (calls α).run (start (W : ℤ)) cs = some r := by
  induction cs using List.reverseRecOn with
  | nil => exact ⟨_, rfl⟩
  | append_singleton cs c ih =>
    obtain ⟨r, hr⟩ := ih (fun x i hx => hadd x i (by simp [hx]))
      fun pre post r hcs hr => hrange pre (post ++ [c]) r (by simp [hcs]) hr
    obtain ⟨b, h⟩ := exists_follows hW hr
    have hlt := hrange cs [c] r rfl hr
    rw [h.represents.next] at hlt
    suffices ∃ t, r.step c = some t by
      obtain ⟨t, ht⟩ := this
      exact ⟨t, Machine.run_concat_eq_some.mpr ⟨r, hr, ht⟩⟩
    cases c with
    | add x i =>
      obtain ⟨h0, h1⟩ := hadd x i (by simp)
      obtain ⟨n, rfl⟩ := Int.eq_ofNat_of_zero_le h0
      obtain ⟨s, hs⟩ := h.represents.addSegmentToWindow_ok (by omega) x (n := n) (by omega)
      exact ⟨_, by rw [Receiver.step, hs]; rfl⟩
    | fetch =>
      obtain ⟨⟨s, out⟩, hs⟩ := h.represents.fetch_ok (by omega)
      exact ⟨_, by rw [Receiver.step, hs]; rfl⟩

/-- In-order, exactly-once delivery.  After any calls, the successful fetches have handed out
the numbers `0, 1, 2, …`, each with the bytes of an arrival of that number; and one more
fetch says `-1` exactly when segment `currentIndex` has not been accepted, and otherwise
hands out that segment. -/
theorem in_order_exactly_once [Inhabited α] (hW : 0 < W) {cs : List (Call α)}
    (hadd : ∀ x i, .add x i ∈ cs → 0 ≤ i ∧ i < 2 ^ 31) (hrange : InRange W cs) :
    ∃ r s outIndex outBuf, (calls α).run (start (W : ℤ)) cs = some r ∧
      r.delivered.map Prod.fst = (List.range r.delivered.length).map Nat.cast ∧
      (∀ p ∈ r.delivered, .add p.2 p.1 ∈ cs) ∧
      (r.accepted.map Prod.fst).Nodup ∧
      r.window.fetchAndRemoveSegmentFromWindow = .ok (s, outIndex, outBuf) ∧
      (outIndex = -1 ↔ ¬ r.Accepted r.window.currentIndex) ∧
      (outIndex ≠ -1 → outIndex = r.delivered.length ∧
        ∃ x, outBuf = some x ∧ .add x outIndex ∈ cs) := by
  obtain ⟨r, hrun⟩ := exists_run hW hadd hrange
  obtain ⟨b, h⟩ := exists_follows hW hrun
  have hlt := hrange cs [] r (by simp) hrun
  rw [h.represents.next] at hlt
  obtain ⟨⟨s, outIndex, outBuf⟩, hfetch⟩ := h.represents.fetch_ok (by omega)
  have hcalls : ∀ p ∈ r.accepted, .add p.2 p.1 ∈ cs := fun p hp =>
    (accepted_mem_calls hrun hp).resolve_left (by simp [start])
  have hlen := h.length_delivered
  refine ⟨r, s, outIndex, outBuf, hrun, by rw [hlen, h.delivered_fst],
    fun p hp => hcalls p (h.delivered_mem p hp), h.accepted_nodup, hfetch, ?_⟩
  rw [h.represents.next, h.accepted_natCast, hlen]
  cases hheld : b.held b.next with
  | none =>
    obtain ⟨rfl, -, -⟩ := h.represents.fetch_of_missing hheld hfetch
    simp [ReceiveBuffer.Taken, hheld]
  | some x =>
    obtain ⟨rfl, rfl, -⟩ := h.represents.fetch_of_held (by simp [hheld]) hfetch
    refine ⟨?_, fun _ => ⟨rfl, x, hheld, hcalls _ (h.held_mem _ x hheld)⟩⟩
    simp only [ReceiveBuffer.Taken, hheld, Option.isSome_some, or_true, not_true_eq_false,
      iff_false]
    omega

/-- Segment `2` is refused and `1` comes twice; after two fetches there is a gap at `2`. -/
def withGap : List (Call UInt8) :=
  [.add 9 2, .add 8 1, .fetch, .add 8 1, .add 7 0, .fetch, .fetch, .add 6 3, .fetch]

theorem in_order_exactly_once_withGap :
    ∃ r s outIndex outBuf, (calls UInt8).run (start (2 : ℕ)) withGap = some r ∧
      r.delivered = [(0, 7), (1, 8)] ∧
      r.delivered.map Prod.fst = (List.range r.delivered.length).map Nat.cast ∧
      (∀ p ∈ r.delivered, .add p.2 p.1 ∈ withGap) ∧
      (r.accepted.map Prod.fst).Nodup ∧
      r.window.fetchAndRemoveSegmentFromWindow = .ok (s, outIndex, outBuf) ∧
      (outIndex = -1 ↔ ¬ r.Accepted r.window.currentIndex) ∧
      (outIndex ≠ -1 → outIndex = r.delivered.length ∧
        ∃ x, outBuf = some x ∧ .add x outIndex ∈ withGap) := by
  have hadd : ∀ x i, Call.add x i ∈ withGap → 0 ≤ i ∧ i < 2 ^ 31 := by
    intro x i hmem
    simp only [withGap, List.mem_cons, Call.add.injEq, reduceCtorEq, List.not_mem_nil,
      or_false, false_or] at hmem
    omega
  obtain ⟨r, s, outIndex, outBuf, hrun, hall⟩ := in_order_exactly_once (W := 2) (by decide) hadd
    (inRange_of_length (by decide) (by decide))
  have hobs : ((calls UInt8).run (start (2 : ℕ)) withGap).map delivered =
      some [(0, 7), (1, 8)] := by decide +kernel
  rw [hrun] at hobs
  exact ⟨r, s, outIndex, outBuf, hrun, Option.some.inj hobs, hall⟩

end Receiver

end TcpOverUdp
