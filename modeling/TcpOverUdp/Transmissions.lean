import TcpOverUdp.Integrity
import TcpOverUdp.Windows

namespace TcpOverUdp
open CWord

def SenderOut.number : SenderOut → Option ℤ
  | .segment n => some n
  | .record _ => none

namespace Sender

def sends (cfg : ServerConfig) (s : Sender) (e : SenderEvent) (_ : Sender) : List ℤ :=
  match s.step cfg e with
  | some (_, outs) => outs.filterMap SenderOut.number
  | none => []

def interval (a b : ℤ) : List ℤ := (List.range (b - a).toNat).map fun i : ℕ => a + i

def sendsNew (s : Sender) (_ : SenderEvent) (t : Sender) : List ℤ := interval s.index t.index

instance decidableResends (s : Sender) : ∀ e, Decidable (s.Resends e)
  | .go _ => inferInstanceAs (Decidable (s.state = .probeSleep))
  | .alarm => inferInstanceAs (Decidable ((rttTimeout s.rttinfo).2 = false))
  | .timeout =>
    match h : s.state with
    | .probing p => decidable_of_iff (p.networkTimeout + 1 ≠ 11) (by simp [Resends, h])
    | .top | .reading | .probeSleep | .cycleEnd | .awaitFin | .awaitAck _ _ | .leaving _
    | .done _ => .isFalse (by simp [Resends, h])
  | .read .error _ =>
    decidable_of_iff (s.state = .reading ∧ s.ack.lastackSent ≠ 1 ∧ s.ack.advtWindow ≠ 0 ∧
      toUnsigned s.lastAckReceived = s.ack.currentRequest ∧ s.duplicateAck + 1 = 2)
      (by simp [Resends, ReadResult.over])
  | .read (.complete a) _ | .read (.short a) _ =>
    match h : s.state with
    | .reading =>
      decidable_of_iff (a.lastackSent ≠ 1 ∧ a.advtWindow ≠ 0 ∧
        toUnsigned s.lastAckReceived = a.currentRequest ∧ s.duplicateAck + 1 = 2)
        (by simp [Resends, ReadResult.over, h])
    | .probing p =>
      decidable_of_iff (a.advtWindow = 0 ∧ p.networkTimeout ≠ 11)
        (by simp [Resends, ReadResult.over, h])
    | .top | .probeSleep | .cycleEnd | .awaitFin | .awaitAck _ _ | .leaving _ | .done _ =>
      .isFalse (by simp [Resends, h])

def sendsAgain (s : Sender) (e : SenderEvent) (t : Sender) : List ℤ :=
  if s.Resends e then [toSigned t.ack.currentRequest] else []

variable {cfg : ServerConfig} {s t : Sender} {e : SenderEvent} {outs : List SenderOut}

lemma sends_eq (h : s.step cfg e = some (t, outs)) (u : Sender) :
    s.sends cfg e u = outs.filterMap SenderOut.number := by
  simp [sends, h]

lemma interval_self (a : ℤ) : interval a a = [] := by simp [interval]

lemma interval_append {a b c : ℤ} (hab : a ≤ b) (hbc : b ≤ c) :
    interval a b ++ interval b c = interval a c := by
  obtain ⟨m, rfl⟩ := Int.le.dest hab
  obtain ⟨n, rfl⟩ := Int.le.dest hbc
  have h1 : (a + m - a).toNat = m := by omega
  have h2 : (a + m + n - (a + m)).toNat = n := by omega
  have h3 : (a + m + n - a).toNat = m + n := by omega
  simp only [interval, h1, h2, h3, List.range_add, List.map_append, List.map_map]
  congr 1
  apply List.map_congr_left
  intro i _
  simp only [Function.comp]
  push_cast
  ring

lemma mem_numbers {n : ℤ} : n ∈ outs.filterMap SenderOut.number ↔ .segment n ∈ outs := by
  rw [List.mem_filterMap]
  constructor
  · rintro ⟨o, ho, hn⟩
    cases o with
    | segment m =>
      obtain rfl := Option.some.inj hn
      exact ho
    | record a => cases hn
  · exact fun h => ⟨_, h, rfl⟩

lemma Moves.length_numbers (h : Moves cfg s e t outs) (htop : s.state ≠ .top) :
    (outs.filterMap SenderOut.number).length ≤ 1 := by
  cases h with
  | burst hs => exact absurd hs htop
  -- the close sends records only
  | finAnswered => exact Nat.zero_le 1
  | closeAgain => exact Nat.zero_le 1
  | _ => simp [SenderOut.number]

lemma eq_of_mem_iff {P : Prop} [Decidable P] {l : List ℤ} {a : ℤ} (hlength : l.length ≤ 1)
    (h : ∀ n, n ∈ l ↔ P ∧ n = a) : l = if P then [a] else [] := by
  match l, hlength with
  | [], _ =>
    rw [if_neg]
    intro hP
    exact absurd ((h a).mpr ⟨hP, rfl⟩) List.not_mem_nil
  | [b], _ =>
    obtain ⟨hP, rfl⟩ := (h b).mp (List.mem_singleton_self b)
    rw [if_pos hP]

/-- What a step sends: a burst, or the segment asked for last, if it sends that again. -/
theorem Moves.numbers (h : Moves cfg s e t outs) (hin : InRange s) :
    outs.filterMap SenderOut.number = s.sendsNew e t ++ s.sendsAgain e t := by
  by_cases htop : s.state = .top
  -- at the top of the loop all that is sent is new, elsewhere `index` stays
  · obtain ⟨hagain, -⟩ := h.of_top htop
    rw [sendsAgain, if_neg hagain, List.append_nil, sendsNew]
    obtain ⟨now, -, ⟨-, hindex, rfl⟩ | ⟨hge, rfl⟩⟩ := h.cases_of_top htop
    · have hcount : (t.index - s.index).toNat = s.burstSize.toNat := by omega
      rw [interval, hcount, List.filterMap_map]
      exact congrFun List.filterMap_eq_map _
    · rcases h.counters.1 with hindex | ⟨-, hlt, -⟩
      · rw [hindex, interval_self]
        rfl
      · omega
  · have hindex : t.index = s.index := by
      rcases h.counters.1 with hindex | ⟨hs, -⟩
      · exact hindex
      · exact absurd hs htop
    rw [sendsNew, hindex, interval_self, List.nil_append, sendsAgain]
    refine eq_of_mem_iff (h.length_numbers htop) fun n => ?_
    rw [mem_numbers]
    exact h.segment_mem_iff hin.lastAckReceived htop n

lemma InRange.machine_step (h : InRange s) (hstep : (machine cfg).step s e = some t) :
    InRange t := by
  obtain ⟨outs, hstep⟩ := Sender.machine_step.mp hstep
  exact h.step hstep

lemma index_le_step (hstep : (machine cfg).step s e = some t) : s.index ≤ t.index := by
  obtain ⟨outs, hstep⟩ := Sender.machine_step.mp hstep
  rcases (step_moves hstep).counters.1 with hindex | ⟨-, -, hindex⟩ <;> omega

lemma trace_sendsNew {es : List SenderEvent} (hrun : (machine cfg).run s es = some t) :
    s.index ≤ t.index ∧ (machine cfg).trace sendsNew s es = interval s.index t.index := by
  induction es generalizing s with
  | nil =>
    cases hrun
    exact ⟨le_rfl, (interval_self _).symm⟩
  | cons e es ih =>
    obtain ⟨u, hu, hrun⟩ := Machine.run_cons_eq_some.mp hrun
    obtain ⟨hle, htrace⟩ := ih hrun
    have hfirst := index_le_step hu
    refine ⟨hfirst.trans hle, ?_⟩
    rw [Machine.trace_cons hu, htrace]
    exact interval_append hfirst hle

/-- In every run, whatever the server reads and whenever its timers expire: its segments are the
numbers below `index`, each once and in order, interleaved with those it sends again, which are
those that the record read last asks for. -/
theorem transmissions {now : TimeVal} {es : List SenderEvent}
    (hrun : (machine cfg).run (start cfg now) es = some s) :
    let all := (machine cfg).trace (sends cfg) (start cfg now) es
    let again := (machine cfg).trace sendsAgain (start cfg now) es
    Interleaving (interval 0 s.index) again all ∧ all.Perm (interval 0 s.index ++ again) ∧
      (interval 0 s.index).Sublist all ∧ again.Sublist all ∧
      (again = [] → all = interval 0 s.index) := by
  intro all again
  obtain ⟨-, hnew⟩ := trace_sendsNew hrun
  rw [show (start cfg now).index = 0 from rfl] at hnew
  have hboth : Interleaving (interval 0 s.index) again all := by
    rw [← hnew]
    refine Machine.trace_interleaves (P := InRange) (fun _ _ _ h hstep => h.machine_step hstep)
      (fun s e t h hstep => ?_) (inRange_start now) es
    obtain ⟨outs, hstep⟩ := machine_step.mp hstep
    rw [sends_eq hstep]
    exact (step_moves hstep).numbers h
  refine ⟨hboth, hboth.perm, hboth.sublist_left, hboth.sublist_right, fun hnone => ?_⟩
  rw [hnone] at hboth
  exact hboth.eq_left

def repeatedFirst : List SenderEvent :=
  [.go ⟨0, 0⟩, .alarm, .read (.complete ⟨1, 4, 0⟩) ⟨0, 0⟩, .go ⟨0, 0⟩, .go ⟨0, 0⟩]

theorem transmissions_repeatedFirst :
    ∃ s, (machine eightSegments).run (start eightSegments ⟨0, 0⟩) repeatedFirst = some s ∧
      (machine eightSegments).trace (sends eightSegments) (start eightSegments ⟨0, 0⟩)
        repeatedFirst = [0, 0, 1, 2, 3] ∧
      Interleaving (interval 0 s.index)
        ((machine eightSegments).trace sendsAgain (start eightSegments ⟨0, 0⟩) repeatedFirst)
        ((machine eightSegments).trace (sends eightSegments) (start eightSegments ⟨0, 0⟩)
          repeatedFirst) := by
  have hindex : ((machine eightSegments).run (start eightSegments ⟨0, 0⟩) repeatedFirst).map
      (fun s => s.index) = some 4 := by decide +kernel
  obtain ⟨s, hs, -⟩ := Option.map_eq_some_iff.mp hindex
  exact ⟨s, hs, by decide +kernel, (transmissions hs).1⟩

end Sender

end TcpOverUdp
