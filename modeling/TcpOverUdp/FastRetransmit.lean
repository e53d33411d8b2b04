import TcpOverUdp.SenderIndex
import TcpOverUdp.Lib.TrailingRun

namespace TcpOverUdp
open CWord

/-- The server is in its loop, and not in one of the two functions it calls there. -/
def SenderState.inLoop : SenderState → Bool
  | .top | .reading | .cycleEnd | .leaving _ | .done _ => true
  | _ => false

/-- An acknowledgement of data that leaves the window open and asks for a segment below
`2 ^ 31`. -/
def ClientAck.Plain (a : ClientAck) : Prop :=
  a.lastackSent = 0 ∧ a.advtWindow ≠ 0 ∧ a.currentRequest.toNat < 2 ^ 31

instance (a : ClientAck) : Decidable a.Plain := inferInstanceAs (Decidable (_ ∧ _ ∧ _))

namespace Sender

/-- Plain acknowledgements are read whole, and the timer expires in `read` only. -/
def ReadsPlain (s : Sender) : SenderEvent → Bool
  | .go _ => true
  | .read (.complete a) _ => a.Plain
  | .alarm => s.state = .reading
  | _ => false

def ThirdOfRun (requests : List Word) (n : Word) : Prop :=
  ∃ pre, requests = pre ++ [n, n] ∧ pre.getLast? ≠ some n

instance (requests : List Word) (n : Word) : Decidable (ThirdOfRun requests n) :=
  decidable_of_iff (trailing n requests = 2) trailing_eq_iff

lemma thirdOfRun_iff {requests : List Word} {n : Word} :
    ThirdOfRun requests n ↔ trailing n requests = 2 := (trailing_eq_iff (k := 2)).symm

structure Tracks (s : Sender) (requests : List Word) : Prop where
  state : s.state.inLoop = true
  none : requests.getLast? = none → s.lastAckReceived = -1
  some : ∀ n, requests.getLast? = some n →
    s.lastAckReceived = toSigned n ∧ s.duplicateAck + 1 = trailing n requests

@[simp] lemma onAlarm_duplicateAck (s : Sender) : s.onAlarm.1.duplicateAck = s.duplicateAck := by
  unfold onAlarm
  split <;> rfl

variable {cfg : ServerConfig} {s t : Sender} {e : SenderEvent} {outs : List SenderOut}
  {past : List Word}

lemma Tracks.duplicate_iff (h : Tracks s past) {n : Word} (hn : n.toNat < 2 ^ 31) :
    toUnsigned s.lastAckReceived = n ↔ past.getLast? = Option.some n := by
  cases hlast : past.getLast? with
  | none =>
    rw [h.none hlast]
    refine iff_of_false ?_ (by simp)
    rintro rfl
    exact absurd hn (by decide)
  | some m =>
    rw [(h.some m hlast).1, toUnsigned_toSigned, Option.some.injEq]

/-- The block of the third duplicate runs at the third acknowledgement of a run, sends the
segment that is asked for, and nothing else is sent. -/
def FiresOnThird (s : Sender) (past : List Word) (a : ClientAck) (now : TimeVal) (t : Sender)
    (outs : List SenderOut) : Prop :=
  ((t, outs) = fastRetransmit { s.receive (.complete a) with duplicateAck := 2 } now ↔
      ThirdOfRun past a.currentRequest) ∧
    outs = if ThirdOfRun past a.currentRequest then [.segment a.currentRequest.toNat] else []

lemma Tracks.again (h : Tracks s past) {n : Word} (hlast : past.getLast? = Option.some n)
    (hstate : t.state.inLoop = true) (hsame : t.lastAckReceived = s.lastAckReceived)
    (hcount : t.duplicateAck = s.duplicateAck + 1) : Tracks t (past ++ [n]) where
  state := hstate
  none := by simp
  some := by
    intro m hm
    obtain rfl : n = m := by simpa using hm
    obtain ⟨hn, hrun⟩ := h.some n hlast
    rw [hsame, hcount, hrun, trailing_concat_self]
    exact ⟨hn, by push_cast; ring⟩

lemma tracks_new {n : Word} (hlast : past.getLast? ≠ Option.some n)
    (hstate : t.state.inLoop = true) (hnew : t.lastAckReceived = toSigned n)
    (hcount : t.duplicateAck = 0) : Tracks t (past ++ [n]) where
  state := hstate
  none := by simp
  some := by
    intro m hm
    obtain rfl : n = m := by simpa using hm
    rw [hnew, hcount, trailing_concat_self, trailing_eq_zero_iff.mpr hlast]
    exact ⟨rfl, rfl⟩

lemma firesOnThird_of_not {a : ClientAck} {now : TimeVal}
    (hthird : ¬ ThirdOfRun past a.currentRequest) : FiresOnThird s past a now t [] := by
  refine ⟨iff_of_false (fun h => ?_) hthird, (if_neg hthird).symm⟩
  exact absurd (congrArg Prod.snd h) (by simp [fastRetransmit])

lemma Moves.reading {r : ReadResult} {now : TimeVal} (h : Moves cfg s (.read r now) t outs)
    (hloop : s.state.inLoop = true) : s.state = .reading := by
  cases h with
  | lastAck hs => exact hs
  | zeroWindow hs => exact hs
  | duplicate hs => exact hs
  | thirdDuplicate hs => exact hs
  | newAck hs => exact hs
  | cycleDone hs => exact hs
  | readError hs =>
    rcases hs with ⟨p, hs⟩ | hs | ⟨n, a, hs⟩ <;> simp [hs, SenderState.inLoop] at hloop
  | _ hs => simp [hs, SenderState.inLoop] at hloop

lemma Tracks.read (h : Tracks s past) {a : ClientAck} {now : TimeVal} (ha : a.Plain)
    (hmove : Moves cfg s (.read (.complete a) now) t outs) :
    Tracks t (past ++ [a.currentRequest]) ∧ FiresOnThird s past a now t outs := by
  obtain ⟨hnotlast, hopen, hlt⟩ := ha
  have hne : a.lastackSent ≠ 1 := by simp [hnotlast]
  have hdup := h.duplicate_iff hlt
  have hreading := hmove.reading h.state
  cases hmove with
  | lastAck _ hlast => exact absurd hlast hne
  | zeroWindow _ _ hzero => exact absurd hzero hopen
  | duplicate hs _ _ hsame hcount =>
    have hlast := hdup.mp hsame
    refine ⟨h.again hlast (by simp [receive, hs, SenderState.inLoop]) rfl rfl, ?_⟩
    apply firesOnThird_of_not
    rw [thirdOfRun_iff]
    have hrun := (h.some _ hlast).2
    omega
  | thirdDuplicate hs _ _ hsame hcount =>
    have hlast := hdup.mp hsame
    obtain ⟨hn, hrun⟩ := h.some _ hlast
    have hthird : ThirdOfRun past a.currentRequest := thirdOfRun_iff.mpr (by omega)
    refine ⟨h.again hlast (by simp [receive, fastRetransmit, hs, SenderState.inLoop]) rfl rfl, ?_⟩
    refine ⟨iff_of_true ?_ hthird, ?_⟩
    · rw [hcount]
      rfl
    · rw [if_pos hthird, hn, toSigned_of_lt hlt]
  | newAck hs _ _ hnew =>
    have hlast := hdup.not.mp hnew
    refine ⟨tracks_new hlast (by simp [receive, recordAck, hs, SenderState.inLoop]) rfl rfl, ?_⟩
    apply firesOnThird_of_not
    rw [thirdOfRun_iff, trailing_eq_zero_iff.mpr hlast]
    decide
  | cycleDone hs _ _ hnew =>
    have hlast := hdup.not.mp hnew
    refine ⟨tracks_new hlast ?_ rfl rfl, ?_⟩
    · rw [endCycle_of_not_last (show a.lastackSent ≠ 1 from hne)]
      rfl
    · apply firesOnThird_of_not
      rw [thirdOfRun_iff, trailing_eq_zero_iff.mpr hlast]
      decide
  | _ hs => simp [hs] at hreading

lemma Tracks.wait (h : Tracks s past) (hmove : Moves cfg s e t outs)
    (he : (∃ now, e = .go now) ∨ e = .alarm) : Tracks t past := by
  have hloop := h.state
  have hstep : t.state.inLoop = true ∧ t.lastAckReceived = s.lastAckReceived ∧
      t.duplicateAck = s.duplicateAck := by
    cases hmove with
    | burst => exact ⟨rfl, rfl, rfl⟩
    | exhausted => exact ⟨rfl, rfl, rfl⟩
    | nextCycle => exact ⟨rfl, rfl, rfl⟩
    | finish => exact ⟨rfl, rfl, rfl⟩
    | wake hs => simp [hs, SenderState.inLoop] at hloop
    | closed hs => simp [hs, SenderState.inLoop] at hloop
    | closeAgain hs => simp [hs, SenderState.inLoop] at hloop
    | resend hon htry =>
      exact ⟨by rw [onAlarm_of_try htry]; rfl, onAlarm_lastAckReceived s, onAlarm_duplicateAck s⟩
    | giveUp hon hmax =>
      exact ⟨by rw [onAlarm_of_max hmax]; rfl, onAlarm_lastAckReceived s, onAlarm_duplicateAck s⟩
    | _ => simp at he
  obtain ⟨hstate, hsame, hcount⟩ := hstep
  refine ⟨hstate, fun hnone => hsame.trans (h.none hnone), fun n hlast => ?_⟩
  rw [hsame, hcount]
  exact h.some n hlast

def requests (heard : List ClientAck) : List Word := heard.map (·.currentRequest)

lemma tracks_step {x y : Sender × List ClientAck} (h : Tracks x.1 (requests x.2))
    (hplain : x.1.ReadsPlain e = true) (hstep : (hearing cfg).step x e = some y) :
    Tracks y.1 (requests y.2) := by
  obtain ⟨outs, hstep, hheard⟩ := hearing_step hstep
  have hmove := step_moves hstep
  rw [hheard]
  cases e with
  | go now => simpa [heard] using h.wait hmove (Or.inl ⟨now, rfl⟩)
  | alarm => simpa [heard] using h.wait hmove (Or.inr rfl)
  | timeout => cases hplain
  | read r now =>
    cases r with
    | complete a =>
      have hread := (h.read (by simpa [ReadsPlain] using hplain) hmove).1
      have hreading := hmove.reading h.state
      simpa [heard, hreading, requests, ReadResult.over] using hread
    | short a => cases hplain
    | error => cases hplain

/-- Behind every run of plain acknowledgements, the block of the third duplicate runs at the third
of a run of equal requests and at no other. -/
theorem firesOnThird_of_run (cfg : ServerConfig) (start₀ : TimeVal) (es : List SenderEvent)
    {x : Sender × List ClientAck} {a : ClientAck} {now : TimeVal} {t : Sender}
    {outs : List SenderOut}
    (hplain : (hearing cfg).Along (fun x e _ => x.1.ReadsPlain e = true) (start cfg start₀, []) es)
    (hrun : (hearing cfg).run (start cfg start₀, []) es = some x) (ha : a.Plain)
    (hstep : x.1.step cfg (.read (.complete a) now) = some (t, outs)) :
    FiresOnThird x.1 (requests x.2) a now t outs := by
  have hstart : Tracks (start cfg start₀) (requests []) := ⟨rfl, fun _ => rfl, by simp [requests]⟩
  have htracks := Machine.run_invariant_along (P := fun x => Tracks x.1 (requests x.2))
    (fun _ _ _ h hg hstep => tracks_step h hg hstep) hstart hplain hrun
  exact (htracks.read ha (step_moves hstep)).2

def fourSegments : ServerConfig := ⟨.big, .bits64, 2000, by decide, 4, ⟨0, 0, 0⟩, true⟩

def askedTwice : List SenderEvent :=
  [.go ⟨0, 0⟩, .read (.complete ⟨1, 4, 0⟩) ⟨0, 0⟩, .go ⟨0, 0⟩, .go ⟨0, 0⟩,
    .read (.complete ⟨2, 4, 0⟩) ⟨0, 0⟩, .alarm, .read (.complete ⟨2, 4, 0⟩) ⟨0, 0⟩]

theorem firesOnThird_askedTwice :
    ∃ x t outs,
      (hearing fourSegments).run (start fourSegments ⟨0, 0⟩, []) askedTwice = some x ∧
      x.1.step fourSegments (.read (.complete ⟨2, 4, 0⟩) ⟨0, 0⟩) = some (t, outs) ∧
      ThirdOfRun (requests x.2) 2 ∧ FiresOnThird x.1 (requests x.2) ⟨2, 4, 0⟩ ⟨0, 0⟩ t outs := by
  refine ⟨_, _, _, rfl, rfl, by decide +kernel, ?_⟩
  exact firesOnThird_of_run fourSegments ⟨0, 0⟩ askedTwice (by decide +kernel) rfl (by decide) rfl

end Sender

end TcpOverUdp
