import TcpOverUdp.ClientMoves

namespace TcpOverUdp
open CWord

namespace ClientOut

def isClose : ClientOut → Bool
  | .ack _ => false
  | .close _ => true

def Plain (o : ClientOut) : Prop := ∃ a, o = .ack a ∧ a.lastackSent ≠ 1

/-- What holds of two datagrams of a client, the first one sent earlier, when the file has `n`
segments. -/
def Before (n : ℕ) : ClientOut → ClientOut → Prop
  | .ack a, .ack a' =>
    a.lastackSent ≠ 1 ∧ a.currentRequest.toNat ≤ a'.currentRequest.toNat ∧
      (a'.lastackSent ≠ 1 → a.currentRequest.toNat < n)
  | _, _ => True

variable {n : ℕ} {log outs : List ClientOut} {o o' : ClientOut}

lemma Before.of_isClose (h : o'.isClose = true) : o.Before n o' := by
  cases o with
  | close a => trivial
  | ack a =>
    cases o' with
    | close a' => trivial
    | ack a' => cases h

lemma Before.isClose {a : ClientAck} (h : Before n (.ack a) o) (hlast : a.lastackSent = 1) :
    o.isClose = true := by
  cases o with
  | close a' => rfl
  | ack a' => exact absurd hlast h.1

/-- The datagrams of a log are in order, and the first of `ActiveClose` is a FIN. -/
structure Ordered (n : ℕ) (log : List ClientOut) : Prop where
  before : log.Pairwise (Before n)
  first : ∀ o ∈ log.find? isClose, o = .close finRecord

lemma Ordered.nil : Ordered n [] := ⟨.nil, by simp⟩

lemma Ordered.append_ack {a : ClientAck} (h : Ordered n log)
    (ha : ∀ o ∈ log, o.Before n (.ack a)) : Ordered n (log ++ [.ack a]) where
  before := by
    rw [List.pairwise_append]
    refine ⟨h.before, List.pairwise_singleton _ _, fun o ho o' ho' => ?_⟩
    obtain rfl := List.mem_singleton.mp ho'
    exact ha o ho
  first := by
    intro o ho
    have hnone : [ClientOut.ack a].find? isClose = none := by simp [isClose]
    rw [List.find?_append, hnone, Option.or_none] at ho
    exact h.first o ho

lemma Ordered.append_closes (h : Ordered n log) (houts : ∀ o ∈ outs, o.isClose = true)
    (hfirst : (∃ o ∈ log, o.isClose = true) ∨ ∀ o ∈ outs, o = .close finRecord) :
    Ordered n (log ++ outs) where
  before := by
    rw [List.pairwise_append]
    refine ⟨h.before, ?_, fun o _ o' ho' => .of_isClose (houts o' ho')⟩
    exact List.pairwise_of_forall_mem_list fun o _ o' ho' => .of_isClose (houts o' ho')
  first := by
    intro o ho
    rw [List.find?_append, Option.mem_def, Option.or_eq_some_iff] at ho
    rcases ho with ho | ⟨hnone, ho⟩
    · exact h.first o ho
    · rcases hfirst with ⟨c, hc, hclose⟩ | hfin
      · exact absurd hclose (List.find?_eq_none.mp hnone c hc)
      · exact hfin o (List.mem_of_find?_eq_some ho)

lemma Ordered.eq_fin_of_isClose {done rest : List ClientOut} (h : Ordered n (done ++ o :: rest))
    (hacks : ∀ o ∈ done, o.isClose = false) (hclose : o.isClose = true) :
    o = .close finRecord := by
  have hnone : done.find? isClose = none := by
    rw [List.find?_eq_none]
    intro o' ho'
    simp [hacks o' ho']
  apply h.first
  rw [List.find?_append, hnone, Option.none_or, List.find?_cons_of_pos hclose]
  rfl

lemma Ordered.eq_fin {done rest : List ClientOut} {a : ClientAck}
    (h : Ordered n (done ++ o :: rest)) (hacks : ∀ o ∈ done, o.isClose = false)
    (ha : .ack a ∈ done) (hlast : a.lastackSent = 1) : o = .close finRecord := by
  obtain ⟨-, -, hcross⟩ := List.pairwise_append.mp h.before
  exact h.eq_fin_of_isClose hacks ((hcross _ ha o List.mem_cons_self).isClose hlast)

end ClientOut

namespace Client

/-- The log of a client whose receive buffer is `b`: the producer receives while a segment of
the file is missing, and the last acknowledgement and the records of `ActiveClose` have their
places in the two threads. -/
structure Logs {W : ℕ} (n : ℕ) (c : Client) (b : ReceiveBuffer Segment W)
    (log : List ClientOut) : Prop where
  ordered : ClientOut.Ordered n log
  bound : ∀ a, .ack a ∈ log → a.currentRequest.toNat ≤ b.missing
  receiving : c.producer = .receiving → b.missing < n ∧ c.lastack = false
  received : c.producer ≠ .receiving → n ≤ b.missing ∧ c.lastack = true
  unmarked : c.producer ≠ .finished → ∀ a, .ack a ∈ log → a.lastackSent ≠ 1
  closing : c.consumer ≠ .draining → ∃ o ∈ log, o.isClose = true

variable {W n : ℕ} {cfg : ClientConfig} {c t : Client} {e : ClientEvent}
  {log outs : List ClientOut} {b b' : ReceiveBuffer Segment W}

lemma exactAck_request {lastack : Bool} (hedge : b.next + W < 2 ^ 31) :
    (exactAck .big lastack b).currentRequest.toNat = b.missing := by
  have hle := b.missing_le_edge
  have hnat := toNat_toUnsigned (x := b.missing) (by omega) (by omega)
  simp only [exactAck, htonl_big]
  omega

lemma Logs.append_ack {lastack drop : Bool} (h : Logs n c b log) (hmono : b.missing ≤ b'.missing)
    (hun : c.producer ≠ .finished) (hnew : lastack = false → b.missing < n)
    (houts : outs = if drop then [] else [.ack (exactAck .big lastack b')])
    (hedge : drop = false → b'.next + W < 2 ^ 31) :
    ClientOut.Ordered n (log ++ outs) ∧ (∀ a, .ack a ∈ log ++ outs →
      a.currentRequest.toNat ≤ b'.missing) ∧
      (lastack = false → ∀ a, .ack a ∈ log ++ outs → a.lastackSent ≠ 1) := by
  cases drop with
  | true =>
    obtain rfl : outs = [] := houts
    rw [List.append_nil]
    exact ⟨h.ordered, fun a ha => (h.bound a ha).trans hmono, fun _ => h.unmarked hun⟩
  | false =>
    obtain rfl : outs = [.ack (exactAck .big lastack b')] := houts
    have hreq : (exactAck .big lastack b').currentRequest.toNat = b'.missing :=
      exactAck_request (hedge rfl)
    refine ⟨h.ordered.append_ack fun o ho => ?_, fun a ha => ?_, fun hlast a ha => ?_⟩
    · cases o with
      | close a => trivial
      | ack a =>
        have hle := h.bound a ho
        refine ⟨h.unmarked hun a ho, by omega, fun hlast => ?_⟩
        have := hnew (by cases lastack <;> simp_all [exactAck])
        omega
    · rcases List.mem_append.mp ha with ha | ha
      · exact (h.bound a ha).trans hmono
      · obtain rfl : a = exactAck .big lastack b' := by simpa using ha
        exact hreq.le
    · rcases List.mem_append.mp ha with ha | ha
      · exact h.unmarked hun a ha
      · obtain rfl : a = exactAck .big lastack b' := by simpa using ha
        simp [exactAck, hlast]

lemma logs_start (hn : 1 ≤ n) (b : ReceiveBuffer Segment W) (hb : b.missing = 0) :
    Logs n (start cfg) b [] where
  ordered := .nil
  bound := by simp
  receiving _ := ⟨by omega, rfl⟩
  received h := absurd rfl h
  unmarked := by simp
  closing h := absurd rfl h

lemma Logs.drained {k : ℕ} (h : Logs n c b log) (hd : Drained k c b t b') : Logs n t b' log where
  ordered := h.ordered
  bound a ha := hd.missing_eq ▸ h.bound a ha
  receiving := by
    rw [hd.producer, hd.missing_eq, hd.lastack]
    exact h.receiving
  received := by
    rw [hd.producer, hd.missing_eq, hd.lastack]
    exact h.received
  unmarked := by
    rw [hd.producer]
    exact h.unmarked
  closing := by
    rw [hd.consumer]
    exact h.closing

lemma Logs.exists_isClose (h : Logs n c b log) (hc : c.consumer ≠ .draining)
    (outs : List ClientOut) : ∃ o ∈ log ++ outs, o.isClose = true := by
  obtain ⟨o, ho, hclose⟩ := h.closing hc
  exact ⟨o, List.mem_append_left _ ho, hclose⟩

theorem Logs.step (h : Logs n c b log) (hhost : cfg.host = .big) (hprod : cfg.producerTotal = n)
    (hcons : cfg.consumerTotal = n) (hmove : Moves cfg c b e t b' outs) :
    Logs n t b' (log ++ outs) := by
  cases hmove with
  | lost =>
    rw [List.append_nil]
    exact h
  | segment hstate hfollows hnext hgrows houts hedge =>
    have hmono := hgrows.missing_le
    obtain ⟨hmissing, hlast⟩ := h.receiving hstate
    rw [hhost, hlast] at houts
    obtain ⟨hordered, hbound, hplain⟩ :=
      h.append_ack hmono (by simp [hstate]) (fun _ => hmissing) houts hedge
    refine ⟨hordered, hbound, fun hp => ?_, fun hp => ?_, fun _ => hplain rfl,
      fun hc => h.exists_isClose hc outs⟩
    · by_cases hall : cfg.producerTotal ≤ b'.missing
      · simp [hall] at hp
      · exact ⟨by omega, by simp [hall, hlast]⟩
    · by_cases hall : cfg.producerTotal ≤ b'.missing
      · exact ⟨by omega, by simp [hall]⟩
      · simp [hall] at hp
  | lastAck hstate houts hedge =>
    obtain ⟨hall, hlast⟩ := h.received (by simp [hstate])
    rw [hhost, hlast] at houts
    obtain ⟨hordered, hbound, -⟩ := h.append_ack le_rfl (by simp [hstate]) (by simp) houts hedge
    exact ⟨hordered, hbound, by simp, fun _ => ⟨hall, hlast⟩, fun hp => absurd rfl hp,
      fun hc => h.exists_isClose hc outs⟩
  | consume hstate hmore hd =>
    rw [List.append_nil]
    exact h.drained hd
  | update hstate hmore hd hneed houts hedge =>
    replace h := h.drained hd
    -- the producer receives, or nothing would be needed
    have hprod : t.producer = .receiving := by
      by_contra hp
      have := (h.received hp).1
      omega
    obtain ⟨hlt, hlast⟩ := h.receiving hprod
    rw [hhost, ← hd.lastack, hlast] at houts
    obtain ⟨hordered, hbound, hplain⟩ :=
      h.append_ack le_rfl (by simp [hprod]) (fun _ => hlt) houts hedge
    exact ⟨hordered, hbound, h.receiving, h.received, fun _ => hplain rfl,
      fun hc => h.exists_isClose hc outs⟩
  | fin hstate hall =>
    have hfin : { finRecord with currentRequest := htonl cfg.host finRequest } = finRecord := by
      rw [hhost, htonl_big]
      rfl
    rw [hfin]
    refine ⟨h.ordered.append_closes (by simp [ClientOut.isClose]) (Or.inr (by simp)), ?_,
      h.receiving, h.received, ?_, fun _ => ⟨.close finRecord, by simp, rfl⟩⟩
    · simpa using h.bound
    · simpa using h.unmarked
  | close hstate hc houts =>
    have hdone : c.consumer ≠ .draining := by simp [hstate]
    have hclose : ∀ o ∈ outs, o.isClose = true := by
      intro o ho
      obtain ⟨a, rfl⟩ := houts o ho
      rfl
    have hacks : ∀ a, .ack a ∈ log ++ outs → .ack a ∈ log := by
      intro a ha
      rcases List.mem_append.mp ha with ha | ha
      · exact ha
      · cases hclose _ ha
    exact ⟨h.ordered.append_closes hclose (Or.inl (h.closing hdone)),
      fun a ha => h.bound a (hacks a ha), h.receiving, h.received,
      fun hp a ha => h.unmarked hp a (hacks a ha), fun _ => h.exists_isClose hdone outs⟩

end Client

end TcpOverUdp
