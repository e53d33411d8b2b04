import TcpOverUdp.Acknowledgements

namespace TcpOverUdp
open CWord

/-- What the file gets of a fetched segment: the last segment of the file is short. -/
def ClientConfig.fileBytes (cfg : ClientConfig) (p : ℤ × Segment) : List UInt8 :=
  if p.1 = cfg.consumerTotal - 1 then
    (List.ofFn p.2.segmentData).take (cfg.fileLength % segmentDataSize).toNat
  else List.ofFn p.2.segmentData

lemma ClientConfig.consumerWrite_eq {cfg : ClientConfig} (hlen : 1 ≤ cfg.fileLength) (n : ℤ)
    (s : Segment) : consumerWrite cfg.sizeT cfg.fileLength n s = cfg.fileBytes (n, s) := by
  have hlt : cfg.fileLength < 2 ^ 31 := (toSigned_inInt _).2
  obtain ⟨l, hl⟩ := Int.eq_ofNat_of_zero_le (show 0 ≤ cfg.fileLength by omega)
  have hrest : cfg.sizeT.ofInt cfg.fileLength % segmentDataSize =
      (cfg.fileLength % segmentDataSize).toNat := by
    rw [hl, SizeT.ofInt_natCast _ (by omega)]
    rfl
  simp only [consumerWrite, fileBytes, consumerTotal, hrest]
  rfl

lemma ClientConfig.consumerTotal_pos {cfg : ClientConfig} (hlen : 1 ≤ cfg.fileLength) :
    1 ≤ cfg.consumerTotal := by
  have hlt : cfg.fileLength < 2 ^ 31 := (toSigned_inInt _).2
  obtain ⟨l, hl⟩ := Int.eq_ofNat_of_zero_le (show 0 ≤ cfg.fileLength by omega)
  rw [consumerTotal, hl, getSegmentCount_eq _ (by omega)]
  omega

def ClientEvent.consumes : ClientEvent → Bool
  | .consume .. => true
  | _ => false

namespace Client

variable {cfg : ClientConfig} {c t : Client} {e : ClientEvent} {outs : List ClientOut} {W : ℕ}
  {b b' : ReceiveBuffer Segment W}

/-- The consumer has written segments of the file and nothing else, each with its length. -/
structure WritesFile (cfg : ClientConfig) (c : Client) : Prop where
  numbers : ∀ p ∈ c.recv.delivered, p.1 < cfg.consumerTotal
  written : c.written = c.recv.delivered.flatMap cfg.fileBytes
  count : c.count ≤ cfg.consumerTotal

structure Tidy (cfg : ClientConfig) (c : Client) : Prop where
  count : c.count = c.recv.delivered.length
  written : c.written = c.recv.delivered.flatMap cfg.fileBytes

lemma Tidy.drain {k : ℕ} (hlen : 1 ≤ cfg.fileLength) (hb : c.recv.Follows b) (h : Tidy cfg c)
    (hdrain : drain cfg k c = .ok t) : Tidy cfg t := by
  induction k generalizing c b with
  | zero =>
    obtain rfl := Except.ok.inj hdrain
    exact h
  | succ k ih =>
    simp only [TcpOverUdp.drain, bind, bind_eq_ok] at hdrain
    obtain ⟨⟨s, outIndex, outBuf⟩, hfetch, hdrain⟩ := hdrain
    have hfollows := hb.afterFetch hfetch
    cases hheld : b.held b.next with
    | none =>
      obtain ⟨rfl, rfl, -⟩ := hb.represents.fetch_of_missing hheld hfetch
      rw [if_neg (show ¬ (-1 : ℤ) ≥ 0 by omega)] at hdrain
      obtain rfl := Except.ok.inj hdrain
      exact ⟨by simp [Receiver.afterFetch, h.count], by simp [Receiver.afterFetch, h.written]⟩
    | some x =>
      obtain ⟨rfl, rfl, -⟩ := hb.represents.fetch_of_held (by simp [hheld]) hfetch
      rw [if_pos (show (b.next : ℤ) ≥ 0 by omega), ClientConfig.consumerWrite_eq hlen] at hdrain
      refine ih hfollows ⟨?_, ?_⟩ hdrain
      · simp [Receiver.afterFetch, hheld, h.count]
      · have hcount : c.count = b.next := by rw [h.count, hb.length_delivered]
        simp [Receiver.afterFetch, hheld, h.written, hcount]

lemma Tidy.writesFile_iff_next_le (hb : c.recv.Follows b) (h : Tidy cfg c) :
    WritesFile cfg c ↔ (b.next : ℤ) ≤ cfg.consumerTotal := by
  have hcount : c.count = b.next := by rw [h.count, hb.length_delivered]
  constructor
  · intro hw
    rw [← hcount]
    exact hw.count
  · intro hle
    refine ⟨fun p hp => ?_, h.written, by omega⟩
    have hmem : p.1 ∈ (List.range b.next).map Nat.cast := by
      rw [← hb.delivered_fst]
      exact List.mem_map_of_mem hp
    obtain ⟨n, hn, hpn⟩ := List.mem_map.mp hmem
    rw [List.mem_range] at hn
    omega

lemma exists_not_accepted_iff (hb : c.recv.Follows b) {n : ℤ} :
    (∃ m, 0 ≤ m ∧ m ≤ n ∧ ¬ c.recv.Accepted m) ↔ (b.missing : ℤ) ≤ n := by
  constructor
  · rintro ⟨m, h0, hm, hfree⟩
    obtain ⟨m, rfl⟩ := Int.eq_ofNat_of_zero_le h0
    rw [hb.accepted_natCast] at hfree
    by_contra hlt
    exact hfree (ReceiveBuffer.taken_of_lt_missing (by omega))
  · intro hle
    refine ⟨b.missing, by omega, hle, ?_⟩
    rw [hb.accepted_natCast]
    exact b.not_taken_missing

/-- What a step does to the counts: a section of the consumer takes everything up to the first
missing segment. -/
lemma step_tidy (hlen : 1 ≤ cfg.fileLength) (hcfg : cfg.receivingWindowSize = W)
    (hb : c.recv.Follows b) (h : Tidy cfg c) (hstep : c.step cfg e = some (t, outs)) :
    ∃ b' : ReceiveBuffer Segment W, t.recv.Follows b' ∧ Tidy cfg t ∧
      b'.next = if e.consumes then b.missing else b.next := by
  cases step_sections hstep with
  | producer _ hsection =>
    rcases producerSection_cases hsection with ⟨-, rfl, -⟩ | ⟨s, n, -, hadd, -, -, rfl⟩
    · exact ⟨b, hb, h, rfl⟩
    · obtain ⟨b', hb', hnext, -⟩ := hb.exists_afterAdd hadd
      exact ⟨b', hb', ⟨h.count, h.written⟩, hnext⟩
  | lastAck => exact ⟨b, hb, ⟨h.count, h.written⟩, rfl⟩
  | consumer _ _ hsection =>
    obtain ⟨w, -, hdrain, -⟩ := consumerSection_cases hsection
    obtain ⟨b', hd⟩ := drain_drained hb hdrain
    refine ⟨b', hd.follows, h.drain hlen hb hdrain, ?_⟩
    have hle := b.missing_le_edge
    rw [hcfg, Int.toNat_natCast] at hd
    exact hd.next_eq (by omega)
  | fin => exact ⟨b, hb, ⟨h.count, h.written⟩, rfl⟩
  | closeRead => exact ⟨b, hb, ⟨h.count, h.written⟩, rfl⟩
  | closeTimeout => exact ⟨b, hb, ⟨h.count, h.written⟩, rfl⟩

lemma SlidingWindow.pos_of_slotIndex {α : Type} {s : SlidingWindow α} {n : ℤ} {j : ℕ}
    (h : s.slotIndex n = .ok j) : 0 < s.receivingWindowSize := by
  simp only [SlidingWindow.slotIndex, bind, bind_eq_ok] at h
  obtain ⟨r, -, h⟩ := h
  split_ifs at h with hr
  omega

structure Idle (c : Client) : Prop where
  size : c.recv.window.receivingWindowSize ≤ 0
  delivered : c.recv.delivered = []
  written : c.written = []
  count : c.count = 0

lemma Idle.step (h : Idle c) (hstep : c.step cfg e = some (t, outs)) :
    Idle t ∧ e.consumes = false := by
  cases step_sections hstep with
  | producer _ hsection =>
    rcases producerSection_cases hsection with ⟨-, rfl, -⟩ | ⟨s, n, -, hadd, -, -, rfl⟩
    · exact ⟨h, rfl⟩
    · refine ⟨⟨?_, h.delivered, h.written, h.count⟩, rfl⟩
      simp only [SlidingWindow.addSegmentToWindow, bind, bind_eq_ok] at hadd
      obtain ⟨i, -, hadd⟩ := hadd
      split_ifs at hadd
      · obtain rfl := Except.ok.inj hadd
        exact h.size
      · obtain ⟨j, hj, -⟩ := bind_eq_ok.mp hadd
        exact absurd (SlidingWindow.pos_of_slotIndex hj) (not_lt.mpr h.size)
  | consumer _ _ hsection =>
    obtain ⟨w, -, hdrain, -⟩ := consumerSection_cases hsection
    simp only [drain, SlidingWindow.fetchAndRemoveSegmentFromWindow, bind, bind_eq_ok] at hdrain
    obtain ⟨x, ⟨j, hj, -⟩, -⟩ := hdrain
    exact absurd (SlidingWindow.pos_of_slotIndex hj) (not_lt.mpr h.size)
  | lastAck => exact ⟨⟨h.size, h.delivered, h.written, h.count⟩, rfl⟩
  | fin => exact ⟨⟨h.size, h.delivered, h.written, h.count⟩, rfl⟩
  | closeRead => exact ⟨⟨h.size, h.delivered, h.written, h.count⟩, rfl⟩
  | closeTimeout => exact ⟨⟨h.size, h.delivered, h.written, h.count⟩, rfl⟩

lemma Idle.writesFile (h : Idle c) (hN : 0 ≤ cfg.consumerTotal) : WritesFile cfg c where
  numbers := by simp [h.delivered]
  written := by simp [h.delivered, h.written]
  count := by rw [h.count]; exact hN

/-- The states in which nothing beyond the file has been written. -/
def Within (cfg : ClientConfig) (c : Client) : Prop :=
  Idle c ∨ ∃ (W : ℕ) (b : ReceiveBuffer Segment W), cfg.receivingWindowSize = W ∧
    c.recv.Follows b ∧ Tidy cfg c ∧ (b.next : ℤ) ≤ cfg.consumerTotal

lemma within_start (hlen : 1 ≤ cfg.fileLength) : Within cfg (start cfg) := by
  have hN := ClientConfig.consumerTotal_pos hlen
  rcases le_or_gt cfg.receivingWindowSize 0 with hW | hW
  · exact Or.inl ⟨hW, rfl, rfl, rfl⟩
  · obtain ⟨W, hcfg⟩ := Int.eq_ofNat_of_zero_le hW.le
    have hfollows : (start cfg).recv.Follows (ReceiveBuffer.empty (W := W)) :=
      start_follows (by omega) hcfg
    refine Or.inr ⟨W, _, hcfg, hfollows, ⟨rfl, rfl⟩, ?_⟩
    rw [ReceiveBuffer.empty_next]
    omega

/-- Nothing beyond the file is written in a run whose consumer finds a segment numbered at most
`totalNumSegments` missing whenever it enters its section, and in no other. -/
theorem writesFile_iff (hlen : 1 ≤ cfg.fileLength) (es : List ClientEvent) :
    (machine cfg).Along (fun _ _ t => WritesFile cfg t) (start cfg) es ↔
      (machine cfg).Along
        (fun c e _ => e.consumes = true →
          ∃ m, 0 ≤ m ∧ m ≤ cfg.consumerTotal ∧ ¬ c.recv.Accepted m) (start cfg) es := by
  have hN := ClientConfig.consumerTotal_pos hlen
  refine Machine.along_congr_along (P := Within cfg) ?_ ?_ (within_start hlen) es
  · rintro c e t (hidle | ⟨W, b, hcfg, hb, htidy, -⟩) hwrites hstep
    · obtain ⟨outs, hstep⟩ := machine_step.mp hstep
      exact Or.inl (hidle.step hstep).1
    · obtain ⟨outs, hstep⟩ := machine_step.mp hstep
      obtain ⟨b', hb', htidy', -⟩ := step_tidy hlen hcfg hb htidy hstep
      exact Or.inr ⟨W, b', hcfg, hb', htidy', (htidy'.writesFile_iff_next_le hb').mp hwrites⟩
  · rintro c e t (hidle | ⟨W, b, hcfg, hb, htidy, hle⟩) hstep
    · obtain ⟨outs, hstep⟩ := machine_step.mp hstep
      obtain ⟨hidle', hno⟩ := hidle.step hstep
      exact iff_of_true (hidle'.writesFile (by omega)) (by simp [hno])
    · obtain ⟨outs, hstep⟩ := machine_step.mp hstep
      obtain ⟨b', hb', htidy', hnext⟩ := step_tidy hlen hcfg hb htidy hstep
      rw [htidy'.writesFile_iff_next_le hb', hnext, exists_not_accepted_iff hb]
      cases e.consumes with
      | true => simp
      | false => simpa using hle

theorem writesFile_in_order :
    (machine ⟨.big, .bits64, 4, 600⟩).Along (fun _ _ t => WritesFile ⟨.big, .bits64, 4, 600⟩ t)
      (start ⟨.big, .bits64, 4, 600⟩)
      [.segment ⟨0, fun _ => 1⟩ false false fun _ => 0, .consume false fun _ => 0,
        .segment ⟨1, fun _ => 2⟩ false false fun _ => 0, .consume false fun _ => 0] := by
  apply (writesFile_iff (by decide) _).mpr
  -- segment 2 never arrives
  refine Machine.along_imp (P := fun _ => True)
    (Q := fun c _ _ => (2 : ℤ) ∉ c.recv.accepted.map Prod.fst) (fun _ _ _ _ _ => trivial)
    (fun c e t _ _ hfree _ => ⟨2, by decide, by decide, hfree⟩) trivial (by decide +kernel)

/-- A burst of segments 1 and 2 of a file of two segments, of which 2 arrives first. -/
theorem not_writesFile :
    ∃ c, (machine ⟨.big, .bits64, 4, 600⟩).run (start ⟨.big, .bits64, 4, 600⟩)
        [.segment ⟨0, fun _ => 1⟩ false false fun _ => 0,
          .segment ⟨2, fun _ => 3⟩ false false fun _ => 0,
          .segment ⟨1, fun _ => 2⟩ false false fun _ => 0, .consume false fun _ => 0] = some c ∧
      ¬ WritesFile ⟨.big, .bits64, 4, 600⟩ c := by
  refine ⟨_, rfl, fun h => ?_⟩
  have := h.count
  revert this
  decide

end Client

end TcpOverUdp
