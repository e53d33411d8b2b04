import TcpOverUdp.Consumer
import TcpOverUdp.Parties
import TcpOverUdp.Lib.ChunkStream

namespace TcpOverUdp
open CWord

/-- What arrives of a file: all of it, unless its last segment is full. -/
def arriving (file : List UInt8) : List UInt8 :=
  file.take (((file.length + 507) / 508 - 1) * 508 + file.length % 508)

/-- The chunks of a file.  The last segment of a file that fills it arrives empty. -/
def fileStream (file : List UInt8) : ChunkStream UInt8 where
  data := arriving file
  size := segmentDataSize
  total := (file.length + 507) / 508
  covers := by
    rw [arriving, List.length_take, segmentDataSize_eq]
    omega

variable {file : List UInt8} {k : ℕ}

lemma fileStream_chunk (hk : k < (file.length + 507) / 508) :
    (fileStream file).chunk k = (file.drop (k * 508)).take (bytesInSegment file.length k) := by
  simp only [ChunkStream.chunk, fileStream, arriving, segmentDataSize_eq, List.drop_take,
    List.take_take]
  congr 1
  unfold bytesInSegment
  split_ifs <;> omega

lemma arriving_eq_iff : arriving file = file ↔ file = [] ∨ file.length % 508 ≠ 0 := by
  rw [arriving, List.take_eq_self_iff, ← List.length_eq_zero_iff]
  omega

/-- A segment that has the bytes of the file that belong to its number, if the table has it. -/
def Carries (file : List UInt8) (p : ℤ × Segment) : Prop :=
  ∀ k : ℕ, p.1 = k → k < (file.length + 507) / 508 →
    (List.ofFn p.2.segmentData).take (bytesInSegment file.length k) =
      (file.drop (k * 508)).take (bytesInSegment file.length k)

lemma carries_sentSegment (bufs : ℕ → Payload) (hk : k < (file.length + 507) / 508) :
    Carries file (k, sentSegment file bufs k) := by
  intro j hj _
  obtain rfl : k = j := Int.ofNat_inj.mp hj
  exact take_ofFn_readFile (bufs k) (bytesInSegment_le _ k) (segment_end_le hk)

section Client

variable {cfg : ClientConfig} {c t : Client} {e : ClientEvent} {outs : List ClientOut} {W : ℕ}
  {b : ReceiveBuffer Segment W}

def ClientConfig.Announced (cfg : ClientConfig) (file : List UInt8) : Prop :=
  file.length < 2 ^ 31 ∧ cfg.fileLength = file.length

lemma ClientConfig.Announced.consumerTotal (h : cfg.Announced file) :
    cfg.consumerTotal = ((file.length + 507) / 508 : ℕ) := by
  rw [ClientConfig.consumerTotal, h.2, getSegmentCount_eq _ h.1]

lemma follows_fileBytes (h : cfg.Announced file) {s : Segment} (hs : Carries file (k, s)) :
    (fileStream file).Follows k (cfg.fileBytes (k, s)) := by
  have htotal := h.consumerTotal
  have hlast : ((k : ℤ) = cfg.consumerTotal - 1) ↔ k + 1 = (file.length + 507) / 508 := by omega
  have hrest : (cfg.fileLength % segmentDataSize).toNat = file.length % 508 := by
    rw [h.2, segmentDataSize_eq]
    omega
  by_cases hk : k < (file.length + 507) / 508
  · rw [ChunkStream.follows_of_lt (c := fileStream file) hk, fileStream_chunk hk,
      ← hs k rfl hk, ClientConfig.fileBytes, bytesInSegment]
    simp only [hlast, hrest]
    split_ifs with heq
    · rfl
    · exact (List.take_of_length_le (length_ofFn_payload _).le).symm
  · rw [ChunkStream.follows_of_le (c := fileStream file) (not_lt.mp hk), ClientConfig.fileBytes,
      if_neg (by omega)]
    exact length_ofFn_payload _

def Client.writes (cfg : ClientConfig) (c t : Client) : List (List UInt8) :=
  (t.recv.delivered.drop c.recv.delivered.length).map cfg.fileBytes

/-- What a client of this file holds is counted, written and carried by what it has accepted. -/
structure Client.Filed (cfg : ClientConfig) (file : List UInt8) {W : ℕ} (c : Client)
    (b : ReceiveBuffer Segment W) : Prop where
  follows : c.recv.Follows b
  tidy : Client.Tidy cfg c
  carries : ∀ p ∈ c.recv.accepted, Carries file p
  done : c.consumer ≠ .draining → cfg.consumerTotal ≤ c.count

namespace Client

lemma drain_logs {n : ℕ} (h : drain cfg n c = .ok t) :
    c.recv.delivered <+: t.recv.delivered ∧ t.recv.accepted = c.recv.accepted := by
  induction n generalizing c with
  | zero =>
    obtain rfl := Except.ok.inj h
    exact ⟨List.prefix_rfl, rfl⟩
  | succ n ih =>
    simp only [drain, bind, bind_eq_ok] at h
    obtain ⟨⟨s, outIndex, outBuf⟩, -, h⟩ := h
    have hfetch : c.recv.delivered <+: (c.recv.afterFetch s outIndex outBuf).delivered :=
      List.prefix_append _ _
    split_ifs at h
    · obtain ⟨hdelivered, haccepted⟩ := ih h
      exact ⟨hfetch.trans hdelivered, haccepted⟩
    · obtain rfl := Except.ok.inj h
      exact ⟨hfetch, rfl⟩

lemma drain_frame {n : ℕ} (h : drain cfg n c = .ok t) : t.consumer = c.consumer := by
  induction n generalizing c with
  | zero => rw [Except.ok.inj h]
  | succ n ih =>
    simp only [drain, bind, bind_eq_ok] at h
    obtain ⟨⟨s, outIndex, outBuf⟩, -, h⟩ := h
    split_ifs at h
    · have := ih h
      exact this
    · rw [← Except.ok.inj h]

lemma step_logs (hstep : c.step cfg e = some (t, outs)) :
    c.recv.delivered <+: t.recv.delivered ∧ ∀ p ∈ t.recv.accepted, p ∈ c.recv.accepted ∨
      ∃ loseData loseAck junk, e = .segment p.2 loseData loseAck junk ∧
        p.1 = toSigned p.2.segmentNum := by
  cases step_sections hstep with
  | @producer segment loseData loseAck junk _ _ _ hsection =>
    rcases producerSection_cases hsection with ⟨-, rfl, -⟩ | ⟨s, n, -, -, -, -, rfl⟩
    · exact ⟨List.prefix_rfl, fun p hp => Or.inl hp⟩
    · refine ⟨List.prefix_rfl, fun p hp => ?_⟩
      simp only [Receiver.afterAdd] at hp
      split at hp
      · rcases List.mem_append.mp hp with hp | hp
        · exact Or.inl hp
        · obtain rfl := List.mem_singleton.mp hp
          exact Or.inr ⟨_, _, _, rfl, rfl⟩
      · exact Or.inl hp
  | consumer _ _ hsection =>
    obtain ⟨w, -, hdrain, -⟩ := consumerSection_cases hsection
    obtain ⟨hdelivered, haccepted⟩ := drain_logs hdrain
    exact ⟨hdelivered, fun p hp => Or.inl (haccepted ▸ hp)⟩
  | lastAck => exact ⟨List.prefix_rfl, fun p hp => Or.inl hp⟩
  | fin => exact ⟨List.prefix_rfl, fun p hp => Or.inl hp⟩
  | closeRead => exact ⟨List.prefix_rfl, fun p hp => Or.inl hp⟩
  | closeTimeout => exact ⟨List.prefix_rfl, fun p hp => Or.inl hp⟩

lemma step_of_all (hall : cfg.consumerTotal ≤ c.count) (hstep : c.step cfg e = some (t, outs)) :
    t.recv.delivered = c.recv.delivered ∧ t.count = c.count ∧ t.written = c.written := by
  cases step_sections hstep with
  | producer _ hsection =>
    rcases producerSection_cases hsection with ⟨-, rfl, -⟩ | ⟨s, n, -, -, -, -, rfl⟩
    · exact ⟨rfl, rfl, rfl⟩
    · exact ⟨rfl, rfl, rfl⟩
  | consumer _ hmore => exact absurd hmore (not_lt.mpr hall)
  | _ => exact ⟨rfl, rfl, rfl⟩

lemma step_done (h : c.consumer ≠ .draining → cfg.consumerTotal ≤ c.count)
    (hstep : c.step cfg e = some (t, outs)) :
    t.consumer ≠ .draining → cfg.consumerTotal ≤ t.count := by
  intro ht
  cases step_sections hstep with
  | producer _ hsection =>
    rcases producerSection_cases hsection with ⟨-, rfl, -⟩ | ⟨s, n, -, -, -, -, rfl⟩
    · exact h ht
    · exact h ht
  | consumer hstate _ hsection =>
    obtain ⟨w, -, hdrain, -⟩ := consumerSection_cases hsection
    exact absurd ((drain_frame hdrain).trans hstate) ht
  | lastAck => exact h ht
  | fin _ hall => exact hall
  | closeRead hstate => exact h (by simp [hstate])
  | closeTimeout hstate => exact h (by simp [hstate])

/-- A client that reads nothing but segments that carry the file keeps its books. -/
theorem Filed.step (hfile : cfg.Announced file) (hcfg : cfg.receivingWindowSize = W)
    (h : Filed cfg file c b)
    (hread : ∀ s loseData loseAck junk, e = .segment s loseData loseAck junk →
      Carries file (toSigned s.segmentNum, s))
    (hstep : c.step cfg e = some (t, outs)) :
    ∃ b' : ReceiveBuffer Segment W, Filed cfg file t b' := by
  have hdone := step_done h.done hstep
  have hcarries : ∀ p ∈ t.recv.accepted, Carries file p := by
    intro p hp
    rcases (step_logs hstep).2 p hp with hp | ⟨loseData, loseAck, junk, he, hnum⟩
    · exact h.carries p hp
    · have heq : p = (toSigned p.2.segmentNum, p.2) := Prod.ext hnum rfl
      rw [heq]
      exact hread _ _ _ _ he
  rcases Nat.eq_zero_or_pos file.length with hempty | hpos
  · -- of an empty file nothing is ever fetched
    have hall : cfg.consumerTotal ≤ c.count := by
      rw [hfile.consumerTotal, h.tidy.count, hempty]
      omega
    obtain ⟨hdelivered, hcount, hwritten⟩ := step_of_all hall hstep
    obtain ⟨b', hb', -⟩ := step_follows h.follows hstep
    exact ⟨b', hb', ⟨by rw [hcount, hdelivered, h.tidy.count],
      by rw [hwritten, hdelivered, h.tidy.written]⟩, hcarries, hdone⟩
  · have hlen : 1 ≤ cfg.fileLength := by
      rw [hfile.2]
      omega
    obtain ⟨b', hb', htidy, -⟩ := step_tidy hlen hcfg h.follows h.tidy hstep
    exact ⟨b', hb', htidy, hcarries, hdone⟩

lemma filed_start (hW : 0 < W) (hcfg : cfg.receivingWindowSize = W) :
    Filed cfg file (start cfg) (ReceiveBuffer.empty (W := W)) where
  follows := start_follows hW hcfg
  tidy := ⟨rfl, rfl⟩
  carries p hp := by simp [start, Receiver.start] at hp
  done h := absurd rfl h

lemma Filed.run {b' : ReceiveBuffer Segment W} (hlen : cfg.Announced file) (h : Filed cfg file c b)
    (h' : Filed cfg file t b') (hmore : c.recv.delivered <+: t.recv.delivered) :
    (fileStream file).machine.run (c.recv.delivered.length, c.written) (writes cfg c t) =
      some (t.recv.delivered.length, t.written) := by
  obtain ⟨new, hnew⟩ := hmore
  have hwrites : writes cfg c t = new.map cfg.fileBytes := by
    rw [writes, ← hnew, List.drop_left]
  have hfits : ∀ i (hi : i < (writes cfg c t).length),
      (fileStream file).Follows (c.recv.delivered.length + i) (writes cfg c t)[i] := by
    intro i hi
    rw [hwrites, List.length_map] at hi
    have hmem : new[i] ∈ t.recv.delivered := hnew ▸ List.mem_append_right _ (List.getElem_mem hi)
    -- the number of a segment that has been fetched is its place among them
    have hnum : new[i].1 = (c.recv.delivered.length + i : ℕ) := by
      have hfst := h'.follows.delivered_fst
      have hi' : c.recv.delivered.length + i < t.recv.delivered.length := by
        rw [← hnew, List.length_append]
        omega
      have hget : t.recv.delivered[c.recv.delivered.length + i] = new[i] := by
        simp [← hnew]
      rw [← hget]
      have := congrArg (fun l => l[c.recv.delivered.length + i]?) hfst
      simpa [hi', h'.follows.length_delivered ▸ hi'] using this
    have hcarries := h'.carries _ (h'.follows.delivered_mem _ hmem)
    have heq : new[i] = (((c.recv.delivered.length + i : ℕ) : ℤ), new[i].2) := Prod.ext hnum rfl
    simp only [hwrites, List.getElem_map]
    rw [heq] at hcarries ⊢
    exact follows_fileBytes hlen hcarries
  rw [ChunkStream.run_eq_some hfits, hwrites, List.length_map, ← List.length_append, hnew,
    h.tidy.written, h'.tidy.written, ← hnew, List.flatMap_append, List.flatMap_def (l := new)]

end Client

end Client

end TcpOverUdp
