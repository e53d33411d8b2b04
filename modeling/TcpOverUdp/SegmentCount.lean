import TcpOverUdp.Client
import TcpOverUdp.Lib.HostMemory

namespace TcpOverUdp
open CWord

def sentFileLength (server : ByteOrder) (fileLength : ℕ) : Word :=
  htonl server (toUnsigned fileLength)

/-- `totalNumSegments` of `HandleFileTransmission`, which gets `servInfo.sentFileLength`. -/
def serverTotal (server : ByteOrder) (w : SizeT) (fileLength : ℕ) : ℤ :=
  getSegmentCount w (toSigned (sentFileLength server fileLength))

/-- What the client is given once it has the `ServerAck`. -/
def receivedConfig (server client : ByteOrder) (w : SizeT) (receivingWindowSize : ℤ)
    (fileLength : ℕ) : ClientConfig where
  host := client
  sizeT := w
  receivingWindowSize := receivingWindowSize
  sentFileLength := carry server client (sentFileLength server fileLength)

lemma getSegmentCount_toSigned_of_ge (w : SizeT) {x : Word} (h : 2 ^ 31 ≤ x.toNat) :
    getSegmentCount w (toSigned x) = ((x.toNat + 507) / 508 : ℕ) ∨
      (4227332 : ℤ) ≤ getSegmentCount w (toSigned x) := by
  have hx := x.isLt
  have hneg : toSigned x = x.toNat - 2 ^ 32 := by
    simp only [toSigned, BitVec.toInt]
    omega
  cases w with
  | bits32 =>
    have hof : SizeT.bits32.ofInt (toSigned x) = x.toNat := by
      rw [hneg, SizeT.ofInt, SizeT.bits]
      omega
    left
    simp only [getSegmentCount, hof, segmentDataSize_eq]
    rw [SizeT.toInt_of_lt (by omega)]
    split_ifs <;> omega
  | bits64 =>
    have hof : SizeT.bits64.ofInt (toSigned x) = 2 ^ 64 - 2 ^ 32 + x.toNat := by
      rw [hneg, SizeT.ofInt, SizeT.bits]
      omega
    right
    -- the quotient does not fit, and its low half is a large number
    have hlow : (2 ^ 64 - 2 ^ 32 + x.toNat) / 508 % 2 ^ 32 < 2 ^ 31 ∧
        4227332 ≤ (2 ^ 64 - 2 ^ 32 + x.toNat) / 508 % 2 ^ 32 := by omega
    have hint : SizeT.toInt ((2 ^ 64 - 2 ^ 32 + x.toNat) / 508) =
        ((2 ^ 64 - 2 ^ 32 + x.toNat) / 508 % 2 ^ 32 : ℕ) := by
      rw [SizeT.toInt, toSigned_of_lt]
      · rfl
      · exact hlow.1
    simp only [getSegmentCount, hof, segmentDataSize_eq, hint]
    split_ifs <;> omega

lemma byteSwap_eq_self_of_close {x : Word} (h0 : (byteSwap x).toNat < x.toNat + 508)
    (h1 : x.toNat < (byteSwap x).toNat + 508) : byteSwap x = x := by
  obtain ⟨a, b, c, d, hx, hswap⟩ := exists_bytes x
  rw [hswap, hx, toNat_bytes, toNat_bytes] at h0 h1
  have := a.isLt
  have := b.isLt
  have := c.isLt
  have := d.isLt
  have houter : a = d := BitVec.eq_of_toNat_eq (by omega)
  rw [houter] at h0 h1
  have hinner : b = c := BitVec.eq_of_toNat_eq (by omega)
  rw [hswap, hx, houter, hinner]

lemma getSegmentCount_byteSwap_iff (w : SizeT) {n : ℕ} (h : n < 2 ^ 31) :
    getSegmentCount w (toSigned (byteSwap (toUnsigned n))) = ((n + 507) / 508 : ℕ) ↔
      byteSwap (toUnsigned n) = toUnsigned n := by
  have hn : (toUnsigned (n : ℤ)).toNat = n := by
    have := toNat_toUnsigned (x := n) (by omega) (by omega)
    omega
  constructor
  · intro heq
    have hclose : ((byteSwap (toUnsigned n)).toNat + 507) / 508 = (n + 507) / 508 := by
      by_cases hlt : (byteSwap (toUnsigned n)).toNat < 2 ^ 31
      · rw [toSigned_of_lt hlt, getSegmentCount_eq w hlt] at heq
        exact_mod_cast heq
      · rcases getSegmentCount_toSigned_of_ge w (not_lt.mp hlt) with hge | hge
        · rw [hge] at heq
          exact_mod_cast heq
        · omega
    -- lengths with one count differ by less than a segment
    apply byteSwap_eq_self_of_close <;> omega
  · intro heq
    rw [heq, toSigned_of_lt (by omega), hn]
    exact getSegmentCount_eq w h

/-- The three counts are right on two big-endian hosts, and for a length that reads the same
in both orders. -/
theorem segmentCounts_agree_iff (server client : ByteOrder) (w w' : SizeT)
    (receivingWindowSize : ℤ) (n : ℕ) (h : n < 2 ^ 31) :
    (serverTotal server w n = ((n + 507) / 508 : ℕ) ∧
        (receivedConfig server client w' receivingWindowSize n).consumerTotal =
          ((n + 507) / 508 : ℕ) ∧
        (receivedConfig server client w' receivingWindowSize n).producerTotal =
          ((n + 507) / 508 : ℕ)) ↔
      (server = .big ∧ client = .big) ∨ byteSwap (toUnsigned n) = toUnsigned n := by
  have hn : toSigned (toUnsigned n) = n := toSigned_toUnsigned ⟨by omega, by omega⟩
  have hconsumer : (receivedConfig server client w' receivingWindowSize n).consumerTotal =
      ((n + 507) / 508 : ℕ) := by
    simp only [ClientConfig.consumerTotal, ClientConfig.fileLength, receivedConfig, sentFileLength,
      carry_htonl, ntohl_htonl, hn]
    exact getSegmentCount_eq w' h
  have hcount : ∀ (host : ByteOrder) (w : SizeT),
      getSegmentCount w (toSigned (htonl host (toUnsigned n))) = ((n + 507) / 508 : ℕ) ↔
        host = .big ∨ byteSwap (toUnsigned n) = toUnsigned n := by
    intro host w
    cases host with
    | big => simp [hn, getSegmentCount_eq w h]
    | little => simpa [htonl] using getSegmentCount_byteSwap_iff w h
  have hproducer : (receivedConfig server client w' receivingWindowSize n).producerTotal =
      getSegmentCount w' (toSigned (htonl client (toUnsigned n))) := by
    simp only [ClientConfig.producerTotal, receivedConfig, sentFileLength, carry_htonl]
  rw [hproducer, serverTotal, sentFileLength, hcount, hcount]
  simp only [hconsumer, true_and]
  tauto

/-- Two big-endian hosts take a thousand bytes for two segments. -/
theorem segmentCounts_agree_big :
    serverTotal .big .bits32 1000 = ((1000 + 507) / 508 : ℕ) ∧
      (receivedConfig .big .big .bits64 4 1000).consumerTotal = ((1000 + 507) / 508 : ℕ) ∧
      (receivedConfig .big .big .bits64 4 1000).producerTotal = ((1000 + 507) / 508 : ℕ) :=
  (segmentCounts_agree_iff .big .big .bits32 .bits64 4 1000 (by norm_num)).mpr
    (Or.inl ⟨rfl, rfl⟩)

/-- For a file of one byte, a little-endian server counts 33027 segments. -/
theorem not_segmentCounts_agree :
    ¬ ∀ (server client : ByteOrder) (w w' : SizeT) (receivingWindowSize : ℤ) (n : ℕ),
      n < 2 ^ 31 →
        serverTotal server w n = ((n + 507) / 508 : ℕ) ∧
          (receivedConfig server client w' receivingWindowSize n).consumerTotal =
            ((n + 507) / 508 : ℕ) ∧
          (receivedConfig server client w' receivingWindowSize n).producerTotal =
            ((n + 507) / 508 : ℕ) := by
  intro h
  have hserver := (h .little .little .bits64 .bits64 4 1 (by norm_num)).1
  have hcount : serverTotal .little .bits64 1 = 33027 := by decide
  rw [hcount] at hserver
  norm_num at hserver

/-- What `lseek` returns in the child: the length of the requested file, or -1 if it could not be
opened. -/
def LseekResult (r : ℤ) : Prop := r = -1 ∨ 0 ≤ r ∧ r < 2 ^ 31

/-- `servInfo.sentFileLength` for any result of `lseek`: nobody looks for the -1. -/
def announcedLength (server : ByteOrder) (r : ℤ) : Word := htonl server (toUnsigned r)

/-- What a client on a big-endian host is given for the result of a big-endian server. -/
def announcedConfig (w : SizeT) (receivingWindowSize r : ℤ) : ClientConfig where
  host := .big
  sizeT := w
  receivingWindowSize := receivingWindowSize
  sentFileLength := carry .big .big (announcedLength .big r)

/-- The segments that are meant: as many as the file fills, and none without a file. -/
def intendedSegments (r : ℤ) : ℤ := if 0 ≤ r then ⌈(r / segmentDataSize : ℚ)⌉ else 0

/-- On both ends the count is the one intended, and the offsets of the table are exact and inside
the file. -/
structure LengthsExact (w w' : SizeT) (receivingWindowSize r : ℤ) : Prop where
  server : getSegmentCount w (toSigned (announcedLength .big r)) = intendedSegments r
  consumer : (announcedConfig w' receivingWindowSize r).consumerTotal = intendedSegments r
  producer : (announcedConfig w' receivingWindowSize r).producerTotal = intendedSegments r
  offsets : ∀ (i : ℕ) (e : FileSegment),
    (initializeFileSegmentInfo w (toSigned (announcedLength .big r)))[i]? = some e →
      InInt (i * segmentDataSize) ∧ e.segmentOffset = i * segmentDataSize ∧
        0 ≤ e.segmentOffset ∧ e.segmentOffset < r

lemma LseekResult.inInt {r : ℤ} (h : LseekResult r) : InInt r := by
  unfold LseekResult at h
  constructor <;> omega

lemma intendedSegments_natCast (n : ℕ) : intendedSegments n = ((n + 507) / 508 : ℕ) := by
  have hceil : ⌈(((n : ℤ) : ℚ) / segmentDataSize : ℚ)⌉ = -(-(n : ℤ) / (segmentDataSize : ℤ)) :=
    Rat.ceil_intCast_div_natCast n segmentDataSize
  rw [intendedSegments, if_pos (by omega), hceil, segmentDataSize_eq]
  omega

lemma announced_eq {r : ℤ} (h : LseekResult r) (w : SizeT) (receivingWindowSize : ℤ) :
    toSigned (announcedLength .big r) = r ∧
      (announcedConfig w receivingWindowSize r).consumerTotal = getSegmentCount w r ∧
      (announcedConfig w receivingWindowSize r).producerTotal = getSegmentCount w r := by
  have hsigned : toSigned (toUnsigned r) = r := toSigned_toUnsigned h.inInt
  simp [announcedLength, ClientConfig.consumerTotal, ClientConfig.producerTotal,
    ClientConfig.fileLength, announcedConfig, carry_eq, hsigned]

lemma getSegmentCount_failed_pos (w : SizeT) : 0 < getSegmentCount w (-1) := by
  cases w <;> decide

lemma offsets_exact (w : SizeT) {n i : ℕ} (h : n < 2 ^ 31) {e : FileSegment}
    (he : (initializeFileSegmentInfo w n)[i]? = some e) :
    InInt (i * segmentDataSize) ∧ e.segmentOffset = i * segmentDataSize ∧
      0 ≤ e.segmentOffset ∧ e.segmentOffset < n := by
  have hi : i < (n + 507) / 508 := by
    obtain ⟨hlen, -⟩ := List.getElem?_eq_some_iff.mp he
    rwa [initializeFileSegmentInfo, getSegmentCount_eq w h, List.length_map, List.length_range,
      Int.toNat_natCast] at hlen
  rw [initializeFileSegmentInfo_getElem? w h hi, Option.some.injEq] at he
  rw [← he, segmentDataSize_eq, InInt]
  push_cast
  omega

/-- Counts and offsets are right if and only if the file could be opened. -/
theorem lengthsExact_iff (w w' : SizeT) (receivingWindowSize r : ℤ) (h : LseekResult r) :
    LengthsExact w w' receivingWindowSize r ↔ 0 ≤ r := by
  obtain ⟨hserver, hconsumer, hproducer⟩ := announced_eq h w' receivingWindowSize
  constructor
  · intro hexact
    by_contra hneg
    have hfailed : r = -1 := h.resolve_right fun hr => hneg hr.1
    -- none are intended, and the server counts some
    have hcount := hexact.server
    rw [hserver, intendedSegments, if_neg hneg, hfailed] at hcount
    have hpos := getSegmentCount_failed_pos w
    omega
  · intro hr
    obtain ⟨n, rfl⟩ := Int.eq_ofNat_of_zero_le hr
    have hn : n < 2 ^ 31 := by
      have := h.inInt.2
      omega
    refine ⟨?_, ?_, ?_, fun i e he => ?_⟩
    · rw [hserver, getSegmentCount_eq w hn, intendedSegments_natCast]
    · rw [hconsumer, getSegmentCount_eq w' hn, intendedSegments_natCast]
    · rw [hproducer, getSegmentCount_eq w' hn, intendedSegments_natCast]
    · rw [hserver] at he
      exact offsets_exact w hn he

theorem lengthsExact_thousand : LengthsExact .bits32 .bits64 4 1000 :=
  (lengthsExact_iff .bits32 .bits64 4 1000 (Or.inr (by norm_num))).mpr (by norm_num)

/-- For a file that cannot be opened, a server with a 32-bit `size_t` counts 8454661 segments. -/
theorem not_lengthsExact_failed :
    getSegmentCount .bits32 (toSigned (announcedLength .big (-1))) = 8454661 ∧
      ¬ ∀ (w w' : SizeT) (receivingWindowSize r : ℤ), LseekResult r →
        LengthsExact w w' receivingWindowSize r := by
  have hcount : getSegmentCount .bits32 (toSigned (announcedLength .big (-1))) = 8454661 := by
    decide
  refine ⟨hcount, fun h => ?_⟩
  have hserver := (h .bits32 .bits32 4 (-1) (Or.inl rfl)).server
  rw [hcount, intendedSegments, if_neg (by norm_num)] at hserver
  norm_num at hserver

end TcpOverUdp
