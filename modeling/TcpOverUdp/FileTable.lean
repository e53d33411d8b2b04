import TcpOverUdp.Records

namespace TcpOverUdp
open CWord

inductive SizeT
  | bits32
  | bits64
  deriving DecidableEq, Repr

def SizeT.bits : SizeT → ℕ
  | .bits32 => 32
  | .bits64 => 64

def SizeT.ofInt (w : SizeT) (x : ℤ) : ℕ := (x % 2 ^ w.bits).toNat

def SizeT.toInt (n : ℕ) : ℤ := toSigned (BitVec.ofNat 32 n)

/-- `GetSegmentCount`, the same text on both sides.  `SEGMENTDATASIZE` is a `size_t`, so
the division is unsigned. -/
def getSegmentCount (w : SizeT) (fileLength : ℤ) : ℤ :=
  let totalNumSegments := SizeT.toInt (w.ofInt fileLength / segmentDataSize)
  if w.ofInt fileLength % segmentDataSize ≠ 0 then totalNumSegments + 1 else totalNumSegments

def initializeFileSegmentInfo (w : SizeT) (fileLength : ℤ) : List FileSegment :=
  let totalNumSegments := getSegmentCount w fileLength
  (List.range totalNumSegments.toNat).map fun i : ℕ =>
    { segmentNum := i
      segmentOffset := SizeT.toInt (w.ofInt i * segmentDataSize % 2 ^ w.bits)
      totalBytesInSegment :=
        if (i : ℤ) = totalNumSegments - 1 then SizeT.toInt (w.ofInt fileLength % segmentDataSize)
        else segmentDataSize }

/-- `Read(fd, buf, n)` at a file offset: as many bytes as the file still has. -/
def readFile (file : List UInt8) (offset n : ℤ) (buf : Payload) : Payload := fun i =>
  if (i : ℤ) < n ∧ 0 ≤ offset then file.getD (offset.toNat + i) (buf i) else buf i

/-- `SendSegment`.  `buf` is what the local `segment` holds before the read. -/
def sendSegment (file : List UInt8) (fileSegment : List FileSegment) (buf : Payload)
    (segmentNum : ℤ) : Except Fault Segment :=
  if 0 ≤ segmentNum then
    match fileSegment[segmentNum.toNat]? with
    | some e =>
      .ok ⟨toUnsigned segmentNum, readFile file e.segmentOffset e.totalBytesInSegment buf⟩
    | none => .error .outOfBounds
  else .error .outOfBounds

/-- What `ConsumerThread` writes for the segment it fetches when `count` segments
are written. -/
def consumerWrite (w : SizeT) (fileLength count : ℤ) (segment : Segment) : List UInt8 :=
  let bytes := List.ofFn segment.segmentData
  if count = getSegmentCount w fileLength - 1 then
    bytes.take (w.ofInt fileLength % segmentDataSize)
  else bytes

/-- What `ConsumerThread` writes for segments fetched one after the other. -/
def consumerWrites (w : SizeT) (fileLength : ℤ) : ℤ → List Segment → List UInt8
  | _, [] => []
  | count, s :: segments =>
    consumerWrite w fileLength count s ++ consumerWrites w fileLength (count + 1) segments

/-- The segments `0, 1, …` of a file as the server sends them; `bufs k` is the uninitialised
part of the `k`-th segment. -/
def sentSegments (w : SizeT) (file : List UInt8) (bufs : ℕ → Payload) :
    Except Fault (List Segment) :=
  (List.range (getSegmentCount w file.length).toNat).mapM fun k =>
    sendSegment file (initializeFileSegmentInfo w file.length) (bufs k) k

lemma segmentDataSize_eq : segmentDataSize = 508 := rfl

lemma SizeT.ofInt_natCast (w : SizeT) {n : ℕ} (h : n < 2 ^ 31) : w.ofInt n = n := by
  cases w <;> simp only [SizeT.ofInt, SizeT.bits] <;> omega

lemma SizeT.toInt_of_lt {n : ℕ} (h : n < 2 ^ 31) : SizeT.toInt n = n := by
  rw [SizeT.toInt, toSigned_of_lt (by simp only [BitVec.toNat_ofNat]; omega)]
  simp only [BitVec.toNat_ofNat]
  omega

/-- For a length that an `int` holds, the count is the length divided by the segment
size, rounded up. -/
theorem getSegmentCount_eq (w : SizeT) {n : ℕ} (h : n < 2 ^ 31) :
    getSegmentCount w n = ((n + 507) / 508 : ℕ) := by
  simp only [getSegmentCount, w.ofInt_natCast h, segmentDataSize_eq]
  rw [SizeT.toInt_of_lt (by omega)]
  split_ifs <;> omega

lemma initializeFileSegmentInfo_getElem? (w : SizeT) {n k : ℕ} (h : n < 2 ^ 31)
    (hk : k < (n + 507) / 508) :
    (initializeFileSegmentInfo w n)[k]? = some
      { segmentNum := k
        segmentOffset := (k * 508 : ℕ)
        totalBytesInSegment := if k + 1 = (n + 507) / 508 then (n % 508 : ℕ) else 508 } := by
  have hlen : k < (List.range ((n + 507) / 508)).length := by simpa using hk
  simp only [initializeFileSegmentInfo, getSegmentCount_eq w h, Int.toNat_natCast,
    List.getElem?_map, List.getElem?_eq_getElem hlen, List.getElem_range, Option.map_some,
    w.ofInt_natCast h, w.ofInt_natCast (show k < 2 ^ 31 by omega), segmentDataSize_eq]
  have hmod : k * 508 % 2 ^ w.bits = k * 508 := by
    cases w <;> simp only [SizeT.bits] <;> omega
  rw [hmod, SizeT.toInt_of_lt (by omega), SizeT.toInt_of_lt (by omega)]
  have hlast : ((k : ℤ) = ((n + 507) / 508 : ℕ) - 1) ↔ k + 1 = (n + 507) / 508 := by omega
  simp only [hlast]
  rfl

/-- The number of bytes in segment `k` of a file of `n` bytes, by both sides' rule. -/
def bytesInSegment (n k : ℕ) : ℕ := if k + 1 = (n + 507) / 508 then n % 508 else 508

lemma bytesInSegment_le (n k : ℕ) : bytesInSegment n k ≤ 508 := by
  unfold bytesInSegment
  split_ifs <;> omega

lemma segment_end_le {n k : ℕ} (hk : k < (n + 507) / 508) :
    k * 508 + bytesInSegment n k ≤ n := by
  unfold bytesInSegment
  split_ifs <;> omega

/-- Segment `k` of a file on the wire; `bufs k` fills what the read leaves alone. -/
def sentSegment (file : List UInt8) (bufs : ℕ → Payload) (k : ℕ) : Segment :=
  ⟨toUnsigned k, readFile file (k * 508 : ℕ) (bytesInSegment file.length k) (bufs k)⟩

lemma length_ofFn_payload (p : Payload) : (List.ofFn p).length = 508 := List.length_ofFn

lemma take_ofFn_readFile {file : List UInt8} {offset n : ℕ} (buf : Payload) (hn : n ≤ 508)
    (h : offset + n ≤ file.length) :
    (List.ofFn (readFile file offset n buf)).take n = (file.drop offset).take n := by
  apply List.ext_getElem
  · rw [List.length_take, List.length_take, List.length_drop, length_ofFn_payload]
    omega
  · intro i hi hi'
    have hin : i < n := by
      rw [List.length_take] at hi
      omega
    have hlt : offset + i < file.length := by omega
    simp [readFile, hin, List.getElem?_eq_getElem hlt]

lemma sendSegment_eq (w : SizeT) {file : List UInt8} (bufs : ℕ → Payload) {k : ℕ}
    (h : file.length < 2 ^ 31) (hk : k < (file.length + 507) / 508) :
    sendSegment file (initializeFileSegmentInfo w file.length) (bufs k) k =
      .ok (sentSegment file bufs k) := by
  simp only [sendSegment, Int.toNat_natCast, initializeFileSegmentInfo_getElem? w h hk,
    Int.natCast_nonneg, if_true, sentSegment, bytesInSegment]
  split_ifs <;> rfl

lemma consumerWrite_sentSegment (w : SizeT) {file : List UInt8} (bufs : ℕ → Payload) {k : ℕ}
    (h : file.length < 2 ^ 31) (hk : k < (file.length + 507) / 508) :
    consumerWrite w file.length k (sentSegment file bufs k) =
      (file.drop (k * 508)).take (bytesInSegment file.length k) := by
  rw [← take_ofFn_readFile (bufs k) (bytesInSegment_le _ k) (segment_end_le hk)]
  simp only [consumerWrite, getSegmentCount_eq w h, w.ofInt_natCast h, sentSegment]
  by_cases hlast : k + 1 = (file.length + 507) / 508
  · rw [if_pos (by omega), bytesInSegment, if_pos hlast]
    rfl
  · rw [if_neg (by omega), bytesInSegment, if_neg hlast,
      List.take_of_length_le (length_ofFn_payload _).le]

lemma consumerWrites_range' (w : SizeT) (n : ℤ) (g : ℕ → Segment) (a m : ℕ) :
    consumerWrites w n a ((List.range' a m).map g) =
      (List.range' a m).flatMap fun k : ℕ => consumerWrite w n k (g k) := by
  induction m generalizing a with
  | zero => rfl
  | succ m ih =>
    have := ih (a + 1)
    push_cast at this
    simp only [List.range'_succ, List.map_cons, consumerWrites, List.flatMap_cons, this]

lemma flatMap_range_block {α : Type*} (l : List α) (b n : ℕ) :
    (List.range n).flatMap (fun k => (l.drop (k * b)).take b) = l.take (n * b) := by
  induction n with
  | zero => simp
  | succ n ih =>
    rw [List.range_succ, List.flatMap_append, ih, Nat.succ_mul, List.take_add]
    simp

lemma sentSegments_eq (w : SizeT) {file : List UInt8} (bufs : ℕ → Payload)
    (h : file.length < 2 ^ 31) :
    sentSegments w file bufs =
      .ok ((List.range ((file.length + 507) / 508)).map (sentSegment file bufs)) := by
  rw [sentSegments, getSegmentCount_eq w h, Int.toNat_natCast]
  have hmap : ∀ ks : List ℕ, (∀ k ∈ ks, k < (file.length + 507) / 508) →
      ks.mapM (fun k : ℕ => sendSegment file (initializeFileSegmentInfo w file.length) (bufs k) k) =
        .ok (ks.map (sentSegment file bufs)) := by
    intro ks
    induction ks with
    | nil => intro _; rfl
    | cons k ks ih =>
      intro hks
      rw [List.mapM_cons, sendSegment_eq w bufs h (hks k (by simp)),
        ih fun j hj => hks j (by simp [hj])]
      rfl
  exact hmap _ fun k hk => List.mem_range.mp hk

/-- What arrives of a file: everything but the bytes that the rule for the last segment
leaves out. -/
theorem consumerWrites_sentSegments (w : SizeT) {file : List UInt8} (bufs : ℕ → Payload)
    (h : file.length < 2 ^ 31) :
    consumerWrites w file.length 0
        ((List.range ((file.length + 507) / 508)).map (sentSegment file bufs)) =
      file.take (((file.length + 507) / 508 - 1) * 508 + file.length % 508) := by
  have hwrites := consumerWrites_range' w file.length (sentSegment file bufs) 0
    ((file.length + 507) / 508)
  rw [← List.range_eq_range'] at hwrites
  refine hwrites.trans ?_
  rw [List.flatMap_congr fun k hk =>
    consumerWrite_sentSegment w bufs h (List.mem_range.mp hk)]
  rcases Nat.eq_zero_or_pos ((file.length + 507) / 508) with hzero | hpos
  · have hlen : file.length = 0 := by omega
    simp [List.length_eq_zero_iff.mp hlen]
  · obtain ⟨q, hq⟩ : ∃ q, (file.length + 507) / 508 = q + 1 :=
      ⟨_, (Nat.succ_pred_eq_of_pos hpos).symm⟩
    have hfull : ∀ k ∈ List.range q, (file.drop (k * 508)).take (bytesInSegment file.length k) =
        (file.drop (k * 508)).take 508 := by
      intro k hk
      have := List.mem_range.mp hk
      rw [bytesInSegment, if_neg (by omega)]
    rw [hq, List.range_succ, List.flatMap_append, Nat.add_sub_cancel, List.take_add,
      List.flatMap_congr hfull, flatMap_range_block]
    simp [bytesInSegment, hq]

/-- Reassembly gives the file back unless its length is a positive multiple of the
segment size: then both sides take the remainder `0` for the size of the last segment. -/
theorem reassembly_iff (w : SizeT) (file : List UInt8) (bufs : ℕ → Payload)
    (h : file.length < 2 ^ 31) :
    ∃ segments, sentSegments w file bufs = .ok segments ∧
      (consumerWrites w file.length 0 segments = file ↔
        file.length = 0 ∨ file.length % segmentDataSize ≠ 0) := by
  refine ⟨_, sentSegments_eq w bufs h, ?_⟩
  rw [consumerWrites_sentSegments w bufs h, List.take_eq_self_iff, segmentDataSize_eq]
  omega

/-- A file of three segments, the last of them with 184 bytes. -/
def threeSegmentFile : List UInt8 :=
  List.replicate 508 7 ++ List.replicate 508 8 ++ List.replicate 184 9

theorem reassembly_iff_threeSegmentFile :
    ∃ segments, sentSegments .bits64 threeSegmentFile (fun _ _ => 0) = .ok segments ∧
      segments.length = 3 ∧
      consumerWrites .bits64 threeSegmentFile.length 0 segments = threeSegmentFile := by
  have hlength : threeSegmentFile.length = 1200 := by
    simp only [threeSegmentFile, List.length_append, List.length_replicate]
  have hlt : threeSegmentFile.length < 2 ^ 31 := by
    rw [hlength]
    norm_num
  obtain ⟨segments, hsent, hiff⟩ :=
    reassembly_iff .bits64 threeSegmentFile (fun _ _ => 0) hlt
  refine ⟨segments, hsent, ?_, hiff.mpr (Or.inr ?_)⟩
  · have hmap := hsent.symm.trans (sentSegments_eq .bits64 _ hlt)
    rw [Except.ok.inj hmap, List.length_map, List.length_range, hlength]
  · rw [hlength]
    decide

def fullSegmentFile : List UInt8 := List.replicate 508 7

lemma length_fullSegmentFile : fullSegmentFile.length = 508 := List.length_replicate

theorem reassembly_fullSegmentFile :
    ∃ segments, sentSegments .bits64 fullSegmentFile (fun _ _ => 0) = .ok segments ∧
      consumerWrites .bits64 fullSegmentFile.length 0 segments ≠ fullSegmentFile := by
  have hlt : fullSegmentFile.length < 2 ^ 31 := by
    rw [length_fullSegmentFile]
    norm_num
  refine ⟨_, sentSegments_eq .bits64 _ hlt, ?_⟩
  rw [consumerWrites_sentSegments .bits64 _ hlt]
  intro h
  have hlen := congrArg List.length h
  rw [List.length_take, length_fullSegmentFile] at hlen
  norm_num at hlen

end TcpOverUdp
