import TcpOverUdp.Lib.CWord

namespace TcpOverUdp.CWord

abbrev WordBytes := Fin 4 → BitVec 8

def store (host : ByteOrder) (w : Word) : WordBytes := fun i =>
  match host with
  | .big => w.extractLsb' (24 - 8 * i) 8
  | .little => w.extractLsb' (8 * i) 8

def load (host : ByteOrder) (m : WordBytes) : Word :=
  match host with
  | .big => m 0 ++ m 1 ++ m 2 ++ m 3
  | .little => m 3 ++ m 2 ++ m 1 ++ m 0

def carry (sender receiver : ByteOrder) (w : Word) : Word := load receiver (store sender w)

lemma load_little (m : WordBytes) : load .little m = byteSwap (load .big m) := by
  simp only [load, byteSwap]
  ext i hi
  simp only [BitVec.getElem_append, BitVec.getElem_extractLsb', BitVec.getLsbD_append]
  grind

lemma store_little (w : Word) : store .little w = store .big (byteSwap w) := by
  funext i
  fin_cases i <;>
  · simp only [store, byteSwap]
    ext j hj
    simp only [BitVec.getElem_extractLsb', BitVec.getLsbD_append, BitVec.getLsbD_extractLsb']
    grind

lemma load_big_store_big (w : Word) : load .big (store .big w) = w := by
  simp only [load, store]
  ext i hi
  simp only [BitVec.getElem_append, BitVec.getElem_extractLsb']
  grind

theorem carry_eq (sender receiver : ByteOrder) (w : Word) :
    carry sender receiver w = if receiver = sender then w else byteSwap w := by
  cases sender <;> cases receiver <;>
    simp [carry, load_little, store_little, load_big_store_big, byteSwap_byteSwap]

/-- A word sent in the order of the network arrives in the order of the network. -/
@[simp] theorem carry_htonl (sender receiver : ByteOrder) (w : Word) :
    carry sender receiver (htonl sender w) = htonl receiver w := by
  cases sender <;> cases receiver <;> simp [carry_eq, htonl, byteSwap_byteSwap]

lemma carry_eq_self_iff (sender receiver : ByteOrder) (w : Word) :
    carry sender receiver w = w ↔ receiver = sender ∨ byteSwap w = w := by
  rw [carry_eq]
  split_ifs with h <;> simp [h]

lemma htonl_eq_self_iff (host : ByteOrder) (w : Word) :
    htonl host w = w ↔ host = .big ∨ byteSwap w = w := by
  cases host <;> simp [htonl]

abbrev Port := BitVec 16

def byteSwap16 (p : Port) : Port := p.extractLsb' 0 8 ++ p.extractLsb' 8 8

theorem byteSwap16_byteSwap16 (p : Port) : byteSwap16 (byteSwap16 p) = p := by
  unfold byteSwap16
  ext i hi
  simp only [BitVec.getElem_append, BitVec.getElem_extractLsb', BitVec.getLsbD_append,
    BitVec.getLsbD_extractLsb']
  grind

def htons (host : ByteOrder) (p : Port) : Port :=
  match host with
  | .big => p
  | .little => byteSwap16 p

def ntohs (host : ByteOrder) (p : Port) : Port := htons host p

@[simp] theorem ntohs_htons (host : ByteOrder) (p : Port) : ntohs host (htons host p) = p := by
  cases host
  · rfl
  · exact byteSwap16_byteSwap16 p

lemma htons_eq_self_iff (host : ByteOrder) (p : Port) :
    htons host p = p ↔ host = .big ∨ byteSwap16 p = p := by
  cases host <;> simp [htons]

lemma setWidth_byteSwap_setWidth (p : Port) : (byteSwap (p.setWidth 32)).setWidth 16 = 0 := by
  unfold byteSwap
  ext i hi
  simp only [BitVec.getElem_setWidth, BitVec.getLsbD_append, BitVec.getLsbD_extractLsb',
    BitVec.getLsbD_setWidth]
  have hp : ∀ j, 16 ≤ j → p.getLsbD j = false := fun j hj => BitVec.getLsbD_of_ge p j hj
  grind

lemma exists_bytes (w : Word) :
    ∃ a b c d : BitVec 8, w = a ++ b ++ c ++ d ∧ byteSwap w = d ++ c ++ b ++ a := by
  refine ⟨store .big w 0, store .big w 1, store .big w 2, store .big w 3, ?_, rfl⟩
  exact (load_big_store_big w).symm

lemma toNat_bytes (a b c d : BitVec 8) :
    (a ++ b ++ c ++ d).toNat =
      a.toNat * 2 ^ 24 + b.toNat * 2 ^ 16 + c.toNat * 2 ^ 8 + d.toNat := by
  have happ : ∀ {m n : ℕ} (x : BitVec m) (y : BitVec n),
      (x ++ y).toNat = x.toNat * 2 ^ n + y.toNat := by
    intro m n x y
    rw [BitVec.toNat_append, ← Nat.shiftLeft_add_eq_or_of_lt y.isLt, Nat.shiftLeft_eq]
  simp only [happ]
  ring

end TcpOverUdp.CWord
