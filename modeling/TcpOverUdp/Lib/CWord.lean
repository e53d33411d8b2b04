import Mathlib

namespace TcpOverUdp

abbrev Word := BitVec 32

/-- The ways in which an expression of C has no value. -/
inductive Fault
  | overflow
  | divisionByZero
  | outOfBounds
  | noReturn
  deriving DecidableEq, Repr

namespace CWord

def InInt (x : ℤ) : Prop := -2 ^ 31 ≤ x ∧ x < 2 ^ 31

instance (x : ℤ) : Decidable (InInt x) := inferInstanceAs (Decidable (_ ∧ _))

/-- The value of a signed expression whose mathematical value is `x`. -/
def checked (x : ℤ) : Except Fault ℤ := if InInt x then .ok x else .error .overflow

/-- `x % y` on `int`, which takes the sign of `x`. -/
def rem (x y : ℤ) : Except Fault ℤ := if y = 0 then .error .divisionByZero else .ok (x.tmod y)

def toUnsigned (x : ℤ) : Word := BitVec.ofInt 32 x

def toSigned (w : Word) : ℤ := w.toInt

/-- What a two's complement machine leaves where a signed expression leaves the range. -/
def wrap (x : ℤ) : ℤ := toSigned (toUnsigned x)

@[simp] lemma checked_of_inInt {x : ℤ} (h : InInt x) : checked x = .ok x := if_pos h

lemma checked_eq_ok {x y : ℤ} : checked x = .ok y ↔ InInt x ∧ x = y := by
  unfold checked
  split_ifs with h <;> simp [h]

lemma bind_eq_ok {α β : Type} {x : Except Fault α} {f : α → Except Fault β} {y : β} :
    x.bind f = .ok y ↔ ∃ a, x = .ok a ∧ f a = .ok y := by
  cases x with
  | error e => simp [Except.bind]
  | ok a => simp [Except.bind]

lemma toOption_eq_some {α : Type} {x : Except Fault α} {a : α} :
    x.toOption = some a ↔ x = .ok a := by
  cases x <;> simp [Except.toOption]

@[simp] lemma ok_bind {α β : Type} (a : α) (f : α → Except Fault β) :
    (Except.ok a).bind f = f a := rfl

lemma checked_bind_eq_ok {β : Type} {x : ℤ} {f : ℤ → Except Fault β} {y : β} :
    (checked x).bind f = .ok y ↔ InInt x ∧ f x = .ok y := by
  simp [bind_eq_ok, checked_eq_ok, and_assoc]

lemma rem_of_nonneg {x y : ℤ} (hx : 0 ≤ x) (hy : 0 < y) : rem x y = .ok (x % y) := by
  rw [rem, if_neg hy.ne', Int.tmod_eq_emod_of_nonneg hx]

lemma toNat_toUnsigned {x : ℤ} (h0 : 0 ≤ x) (h : x < 2 ^ 32) : ((toUnsigned x).toNat : ℤ) = x := by
  simp only [toUnsigned, BitVec.toNat_ofInt]
  omega

lemma toSigned_of_lt {w : Word} (h : w.toNat < 2 ^ 31) : toSigned w = w.toNat := by
  simp only [toSigned, BitVec.toInt]
  omega

lemma toSigned_inInt (w : Word) : InInt (toSigned w) := by
  simp only [InInt, toSigned, BitVec.toInt]
  omega

@[simp] lemma toUnsigned_toSigned (w : Word) : toUnsigned (toSigned w) = w := BitVec.ofInt_toInt

lemma toSigned_toUnsigned {x : ℤ} (h : InInt x) : toSigned (toUnsigned x) = x := by
  have := h.1
  have := h.2
  simp only [toSigned, toUnsigned, BitVec.toInt_ofInt, Int.bmod]
  split <;> omega

lemma wrap_of_inInt {x : ℤ} (h : InInt x) : wrap x = x := toSigned_toUnsigned h

inductive ByteOrder
  | big
  | little
  deriving DecidableEq, Repr

def byteSwap (w : Word) : Word :=
  w.extractLsb' 0 8 ++ w.extractLsb' 8 8 ++ w.extractLsb' 16 8 ++ w.extractLsb' 24 8

theorem byteSwap_byteSwap (w : Word) : byteSwap (byteSwap w) = w := by
  unfold byteSwap
  ext i hi
  simp only [BitVec.getElem_append, BitVec.getElem_extractLsb', BitVec.getLsbD_append,
    BitVec.getLsbD_extractLsb']
  grind

def htonl (host : ByteOrder) (w : Word) : Word :=
  match host with
  | .big => w
  | .little => byteSwap w

def ntohl (host : ByteOrder) (w : Word) : Word := htonl host w

@[simp] lemma htonl_big (w : Word) : htonl .big w = w := rfl

@[simp] lemma ntohl_big (w : Word) : ntohl .big w = w := rfl

@[simp] theorem ntohl_htonl (host : ByteOrder) (w : Word) : ntohl host (htonl host w) = w := by
  cases host
  · rfl
  · exact byteSwap_byteSwap w

end CWord

end TcpOverUdp
