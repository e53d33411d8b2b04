import TcpOverUdp.Lib.Text

namespace TcpOverUdp

namespace Text

def dot : UInt8 := 46

/-- A number of an address: decimal, at most 255 and without a zero in front. -/
def octet (s : Text) : Option (BitVec 8) :=
  if s ≠ [] ∧ s.all isDigit ∧ (s.length = 1 ∨ s.head? ≠ some 48) ∧ digitsValue s < 256 then
    some (BitVec.ofNat 8 (digitsValue s))
  else none

def inetPton (s : Text) : Option Word :=
  match (s.splitOn dot).map octet with
  | [some a, some b, some c, some d] => some (a ++ b ++ c ++ d)
  | _ => none

def decimal (n : ℕ) : Text :=
  let digit (k : ℕ) : UInt8 := .ofNat (48 + k)
  if n < 10 then [digit n]
  else if n < 100 then [digit (n / 10), digit (n % 10)]
  else [digit (n / 100), digit (n / 10 % 10), digit (n % 10)]

def inetNtop (a : Word) : Text :=
  [dot].intercalate ([24, 16, 8, 0].map fun k => decimal (a.extractLsb' k 8).toNat)

lemma octet_decimal (b : BitVec 8) : octet (decimal b.toNat) = some b := by
  revert b
  decide +kernel

lemma dot_not_mem_decimal (b : BitVec 8) : dot ∉ decimal b.toNat := by
  revert b
  decide +kernel

theorem inetPton_inetNtop (a : Word) : inetPton (inetNtop a) = some a := by
  have hsplit : (inetNtop a).splitOn dot =
      [24, 16, 8, 0].map fun k => decimal (a.extractLsb' k 8).toNat := by
    apply List.splitOn_intercalate dot _ (by simp)
    intro l hl
    obtain ⟨k, -, rfl⟩ := List.mem_map.mp hl
    exact dot_not_mem_decimal _
  have hbytes : a.extractLsb' 24 8 ++ a.extractLsb' 16 8 ++ a.extractLsb' 8 8 ++
      a.extractLsb' 0 8 = a := by
    ext i hi
    simp only [BitVec.getElem_append, BitVec.getElem_extractLsb']
    grind
  simp only [inetPton, hsplit, List.map_cons, List.map_nil, octet_decimal, hbytes]

lemma inetPton_nil : inetPton [] = none := by decide

end Text

open Text

structure DottedQuad where
  text : Text
  valid : (inetPton text).isSome

namespace DottedQuad

def address (q : DottedQuad) : Word := (inetPton q.text).get q.valid

def print (a : Word) : DottedQuad := ⟨inetNtop a, by rw [inetPton_inetNtop]; rfl⟩

@[simp] lemma address_print (a : Word) : (print a).address = a := by
  simp [address, print, inetPton_inetNtop]

@[simp] lemma text_print_inj {a b : Word} : (print a).text = (print b).text ↔ a = b := by
  constructor
  · intro h
    have hread := congrArg inetPton h
    simpa [print, inetPton_inetNtop] using hread
  · rintro rfl
    rfl

end DottedQuad

end TcpOverUdp
