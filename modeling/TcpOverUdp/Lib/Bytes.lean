import TcpOverUdp.Lib.HostMemory

namespace TcpOverUdp.CWord

def wordBytes (host : ByteOrder) (w : Word) : List UInt8 :=
  List.ofFn fun i => UInt8.ofBitVec (store host w i)

def wordOf (host : ByteOrder) (bytes : List UInt8) : Word :=
  load host fun i => (bytes.getD i 0).toBitVec

@[simp] lemma length_wordBytes (host : ByteOrder) (w : Word) : (wordBytes host w).length = 4 :=
  List.length_ofFn

@[simp] theorem wordOf_wordBytes_append (host : ByteOrder) (w : Word) (rest : List UInt8) :
    wordOf host (wordBytes host w ++ rest) = w := by
  have hbytes : (fun i : Fin 4 => ((wordBytes host w ++ rest).getD i 0).toBitVec) =
      store host w := by
    funext i
    have hi : (i : ℕ) < (wordBytes host w).length := by
      rw [length_wordBytes]
      exact i.isLt
    rw [List.getD_append _ _ _ _ hi, List.getD_eq_getElem _ _ hi]
    simp only [wordBytes, List.getElem_ofFn, Fin.eta, UInt8.toBitVec_ofBitVec]
  rw [wordOf, hbytes]
  exact (carry_eq host host w).trans (if_pos rfl)

@[simp] lemma drop_wordBytes_append (host : ByteOrder) (w : Word) (rest : List UInt8) (n : ℕ) :
    (wordBytes host w ++ rest).drop (n + 4) = rest.drop n := by
  rw [List.drop_append, length_wordBytes, List.drop_of_length_le (by simp), List.nil_append]
  rfl

end TcpOverUdp.CWord
