import TcpOverUdp.Lib.CWord

namespace TcpOverUdp
open CWord

abbrev Text := List UInt8

namespace Text

def newline : UInt8 := 10

def cstring (buffer : Text) : Text := buffer.takeWhile (· ≠ 0)

/-- `if (buffer[strlen(buffer) - 1] == '\n') buffer[strlen(buffer) - 1] = '\0'` -/
def chomp (s : Text) : Text := if s.getLast? = some newline then s.dropLast else s

def isSpace (c : UInt8) : Bool := c = 32 || (9 ≤ c && c ≤ 13)

def isDigit (c : UInt8) : Bool := 48 ≤ c && c ≤ 57

def digitsValue (s : Text) : ℕ := s.foldl (fun n c => 10 * n + (c.toNat - 48)) 0

/-- The number at the start of a string: blanks, a sign and digits, each if there are any. -/
def leadingNumber (s : Text) : ℤ :=
  match s.dropWhile isSpace with
  | 45 :: s => -digitsValue (s.takeWhile isDigit)
  | 43 :: s => digitsValue (s.takeWhile isDigit)
  | s => digitsValue (s.takeWhile isDigit)

/-- `atoi`, which is `strtol` without its error and with the bounds of a `long` of that many
bits. -/
def atoi (longBits : ℕ) (s : Text) : ℤ :=
  wrap (max (-2 ^ (longBits - 1)) (min (2 ^ (longBits - 1) - 1) (leadingNumber s)))

def unlines (lines : List Text) : Text := lines.flatMap fun line => line ++ [newline]

/-- `fgets` with room for `n` characters: what it stores, what is left of the file, and whether
it has run into the end. -/
def fgets : ℕ → Text → Text × Text × Bool
  | 0, file => ([], file, false)
  | _ + 1, [] => ([], [], true)
  | n + 1, c :: file =>
    if c = newline then ([c], file, false)
    else
      let (buffer, rest, eof) := fgets n file
      (c :: buffer, rest, eof)

/-- The loop `while (fgets(buffer, size, fp) != NULL) { if (feof(fp)) break; … }` with some
rounds to go: what `buffer` holds in each. -/
def getsLoop (size : ℕ) : ℕ → Text → List Text
  | 0, _ => []
  | rounds + 1, file =>
    match fgets (size - 1) file with
    | (buffer, rest, eof) => if eof then [] else buffer :: getsLoop size rounds rest

/-- What `buffer` holds in the rounds of the loop.  A round reads a character at least. -/
def buffers (size : ℕ) (file : Text) : List Text := getsLoop size file.length file

lemma fgets_append : ∀ (n : ℕ) (file : Text), (fgets n file).1 ++ (fgets n file).2.1 = file
  | 0, _ => rfl
  | _ + 1, [] => rfl
  | n + 1, c :: file => by
    unfold fgets
    split_ifs
    · rfl
    · simp [fgets_append n file]

lemma fgets_ne_nil {n : ℕ} {file : Text} (h : (fgets (n + 1) file).2.2 = false) :
    (fgets (n + 1) file).1 ≠ [] := by
  cases file with
  | nil => cases h
  | cons c file =>
    unfold fgets
    split_ifs <;> simp

lemma getsLoop_of_le {size : ℕ} (hsize : 2 ≤ size) :
    ∀ {rounds : ℕ} {file : Text}, file.length ≤ rounds →
      getsLoop size rounds file = buffers size file := by
  obtain ⟨n, hn⟩ : ∃ n, size - 1 = n + 1 := ⟨size - 2, by omega⟩
  have key : ∀ {r r' : ℕ} {file : Text}, file.length ≤ r → file.length ≤ r' →
      getsLoop size r file = getsLoop size r' file := by
    intro r
    induction r with
    | zero =>
      intro r' file hr _
      obtain rfl : file = [] := List.length_eq_zero_iff.mp (by omega)
      cases r' <;> simp [getsLoop, hn, fgets]
    | succ r ih =>
      intro r' file hr hr'
      cases r' with
      | zero =>
        obtain rfl : file = [] := List.length_eq_zero_iff.mp (by omega)
        simp [getsLoop, hn, fgets]
      | succ r' =>
        have happend := congrArg List.length (fgets_append (n + 1) file)
        rw [List.length_append] at happend
        simp only [getsLoop, hn]
        split_ifs with heof
        · rfl
        · have hpos := List.length_pos_iff.mpr (fgets_ne_nil (by simpa using heof))
          rw [ih (by omega) (show (fgets (n + 1) file).2.1.length ≤ r' by omega)]
  intro rounds file h
  exact key h le_rfl

theorem buffers_eq {size : ℕ} (hsize : 2 ≤ size) (file : Text) :
    buffers size file =
      if (fgets (size - 1) file).2.2 then []
      else (fgets (size - 1) file).1 :: buffers size (fgets (size - 1) file).2.1 := by
  obtain ⟨n, hn⟩ : ∃ n, size - 1 = n + 1 := ⟨size - 2, by omega⟩
  have hrounds : buffers size file = getsLoop size (file.length + 1) file :=
    (getsLoop_of_le hsize (by omega)).symm
  have happend := congrArg List.length (fgets_append (size - 1) file)
  rw [List.length_append] at happend
  rw [hrounds]
  simp only [getsLoop]
  split_ifs
  · rfl
  · rw [getsLoop_of_le hsize (show (fgets (size - 1) file).2.1.length ≤ file.length by omega)]

end Text

end TcpOverUdp
