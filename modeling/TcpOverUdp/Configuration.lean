import TcpOverUdp.Acknowledgements
import TcpOverUdp.Lib.DottedQuad

namespace TcpOverUdp
open CWord Text

structure Libc (F : Type) where
  long : SizeT
  atof : Text → F

def Libc.atoi {F : Type} (libc : Libc F) (s : Text) : ℤ := Text.atoi libc.long.bits s

/-- The ways in which a reader does not return: `exit(0)`, or an undefined expression. -/
inductive Stop
  | exit
  | fault (f : Fault)
  deriving DecidableEq, Repr

structure ClientInput (F : Type) where
  serverIP : Text
  serverPort : ℤ
  fileName : Text
  receivingWindowSize : ℤ
  seedValue : ℤ
  pDataLoss : F
  mean : ℤ
  fileNameReceived : Text

structure ServerInput where
  serverPort : ℤ
  sendingWindowSize : ℤ
  deriving DecidableEq, Repr

def receivedSuffix : Text := [46, 114, 101, 99, 101, 105, 118, 101, 100]

variable {F : Type}

namespace ClientInput

def setLine (libc : Libc F) (count : ℕ) (clientInput : ClientInput F) (buffer : Text) :
    Except Stop (ClientInput F) :=
  match count with
  | 0 =>
    if inetPton buffer = none then .error .exit else .ok { clientInput with serverIP := buffer }
  | 1 =>
    if libc.atoi buffer = 0 then .error .exit
    else .ok { clientInput with serverPort := libc.atoi buffer }
  | 2 => .ok { clientInput with fileName := buffer }
  | 3 => .ok { clientInput with receivingWindowSize := libc.atoi buffer }
  | 4 => .ok { clientInput with seedValue := libc.atoi buffer }
  | 5 => .ok { clientInput with pDataLoss := libc.atof buffer }
  | 6 => .ok { clientInput with mean := libc.atoi buffer }
  | _ => .error .exit

/-- The loop of `readClientInput` over what `buffer` holds.  The test for an empty line comes
before the newline is taken off, and only a zero byte passes it. -/
def readLoop (libc : Libc F) : ℕ → ClientInput F → List Text → Except Stop (ClientInput F)
  | _, clientInput, [] => .ok clientInput
  | count, clientInput, buffer :: buffers =>
    if cstring buffer = [] then readLoop libc count clientInput buffers
    else do
      let clientInput ← clientInput.setLine libc count (chomp (cstring buffer))
      readLoop libc (count + 1) clientInput buffers

end ClientInput

namespace ServerInput

def setLine (libc : Libc F) (count : ℕ) (serverInput : ServerInput) (buffer : Text) :
    Except Stop ServerInput :=
  match count with
  | 0 =>
    if libc.atoi buffer = 0 then .error .exit
    else .ok { serverInput with serverPort := libc.atoi buffer }
  | 1 => .ok { serverInput with sendingWindowSize := libc.atoi buffer }
  | _ => .error .exit

/-- The loop of `readServerInput` over what `buffer` holds.  The test for an empty line comes
after the newline is taken off, at `buffer[strlen(buffer) - 1]`. -/
def readLoop (libc : Libc F) : ℕ → ServerInput → List Text → Except Stop ServerInput
  | _, serverInput, [] => .ok serverInput
  | count, serverInput, buffer :: buffers =>
    if cstring buffer = [] then .error (.fault .outOfBounds)
    else if chomp (cstring buffer) = [] then readLoop libc count serverInput buffers
    else do
      let serverInput ← serverInput.setLine libc count (chomp (cstring buffer))
      readLoop libc (count + 1) serverInput buffers

end ServerInput

def readClientInput (libc : Libc F) (clientInput : ClientInput F) :
    Option Text → Except Stop (ClientInput F)
  | none => .error .exit
  | some file => do
    let clientInput ← clientInput.readLoop libc 0 (buffers 256 file)
    .ok { clientInput with fileNameReceived := clientInput.fileName ++ receivedSuffix }

def readServerInput (libc : Libc F) (serverInput : ServerInput) :
    Option Text → Except Stop ServerInput
  | none => .error .exit
  | some file => serverInput.readLoop libc 0 (buffers 256 file)

/-- A reader given its lines one after the other, with `count` of them behind it. -/
def setLines {σ : Type} (set : ℕ → σ → Text → Except Stop σ) :
    ℕ → σ → List Text → Except Stop σ
  | _, s, [] => .ok s
  | count, s, line :: lines => do
    let s ← set count s line
    setLines set (count + 1) s lines

namespace ClientInput

/-- The lines that count for the client: all but those that begin with a zero byte. -/
def lines (file : Text) : List Text :=
  ((buffers 256 file).filter fun buffer => cstring buffer ≠ []).map fun buffer =>
    chomp (cstring buffer)

lemma readLoop_eq (libc : Libc F) (count : ℕ) (clientInput : ClientInput F)
    (buffers : List Text) :
    readLoop libc count clientInput buffers =
      setLines (fun count input => input.setLine libc count) count clientInput
        ((buffers.filter fun buffer => cstring buffer ≠ []).map fun buffer =>
          chomp (cstring buffer)) := by
  induction buffers generalizing count clientInput with
  | nil => rfl
  | cons buffer buffers ih =>
    unfold readLoop
    split_ifs with hempty
    · rw [ih, List.filter_cons_of_neg (by simp [hempty])]
    · rw [List.filter_cons_of_pos (by simp [hempty]), List.map_cons, setLines]
      simp only [ih]

/-- The lines for which the client exits: no address, the port `0`, or more than seven lines. -/
def Refuses (libc : Libc F) (lines : List Text) : Prop :=
  (∃ l ∈ lines[0]?, inetPton l = none) ∨ (∃ l ∈ lines[1]?, libc.atoi l = 0) ∨ 8 ≤ lines.length

instance (libc : Libc F) (lines : List Text) : Decidable (Refuses libc lines) :=
  inferInstanceAs (Decidable (_ ∨ _ ∨ _))

def filled (libc : Libc F) (clientInput : ClientInput F) (lines : List Text) : ClientInput F where
  serverIP := lines[0]?.getD clientInput.serverIP
  serverPort := (lines[1]?.map libc.atoi).getD clientInput.serverPort
  fileName := lines[2]?.getD clientInput.fileName
  receivingWindowSize := (lines[3]?.map libc.atoi).getD clientInput.receivingWindowSize
  seedValue := (lines[4]?.map libc.atoi).getD clientInput.seedValue
  pDataLoss := (lines[5]?.map libc.atof).getD clientInput.pDataLoss
  mean := (lines[6]?.map libc.atoi).getD clientInput.mean
  fileNameReceived := clientInput.fileNameReceived

lemma setLines_eq (libc : Libc F) (clientInput : ClientInput F) (lines : List Text) :
    (Refuses libc lines ∧
        setLines (fun count input => input.setLine libc count) 0 clientInput lines =
          .error .exit) ∨
      (¬ Refuses libc lines ∧
        setLines (fun count input => input.setLine libc count) 0 clientInput lines =
          .ok (clientInput.filled libc lines)) := by
  rcases lines with _ | ⟨address, lines⟩
  · exact Or.inr ⟨by simp [Refuses], rfl⟩
  by_cases haddress : inetPton address = none
  · exact Or.inl ⟨Or.inl ⟨address, rfl, haddress⟩, by
      simp [setLines, setLine, haddress, bind, Except.bind]⟩
  rcases lines with _ | ⟨port, lines⟩
  · exact Or.inr ⟨by simp [Refuses, haddress], by
      simp [setLines, setLine, haddress, bind, Except.bind, filled]⟩
  by_cases hport : libc.atoi port = 0
  · exact Or.inl ⟨Or.inr (Or.inl ⟨port, rfl, hport⟩), by
      simp [setLines, setLine, haddress, hport, bind, Except.bind]⟩
  rcases lines with _ | ⟨l2, _ | ⟨l3, _ | ⟨l4, _ | ⟨l5, _ | ⟨l6, _ | ⟨l7, lines⟩⟩⟩⟩⟩⟩
  case cons.cons.cons.cons.cons.cons =>
    exact Or.inl ⟨by simp [Refuses], by
      simp [setLines, setLine, haddress, hport, bind, Except.bind]⟩
  all_goals
    exact Or.inr ⟨by simp [Refuses, haddress, hport], by
      simp [setLines, setLine, haddress, hport, bind, Except.bind, filled]⟩

def result (libc : Libc F) (clientInput : ClientInput F) (lines : List Text) : ClientInput F :=
  { clientInput.filled libc lines with
    fileNameReceived := (clientInput.filled libc lines).fileName ++ receivedSuffix }

theorem readClientInput_eq (libc : Libc F) (clientInput : ClientInput F) (file : Text) :
    (Refuses libc (lines file) ∧ readClientInput libc clientInput (some file) = .error .exit) ∨
      (¬ Refuses libc (lines file) ∧
        readClientInput libc clientInput (some file) =
          .ok (clientInput.result libc (lines file))) := by
  have hread : readClientInput libc clientInput (some file) =
      (setLines (fun count input => input.setLine libc count) 0 clientInput (lines file)).bind
        fun input => .ok { input with fileNameReceived := input.fileName ++ receivedSuffix } := by
    rw [lines, ← readLoop_eq]
    rfl
  rw [hread]
  rcases setLines_eq libc clientInput (lines file) with ⟨href, h⟩ | ⟨href, h⟩
  · exact Or.inl ⟨href, by rw [h]; rfl⟩
  · exact Or.inr ⟨href, by rw [h]; rfl⟩

lemma readClientInput_eq_ok {libc : Libc F} {clientInput r : ClientInput F} {file : Text} :
    readClientInput libc clientInput (some file) = .ok r ↔
      ¬ Refuses libc (lines file) ∧ clientInput.result libc (lines file) = r := by
  rcases readClientInput_eq libc clientInput file with ⟨href, h⟩ | ⟨href, h⟩
  · simp [h, href]
  · simp [h, href]

/-- The configuration `r` has been read from `file`: all members come from its lines, the window
has a slot at least, and in no run of the client is an index taken modulo zero. -/
structure SafeToRun (libc : Libc F) (file : Text) (r : ClientInput F) : Prop where
  assigned : ∀ clientInput, readClientInput libc clientInput (some file) = .ok r
  window : 1 ≤ r.receivingWindowSize
  runs : ∀ cfg : ClientConfig, cfg.receivingWindowSize = r.receivingWindowSize →
    ∀ es c, (Client.machine cfg).run (Client.start cfg) es = some c →
      (∀ n, c.recv.window.slotIndex n ≠ .error .divisionByZero) ∧
        1 ≤ c.recv.window.receivingWindowSize.toNat

lemma runs_of_window {cfg : ClientConfig} (hwindow : 1 ≤ cfg.receivingWindowSize)
    {es : List ClientEvent} {c : Client}
    (hrun : (Client.machine cfg).run (Client.start cfg) es = some c) :
    (∀ n, c.recv.window.slotIndex n ≠ .error .divisionByZero) ∧
      1 ≤ c.recv.window.receivingWindowSize.toNat := by
  obtain ⟨W, hW⟩ := Int.eq_ofNat_of_zero_le (show 0 ≤ cfg.receivingWindowSize by omega)
  obtain ⟨b, hfollows, -⟩ := Client.run_follows (Client.start_follows (by omega) hW) hrun
  have hsize := hfollows.represents.size
  have hpos := hfollows.represents.pos
  refine ⟨fun n => ?_, by omega⟩
  rw [SlidingWindow.slotIndex, hsize, rem, if_neg (by omega)]
  simp only [bind, ok_bind]
  split_ifs <;> simp

lemma result_of_seven (libc : Libc F) {lines : List Text} (h : 7 ≤ lines.length)
    (clientInput r : ClientInput F) : clientInput.result libc lines = r.result libc lines := by
  rcases lines with _ | ⟨l0, _ | ⟨l1, _ | ⟨l2, _ | ⟨l3, _ | ⟨l4, _ | ⟨l5, _ | ⟨l6, lines⟩⟩⟩⟩⟩⟩⟩
  case cons.cons.cons.cons.cons.cons.cons => rfl
  all_goals simp at h

/-- A configuration that is accepted is safe to run with if and only if the file has seven lines
and the fourth is a positive number. -/
theorem safeToRun_iff (libc : Libc F) (clientInput : ClientInput F) (file : Text)
    (r : ClientInput F) (hread : readClientInput libc clientInput (some file) = .ok r) :
    SafeToRun libc file r ↔
      7 ≤ (lines file).length ∧ ∃ l, (lines file)[3]? = some l ∧ 1 ≤ libc.atoi l := by
  obtain ⟨href, hresult⟩ := readClientInput_eq_ok.mp hread
  constructor
  · intro h
    have hseven : 7 ≤ (lines file).length := by
      by_contra hshort
      -- the last member keeps what was there
      have hmean : ∀ input : ClientInput F, r.mean = input.mean := by
        intro input
        rw [← (readClientInput_eq_ok.mp (h.assigned input)).2]
        simp [result, filled, List.getElem?_eq_none (not_lt.mp fun hlt => hshort hlt)]
      have hzero : r.mean = 0 := hmean { r with mean := 0 }
      have hone : r.mean = 1 := hmean { r with mean := 1 }
      omega
    obtain ⟨l, hl⟩ : ∃ l, (lines file)[3]? = some l := ⟨_, List.getElem?_eq_getElem (by omega)⟩
    refine ⟨hseven, l, hl, ?_⟩
    have hwindow := h.window
    rw [← hresult] at hwindow
    simpa [result, filled, hl] using hwindow
  · rintro ⟨hseven, l, hl, hpos⟩
    have hwindow : 1 ≤ r.receivingWindowSize := by
      rw [← hresult]
      simpa [result, filled, hl] using hpos
    refine ⟨fun input => ?_, hwindow, fun cfg hcfg es c hrun => ?_⟩
    · rw [readClientInput_eq_ok, ← hresult]
      exact ⟨href, result_of_seven libc hseven _ _⟩
    · exact runs_of_window (hcfg ▸ hwindow) hrun

/-- A file of seven lines with the window size in the fourth: the address 127.0.0.1, the port
9877, a file `f`, the seed 1, no losses and the mean 5. -/
def configFile (windowSize : Text) : Text :=
  unlines [inetNtop 0x7f000001, [57, 56, 55, 55], [102], windowSize, [49], [48], [53]]

def cleared : ClientInput ℚ := ⟨[], 0, [], 0, 0, 0, 0, []⟩

theorem safeToRun_ten :
    ∃ r, readClientInput ⟨.bits64, fun _ => 0⟩ cleared (some (configFile [49, 48])) = .ok r ∧
      SafeToRun ⟨.bits64, fun _ => 0⟩ (configFile [49, 48]) r := by
  have hread : readClientInput ⟨.bits64, fun _ => 0⟩ cleared (some (configFile [49, 48])) =
      .ok (cleared.result ⟨.bits64, fun _ => 0⟩ (lines (configFile [49, 48]))) :=
    readClientInput_eq_ok.mpr ⟨by decide +kernel, rfl⟩
  exact ⟨_, hread, (safeToRun_iff _ _ _ _ hread).mpr ⟨by decide, [49, 48], by decide, by decide⟩⟩

theorem not_safeToRun :
    ¬ ∀ (F : Type) (libc : Libc F) (clientInput : ClientInput F) (file : Text)
      (r : ClientInput F), readClientInput libc clientInput (some file) = .ok r →
        SafeToRun libc file r := by
  intro h
  have hread : readClientInput ⟨.bits64, fun _ => 0⟩ cleared (some (configFile [48])) =
      .ok (cleared.result ⟨.bits64, fun _ => 0⟩ (lines (configFile [48]))) :=
    readClientInput_eq_ok.mpr ⟨by decide +kernel, rfl⟩
  have hwindow := (h _ _ _ _ _ hread).window
  revert hwindow
  decide

end ClientInput

end TcpOverUdp
