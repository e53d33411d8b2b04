import TcpOverUdp.Configuration
import TcpOverUdp.Lib.Layout

namespace TcpOverUdp
open CWord Text

/-- A text whose lines are shorter than 255 characters, with no zero bytes. -/
def PlainText (file : Text) : Prop := ∀ l ∈ file.splitOn newline, l.length < 255 ∧ (0 : UInt8) ∉ l

instance (file : Text) : Decidable (PlainText file) := inferInstanceAs (Decidable (∀ l ∈ _, _))

variable {F : Type} {libc : Libc F} {file file' : Text}

lemma plain_iff : PlainText file ↔ ∀ l ∈ content file, l.length < 255 ∧ (0 : UInt8) ∉ l := by
  unfold PlainText content
  constructor
  · exact fun h l hl => h l (List.mem_of_mem_filter hl)
  · intro h l hl
    by_cases hnil : l = []
    · simp [hnil]
    · exact h l (List.mem_filter.mpr ⟨hl, by simpa using hnil⟩)

lemma PlainText.sameLines (h : PlainText file) (hsame : SameLines file file') :
    PlainText file' := by
  rw [plain_iff] at h ⊢
  rwa [← sameLines_iff.mp hsame]

lemma PlainText.buffers (h : PlainText file) :
    buffers 256 file = (terminated file).map fun l => l ++ [newline] :=
  buffers_eq_terminated (by norm_num) fun l hl => (h l hl).1

lemma PlainText.terminated (h : PlainText file) {l : Text} (hl : l ∈ terminated file) :
    (0 : UInt8) ∉ l := (h l (List.mem_of_mem_dropLast hl)).2

lemma cstring_line {l : Text} (hl : (0 : UInt8) ∉ l) :
    cstring (l ++ [newline]) = l ++ [newline] := by
  apply List.takeWhile_eq_self_iff.mpr
  intro c hc
  rcases List.mem_append.mp hc with hc | hc
  · simpa using fun h : c = 0 => hl (h ▸ hc)
  · rw [List.mem_singleton.mp hc]
    decide

lemma chomp_line (l : Text) : chomp (l ++ [newline]) = l := by
  simp [chomp]

lemma Libc.atoi_nil (libc : Libc F) : libc.atoi [] = 0 := by
  unfold Libc.atoi
  cases libc.long <;> decide

namespace ClientInput

lemma lines_eq (h : PlainText file) : lines file = terminated file := by
  have hall : (buffers 256 file).filter (fun buffer => cstring buffer ≠ []) = buffers 256 file := by
    apply List.filter_eq_self.mpr
    intro buffer hbuffer
    rw [h.buffers] at hbuffer
    obtain ⟨l, hl, rfl⟩ := List.mem_map.mp hbuffer
    simp [cstring_line (h.terminated hl)]
  rw [lines, hall, h.buffers, List.map_map]
  conv_rhs => rw [← List.map_id (terminated file)]
  apply List.map_congr_left
  intro l hl
  simp [cstring_line (h.terminated hl), chomp_line]

lemma exists_cons_of_prefix {a : Text} {m l : List Text}
    (h : a :: m <+: l.filter fun line => line ≠ []) :
    (∃ rest, l = [] :: rest) ∨ ∃ rest, l = a :: rest ∧ m <+: rest.filter fun line => line ≠ [] := by
  rcases l with _ | ⟨x, l⟩
  · rw [List.filter_nil, List.prefix_nil] at h
    cases h
  · by_cases hx : x = []
    · exact Or.inl ⟨l, by rw [hx]⟩
    · rw [List.filter_cons_of_pos (by simpa using hx)] at h
      obtain ⟨rfl, hm⟩ := List.cons_prefix_cons.mp h
      exact Or.inr ⟨l, rfl, hm⟩

lemma refuses_of_filter {m l : List Text} (hm : Refuses libc m)
    (hpre : m <+: l.filter fun line => line ≠ []) : Refuses libc l := by
  rcases hm with ⟨a, ha, hnone⟩ | ⟨b, hb, hzero⟩ | hlong
  · obtain ⟨m, rfl⟩ : ∃ m', m = a :: m' := by
      cases m <;> simp_all
    rcases exists_cons_of_prefix hpre with ⟨rest, rfl⟩ | ⟨rest, rfl, -⟩
    · exact Or.inl ⟨[], rfl, inetPton_nil⟩
    · exact Or.inl ⟨a, rfl, hnone⟩
  · obtain ⟨a, m, rfl⟩ : ∃ a m', m = a :: b :: m' := by
      rcases m with _ | ⟨a, _ | ⟨b', m⟩⟩ <;> simp_all
    rcases exists_cons_of_prefix hpre with ⟨rest, rfl⟩ | ⟨rest, rfl, hrest⟩
    · exact Or.inl ⟨[], rfl, inetPton_nil⟩
    · -- the second line: empty, or the port that was refused
      rcases exists_cons_of_prefix hrest with ⟨rest, rfl⟩ | ⟨rest, rfl, -⟩
      · exact Or.inr (Or.inl ⟨[], rfl, libc.atoi_nil⟩)
      · exact Or.inr (Or.inl ⟨b, rfl, hzero⟩)
  · exact Or.inr (Or.inr (hlong.trans (hpre.length_le.trans (List.length_filter_le _ l))))

lemma readClientInput_of_refuses {clientInput : ClientInput F} :
    readClientInput libc clientInput (some file) = .error .exit ↔ Refuses libc (lines file) := by
  rcases readClientInput_eq libc clientInput file with ⟨href, heq⟩ | ⟨href, heq⟩
  · simp [heq, href]
  · simp [heq, href]

/-- The outcome is the same in every layout if and only if the lines that are not empty, without
the last of them, are refused. -/
theorem sameOutcome_iff (h : PlainText file) (clientInput : ClientInput F) :
    (∀ file', SameLines file file' →
        readClientInput libc clientInput (some file') =
          readClientInput libc clientInput (some file)) ↔
      Refuses libc (content file).dropLast := by
  constructor
  · intro hsame
    -- with an empty line in front, the file is refused
    have hfront : SameLines file (newline :: file) :=
      (Relayout.emptyLine [] file (Or.inl rfl)).sameLines
    have hexit : readClientInput libc clientInput (some file) = .error .exit := by
      rw [← hsame _ hfront, readClientInput_of_refuses, lines_eq (h.sameLines hfront)]
      exact Or.inl ⟨[], by rw [terminated_cons_newline]; rfl, inetPton_nil⟩
    -- and so it is without its empty lines and its last newline
    have hbare := sameLines_content file
    rwa [← hsame _ hbare, readClientInput_of_refuses, lines_eq (h.sameLines hbare),
      terminated_joinLines_content] at hexit
  · intro href file' hsame
    have hall : ∀ file', SameLines file file' →
        readClientInput libc clientInput (some file') = .error .exit := by
      intro file' hsame
      rw [readClientInput_of_refuses, lines_eq (h.sameLines hsame)]
      apply refuses_of_filter href
      rw [sameLines_iff.mp hsame]
      rcases filter_terminated file' with heq | heq
      · rw [heq]
        exact List.dropLast_prefix _
      · rw [heq]
    rw [hall file' hsame, hall file (Relation.EqvGen.refl _)]

end ClientInput

namespace ServerInput

def lines (file : Text) : List Text := (terminated file).filter fun line => line ≠ []

lemma readLoop_eq (count : ℕ) (serverInput : ServerInput) {lines : List Text}
    (hzero : ∀ l ∈ lines, (0 : UInt8) ∉ l) :
    readLoop libc count serverInput (lines.map fun l => l ++ [newline]) =
      setLines (fun count input => input.setLine libc count) count serverInput
        (lines.filter fun line => line ≠ []) := by
  induction lines generalizing count serverInput with
  | nil => rfl
  | cons l lines ih =>
    obtain ⟨hl, hrest⟩ := List.forall_mem_cons.mp hzero
    rw [List.map_cons, readLoop, cstring_line hl, if_neg (by simp), chomp_line]
    split_ifs with hempty
    · rw [ih _ _ hrest, List.filter_cons_of_neg (by simp [hempty])]
    · rw [List.filter_cons_of_pos (by simpa using hempty), setLines]
      simp only [ih _ _ hrest]

lemma readServerInput_eq (h : PlainText file) (serverInput : ServerInput) :
    readServerInput libc serverInput (some file) =
      setLines (fun count input => input.setLine libc count) 0 serverInput (lines file) := by
  rw [readServerInput, h.buffers, readLoop_eq 0 serverInput fun l hl => h.terminated hl]
  rfl

def cleared : ServerInput := ⟨0, 0⟩

/-- The last of these lines does not matter: there is none, it comes behind a port that is
refused, it sets the window to what it is, or it is not the first line too many. -/
def LastIgnored (libc : Libc F) : List Text → Prop
  | [] => True
  | [_] => False
  | [port, size] => libc.atoi port = 0 ∨ libc.atoi size = 0
  | [port, _, _] => libc.atoi port = 0
  | _ => True

lemma setLines_dropLast_iff (lines : List Text) :
    setLines (fun count input => input.setLine libc count) 0 cleared lines.dropLast =
        setLines (fun count input => input.setLine libc count) 0 cleared lines ↔
      LastIgnored libc lines := by
  rcases lines with _ | ⟨port, lines⟩
  · simp [LastIgnored]
  by_cases hport : libc.atoi port = 0
  · rcases lines with _ | ⟨size, _ | ⟨l2, _ | ⟨l3, lines⟩⟩⟩ <;>
      simp [LastIgnored, setLines, setLine, hport, bind, Except.bind]
  · rcases lines with _ | ⟨size, _ | ⟨l2, _ | ⟨l3, lines⟩⟩⟩ <;>
      simp [LastIgnored, setLines, setLine, hport, bind, Except.bind, cleared,
        eq_comm (a := (0 : ℤ))]

/-- The outcome is the same in every layout if and only if the last of the lines that are not empty
does not matter. -/
theorem sameOutcome_iff (h : PlainText file) :
    (∀ file', SameLines file file' →
        readServerInput libc cleared (some file') = readServerInput libc cleared (some file)) ↔
      LastIgnored libc (content file) := by
  rw [← setLines_dropLast_iff]
  constructor
  · intro hsame
    -- the layouts without empty lines, with and without a newline at the end
    have hbare : SameLines file (joinLines (content file)) := sameLines_content file
    have hfull : SameLines file (unlines (content file)) := sameLines_unlines_content file
    have heq := (hsame _ hbare).trans (hsame _ hfull).symm
    rwa [readServerInput_eq (h.sameLines hbare), readServerInput_eq (h.sameLines hfull), lines,
      lines, terminated_joinLines_content, terminated_unlines_content, filter_content,
      filter_dropLast_content] at heq
  · intro heq file' hsame
    have hall : ∀ file', SameLines file file' →
        readServerInput libc cleared (some file') =
          setLines (fun count input => input.setLine libc count) 0 cleared (content file) := by
      intro file' hsame
      rw [readServerInput_eq (h.sameLines hsame), lines, sameLines_iff.mp hsame]
      rcases filter_terminated file' with hlines | hlines
      · rw [hlines]
      · rw [hlines, ← sameLines_iff.mp hsame, heq]
    rw [hall file' hsame, hall file (Relation.EqvGen.refl _)]

end ServerInput

open ClientInput ServerInput in
/-- The layout does not matter to the client if and only if the file is refused without its last
line that is not empty, and to the server if and only if it ignores that line. -/
theorem layout_ignored_iff (libc : Libc F) (clientInput : ClientInput F) (file : Text)
    (h : PlainText file) :
    ((∀ file', SameLines file file' →
        readClientInput libc clientInput (some file') =
          readClientInput libc clientInput (some file)) ↔
      Refuses libc (content file).dropLast) ∧
    ((∀ file', SameLines file file' →
        readServerInput libc cleared (some file') = readServerInput libc cleared (some file)) ↔
      LastIgnored libc (content file)) :=
  ⟨ClientInput.sameOutcome_iff h clientInput, ServerInput.sameOutcome_iff h⟩

/-- A port that is not a number, and a window size: the two lines `x` and `20`. -/
def noPortFile : Text := [120, 10, 50, 48]

open ClientInput ServerInput in
/-- The client refuses the first line for an address and the server for a port, in every
layout. -/
theorem layout_ignored_noPort :
    (∀ file', SameLines noPortFile file' →
        readClientInput ⟨.bits64, fun _ => 0⟩ ClientInput.cleared (some file') =
          readClientInput ⟨.bits64, fun _ => 0⟩ ClientInput.cleared (some noPortFile)) ∧
      ∀ file', SameLines noPortFile file' →
        readServerInput (⟨.bits64, fun _ => 0⟩ : Libc ℚ) ServerInput.cleared (some file') =
          readServerInput (⟨.bits64, fun _ => 0⟩ : Libc ℚ) ServerInput.cleared
            (some noPortFile) := by
  obtain ⟨hclient, hserver⟩ :=
    layout_ignored_iff ⟨.bits64, fun _ => 0⟩ ClientInput.cleared noPortFile (by decide)
  exact ⟨hclient.mpr (by decide), hserver.mpr (Or.inl (by decide))⟩

/-- A port and a window size: the two lines `9877` and `20`, without a newline at the end. -/
def unterminatedFile : Text := [57, 56, 55, 55, 10, 50, 48]

open ClientInput in
/-- With an empty line in front the client exits, and with a newline behind the last line the server
reads another window size. -/
theorem not_layout_ignored :
    (¬ ∀ (libc : Libc ℚ) (clientInput : ClientInput ℚ) (file : Text), PlainText file →
      ∀ file', SameLines file file' →
        readClientInput libc clientInput (some file') =
          readClientInput libc clientInput (some file)) ∧
    (¬ ∀ (libc : Libc ℚ) (file : Text), PlainText file →
      ∀ file', SameLines file file' →
        readServerInput libc ServerInput.cleared (some file') =
          readServerInput libc ServerInput.cleared (some file)) := by
  constructor
  · intro h
    have hfront : SameLines (configFile [49, 48]) (newline :: configFile [49, 48]) :=
      (Relayout.emptyLine [] _ (Or.inl rfl)).sameLines
    have hclient := h ⟨.bits64, fun _ => 0⟩ ClientInput.cleared _ (by decide) _ hfront
    have hexit : readClientInput ⟨.bits64, fun _ => 0⟩ ClientInput.cleared
        (some (newline :: configFile [49, 48])) = .error .exit :=
      readClientInput_of_refuses.mpr (by decide +kernel)
    have hread : ¬ readClientInput ⟨.bits64, fun _ => 0⟩ ClientInput.cleared
        (some (configFile [49, 48])) = .error .exit :=
      fun hexit => absurd (readClientInput_of_refuses.mp hexit) (by decide +kernel)
    exact hread (hclient ▸ hexit)
  · intro h
    have hlast : SameLines unterminatedFile (unterminatedFile ++ [newline]) :=
      (Relayout.lastNewline _ (by decide)).sameLines
    have hserver := h ⟨.bits64, fun _ => 0⟩ _ (by decide) _ hlast
    revert hserver
    decide

end TcpOverUdp
