import TcpOverUdp.Lib.Text

namespace TcpOverUdp

namespace Text

/-- An empty line is put in at the start of a line, or a newline behind the last line. -/
inductive Relayout : Text → Text → Prop
  | emptyLine (u v : Text) (h : u = [] ∨ u.getLast? = some newline) :
    Relayout (u ++ v) (u ++ newline :: v)
  | lastNewline (u : Text) (h : u.getLast? ≠ some newline) : Relayout u (u ++ [newline])

def SameLines (file file' : Text) : Prop := Relation.EqvGen Relayout file file'

/-- The lines of a file that are not empty, and the last one with or without a newline. -/
def content (file : Text) : List Text := (file.splitOn newline).filter fun line => line ≠ []

def terminated (file : Text) : List Text := (file.splitOn newline).dropLast

variable {file file' : Text}

lemma SameLines.symm (h : SameLines file file') : SameLines file' file :=
  Relation.EqvGen.symm _ _ h

lemma SameLines.trans {file'' : Text} (h : SameLines file file') (h' : SameLines file' file'') :
    SameLines file file'' := Relation.EqvGen.trans _ _ _ h h'

lemma Relayout.sameLines (h : Relayout file file') : SameLines file file' :=
  Relation.EqvGen.rel _ _ h

lemma exists_concat_newline {u : Text} (h : u.getLast? = some newline) : ∃ w, u = w ++ [newline] :=
  ⟨u.dropLast, (List.dropLast_append_getLast? newline h).symm⟩

lemma Relayout.content_eq (h : Relayout file file') : content file = content file' := by
  unfold content
  cases h with
  | emptyLine u v hu =>
    rw [List.splitOn_append_cons_self]
    rcases hu with rfl | hu
    · simp
    · obtain ⟨w, rfl⟩ := exists_concat_newline hu
      rw [List.append_assoc, List.singleton_append, List.splitOn_append_cons_self,
        List.splitOn_append_cons_self]
      simp
  | lastNewline _ _ =>
    rw [List.splitOn_append_cons_self]
    simp

def joinLines (lines : List Text) : Text := [newline].intercalate lines

lemma joinLines_splitOn (file : Text) : joinLines (file.splitOn newline) = file :=
  List.intercalate_splitOn newline

lemma joinLines_append {a b : List Text} (hb : b ≠ []) :
    joinLines (a ++ b) = unlines a ++ joinLines b := by
  induction a with
  | nil => rfl
  | cons l a ih =>
    obtain ⟨m, c, hc⟩ := List.exists_cons_of_ne_nil (show a ++ b ≠ [] by simp [hb])
    have hcons : joinLines (l :: (a ++ b)) = l ++ newline :: joinLines (a ++ b) := by
      rw [hc, joinLines, List.intercalate_cons_cons]
      simp [joinLines]
    rw [List.cons_append, hcons, ih]
    simp [unlines]

lemma joinLines_cons_cons (l m : Text) (lines : List Text) :
    joinLines (l :: m :: lines) = l ++ newline :: joinLines (m :: lines) := by
  simp [joinLines, List.intercalate_cons_cons]

lemma unlines_boundary (a : List Text) : unlines a = [] ∨ (unlines a).getLast? = some newline := by
  rcases List.eq_nil_or_concat a with rfl | ⟨a, l, rfl⟩
  · exact Or.inl rfl
  · right
    simp [unlines]

lemma sameLines_insert (a b : List Text) :
    SameLines (joinLines (a ++ b)) (joinLines (a ++ [] :: b)) := by
  rcases b with _ | ⟨c, b⟩
  · rcases List.eq_nil_or_concat a with rfl | ⟨a, l, rfl⟩
    · exact Relation.EqvGen.refl _
    · have hnl : joinLines (a.concat l ++ [[]]) = joinLines (a.concat l) ++ [newline] := by
        have hlast : joinLines (a ++ [l]) = unlines a ++ joinLines [l] := joinLines_append (by simp)
        rw [List.concat_eq_append, hlast, joinLines_append (by simp)]
        simp [joinLines, unlines]
      rw [hnl, List.append_nil]
      by_cases hlast : (joinLines (a.concat l)).getLast? = some newline
      · have h := Relayout.emptyLine _ [] (Or.inr hlast)
        rw [List.append_nil] at h
        exact h.sameLines
      · exact (Relayout.lastNewline _ hlast).sameLines
  · rw [joinLines_append (by simp), joinLines_append (by simp), joinLines_cons_cons,
      List.nil_append]
    exact (Relayout.emptyLine _ _ (unlines_boundary a)).sameLines

lemma sameLines_filter (a b : List Text) :
    SameLines (joinLines (a ++ b)) (joinLines (a ++ b.filter fun line => line ≠ [])) := by
  induction b generalizing a with
  | nil => exact Relation.EqvGen.refl _
  | cons l b ih =>
    by_cases hl : l = []
    · rw [hl, List.filter_cons_of_neg (by simp)]
      exact (sameLines_insert a b).symm.trans (ih a)
    · rw [List.filter_cons_of_pos (by simpa using hl)]
      simpa using ih (a ++ [l])

lemma sameLines_content (file : Text) : SameLines file (joinLines (content file)) := by
  have h := sameLines_filter [] (file.splitOn newline)
  rwa [List.nil_append, joinLines_splitOn] at h

lemma unlines_eq_joinLines (lines : List Text) : unlines lines = joinLines (lines ++ [[]]) := by
  rw [joinLines_append (by simp)]
  simp [joinLines]

lemma sameLines_unlines_content (file : Text) : SameLines file (unlines (content file)) := by
  have h := sameLines_insert (content file) []
  rw [List.append_nil, ← unlines_eq_joinLines] at h
  exact (sameLines_content file).trans h

lemma ne_nil_of_mem_content {file l : Text} (h : l ∈ content file) : l ≠ [] := by
  simpa using (List.mem_filter.mp h).2

lemma filter_content (file : Text) : ((content file).filter fun l => l ≠ []) = content file := by
  apply List.filter_eq_self.mpr
  intro l hl
  simpa using ne_nil_of_mem_content hl

lemma filter_dropLast_content (file : Text) :
    ((content file).dropLast.filter fun l => l ≠ []) = (content file).dropLast := by
  apply List.filter_eq_self.mpr
  intro l hl
  simpa using ne_nil_of_mem_content (List.mem_of_mem_dropLast hl)

/-- Two files differ in their layout only if and only if they have the same content. -/
theorem sameLines_iff : SameLines file file' ↔ content file = content file' := by
  constructor
  · intro h
    induction h with
    | rel _ _ h => exact h.content_eq
    | refl _ => rfl
    | symm _ _ _ ih => exact ih.symm
    | trans _ _ _ _ _ ih ih' => exact ih.trans ih'
  · intro h
    have hcontent := sameLines_content file
    rw [h] at hcontent
    exact hcontent.trans (sameLines_content file').symm

lemma newline_not_mem {file l : Text} (h : l ∈ file.splitOn newline) : newline ∉ l := by
  induction file generalizing l with
  | nil =>
    rw [List.splitOn_nil, List.mem_singleton] at h
    simp [h]
  | cons c file ih =>
    obtain ⟨m, lines, hlines⟩ := List.exists_cons_of_ne_nil (List.splitOn_ne_nil newline file)
    rw [List.splitOn_cons_eq_if_modifyHead, hlines] at h
    rw [hlines] at ih
    split_ifs at h with hc
    · rcases List.mem_cons.mp h with rfl | h
      · simp
      · exact ih h
    · rcases List.mem_cons.mp h with rfl | h
      · have hne : newline ≠ c := fun heq => hc (by simp [heq])
        simp [hne, ih List.mem_cons_self]
      · exact ih (List.mem_cons_of_mem _ h)

lemma fgets_line : ∀ {n : ℕ} {l : Text} (rest : Text), newline ∉ l → l.length < n →
    fgets n (l ++ newline :: rest) = (l ++ [newline], rest, false)
  | 0, _, _, _, hn => absurd hn (Nat.not_lt_zero _)
  | n + 1, [], rest, _, _ => by simp [fgets]
  | n + 1, c :: l, rest, hl, hn => by
    have hc : c ≠ newline := fun h => hl (by simp [h])
    rw [List.cons_append, fgets, if_neg hc,
      fgets_line rest (fun h => hl (List.mem_cons_of_mem _ h)) (by simpa using hn)]
    rfl

lemma fgets_last : ∀ {n : ℕ} {l : Text}, newline ∉ l → l.length < n → fgets n l = (l, [], true)
  | 0, _, _, hn => absurd hn (Nat.not_lt_zero _)
  | _ + 1, [], _, _ => rfl
  | n + 1, c :: l, hl, hn => by
    have hc : c ≠ newline := fun h => hl (by simp [h])
    rw [fgets, if_neg hc, fgets_last (fun h => hl (List.mem_cons_of_mem _ h)) (by simpa using hn)]

/-- In a file of lines that find room, the rounds of the loop see the lines that end in a
newline. -/
theorem buffers_eq_terminated {size : ℕ} (hsize : 2 ≤ size)
    (hroom : ∀ l ∈ file.splitOn newline, l.length < size - 1) :
    buffers size file = (terminated file).map fun l => l ++ [newline] := by
  have key : ∀ lines : List Text, lines ≠ [] →
      (∀ l ∈ lines, newline ∉ l ∧ l.length < size - 1) →
        buffers size (joinLines lines) = lines.dropLast.map fun l => l ++ [newline] := by
    intro lines
    induction lines with
    | nil => exact fun h => absurd rfl h
    | cons l lines ih =>
      intro _ hlines
      obtain ⟨hl, hrest⟩ := List.forall_mem_cons.mp hlines
      rw [buffers_eq hsize]
      rcases lines with _ | ⟨m, lines⟩
      · rw [joinLines, List.intercalate_singleton, fgets_last hl.1 hl.2]
        rfl
      · rw [joinLines_cons_cons, fgets_line _ hl.1 hl.2]
        simp [ih (by simp) hrest]
  have h := key (file.splitOn newline) (List.splitOn_ne_nil newline file)
    fun l hl => ⟨newline_not_mem hl, hroom l hl⟩
  rwa [joinLines_splitOn] at h

lemma terminated_cons_newline (file : Text) :
    terminated (newline :: file) = [] :: terminated file := by
  have hsplit : (newline :: file).splitOn newline = [[]] ++ file.splitOn newline :=
    List.splitOn_append_cons_self [] file
  rw [terminated, hsplit, List.dropLast_append_of_ne_nil (List.splitOn_ne_nil newline file)]
  rfl

lemma terminated_joinLines_content (file : Text) :
    terminated (joinLines (content file)) = (content file).dropLast := by
  by_cases hnil : content file = []
  · rw [hnil]
    rfl
  · have hlines : ∀ l ∈ content file, newline ∉ l :=
      fun l hl => newline_not_mem (List.mem_of_mem_filter hl)
    rw [terminated, joinLines, List.splitOn_intercalate newline hlines hnil]

lemma terminated_unlines_content (file : Text) :
    terminated (unlines (content file)) = content file := by
  have hlines : ∀ l ∈ content file, newline ∉ l :=
    fun l hl => newline_not_mem (List.mem_of_mem_filter hl)
  rw [terminated, unlines_eq_joinLines, joinLines, List.splitOn_intercalate newline _ (by simp),
    List.dropLast_concat]
  intro l hl
  rcases List.mem_append.mp hl with hl | hl
  · exact hlines l hl
  · rw [List.mem_singleton.mp hl]
    simp

lemma filter_terminated (file : Text) :
    ((terminated file).filter fun l => l ≠ []) = content file ∨
      ((terminated file).filter fun l => l ≠ []) = (content file).dropLast := by
  unfold terminated content
  rcases List.eq_nil_or_concat (file.splitOn newline) with hnil | ⟨lines, l, hconcat⟩
  · exact absurd hnil (List.splitOn_ne_nil newline file)
  · rw [hconcat, List.concat_eq_append, List.dropLast_concat, List.filter_append]
    by_cases hl : l = []
    · exact Or.inl (by simp [hl])
    · exact Or.inr (by simp [hl])

end Text

end TcpOverUdp
