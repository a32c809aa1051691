import Mathlib.Data.List.Basic
import Pinout.Proofs.Pattern.Found
import Pinout.Text.Lines

/-! # Lines of a text

Joined lines fall into the same lines again, if none of them holds a line break. So indenting them
moves each of them, and a document is its lines one after the other.
-/

namespace Pinout.Text

variable {line s t margin : Text} {more : List Text} {c : Char}

def EndsLine (t : Text) : Prop :=
  t = [] ∨ ['\n'] <:+ t

theorem EndsLine.of_suffix (ends : EndsLine t) (h : s <:+ t) : EndsLine s := by
  rcases ends with rfl | last
  · exact .inl (List.suffix_nil.mp h)
  · by_cases empty : s = []
    · exact .inl empty
    · exact .inr (List.suffix_of_suffix_length_le last h (List.length_pos_of_ne_nil empty))

/-- A line is ended by a line feed only. -/
theorem EndsLine.eq_of_concat (ends : EndsLine (t ++ [c])) : c = '\n' := by
  rcases ends with empty | ⟨u, same⟩
  · simp at empty
  · simpa using (List.append_inj_right' same rfl).symm

theorem isLineBreak_of_isWord (h : isWord c = true) : isLineBreak c = false := by
  have plain : ∀ d ∈ ['\n', '\x0b', '\x0c', '\r', '\x1c', '\x1d', '\x1e', '\u0085', '\u2028', '\u2029'],
      isWord d = false := by decide +kernel
  rw [isLineBreak, decide_eq_false_iff_not]
  intro breaks
  rw [plain c breaks] at h
  cases h

theorem IsName.unbroken (name : IsName t) : ∀ c ∈ t, isLineBreak c = false := fun c hc =>
  isLineBreak_of_isWord (name.word c hc)

theorem IsName.testbench (name : IsName t) : IsName (t ++ "_tb") where
  nonempty := by simp
  word := List.forall_mem_append.mpr ⟨name.word, by decide⟩

theorem lines_cons_of_break (h : isLineBreak c = true) (differs : ∀ s, c = '\r' → t = '\n' :: s → False) :
    lines (c :: t) = [] :: lines t := by
  rw [lines.eq_3 _ _ differs, if_pos h]

theorem lines_lineFeed (t : Text) : lines ('\n' :: t) = [] :: lines t :=
  lines_cons_of_break (by decide) (by rintro _ ⟨⟩)

theorem lines_cons_of_not_break (h : isLineBreak c = false) (split : lines t = line :: more) :
    lines (c :: t) = (c :: line) :: more := by
  have differs : ∀ rest, c = '\r' → t = '\n' :: rest → False := by
    rintro _ rfl -
    exact absurd h (by decide)
  rw [lines.eq_3 _ _ differs, if_neg (by simp [h]), split]

theorem lines_append_lineFeed (unbroken : ∀ c ∈ line, isLineBreak c = false) (t : Text) :
    lines (line ++ '\n' :: t) = line :: lines t := by
  induction line with
  | nil => exact lines_lineFeed t
  | cons c line ih =>
      exact lines_cons_of_not_break (unbroken c (by simp)) (ih fun d hd => unbroken d (by simp [hd]))

theorem joinLines_cons_cons (line next : Text) (more : List Text) :
    joinLines (line :: next :: more) = line ++ '\n' :: joinLines (next :: more) := by
  rw [joinLines, joinWith, List.intercalate_cons_cons, List.append_assoc]
  rfl

theorem joinLines_singleton (line : Text) : joinLines [line] = line := by
  rw [joinLines, joinWith, List.intercalate_singleton]

theorem joinLines_append {first second : List Text} (nonempty : first ≠ []) (nonempty' : second ≠ []) :
    joinLines (first ++ second) = joinLines first ++ '\n' :: joinLines second := by
  induction first with
  | nil => exact absurd rfl nonempty
  | cons line more ih =>
      cases more with
      | nil =>
          obtain ⟨next, rest, rfl⟩ := List.exists_cons_of_ne_nil nonempty'
          rw [List.cons_append, List.nil_append, joinLines_cons_cons, joinLines_singleton]
      | cons next more =>
          have rest := ih (by simp)
          rw [List.cons_append] at rest
          rw [List.cons_append, List.cons_append, joinLines_cons_cons, rest, joinLines_cons_cons, List.append_assoc,
            List.cons_append]

theorem joinLines_inj {first second : List Text} (nonempty : first ≠ []) (nonempty' : second ≠ [])
    (unbroken : ∀ l ∈ first, '\n' ∉ l) (unbroken' : ∀ l ∈ second, '\n' ∉ l)
    (h : joinLines first = joinLines second) : first = second := by
  have split := congrArg (List.splitOn '\n') h
  rwa [joinLines, joinLines, joinWith, joinWith, List.splitOn_intercalate _ unbroken nonempty,
    List.splitOn_intercalate _ unbroken' nonempty'] at split

theorem splitOn_flatMap_append (lines : List Text) (t : Text) :
    (lines.flatMap (· ++ ['\n']) ++ t).splitOn '\n' = lines.flatMap (List.splitOn '\n') ++ t.splitOn '\n' := by
  induction lines with
  | nil => rfl
  | cons line more ih =>
      rw [List.flatMap_cons, List.append_assoc, List.append_assoc, List.singleton_append, List.splitOn_append_cons_self,
        ih, List.flatMap_cons, List.append_assoc]

theorem flatMap_splitOn_of_unbroken {lines : List Text} (unbroken : ∀ l ∈ lines, '\n' ∉ l) :
    lines.flatMap (List.splitOn '\n') = lines := by
  conv_rhs => rw [← List.flatMap_singleton' lines]
  exact List.flatMap_congr fun l hl => List.splitOn_eq_singleton (unbroken l hl)

theorem length_splitOn (t : Text) : (t.splitOn c).length = t.count c + 1 := by
  induction t with
  | nil => rfl
  | cons d t ih =>
      rw [List.splitOn_cons_eq_if_modifyHead, List.count_cons]
      split <;> simp_all

theorem not_mem_of_mem_splitOn (h : line ∈ t.splitOn c) : c ∉ line := by
  induction t generalizing line with
  | nil =>
      rw [List.splitOn_nil] at h
      simp [List.mem_singleton.mp h]
  | cons d t ih =>
      rw [List.splitOn_cons_eq_if_modifyHead] at h
      split at h
      · rcases List.mem_cons.mp h with rfl | h
        · exact List.not_mem_nil
        · exact ih h
      · rename_i differs
        obtain ⟨first, rest, split⟩ := List.exists_cons_of_ne_nil (List.splitOn_ne_nil c t)
        rw [split] at h ih
        rcases List.mem_cons.mp h with rfl | h
        · simpa [Ne.symm (by simpa using differs)] using ih List.mem_cons_self
        · exact ih (List.mem_cons_of_mem first h)

theorem infix_of_mem_splitOn (h : line ∈ t.splitOn c) : line <:+: t := by
  obtain ⟨i, there⟩ := List.mem_iff_getElem?.mp h
  have between : line ∈ (t.splitOn c).intersperse [c] :=
    List.mem_iff_getElem?.mpr ⟨2 * i, by rw [List.getElem?_intersperse_two_mul, there]⟩
  have whole := List.infix_of_mem_flatten between
  rwa [← List.intercalate, List.intercalate_splitOn] at whole

theorem joinLines_append_singleton (lines : List Text) (last : Text) :
    joinLines (lines ++ [last]) = lines.flatMap (· ++ ['\n']) ++ last := by
  induction lines with
  | nil => exact joinLines_singleton last
  | cons line more ih =>
      obtain ⟨next, rest, split⟩ : ∃ next rest, more ++ [last] = next :: rest :=
        List.exists_cons_of_ne_nil (by simp)
      rw [List.cons_append, split, joinLines_cons_cons, ← split, ih, List.flatMap_cons]
      simp only [List.append_assoc, List.cons_append, List.nil_append]

theorem joinLines_append_lineFeed (line : Text) (more : List Text) :
    joinLines (line :: more) ++ ['\n'] = (line :: more).flatMap (· ++ ['\n']) := by
  induction more generalizing line with
  | nil => rw [joinLines_singleton, List.flatMap_singleton]
  | cons next more ih =>
      rw [joinLines_cons_cons, List.flatMap_cons, ← ih, List.append_assoc, List.append_assoc]
      rfl

theorem lines_joinLines (unbroken : ∀ l ∈ line :: more, ∀ c ∈ l, isLineBreak c = false) :
    lines (joinLines (line :: more) ++ ['\n']) = line :: more := by
  induction more generalizing line with
  | nil =>
      rw [joinLines_singleton, lines_append_lineFeed (unbroken line (by simp))]
      rfl
  | cons next more ih =>
      rw [joinLines_cons_cons, List.append_assoc, List.cons_append, lines_append_lineFeed (unbroken line (by simp)),
        ih fun l hl => unbroken l (List.mem_cons_of_mem line hl)]

/-- Indenting joined lines moves every line but the first. -/
theorem indentRest_joinLines (unbroken : ∀ l ∈ line :: more, ∀ c ∈ l, isLineBreak c = false) :
    indentRest margin (joinLines (line :: more)) = joinLines (line :: more.map (indentLine margin)) := by
  rw [indentRest, lines_joinLines unbroken]

theorem mem_punctuate {mark : Text} {parts : List Text} (h : t ∈ punctuate mark parts) :
    ∃ part ∈ parts, t = part ∨ t = part ++ mark := by
  fun_induction punctuate mark parts with
  | case1 => cases h
  | case2 part => exact ⟨part, by simp, .inl (List.mem_singleton.mp h)⟩
  | case3 part rest _ ih =>
      rcases List.mem_cons.mp h with rfl | h
      · exact ⟨part, by simp, .inr rfl⟩
      · obtain ⟨other, member, same⟩ := ih h
        exact ⟨other, List.mem_cons_of_mem part member, same⟩

theorem punctuate_inj {mark : Text} {parts parts' : List Text} (h : punctuate mark parts = punctuate mark parts') :
    parts = parts' := by
  have length := congrArg List.length h
  rw [length_punctuate, length_punctuate] at length
  induction parts generalizing parts' with
  | nil => exact (List.length_eq_zero_iff.mp length.symm).symm
  | cons part rest ih =>
      cases parts' with
      | nil => cases length
      | cons part' rest' =>
          rw [List.length_cons, List.length_cons, Nat.succ_inj] at length
          cases rest with
          | nil =>
              obtain rfl := List.length_eq_zero_iff.mp length.symm
              exact h
          | cons next rest =>
              obtain ⟨next', rest', rfl⟩ := List.exists_cons_of_length_eq_add_one length.symm
              obtain ⟨first, others⟩ := List.cons.inj h
              rw [List.append_cancel_right first, ih others length]

theorem indented_joinLines (unbroken : ∀ l ∈ line :: more, ∀ c ∈ l, isLineBreak c = false)
    (nonempty : ∀ l ∈ more, l ≠ []) :
    margin ++ indentRest margin (joinLines (line :: more)) ++ ['\n'] =
      (line :: more).flatMap fun l => margin ++ l ++ ['\n'] := by
  have moved : more.map (indentLine margin) = more.map (margin ++ ·) := by
    refine List.map_congr_left fun l hl => ?_
    rw [indentLine, if_neg]
    simpa using nonempty l hl
  rw [indentRest_joinLines unbroken, moved, List.append_assoc, joinLines_append_lineFeed, List.flatMap_cons,
    List.flatMap_map, List.flatMap_cons, ← List.append_assoc, ← List.append_assoc]

theorem document_cons (lines : List Text) (sections : List (List Text)) :
    document (lines :: sections) = lines.flatMap (· ++ ['\n']) ++ document sections := by
  rw [document, List.flatten_cons, List.flatMap_append, document]

end Pinout.Text
