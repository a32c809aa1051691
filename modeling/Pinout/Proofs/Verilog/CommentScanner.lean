import Mathlib.Data.List.Basic
import Pinout.Proofs.Verilog.Comments

/-! # A scanner of comments

Comments are removed by a search for a pattern. A scanner that knows in each place only whether it is in a comment,
and in which kind, comes to the same text. It tells of every character whether it is outside of comments, so that
each line of the text that is left is known from the same line of the source.
-/

namespace Pinout.Verilog

open Pattern (Stops stops_cons)

variable {α β : Type} {copy drop : Char → List β} {s t x : Text} {c d : Char}

namespace Scanner

/-- What a scanner is in. -/
inductive Mode where
  /-- No comment. -/
  | plain
  /-- A comment that ends with its line. -/
  | line
  /-- A comment that ends with its closing mark. -/
  | block
  deriving DecidableEq, Repr

/-- Goes through a text from left to right and gives out `copy` of a character outside of comments and `drop` of one
in a comment. The mark of a block opens one only if the closing mark follows somewhere. -/
def read (copy drop : Char → List β) : Mode → Text → List β
  | _, [] => []
  | .plain, '/' :: '/' :: rest => drop '/' ++ (drop '/' ++ read copy drop .line rest)
  | .plain, '/' :: '*' :: rest =>
    if ['*', '/'] <:+: rest then drop '/' ++ (drop '*' ++ read copy drop .block rest)
    else copy '/' ++ (copy '*' ++ read copy drop .plain rest)
  | .plain, c :: rest => copy c ++ read copy drop .plain rest
  | .line, '\n' :: rest => copy '\n' ++ read copy drop .plain rest
  | .line, c :: rest => drop c ++ read copy drop .line rest
  | .block, '*' :: '/' :: rest => drop '*' ++ (drop '/' ++ read copy drop .plain rest)
  | .block, c :: rest => drop c ++ read copy drop .block rest

/-- The text that is left: of a comment, its line breaks. -/
def strip (t : Text) : Text :=
  read (fun c => [c]) (fun c => lineFeeds [c]) .plain t

/-- The characters of a text with whether they are outside of comments. -/
def marked (t : Text) : List (Char × Bool) :=
  read (fun c => [(c, true)]) (fun c => [(c, false)]) .plain t

/-- The lines of a text with whether their characters are outside of comments. -/
def markedLines (t : Text) : List (List (Char × Bool)) :=
  (marked t).splitOnP (·.1 == '\n')

/-- The characters that are outside of comments. -/
def outside (line : List (Char × Bool)) : Text :=
  (line.filter Prod.snd).map Prod.fst

theorem flatMap_read (g : β → List α) (mode : Mode) (t : Text) :
    (read copy drop mode t).flatMap g = read (fun c => (copy c).flatMap g) (fun c => (drop c).flatMap g) mode t := by
  fun_induction read copy drop mode t <;> simp_all [read]

theorem read_singleton (mode : Mode) (t : Text) : read (fun c => [c]) (fun c => [c]) mode t = t := by
  fun_induction read (fun c : Char => [c]) (fun c => [c]) mode t <;> simp_all

theorem read_line (inline : '\n' ∉ x) (stops : Stops (· != '\n') s) :
    read copy drop .line (x ++ s) = x.flatMap drop ++ read copy drop .plain s := by
  induction x with
  | nil =>
      cases s with
      | nil => rfl
      | cons d s =>
          obtain rfl : d = '\n' := by simpa using stops_cons.mp stops
          have plain : read copy drop .plain ('\n' :: s) = copy '\n' ++ read copy drop .plain s :=
            read.eq_4 _ _ _ _ (by rintro _ ⟨⟩) (by rintro _ ⟨⟩)
          rw [plain]
          rfl
  | cons c x ih =>
      obtain ⟨differs, inline⟩ := not_or.mp (mt List.mem_cons.mpr inline)
      rw [List.cons_append, read.eq_6 _ _ _ _ (Ne.symm differs), ih inline, List.flatMap_cons, List.append_assoc]

theorem read_block (body : IsBlockBody x) :
    read copy drop .block (x ++ '*' :: '/' :: s) =
      x.flatMap drop ++ (drop '*' ++ (drop '/' ++ read copy drop .plain s)) := by
  induction x with
  | nil => rfl
  | cons c x ih =>
      rw [IsBlockBody, List.cons_append, Text.pair_infix_cons, not_or] at body
      obtain ⟨first, body⟩ := body
      have open' : ∀ rest, c = '*' → x ++ '*' :: '/' :: s = '/' :: rest → False := by
        rintro rest rfl next
        refine first ⟨rfl, ?_⟩
        cases x with
        | nil => cases (List.cons.inj next).1
        | cons d x => exact congrArg some (List.cons.inj next).1
      rw [List.cons_append, read.eq_8 _ _ _ _ open', ih body, List.flatMap_cons, List.append_assoc]

theorem read_plain (refuses : commentPattern.Refuses none (d :: s)) :
    read copy drop .plain (d :: s) = copy d ++ read copy drop .plain s := by
  obtain ⟨line, block⟩ := refuses_commentPattern_iff.mp refuses
  have noLine : ∀ rest, d = '/' → s = '/' :: rest → False := by
    rintro rest rfl rfl
    exact line ⟨rest, rfl⟩
  by_cases opening : ∃ rest, d = '/' ∧ s = '*' :: rest
  · obtain ⟨rest, rfl, rfl⟩ := opening
    have star : read copy drop .plain ('*' :: rest) = copy '*' ++ read copy drop .plain rest :=
      read.eq_4 _ _ _ _ (by rintro _ ⟨⟩) (by rintro _ ⟨⟩)
    rw [read, if_neg (block rest rfl), star]
  · exact read.eq_4 _ _ _ _ noLine fun rest slash star => opening ⟨rest, slash, star⟩

/-- The search and the scanner agree comment by comment, and on each character between two comments. -/
theorem stripComments_eq (t : Text) : stripComments t = strip t := by
  induction t using comment_induction with
  | nil => rfl
  | line x s inline stops ih =>
      have none : x.flatMap (fun c => lineFeeds [c]) = [] := by
        refine List.flatMap_eq_nil_iff.mpr fun c hc => List.filter_eq_nil_iff.mpr fun d hd feed => inline ?_
        rwa [← beq_iff_eq.mp feed, List.mem_singleton.mp hd]
      rw [stripComments_line inline stops, ih, strip, strip, read, read_line inline stops, none]
      rfl
  | block x s body ih =>
      have closed : ['*', '/'] <:+: x ++ '*' :: '/' :: s := ⟨x, s, by simp⟩
      have feeds : x.flatMap (fun c => lineFeeds [c]) = lineFeeds x := by
        rw [lineFeeds, ← List.flatMap_singleton' x, List.filter_flatMap, List.flatMap_singleton']
        rfl
      rw [stripComments_block body, ih, strip, strip, read, if_pos closed, read_block body, feeds]
      rfl
  | plain d s refuses ih =>
      rw [stripComments_plain refuses, ih, strip, strip, read_plain refuses]
      rfl

theorem map_fst_marked (t : Text) : (marked t).map Prod.fst = t := by
  have all : (marked t).flatMap (fun m => [m.1]) = t := by
    rw [marked, flatMap_read]
    exact read_singleton .plain t
  rw [List.map_eq_flatMap, all]

def leave (m : Char × Bool) : Text :=
  if m.2 then [m.1] else lineFeeds [m.1]

theorem flatMap_leave_marked (t : Text) : (marked t).flatMap leave = strip t := by
  rw [marked, flatMap_read, strip]
  simp [leave]

theorem map_splitOnP_marked (m : List (Char × Bool)) :
    (m.splitOnP (·.1 == '\n')).map (List.map Prod.fst) = (m.map Prod.fst).splitOn '\n' := by
  induction m with
  | nil => rfl
  | cons e m ih =>
      rw [List.map_cons, List.splitOnP_cons_eq_if_modifyHead, List.splitOn_cons_eq_if_modifyHead, ← ih]
      split
      · rfl
      · cases m.splitOnP (·.1 == '\n') <;> rfl

/-- A line is left as its characters outside of comments, as no comment takes a line break away. -/
theorem splitOn_flatMap_leave (m : List (Char × Bool)) :
    (m.flatMap leave).splitOn '\n' = (m.splitOnP (·.1 == '\n')).map outside := by
  induction m with
  | nil => rfl
  | cons e m ih =>
      obtain ⟨c, apart⟩ := e
      rw [List.flatMap_cons, List.splitOnP_cons_eq_if_modifyHead]
      obtain ⟨line, more, split⟩ := List.exists_cons_of_ne_nil (List.splitOnP_ne_nil (·.1 == '\n') m)
      rw [split] at ih ⊢
      by_cases feed : c = '\n'
      · have left : leave (c, apart) = ['\n'] := by cases apart <;> simp [leave, lineFeeds, feed]
        rw [left, List.singleton_append, List.splitOn_cons_eq_if_modifyHead, ih]
        simp [feed, outside]
      · have plain : ((c, apart).1 == '\n') = false := beq_eq_false_iff_ne.mpr feed
        cases apart with
        | true =>
            have left : leave (c, true) = [c] := rfl
            rw [left, List.singleton_append, List.splitOn_cons_eq_if_modifyHead, ih]
            simp [plain, outside]
        | false =>
            have left : leave (c, false) = [] := by simp [leave, lineFeeds, feed]
            rw [left, List.nil_append, ih]
            simp [plain, outside]

end Scanner

/-- Removing comments leaves what the scanner leaves. -/
theorem stripComments_scanned (t : Text) :
    stripComments t = Scanner.strip t ∧ (stripComments t).count '\n' = t.count '\n' ∧
      (Scanner.markedLines t).map (List.map Prod.fst) = t.splitOn '\n' ∧
        (stripComments t).splitOn '\n' = (Scanner.markedLines t).map Scanner.outside := by
  have lines : (Scanner.markedLines t).map (List.map Prod.fst) = t.splitOn '\n' := by
    rw [Scanner.markedLines, Scanner.map_splitOnP_marked, Scanner.map_fst_marked]
  have left : (stripComments t).splitOn '\n' = (Scanner.markedLines t).map Scanner.outside := by
    rw [Scanner.stripComments_eq, ← Scanner.flatMap_leave_marked, Scanner.splitOn_flatMap_leave, Scanner.markedLines]
  refine ⟨Scanner.stripComments_eq t, ?_, lines, left⟩
  have same := congrArg List.length left
  rw [List.length_map, ← List.length_map (List.map Prod.fst), lines, Text.length_splitOn,
    Text.length_splitOn] at same
  omega

example : stripComments "a/*/b\n*/c//*d\n/*e".toList = "a\nc\n/*e".toList := by
  rw [Scanner.stripComments_eq]
  decide

end Pinout.Verilog
