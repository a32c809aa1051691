import Pinout.Proofs.Verilog.Comments
import Pinout.Proofs.Verilog.Joint

/-! # Comments as gaps

A comment that is removed leaves nothing but its line breaks, so that a block within a line may bring
together what stands on both sides of it. As long as no comment stands where this matters, a source has the
same outline as the one in which each comment is a blank.
-/

namespace Pinout.Verilog

open Pattern (Stops)

variable {c s t x : Text} {d : Char} {front source : Text}

/-- The text with each comment replaced by a blank and the line breaks in it. -/
def spaceComments (t : Text) : Text :=
  commentPattern.replaceAll (fun comment => ' ' :: lineFeeds comment) t

theorem spaceComments_of_takes (takes : commentPattern.Takes none c [] s) (nonempty : c ≠ []) :
    spaceComments (c ++ s) = ' ' :: lineFeeds c ++ spaceComments s :=
  Pattern.replaceAll_of_takes rfl takes nonempty

theorem spaceComments_plain (refuses : commentPattern.Refuses none (d :: s)) :
    spaceComments (d :: s) = d :: spaceComments s :=
  Pattern.replaceAll_of_refuses rfl refuses

theorem stripComments_spaceComments (t : Text) : stripComments (spaceComments t) = spaceComments t := by
  have unmarked : Unmarked fun comment => ' ' :: lineFeeds comment := by
    intro x d hd
    rcases List.mem_cons.mp hd with rfl | hd
    · exact ⟨by decide, by decide⟩
    · exact unmarked_lineFeeds x d hd
  exact Pattern.replaceAll_of_quiet _ (quiet_replaceAll unmarked none t)

/-- Behind `front`, no comment of the text stands between the parts of a token. `front` is what has been read
of a source so far, with a blank in the place of each comment. -/
inductive CommentsApart : (front t : Text) → Prop
  | nil {front : Text} : CommentsApart front []
  /-- A comment stands between parts that make up no token together. -/
  | comment {front c s : Text} (taken : commentPattern.Takes none c [] s) (nonempty : c ≠ [])
      (apart : Separable front (lineFeeds c ++ stripComments s)) (rest : CommentsApart (front ++ ' ' :: lineFeeds c) s) :
      CommentsApart front (c ++ s)
  | plain {front s : Text} {d : Char} (refused : commentPattern.Refuses none (d :: s))
      (rest : CommentsApart (front ++ [d]) s) : CommentsApart front (d :: s)

namespace CommentsApart

theorem stretch (plain : '/' ∉ x) (rest : CommentsApart (front ++ x) s) : CommentsApart front (x ++ s) := by
  induction x generalizing front with
  | nil => simpa using rest
  | cons d x ih =>
      have other : d ≠ '/' := fun slash => plain (by simp [slash])
      refine .plain (Pattern.refuses_of_stops rfl (Pattern.stops_cons.mpr (opens_commentPattern other))) ?_
      exact ih (fun slash => plain (List.mem_cons_of_mem d slash)) (by simpa using rest)

theorem block (body : IsBlockBody x) (apart : Separable front (lineFeeds x ++ stripComments s))
    (rest : CommentsApart (front ++ ' ' :: lineFeeds x) s) :
    CommentsApart front ('/' :: '*' :: (x ++ ['*', '/']) ++ s) := by
  have feeds : lineFeeds ('/' :: '*' :: (x ++ ['*', '/'])) = lineFeeds x := by simp [lineFeeds]
  exact .comment (takes_blockComment body) (List.cons_ne_nil _ _) (feeds ▸ apart) (feeds ▸ rest)

theorem line (inline : '\n' ∉ x) (stops : Stops (· != '\n') s) (apart : Separable front (stripComments s))
    (rest : CommentsApart (front ++ [' ']) s) : CommentsApart front ('/' :: '/' :: x ++ s) := by
  have feeds : lineFeeds ('/' :: '/' :: x) = [] := by
    refine List.filter_eq_nil_iff.mpr fun d hd feed => inline ?_
    simpa [beq_iff_eq.mp feed] using hd
  exact .comment (takes_lineComment inline stops) (List.cons_ne_nil _ _) (by rwa [feeds]) (by rwa [feeds])

/-- The comments are replaced one after the other. The induction is on the text behind `front`. -/
theorem outlineOf_eq (h : CommentsApart front t) :
    outlineOf (front ++ stripComments t) = outlineOf (front ++ spaceComments t) := by
  induction h with
  | nil => rfl
  | @comment front c s taken nonempty apart rest ih =>
      rw [stripComments_of_takes taken nonempty, outlineOf_blank apart, spaceComments_of_takes taken nonempty]
      simpa using ih
  | plain refused rest ih =>
      rw [stripComments_plain refused, spaceComments_plain refused]
      simpa using ih

end CommentsApart

/-- Where no comment stands between the parts of a token, comments are as good as blanks: the name of the
module, the pins and the names of the parameters are the same. -/
theorem outline_spaceComments (source : Text) (apart : CommentsApart [] source) :
    outline (spaceComments source) = outline source := by
  rw [outline_eq, outline_eq, stripComments_spaceComments]
  exact apart.outlineOf_eq.symm

/-- A module with comments between its words, in a range, behind an equals sign and over several lines. -/
def annotatedModule : Text :=
  "module/* the\n core */m (input/**/[7:/* low */0] a); // done\nparameter W =/* bits */8;"

theorem commentsApart_annotatedModule : CommentsApart [] annotatedModule := by
  have split : annotatedModule = "module".toList ++ ('/' :: '*' :: (" the\n core ".toList ++ ['*', '/']) ++
      ("m (input".toList ++ ('/' :: '*' :: ([] ++ ['*', '/']) ++
      ("[7:".toList ++ ('/' :: '*' :: (" low ".toList ++ ['*', '/']) ++
      ("0] a); ".toList ++ ('/' :: '/' :: " done".toList ++
      ("\nparameter W =".toList ++ ('/' :: '*' :: (" bits ".toList ++ ['*', '/']) ++ ("8;".toList ++ [])))))))))) := by
    decide
  rw [split]
  refine .stretch (by decide) (.block (by decide) (by decide) ?_)
  refine .stretch (by decide) (.block (by decide) (by decide) ?_)
  refine .stretch (by decide) (.block (by decide) (by decide) ?_)
  refine .stretch (by decide) (.line (by decide) (by decide) (by decide) ?_)
  exact .stretch (by decide) (.block (by decide) (by decide) (.stretch (by decide) .nil))

theorem outline_annotatedModule : CommentsApart [] annotatedModule ∧
    outline (spaceComments annotatedModule) = outline annotatedModule :=
  ⟨commentsApart_annotatedModule, outline_spaceComments annotatedModule commentsApart_annotatedModule⟩

/-- A module with a comment between the two words of a port. -/
def joinedPort : Text :=
  "module m(input/**/a);"

/-- The comment is removed, and the two words of the port become one. -/
theorem ports_joinedPort :
    ports joinedPort = .ok [] ∧ ports (spaceComments joinedPort) = .ok [⟨"a", .input, "wire", some "1"⟩] :=
  ⟨by decide, by decide⟩

end Pinout.Verilog
