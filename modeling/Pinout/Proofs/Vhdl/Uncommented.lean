import Pinout.Proofs.Vhdl.Literals
import Pinout.Proofs.Vhdl.PortClause

/-! # Entities without comments and strings

Nothing in a laid out entity opens a comment or a string literal. So stripping comments and masking
strings leave an entity as it is.
-/

namespace Pinout.Vhdl

open Token

theorem commentPattern_skipsBlanks : commentPattern.SkipsBlanks where
  reads := rfl
  closed _ := Text.forall_blank (commentPattern.opens · = false) (by decide)

theorem stringPattern_skipsBlanks : stringPattern.SkipsBlanks where
  reads := rfl
  closed _ := Text.forall_blank (stringPattern.opens · = false) (by decide)

namespace PortClause

/-- A pattern that begins with no word and no mark of an entity could find something in the ranges only. -/
private theorem unread_of_ranges {p : Pattern} (e : PortClause) (skips : p.SkipsBlanks)
    (word : ∀ c, Text.isWord c = true → p.opens c = false) (closed : ∀ c ∈ [':', '(', ')', ';'], p.opens c = false)
    (range : ∀ (range : Range) behind,
      Unread p [{ Token.mark range.text with isInline := true }] (.mark [')'] :: behind)) :
    Unread p e.tokens [] := by
  have words : ∀ w, (∀ c ∈ w, Text.isWord c = true) → ∀ behind, Unread p [Token.word w] behind :=
    fun w plain behind => unread_of_closed skips fun c hc => word c (plain c hc)
  have ignores : IgnoresPorts p :=
    { skips, closed, range
      keyword := fun keyword h s => words s.text (s.word (isKeyLetter_of_mem_clauseKeywords h))
      name := fun name behind => words name.text name.word _ }
  refine .append_all (.cons ?_ (.cons ?_ ?_)) (.append_all (e.unread_clause ignores) (.cons ?_ (.cons ?_ ?_)))
  · exact words _ (by decide) _
  · exact words _ e.name.word _
  · exact words _ (by decide) _
  · exact words _ (by decide) _
  · exact words _ e.name.word _
  · exact ignores.mark (by simp) _

theorem unread_comment (e : PortClause) : Unread commentPattern e.tokens [] := by
  refine e.unread_of_ranges commentPattern_skipsBlanks (fun c hc => ?_) (by decide) fun range behind => ?_
  · exact opens_commentPattern (Text.ne_of_isWord hc (by decide))
  · refine unread_of_quiet commentPattern_skipsBlanks fun before gap gaps gapFits fits =>
      quiet_commentPattern range.commentFree ?_
    exact gapFits.stops_mark fits
      (fun _ => Text.forall_blank (fun c => (c == '-') = false) (by decide)) (by decide)

theorem unread_string (e : PortClause) : Unread stringPattern e.tokens [] := by
  refine e.unread_of_ranges stringPattern_skipsBlanks (fun c hc => ?_) (by decide) fun range behind => ?_
  · exact opens_stringPattern (Text.ne_of_isWord hc (by decide))
  · exact unread_of_closed stringPattern_skipsBlanks fun c hc => opens_stringPattern (range.plain c hc).2.2.2.2

end PortClause

variable {e : PortClause} {gaps : List Text}

theorem stripComments_layOut (fits : Fits e.tokens gaps) :
    stripComments (layOut e.tokens gaps) = layOut e.tokens gaps :=
  Pattern.replaceAll_of_quiet _ (e.unread_comment.quiet fits none)

theorem maskStrings_layOut (fits : Fits e.tokens gaps) :
    maskStrings (layOut e.tokens gaps) = layOut e.tokens gaps :=
  Pattern.replaceAll_of_quiet _ (e.unread_string.quiet fits none)

end Pinout.Vhdl
