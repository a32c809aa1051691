import Pinout.Proofs.Verilog.AnsiHeader
import Pinout.Proofs.Verilog.Comments

/-! # Headers without comments

Nothing in a laid out header opens a comment, neither a value nor a range nor the places where tokens
meet. So stripping comments leaves a header as it is.
-/

namespace Pinout.Verilog

open Token

theorem commentPattern_skipsBlanks : commentPattern.SkipsBlanks where
  reads := rfl
  closed _ := Text.forall_blank (commentPattern.opens · = false) (by decide)

theorem opens_commentPattern_of_word {c : Char} (h : Text.isWord c = true) :
    commentPattern.opens c = false :=
  opens_commentPattern (Text.ne_of_isWord h (by decide))

theorem refuses_commentPattern {before : Option Char} {t : Text} (line : ¬ ['/', '/'] <+: t)
    (block : ¬ ['/', '*'] <+: t) : commentPattern.Refuses before t :=
  Pattern.refuses_orElse.mpr
    ⟨(Pattern.refuses_exactly line).append, (Pattern.refuses_exactly block).append.append⟩

theorem CommentFree.quiet {before : Option Char} {t s : Text} (h : CommentFree t)
    (stops : Pattern.Stops (fun c => c == '/' || c == '*') s) : commentPattern.Quiet before t s := by
  apply Pattern.quiet_of_forall
  intro y c z split
  apply refuses_commentPattern
  · refine Pattern.not_isPrefix_pair h.1 (fun d hd => ?_) split
    have := stops d hd
    simp_all
  · refine Pattern.not_isPrefix_pair h.2 (fun d hd => ?_) split
    have := stops d hd
    simp_all

theorem unread_commentFree {t : Text} {c : Char} (h : CommentFree t) (line : c ≠ '/') (block : c ≠ '*')
    (behind : List Token) : Unread commentPattern [mark t] (mark [c] :: behind) := by
  refine unread_of_quiet commentPattern_skipsBlanks fun before gap gaps gapFits fits => h.quiet ?_
  exact gapFits.stops_mark fits (fun _ => Text.forall_blank (fun d => (d == '/' || d == '*') = false)
    (by decide)) (by simp [line, block])

theorem unread_comment_word {w : Text} (word : ∀ c ∈ w, Text.isWord c = true) (behind : List Token) :
    Unread commentPattern [Token.word w] behind :=
  unread_of_closed commentPattern_skipsBlanks fun c hc => opens_commentPattern_of_word (word c hc)

theorem unread_comment_mark {c : Char} (h : c ≠ '/') (behind : List Token) :
    Unread commentPattern [mark [c]] behind :=
  unread_of_closed commentPattern_skipsBlanks fun d hd =>
    opens_commentPattern (by rwa [List.mem_singleton.mp hd])

theorem ParameterDeclaration.uncommented (d : ParameterDeclaration) {c : Char} (line : c ≠ '/')
    (block : c ≠ '*') (behind : List Token) : Unread commentPattern d.tokens (mark [c] :: behind) := by
  refine .cons (unread_comment_word (by decide) _) ?_
  refine .cons (unread_comment_word d.name.word _) ?_
  refine .cons (unread_comment_mark (by decide) _) ?_
  exact unread_commentFree d.commentFree line block behind

theorem PortDeclaration.uncommented (d : PortDeclaration) (behind : List Token) :
    Unread commentPattern d.tokens behind := by
  apply d.unread
  · intro keyword h s behind
    exact unread_comment_word (s.word (isKeyLetter_of_mem_portKeywords h)) behind
  · rintro c behind (rfl | rfl)
    · exact unread_comment_mark (by decide) behind
    · exact unread_comment_mark (by decide) behind
  · intro range _ behind
    exact unread_commentFree range.commentFree (by decide) (by decide) behind
  · exact unread_comment_word d.name.word behind

theorem AnsiHeader.uncommented (h : AnsiHeader) : Unread commentPattern h.tokens [] := by
  have parameters : ∀ behind, Unread commentPattern h.parameterTokens behind := by
    intro behind
    rw [parameterTokens]
    split
    · exact .nil
    · refine .cons (unread_comment_mark (by decide) _) (.cons (unread_comment_mark (by decide) _) ?_)
      refine .append (unread_separated (unread_comment_mark (by decide)) ?_ ?_)
        (unread_comment_mark (by decide) _)
      all_goals simp only [List.forall_mem_map]
      · exact fun d _ => d.uncommented (by decide) (by decide)
      · exact fun d _ => d.uncommented (by decide) (by decide) _
  have ports : Unread commentPattern h.portTokens [] := by
    refine .append (unread_separated (unread_comment_mark (by decide)) ?_ ?_)
      (.cons (unread_comment_mark (by decide) _) (unread_comment_mark (by decide) _))
    all_goals simp only [List.forall_mem_map]
    · exact fun d _ behind => d.uncommented _
    · exact fun d _ => d.uncommented _
  refine .cons (unread_comment_word (by decide) _) ?_
  refine .cons (unread_comment_word h.name.word _) ?_
  exact .append (parameters _) (.cons (unread_comment_mark (by decide) _) ports)

theorem stripComments_layOut {h : AnsiHeader} {gaps : List Text} (fits : Fits h.tokens gaps) :
    stripComments (layOut h.tokens gaps) = layOut h.tokens gaps :=
  Pattern.replaceAll_of_quiet lineFeeds (h.uncommented.quiet fits none)

end Pinout.Verilog
