import Pinout.Proofs.Layout.Read
import Pinout.Proofs.Pattern.Locality
import Pinout.Proofs.Vhdl.EntityHeader
import Pinout.Proofs.Vhdl.PortClause

/-! # No false clauses

The port clause of an entity holds no end clause and no generic clause, whatever the names of the ports
are: a name is followed by a colon, and a range holds neither a semicolon nor a parenthesis.
-/

namespace Pinout.Vhdl

open Token

variable {before : Option Char} {t : Text} {tokens behind : List Token} {gaps : List Text} {c : Char}

/-- A pattern finds nothing in a range if it needs a character that no range has. -/
theorem Range.unread {p : Pattern} (range : Range) (skips : p.SkipsBlanks)
    (needs : ∀ before t, ∀ a ∈ p.readings before t, c ∈ a.text) (never : p.mayRead ')' = false)
    (visible : Text.isBlank c = false) (absent : ∀ d ∈ range.text, d ≠ c) (behind : List Token) :
    Unread p [{ mark range.text with isInline := true }] (mark [')'] :: behind) := by
  refine unread_of_quiet skips fun before gap gaps gapFits fits => ?_
  obtain ⟨_, _, rfl, -, -⟩ := fits.cons
  exact Pattern.quiet_of_missing needs never (Range.not_mem gapFits.blank absent visible)

def endTail : Pattern :=
  .optional (.keyword "entity" ++ .boundary ++ .blanks) ++ (.optional (.word ++ .blanks) ++ .char ';')

theorem readings_entityEndPattern (before : Option Char) (t : Text) :
    entityEndPattern.readings before t =
      (.boundary ++ (.keyword "end" ++ (.boundary ++ (.blanks ++ endTail))) : Pattern).readings before t := by
  simp only [entityEndPattern, Pattern.readings_append_assoc]
  rfl

theorem entityEndPattern_skipsBlanks : entityEndPattern.SkipsBlanks where
  reads := rfl
  closed _ := Text.forall_blank (entityEndPattern.opens · = false) (by decide)

theorem endTail_skipsBlanks : endTail.SkipsBlanks where
  reads := rfl
  closed _ := Text.forall_blank (endTail.opens · = false) (by decide +kernel)

theorem entityEndPattern_beginsWord : entityEndPattern.BeginsWord :=
  Pattern.beginsWord_of_keyword readings_entityEndPattern (by decide) (by decide)

theorem refuses_entityEndPattern
    (h : (.keyword "end" ++ (.boundary ++ (.blanks ++ endTail)) : Pattern).Refuses before t) :
    entityEndPattern.Refuses before t := by
  rw [Pattern.Refuses, readings_entityEndPattern]
  exact Pattern.refuses_boundary_append.mpr (.inr h)

theorem unread_end_name (name : Name) (closed : endTail.opens c = false) (leads : Leads (mark [c] :: behind)) :
    Unread entityEndPattern [Token.word name.text] (mark [c] :: behind) := by
  refine unread_word entityEndPattern_skipsBlanks entityEndPattern_beginsWord name.word
    fun before gap gaps gapFits fits => refuses_entityEndPattern ?_
  refine Pattern.refuses_keyword_append (by decide) (by decide) name.word
    (leads.stops_word fits gapFits rfl) fun _ => ?_
  refine Pattern.refuses_many_run gapFits.blank (leads.stops_blank fits) rfl endTail_skipsBlanks.closed ?_
  obtain ⟨_, _, rfl, -, -⟩ := fits.cons
  exact Pattern.refuses_of_stops rfl (Pattern.stops_cons.mpr closed)

theorem semicolon_mem {a : Reading} (h : a ∈ entityEndPattern.readings before t) : ';' ∈ a.text := by
  obtain ⟨front, -, _, -, semicolon, hsemicolon, rfl⟩ := Pattern.exists_of_mem_append h
  obtain ⟨-, rfl⟩ := Pattern.mem_char.mp hsemicolon
  simp [Reading.append]

theorem PortClause.unread_end (e : PortClause) (behind : List Token) :
    Unread entityEndPattern e.clauseTokens behind := by
  have differs : ∀ keyword ∈ clauseKeywords,
      ¬ "end".toList <+: keyword ∧ ¬ keyword <+: "end".toList := by decide
  exact e.unread_clause
    { skips := entityEndPattern_skipsBlanks
      closed := by decide
      keyword := fun keyword h s => unread_spelling entityEndPattern_skipsBlanks entityEndPattern_beginsWord
        (fun _ _ => refuses_entityEndPattern) s (isKeyLetter_of_mem_clauseKeywords h) (by decide) (differs keyword h)
      name := fun name _ => unread_end_name name (by decide) (.mark _ (by decide) (by decide))
      range := fun range => range.unread entityEndPattern_skipsBlanks (fun _ _ _ => semicolon_mem) (by decide)
        (by decide) fun c h => (range.plain c h).2.2.2.1 }

theorem not_refuses_end {name : Name} {g₁ g₂ s : Text} (outside : before.any Text.isWord = false)
    (apart : g₁ ≠ []) (blank₁ : ∀ c ∈ g₁, Text.isBlank c = true) (blank₂ : ∀ c ∈ g₂, Text.isBlank c = true) :
    ¬ entityEndPattern.Refuses before ("end".toList ++ (g₁ ++ (name.text ++ (g₂ ++ ';' :: s)))) := by
  have nameEnds : Pattern.Stops Text.isWord (g₂ ++ ([';'] ++ s)) :=
    Pattern.stops_gap blank₂ (.inr (Pattern.stops_cons.mpr (by decide)))
  have keywordEnds : Pattern.Stops Text.isWord (g₁ ++ (name.text ++ (g₂ ++ ';' :: s))) :=
    Pattern.stops_gap blank₁ (.inl apart)
  have keyword : (Pattern.keyword "end").Takes before "end".toList [] (g₁ ++ (name.text ++ (g₂ ++ ';' :: s))) :=
    Pattern.takes_keyword (Spelling.spells ⟨"end", rfl⟩)
  intro refused
  rw [Pattern.Refuses, readings_entityEndPattern] at refused
  have edge : isEdge before ("end".toList ++ (g₁ ++ (name.text ++ (g₂ ++ ';' :: s)))) = true :=
    Pattern.isEdge_front outside (by decide)
  have behindEdge := (Pattern.refuses_boundary_append.mp refused).resolve_left (by rw [edge]; decide)
  have behindKeyword := Pattern.Refuses.behind behindEdge keyword.mem
  have edge' : isEdge (lastOf before "end".toList) (g₁ ++ (name.text ++ (g₂ ++ ';' :: s))) = true :=
    Pattern.isEdge_of_word (Pattern.any_lastOf (by decide) (by decide)) keywordEnds
  have behindEdge' := (Pattern.refuses_boundary_append.mp behindKeyword).resolve_left (by rw [edge']; decide)
  have behindGap := Pattern.Refuses.behind behindEdge'
    (Pattern.takes_blanks blank₁ (name.stops_blank (g₂ ++ ';' :: s))).mem
  -- the keyword may be left out behind `end`, and the name is read with the gap behind it
  have named := (Pattern.refuses_optional_append.mp (Pattern.refuses_optional_append.mp behindGap).2).1
  have semicolon : Pattern.Stops Text.isBlank ([';'] ++ s) := Pattern.stops_cons.mpr (by decide)
  have taken : ∀ before, (.word ++ .blanks ++ .char ';' : Pattern).Takes before (name.text ++ g₂ ++ [';'])
      [] s := fun _ =>
    ((Pattern.takes_atLeastOne name.nonempty name.word nameEnds).blanks blank₂ semicolon).append
      Pattern.takes_char
  have split : name.text ++ (g₂ ++ ';' :: s) = name.text ++ g₂ ++ [';'] ++ s := by simp
  rw [split] at named
  exact (taken _).not_refuses named

def genericFront : Pattern :=
  .boundary ++ .keyword "generic" ++ .blanks ++ .char '('

theorem readings_genericBlockPattern (before : Option Char) (t : Text) :
    genericBlockPattern.readings before t =
      (genericFront ++ (.group 1 (.few fun _ => true) ++ .exactly ");") : Pattern).readings before t := by
  simp only [genericBlockPattern, genericFront, Pattern.readings_append_assoc]

theorem readings_genericFront (before : Option Char) (t : Text) :
    genericFront.readings before t =
      (.boundary ++ (.keyword "generic" ++ (.blanks ++ .char '(')) : Pattern).readings before t := by
  simp only [genericFront, Pattern.readings_append_assoc]

theorem genericFront_skipsBlanks : genericFront.SkipsBlanks where
  reads := rfl
  closed _ := Text.forall_blank (genericFront.opens · = false) (by decide)

theorem genericFront_beginsWord : genericFront.BeginsWord :=
  Pattern.beginsWord_of_keyword readings_genericFront (by decide) (by decide)

theorem refuses_genericFront (h : (.keyword "generic" ++ (.blanks ++ .char '(') : Pattern).Refuses before t) :
    genericFront.Refuses before t := by
  rw [Pattern.Refuses, readings_genericFront]
  exact Pattern.refuses_boundary_append.mpr (.inr h)

theorem unread_generic_name (name : Name) (leads : Leads behind)
    (closed : ∀ gaps, Fits behind gaps → Pattern.Stops (· == '(') (layOut behind gaps)) :
    Unread genericFront [Token.word name.text] behind := by
  refine unread_word genericFront_skipsBlanks genericFront_beginsWord name.word
    fun before gap gaps gapFits fits => refuses_genericFront ?_
  have refused : ∀ before, (.blanks ++ .char '(' : Pattern).Refuses before (gap ++ layOut behind gaps) :=
    fun before => by
      refine Pattern.refuses_many_run gapFits.blank (leads.stops_blank fits) rfl
        (fun _ => Text.forall_blank (fun c => (Pattern.char '(').opens c = false) (by decide)) ?_
      exact Pattern.refuses_of_stops rfl (closed gaps fits)
  refine Pattern.refuses_word_append name.word (leads.stops_word fits gapFits rfl)
    (fun a ha => (Pattern.mem_keyword ha).2.word (by decide)) (fun a _ c y word => ?_)
    (fun _ _ _ => refused _)
  refine Pattern.refuses_of_stops rfl (Pattern.stops_cons.mpr ?_)
  have visible := Text.not_isBlank_of_isWord word
  have plain : c ≠ '(' := Text.ne_of_isWord word (by decide)
  simp [Pattern.blanks, Pattern.char, Pattern.opens, visible, plain]

theorem parenthesis_mem {a : Reading} (h : a ∈ genericFront.readings before t) : '(' ∈ a.text := by
  obtain ⟨front, -, _, -, parenthesis, hparenthesis, rfl⟩ := Pattern.exists_of_mem_append h
  obtain ⟨-, rfl⟩ := Pattern.mem_char.mp hparenthesis
  simp [Reading.append]

theorem refuses_genericBlockPattern (h : genericFront.Refuses before t) : genericBlockPattern.Refuses before t := by
  rw [Pattern.Refuses, readings_genericBlockPattern]
  exact h.append

theorem unread_generic_opening (name : Name) (behind : List Token) :
    Unread genericFront [Token.word "entity", Token.word name.text, Token.word "is"] behind := by
  have keyword : ∀ k ∈ ["entity".toList, "is".toList], ∀ behind, Unread genericFront [Token.word k] behind := by
    intro k hk
    have letters : ∀ k ∈ ["entity".toList, "is".toList], (∀ letter ∈ k, Pattern.isKeyLetter letter = true) ∧
        k.map Char.toLower = k ∧ ¬ "generic".toList <+: k ∧ ¬ k <+: "generic".toList := by decide
    obtain ⟨key, folded, differs⟩ := letters k hk
    exact unread_spelling genericFront_skipsBlanks genericFront_beginsWord (fun _ _ => refuses_genericFront)
      ⟨k, folded⟩ key (by decide) differs
  refine .cons (keyword _ (by simp) _) (.cons ?_ (keyword _ (by simp) _))
  refine unread_generic_name name (.word _ (by decide) (by decide)) fun gaps fits => ?_
  obtain ⟨_, _, rfl, -, -⟩ := fits.cons
  exact Pattern.stops_cons.mpr (by decide)

theorem PortClause.unread_generic (e : PortClause) :
    Unread genericFront (e.openingTokens ++ e.clauseTokens) [] := by
  have differs : ∀ keyword ∈ clauseKeywords,
      ¬ "generic".toList <+: keyword ∧ ¬ keyword <+: "generic".toList := by decide
  have name : ∀ (name : Name) behind, Unread genericFront [.word name.text] (.mark [':'] :: behind) := by
    refine fun name _ => unread_generic_name name (.mark _ (by decide) (by decide)) ?_
    intro gaps fits
    obtain ⟨_, _, rfl, -, -⟩ := fits.cons
    exact Pattern.stops_cons.mpr (by decide)
  have clause : Unread genericFront e.clauseTokens [] := e.unread_clause
    { skips := genericFront_skipsBlanks
      closed := by decide
      keyword := fun keyword h s => unread_spelling genericFront_skipsBlanks genericFront_beginsWord
        (fun _ _ => refuses_genericFront) s (isKeyLetter_of_mem_clauseKeywords h) (by decide) (differs keyword h)
      name
      range := fun range => range.unread genericFront_skipsBlanks (fun _ _ _ => parenthesis_mem) (by decide)
        (by decide) fun c h => (range.plain c h).1 }
  exact .append_all (unread_generic_opening e.name _) clause

end Pinout.Vhdl
