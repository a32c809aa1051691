import Pinout.Proofs.Extraction
import Pinout.Proofs.Verilog.ParameterReading
import Pinout.Proofs.Verilog.Uncommented

/-! # Scanning for parameters

The parameter pattern finds the parameters of a header one after the other. The value of the last one
runs into the ports, and in what is left of them the pattern finds nothing.
-/

namespace Pinout.Verilog

open Token

variable {before : Option Char} {t : Text} {tokens behind : List Token} {gaps : List Text} {c : Char}

/-- What the pattern keeps of a parameter. -/
def ParameterDeclaration.Keeps (d : ParameterDeclaration) (kept : List (Nat × Text)) : Prop :=
  ∃ value, trimValue value = d.value ∧ kept = [(2, value), (1, d.name.text)]

/-- What stands behind a value up to the next comma, semicolon or line break is a gap, or begins with a
gap and the parenthesis that closes the list. -/
theorem value_run {g w y : Text} (closes : c = ',' ∨ c = ')') (front : y <+: g ++ c :: w)
    (all : ∀ c ∈ y, inValue c = true) : y <+: g ∨ ∃ u, y = g ++ ')' :: u := by
  rcases List.prefix_or_prefix_of_prefix front (List.prefix_append g (c :: w)) with short | ⟨u, rfl⟩
  · exact .inl short
  · rw [List.prefix_append_right_inj] at front
    cases u with
    | nil => exact .inl (by simp)
    | cons d u =>
        obtain ⟨rfl, -⟩ := List.cons_prefix_cons.mp front
        rcases closes with rfl | rfl
        · exact absurd (all ',' (by simp)) (by decide)
        · exact .inr ⟨u, rfl⟩

theorem ParameterDeclaration.trimValue_run (d : ParameterDeclaration) {g w y : Text}
    (closes : c = ',' ∨ c = ')') (blank : ∀ c ∈ g, Text.isBlank c = true) (front : y <+: g ++ c :: w)
    (all : ∀ c ∈ y, inValue c = true) : trimValue (d.value ++ y) = d.value := by
  rcases value_run closes front all with short | ⟨u, rfl⟩
  · have cut := trimValue_append d.balanced d.trimmed (fun c hc => blank c (short.subset hc)) (.inl rfl)
    rwa [List.append_nil] at cut
  · exact trimValue_append d.balanced d.trimmed blank (.inr ⟨u, rfl⟩)

theorem scan_parameter (d : ParameterDeclaration) (closes : c = ',' ∨ c = ')')
    (outside : before.any Text.isWord = false) (fits : Fits (d.tokens ++ mark [c] :: behind) gaps) :
    ∃ r gap gaps' last y z, d.Keeps r.kept ∧ (∀ c ∈ gap, Text.isBlank c = true) ∧
      Fits (mark [c] :: behind) gaps' ∧ gap ++ layOut (mark [c] :: behind) gaps' = y ++ z ∧
      (∀ c ∈ y, inValue c = true) ∧
      parameterPattern.scan before (layOut (d.tokens ++ mark [c] :: behind) gaps) =
        r :: parameterPattern.scan (lastOf last y) z := by
  obtain ⟨g₁, gaps, rfl, fits₁, fits⟩ := fits.cons
  obtain ⟨g₂, gaps, rfl, fits₂, fits⟩ := fits.cons
  obtain ⟨g₃, gaps, rfl, fits₃, fits⟩ := fits.cons
  obtain ⟨g₄, gaps, rfl, fits₄, fits⟩ := fits.cons
  obtain ⟨y, z, split, run, ends⟩ : ∃ y z, g₄ ++ layOut (mark [c] :: behind) gaps = y ++ z ∧
      (∀ c ∈ y, inValue c = true) ∧ Pattern.Stops inValue z :=
    Pattern.exists_run inValue _
  have cut : trimValue (d.value ++ y) = d.value := by
    obtain ⟨g₅, gaps, rfl, -, -⟩ := fits.cons
    exact d.trimValue_run closes fits₄.blank (split ▸ List.prefix_append y z) run
  have value : ∀ c ∈ d.value ++ y, inValue c = true := by
    intro c hc
    rcases List.mem_append.mp hc with hc | hc
    · simpa [inValue, and_assoc] using d.unbroken c hc
    · exact run c hc
  have visible : Pattern.Stops Text.isBlank (d.value ++ y) :=
    Pattern.stops_append d.nonempty (Text.ends_of_trim_eq_self d.trimmed).1
  have taken := takes_parameter d.name (fits₁.apart rfl rfl) fits₁.blank fits₂.blank fits₃.blank
    (List.append_ne_nil_of_left_ne_nil d.nonempty y) value visible ends outside
  obtain ⟨x, whole⟩ : ∃ x : Text, x =
      "parameter" ++ (g₁ ++ (d.name.text ++ (g₂ ++ (['='] ++ (g₃ ++ (d.value ++ y)))))) := ⟨_, rfl⟩
  have text : layOut (d.tokens ++ mark [c] :: behind) (g₁ :: g₂ :: g₃ :: g₄ :: gaps) = x ++ z := by
    simp only [whole, ParameterDeclaration.tokens, List.cons_append, List.nil_append, layOut, mark,
      Token.word, List.append_assoc, ← split]
  rw [← whole] at taken
  refine ⟨⟨x, [(2, d.value ++ y), (1, d.name.text)]⟩, g₄, gaps,
    lastOf before ("parameter" ++ (g₁ ++ (d.name.text ++ (g₂ ++ (['='] ++ (g₃ ++ d.value)))))), y, z,
    ⟨d.value ++ y, cut, rfl⟩, fits₄.blank, fits, split, run, ?_⟩
  rw [text, Pattern.scan_of_takes taken (taken.ne_nil rfl), whole]
  simp only [lastOf_append]

theorem scan_parameter_comma (d : ParameterDeclaration) (outside : before.any Text.isWord = false)
    (fits : Fits (d.tokens ++ mark [','] :: behind) gaps) :
    ∃ r front gaps', d.Keeps r.kept ∧ front.any Text.isWord = false ∧ Fits behind gaps' ∧
      parameterPattern.scan before (layOut (d.tokens ++ mark [','] :: behind) gaps) =
        r :: parameterPattern.scan front (layOut behind gaps') := by
  obtain ⟨r, gap, gaps₁, last, y, z, keeps, blank, fits₁, split, run, found⟩ := scan_parameter d (.inl rfl) outside fits
  obtain ⟨front, gaps₂, outside', fits₂, passed⟩ :=
    Unread.nil.scan_mark parameterPattern_skipsBlanks (by decide) (by decide) fits₁
  -- The value runs at most up to the comma.
  have short : y <+: gap := by
    refine Pattern.front_of_stops (split ▸ List.prefix_append y z) run ?_
    obtain ⟨_, _, rfl, -, -⟩ := fits₁.cons
    exact Pattern.stops_cons.mpr (by decide)
  obtain ⟨g, rfl⟩ := short
  rw [List.append_assoc, List.append_cancel_left_eq] at split
  have quiet : ∀ t, parameterPattern.Quiet (lastOf last y) g t := fun t =>
    parameterPattern_skipsBlanks.quiet fun c hc => blank c (by simp [hc])
  have moved := passed (lastOf (lastOf last y) g)
  rw [List.nil_append] at moved
  refine ⟨r, front, gaps₂, keeps, outside', fits₂, ?_⟩
  rw [found, ← split, Pattern.scan_of_quiet (quiet _), moved]

theorem scan_parameter_last (d : ParameterDeclaration) (outside : before.any Text.isWord = false)
    (unread : Unread parameterPattern (mark [')'] :: behind) [])
    (fits : Fits (d.tokens ++ mark [')'] :: behind) gaps) :
    ∃ r, d.Keeps r.kept ∧
      parameterPattern.scan before (layOut (d.tokens ++ mark [')'] :: behind) gaps) = [r] := by
  obtain ⟨r, gap, gaps', last, y, z, keeps, blank, fits', split, -, found⟩ := scan_parameter d (.inr rfl) outside fits
  have quiet : parameterPattern.Quiet last (y ++ z) [] := by
    rw [← split]
    exact .append (parameterPattern_skipsBlanks.quiet blank) (unread.quiet fits' _)
  have none := Pattern.scan_eq_nil_of_quiet rfl (Pattern.quiet_append.mp quiet).2
  rw [none] at found
  exact ⟨r, keeps, found⟩

/-- The parameter pattern finds the parameters of a list, if nothing else is to be found behind it. -/
theorem scan_parameters (ds : List ParameterDeclaration) (outside : before.any Text.isWord = false)
    (unread : Unread parameterPattern (mark [')'] :: behind) [])
    (fits : Fits (separated [','] (ds.map ParameterDeclaration.tokens) ++ mark [')'] :: behind) gaps) :
    List.Forall₂ (fun d r => d.Keeps r.kept) ds (parameterPattern.scan before
      (layOut (separated [','] (ds.map ParameterDeclaration.tokens) ++ mark [')'] :: behind) gaps)) := by
  induction ds generalizing before gaps with
  | nil =>
      have none := Pattern.scan_eq_nil_of_quiet rfl (unread.quiet fits before)
      rw [List.map_nil, separated, List.nil_append, none]
      exact .nil
  | cons d ds ih =>
      cases ds with
      | nil =>
          obtain ⟨r, keeps, found⟩ := scan_parameter_last d outside unread fits
          rw [List.map_cons, List.map_nil, separated, found]
          exact .cons keeps .nil
      | cons next ds =>
          rw [List.map_cons, List.map_cons, separated, ← List.map_cons, List.append_assoc,
            List.cons_append] at fits ⊢
          obtain ⟨r, front, gaps', keeps, outside', fits', found⟩ := scan_parameter_comma d outside fits
          rw [found]
          exact .cons keeps (ih outside' fits')

theorem unread_parameter_mark (h : parameterPattern.opens c = false) (behind : List Token) :
    Unread parameterPattern [mark [c]] behind :=
  unread_of_closed parameterPattern_skipsBlanks fun d hd => by rwa [List.mem_singleton.mp hd]

theorem refuses_parameterPattern
    (h : (.exactly "parameter" ++ (.gap ++ (.repeated parameterType ++ packedTail)) : Pattern).Refuses
      before t) : parameterPattern.Refuses before t := by
  rw [Pattern.Refuses, readings_parameterPattern]
  exact Pattern.refuses_boundary_append.mpr (.inr h)

theorem unread_parameter_name (name : Name)
    (closed : (.repeated parameterType ++ packedTail : Pattern).opens c = false)
    (leads : Leads (mark [c] :: behind)) :
    Unread parameterPattern [Token.word name.text] (mark [c] :: behind) := by
  refine unread_word parameterPattern_skipsBlanks parameterPattern_beginsWord name.word
    fun before gap gaps gapFits fits => refuses_parameterPattern ?_
  refine Pattern.refuses_exactly_gap_append (by decide) name.word
    (leads.stops_word fits gapFits rfl) fun _ => ?_
  have notBlank : ∀ c, Text.isBlank c = true →
      (.repeated parameterType ++ packedTail : Pattern).opens c = false := fun _ =>
    Text.forall_blank (fun c => (.repeated parameterType ++ packedTail : Pattern).opens c = false)
      (by decide +kernel)
  refine Pattern.refuses_atLeastOne_run gapFits.blank (leads.stops_blank fits) rfl notBlank ?_
  obtain ⟨_, _, rfl, -, -⟩ := fits.cons
  exact Pattern.refuses_of_stops rfl (Pattern.stops_cons.mpr closed)

theorem unread_parameter_keyword {keyword : Text} (s : Spelling keyword)
    (key : ∀ letter ∈ keyword, Pattern.isKeyLetter letter = true)
    (short : keyword.length ≤ 9) (differs : ¬ keyword <+: "parameter".toList) (behind : List Token) :
    Unread parameterPattern [Token.word s.text] behind := by
  refine unread_word parameterPattern_skipsBlanks parameterPattern_beginsWord (s.word key)
    fun before gap gaps gapFits fits => refuses_parameterPattern ?_
  refine (Pattern.refuses_exactly fun front => differs ?_).append
  have length : s.text.length ≤ "parameter".toList.length := by
    rw [← s.spells.length_eq]
    exact short
  have inside := (List.prefix_of_prefix_length_le (List.prefix_append _ _) front length).map Char.toLower
  rwa [s.folded] at inside

def typePart : Pattern :=
  .boundary ++ .exactly "parameter" ++ .gap ++ .repeated parameterType

theorem readings_typePart (before : Option Char) (t : Text) :
    parameterPattern.readings before t = (typePart ++ packedTail).readings before t := by
  rw [readings_parameterPattern]
  simp only [typePart, Pattern.readings_append_assoc]

theorem readings_parameterHead (before : Option Char) (t : Text) :
    parameterHead.readings before t = (typePart ++ (.word ++ (.blanks ++ .char '='))).readings before t := by
  simp only [parameterHead, typePart, Pattern.readings_append_assoc]
  rfl

theorem nameTail_refuses (h : (.word ++ (.blanks ++ .char '=') : Pattern).Refuses before t) :
    nameTail.Refuses before t := by
  rw [nameTail, Pattern.refuses_group_append]
  apply Pattern.refuses_append
  rintro a s ha rfl
  have refused := (h.behind ha).append (q := .blanks ++ .group 2 (.atLeastOne inValue))
  rwa [Pattern.refuses_append_assoc] at refused

/-- Where no bracket opens in front of the next one that closes, a parameter has a head. -/
theorem refuses_of_parameterHead {x s : Text} (unopened : '[' ∉ x)
    (h : parameterHead.Refuses before (x ++ ']' :: s)) :
    parameterPattern.Refuses before (x ++ ']' :: s) := by
  rw [Pattern.Refuses, readings_parameterHead] at h
  rw [Pattern.Refuses, readings_typePart]
  apply Pattern.refuses_append
  intro a rest ha split
  obtain ⟨x, rfl⟩ : a.text <+: x := Pattern.front_of_stopped (Pattern.stops_cons.mpr (by decide)) ha
  rw [List.append_assoc] at ha h split
  obtain rfl := List.append_cancel_left split
  have unpacked : (.char '[' ++ unbracketed ++ .char ']' ++ .blanks ++ nameTail : Pattern).Refuses
      (lastOf before a.text) (x ++ ']' :: s) := by
    refine Pattern.refuses_of_stops rfl fun c hc => ?_
    have plain : c ≠ '[' := by
      rintro rfl
      cases x with
      | nil => simp at hc
      | cons d x => simp_all
    simp [Pattern.char, Pattern.opens, Pattern.nullable, plain]
  exact Pattern.refuses_optional_append.mpr ⟨unpacked, nameTail_refuses (Pattern.Refuses.behind h ha)⟩

theorem Range.unread_parameter (range : Range) (behind : List Token) :
    Unread parameterPattern [mark range.text] (mark [']'] :: behind) := by
  refine unread_of_quiet parameterPattern_skipsBlanks fun before gap gaps gapFits fits =>
    parameterPattern_beginsWord.quiet_behind ?_ before
  have wordEnds : Pattern.Stops Text.isWord (gap ++ layOut (mark [']'] :: behind) gaps) :=
    gapFits.stops_mark fits (fun _ => Text.isWord_of_isBlank) (by decide)
  obtain ⟨g, gaps, rfl, -, -⟩ := fits.cons
  have plain : ∀ c ∈ gap, c ≠ '[' ∧ c ≠ '=' := fun c hc =>
    Text.forall_blank (fun c => c ≠ '[' ∧ c ≠ '=') (by decide) (gapFits.blank c hc)
  have closes : Pattern.Stops parameterHead.mayRead (layOut (mark [']'] :: behind) (g :: gaps)) :=
    Pattern.stops_cons.mpr (by decide)
  have alone : parameterHead.Quiet none range.text [] := Pattern.quiet_of_find?_eq_none range.noParameter
  have heads : parameterHead.Quiet none range.text (gap ++ layOut (mark [']'] :: behind) (g :: gaps)) := by
    refine alone.elsewhere rfl wordEnds.any.symm fun y z _ _ before a ha => ?_
    rw [← List.append_assoc] at ha
    have inside := Pattern.front_of_stopped closes ha
    obtain ⟨head, -, _, -, equals, hequals, rfl⟩ := Pattern.exists_of_mem_append ha
    obtain ⟨-, rfl⟩ := Pattern.mem_char.mp hequals
    exact Pattern.front_of_last inside fun hc => (plain '=' hc).2 rfl
  apply Pattern.quiet_of_forall
  intro y c z split
  change range.text = _ at split
  rw [split] at heads
  have refused := (Pattern.quiet_append.mp heads).2.1
  have unopened : '[' ∉ c :: z ++ gap := by
    intro h
    rcases List.mem_append.mp h with h | h
    · exact (range.unbracketed '[' (by simp [split, h])).1 rfl
    · exact (plain '[' h).1 rfl
  rw [← List.append_assoc, ← List.cons_append] at refused ⊢
  exact refuses_of_parameterHead unopened refused

theorem PortDeclaration.unread_parameter (d : PortDeclaration) {behind : List Token}
    (name : Unread parameterPattern [Token.word d.name.text] behind) :
    Unread parameterPattern d.tokens behind := by
  have differs : ∀ keyword ∈ portKeywords, keyword.length ≤ 9 ∧ ¬ keyword <+: "parameter".toList := by
    decide
  apply d.unread
  · intro keyword h s
    exact unread_parameter_keyword s (isKeyLetter_of_mem_portKeywords h) (differs keyword h).1
      (differs keyword h).2
  · rintro c behind (rfl | rfl)
    · exact unread_parameter_mark (by decide) behind
    · exact unread_parameter_mark (by decide) behind
  · exact fun range _ => range.unread_parameter
  · exact name

theorem AnsiHeader.unread_parameter_ports (h : AnsiHeader) :
    Unread parameterPattern (mark ['('] :: h.portTokens) [] := by
  have name : ∀ (d : PortDeclaration) c behind, c = ',' ∨ c = ')' →
      Unread parameterPattern d.tokens (mark [c] :: behind) := by
    intro d c behind closes
    apply d.unread_parameter
    rcases closes with rfl | rfl
    · exact unread_parameter_name d.name (by decide) (.mark _ (by decide) (by decide))
    · exact unread_parameter_name d.name (by decide) (.mark _ (by decide) (by decide))
  refine .cons (unread_parameter_mark (by decide) _) ?_
  refine .append (unread_separated (unread_parameter_mark (by decide)) ?_ ?_)
    (.cons (unread_parameter_mark (by decide) _) (unread_parameter_mark (by decide) _))
  all_goals simp only [List.forall_mem_map]
  · exact fun d _ behind => name d ',' behind (.inl rfl)
  · exact fun d _ => name d ')' _ (.inr rfl)

theorem scan_parameterPattern {h : AnsiHeader} (fits : Fits h.tokens gaps) :
    List.Forall₂ (fun d r => d.Keeps r.kept) h.parameters
      (parameterPattern.scan none (layOut h.tokens gaps)) := by
  have first : ∀ behind, Unread parameterPattern [Token.word "module"] behind :=
    unread_parameter_keyword ⟨"module", rfl⟩ (by decide) (by decide) (by decide)
  have name : ∀ c behind, c = '(' ∨ c = '#' → Unread parameterPattern
      [Token.word "module", Token.word h.name.text] (mark [c] :: behind) := by
    rintro c behind (rfl | rfl)
    · exact .cons (first _) (unread_parameter_name h.name (by decide)
        (.mark _ (by decide) (by decide)))
    · exact .cons (first _) (unread_parameter_name h.name (by decide)
        (.mark _ (by decide) (by decide)))
  revert fits
  rw [AnsiHeader.tokens, AnsiHeader.parameterTokens]
  split
  · rename_i none
    intro fits
    have unread := (name '(' h.portTokens (.inl rfl)).append_all h.unread_parameter_ports
    rw [List.isEmpty_iff.mp none]
    have nothing := Pattern.scan_eq_nil_of_quiet rfl (unread.quiet fits Option.none)
    exact nothing ▸ .nil
  · intro fits
    have ahead : ∀ behind, Unread parameterPattern
        [Token.word "module", Token.word h.name.text, mark ['#']] (mark ['('] :: behind) := fun behind =>
      (name '#' _ (.inr rfl)).append (unread_parameter_mark (by decide) _)
    have closing : Unread parameterPattern (mark [')'] :: mark ['('] :: h.portTokens) [] :=
      (unread_parameter_mark (by decide) _).append_all h.unread_parameter_ports
    rw [List.cons_append, List.cons_append, List.append_assoc, List.singleton_append] at fits ⊢
    obtain ⟨front, gaps', outside, fits', passed⟩ :=
      (ahead _).scan_mark parameterPattern_skipsBlanks (by decide) (by decide) fits
    have found := scan_parameters h.parameters outside closing fits'
    rw [← passed none] at found
    exact found

theorem ParameterDeclaration.genericOf_eq {found : Match} {d : ParameterDeclaration}
    (keeps : d.Keeps found.reading.kept) : genericOf found = d.generic := by
  obtain ⟨value, cut, kept⟩ := keeps
  rw [genericOf, generic, ← cut, ← Match.group_reading, ← Match.group_reading, Reading.group,
    Reading.group, Reading.group?, Reading.group?, kept]
  rfl

theorem generics_layOut {h : AnsiHeader} (fits : Fits h.tokens gaps) :
    generics (layOut h.tokens gaps) = h.parameters.map ParameterDeclaration.generic := by
  have scanned := scan_parameterPattern fits
  rw [← Pattern.reading_findAll, List.forall₂_map_right_iff] at scanned
  rw [generics, stripComments_layOut fits]
  exact Extraction.map_eq (scanned.imp fun _ _ => ParameterDeclaration.genericOf_eq)

end Pinout.Verilog
