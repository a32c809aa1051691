import Pinout.Proofs.Layout.Scan
import Pinout.Proofs.Pattern.Keywords
import Pinout.Proofs.Pattern.Locality
import Pinout.Proofs.Verilog.AnsiHeader

/-! # Reading ports

The port pattern takes a port of a header whole. The keywords in front of the name are optional and a
name may look like any of them; it is told apart by the mark behind it, which ends every attempt to go
on with another part.
-/

namespace Pinout.Verilog

open Token

variable {before : Option Char} {t : Text} {tokens behind : List Token} {gaps : List Text} {c : Char}

def directions : Pattern :=
  .keyword "input" <|> .keyword "output" <|> .keyword "inout"

def netTypes : Pattern :=
  .keyword "reg" <|> .keyword "wire" <|> .keyword "logic"

def rangeTail : Pattern :=
  .optional (.char '[' ++ .group 3 (unbracketed ++ .char ':' ++ unbracketed) ++ .char ']' ++ .blanks) ++
    .group 4 .word

def signedTail : Pattern :=
  .optional (.keyword "signed" ++ .boundary ++ .blanks) ++ rangeTail

def typeTail : Pattern :=
  .optional (.group 2 netTypes ++ .boundary ++ .blanks) ++ signedTail

def portBody : Pattern :=
  .group 1 directions ++ .boundary ++ .blanks ++ typeTail

theorem readings_portPattern (before : Option Char) (t : Text) :
    portPattern.readings before t =
      (.boundary ++ (.group 1 directions ++ (.boundary ++ (.blanks ++ typeTail))) : Pattern).readings
        before t := by
  simp only [portPattern, Pattern.readings_append_assoc]
  rfl

theorem readings_portBody (before : Option Char) (t : Text) :
    portBody.readings before t =
      (.group 1 directions ++ (.boundary ++ (.blanks ++ typeTail)) : Pattern).readings before t := by
  simp only [portBody, Pattern.readings_append_assoc]

theorem portPattern_readsAtWord : ReadsAtWord portPattern portBody := by
  intro before c t outside word
  rw [readings_portPattern, readings_portBody, Pattern.readings_boundary_append]
  exact if_pos (Pattern.isEdge_front outside word)

theorem portPattern_skipsBlanks : portPattern.SkipsBlanks where
  reads := rfl
  closed _ := Text.forall_blank (portPattern.opens · = false) (by decide)

theorem rangeTail_skipsBlanks : rangeTail.SkipsBlanks where
  reads := rfl
  closed _ := Text.forall_blank (rangeTail.opens · = false) (by decide +kernel)

theorem signedTail_skipsBlanks : signedTail.SkipsBlanks where
  reads := rfl
  closed _ := Text.forall_blank (signedTail.opens · = false) (by decide +kernel)

def EndsPort (c : Char) : Prop :=
  EndsPart ',' c

theorem EndsPort.closed_rangeTail (h : EndsPort c) : rangeTail.opens c = false := by
  rcases h with rfl | rfl <;> decide

theorem EndsPort.closed_signedTail (h : EndsPort c) : signedTail.opens c = false := by
  rcases h with rfl | rfl <;> decide

/-- A name that looks like a keyword is none, as nothing can follow it. -/
theorem refuses_keyword_at_name {q : Pattern} {keyword : Text} (h : keyword ∈ portKeywords)
    (skips : q.SkipsBlanks) (closed : q.opens c = false) (leads : Leads (mark [c] :: behind)) (name : Name)
    (fits : Fits (Token.word name.text :: mark [c] :: behind) gaps) :
    (Pattern.keyword keyword ++ (.boundary ++ (.blanks ++ q))).Refuses before
      (layOut (Token.word name.text :: mark [c] :: behind) gaps) := by
  obtain ⟨gap, gaps, rfl, gapFits, fits⟩ := fits.cons
  have nonempty : keyword ≠ [] := by
    rintro rfl
    exact absurd h (by decide)
  refine Pattern.refuses_keyword_append (isKeyLetter_of_mem_portKeywords h) nonempty name.word
    (leads.stops_word fits gapFits rfl) fun _ => ?_
  refine Pattern.refuses_many_run gapFits.blank (leads.stops_blank fits) skips.reads skips.closed ?_
  obtain ⟨_, _, rfl, -, -⟩ := fits.cons
  exact Pattern.refuses_of_stops skips.reads (Pattern.stops_cons.mpr closed)

theorem refuses_keyword_at_range {q : Pattern} {keyword : Text} (h : keyword ∈ portKeywords)
    (skips : q.SkipsBlanks) (closed : q.opens c = false) (leads : Leads (mark [c] :: behind))
    (d : PortDeclaration) (fits : Fits (d.rangeTokens ++ mark [c] :: behind) gaps) :
    (Pattern.keyword keyword ++ (.boundary ++ (.blanks ++ q))).Refuses before
      (layOut (d.rangeTokens ++ mark [c] :: behind) gaps) := by
  revert fits
  rw [PortDeclaration.rangeTokens]
  cases d.range with
  | none => exact refuses_keyword_at_name h skips closed leads d.name
  | some range =>
      intro fits
      obtain ⟨gap, gaps, rfl, -, -⟩ := fits.cons
      have nonempty : keyword ≠ [] := by
        rintro rfl
        exact absurd h (by decide)
      refine (Pattern.refuses_keyword (isKeyLetter_of_mem_portKeywords h) nonempty ?_).append
      exact Pattern.stops_cons.mpr (by decide)

theorem refuses_netTypes_at_signed (s : Spelling "signed") : netTypes.Refuses before (s.text ++ t) := by
  have refuses : ∀ other ∈ ["reg", "wire", "logic"].map String.toList,
      (Pattern.keyword other).Refuses before (s.text ++ t) := by
    intro other h
    apply s.refuses (by decide)
    · revert other
      decide
    · revert other
      decide
  exact Pattern.refuses_orElse.mpr ⟨refuses _ (by decide),
    Pattern.refuses_orElse.mpr ⟨refuses _ (by decide), refuses _ (by decide)⟩⟩

theorem refuses_netTypes_at_signedTokens (ends : EndsPort c) (d : PortDeclaration)
    (fits : Fits (d.signedTokens ++ mark [c] :: behind) gaps) :
    (.group 2 netTypes ++ .boundary ++ .blanks ++ signedTail : Pattern).Refuses before
      (layOut (d.signedTokens ++ mark [c] :: behind) gaps) := by
  revert fits
  rw [PortDeclaration.signedTokens]
  cases d.signed with
  | none =>
      intro fits
      have refuses : ∀ keyword ∈ portKeywords,
          (Pattern.keyword keyword ++ (.boundary ++ (.blanks ++ signedTail))).Refuses before
            (layOut (d.rangeTokens ++ mark [c] :: behind) gaps) := fun keyword h =>
        refuses_keyword_at_range h signedTail_skipsBlanks ends.closed_signedTail (ends.leads rfl rfl behind) d fits
      rw [Pattern.refuses_append_assoc, Pattern.refuses_append_assoc, Pattern.refuses_group_append,
        netTypes, Pattern.refuses_orElse_append, Pattern.refuses_orElse_append]
      exact ⟨refuses _ (by decide), refuses _ (by decide), refuses _ (by decide)⟩
  | some s =>
      intro fits
      obtain ⟨gap, gaps, rfl, -, -⟩ := fits.cons
      exact ((refuses_netTypes_at_signed s).group 2).append.append.append

def directionKeywords : List Text := ["input", "output", "inout"]

def typeKeywords : List Text := ["reg", "wire", "logic"]

theorem readsOne_directions : directions.ReadsOne directionKeywords fun _ => [] := by
  have inout : (Pattern.keyword "inout").ReadsOne _ _ := Pattern.readsOne_keyword (by decide) (by decide)
  have output := inout.cons (k := "output") (by decide) (by decide) (by decide) (by decide)
  exact output.cons (by decide) (by decide) (by decide) (by decide)

theorem readsOne_netTypes : netTypes.ReadsOne typeKeywords fun _ => [] := by
  have logic : (Pattern.keyword "logic").ReadsOne _ _ := Pattern.readsOne_keyword (by decide) (by decide)
  have wire := logic.cons (k := "wire") (by decide) (by decide) (by decide) (by decide)
  exact wire.cons (by decide) (by decide) (by decide) (by decide)

theorem takes_directions {d : Direction} (s : Spelling d.name) : directions.Takes before s.text [] t :=
  readsOne_directions.takes ⟨d.name, by cases d <;> decide, s.spells⟩

theorem takes_netTypes {type : NetType} (s : Spelling type.keyword) : netTypes.Takes before s.text [] t :=
  readsOne_netTypes.takes ⟨type.keyword, by cases type <;> decide, s.spells⟩

theorem mem_rangeText {a : Reading} (h : a ∈ (unbracketed ++ .char ':' ++ unbracketed : Pattern).readings
    before t) : ':' ∈ a.text ∧ (∀ c ∈ a.text, c ≠ ']') ∧ a.kept = [] := by
  obtain ⟨front, hfront, _, -, last, hlast, rfl⟩ := Pattern.exists_of_mem_append h
  obtain ⟨first, hfirst, _, -, colon, hcolon, rfl⟩ := Pattern.exists_of_mem_append hfront
  obtain ⟨-, rfl⟩ := Pattern.mem_char.mp hcolon
  obtain ⟨-, plain, kept⟩ := Pattern.mem_many.mp hfirst
  obtain ⟨-, plain', kept'⟩ := Pattern.mem_many.mp hlast
  refine ⟨by simp [Reading.append], fun c hc => ?_, by simp [Reading.append, kept, kept']⟩
  simp only [Reading.append, List.mem_append, List.mem_singleton] at hc
  rcases hc with (hc | rfl) | hc
  · simpa using (Bool.and_eq_true_iff.mp (plain c hc)).2
  · decide
  · simpa using (Bool.and_eq_true_iff.mp (plain' c hc)).2

theorem not_refuses_bracketed {m : Text} (colon : ':' ∈ m) (plain : ∀ c ∈ m, c ≠ '[' ∧ c ≠ ']') :
    ¬ (.char '[' ++ .group 3 (unbracketed ++ .char ':' ++ unbracketed) ++ .char ']' : Pattern).Refuses
      before ('[' :: m ++ [']'] ++ t) := by
  intro refused
  obtain ⟨y, z, rfl⟩ := List.append_of_mem colon
  have free : ∀ c ∈ y ++ ':' :: z, (c != '[' && c != ']') = true := fun c hc => by simpa using plain c hc
  have opening : ⟨['['], []⟩ ∈ (Pattern.char '[').readings before (['['] ++ (y ++ ':' :: (z ++ ']' :: t))) :=
    Pattern.mem_char.mpr ⟨⟨_, rfl⟩, rfl⟩
  have first : ⟨y, []⟩ ∈ unbracketed.readings (some '[') (y ++ ':' :: (z ++ ']' :: t)) :=
    Pattern.mem_many.mpr ⟨List.prefix_append _ _, fun c hc => free c (by simp [hc]), rfl⟩
  have last : ⟨z, []⟩ ∈ unbracketed.readings (some ':') (z ++ ']' :: t) :=
    Pattern.mem_many.mpr ⟨List.prefix_append _ _, fun c hc => free c (by simp [hc]), rfl⟩
  have front := Pattern.mem_append_of_mem first (Pattern.mem_char.mpr ⟨⟨_, rfl⟩, rfl⟩)
  have inner : ⟨y ++ [':'] ++ z, []⟩ ∈ (unbracketed ++ .char ':' ++ unbracketed : Pattern).readings
      (some '[') (y ++ [':'] ++ (z ++ ']' :: t)) :=
    Pattern.mem_append_of_mem (a := ⟨y ++ [':'], []⟩) (b := ⟨z, []⟩) (by simpa [Reading.append] using front)
      (by simpa using last)
  have kept : ⟨y ++ [':'] ++ z, [(3, y ++ [':'] ++ z)]⟩ ∈
      (.group 3 (unbracketed ++ .char ':' ++ unbracketed) : Pattern).readings (some '[')
        (y ++ [':'] ++ (z ++ ']' :: t)) := List.mem_map_of_mem inner
  have all := Pattern.mem_append_of_mem opening (b := ⟨y ++ [':'] ++ z, [(3, y ++ [':'] ++ z)]⟩)
    (by simpa using kept)
  have closed := Pattern.mem_append_of_mem (a := ⟨'[' :: (y ++ [':'] ++ z), [(3, y ++ [':'] ++ z)]⟩)
    (s := ']' :: t) (by simpa [Reading.append, Reading.keep] using all)
    (Pattern.mem_char.mpr ⟨⟨_, rfl⟩, rfl⟩)
  exact Pattern.refuses_iff.mp refused _ (by simpa using closed)

def bracketed : Pattern :=
  .char '[' ++ .group 3 (unbracketed ++ .char ':' ++ unbracketed) ++ .char ']'

/-- What is read between brackets is everything up to the closing one, and there is a colon in it. -/
theorem eq_of_mem_bracketed {m : Text} (plain : ∀ c ∈ m, c ≠ '[' ∧ c ≠ ']') {a : Reading}
    (h : a ∈ bracketed.readings before ('[' :: m ++ [']'] ++ t)) :
    ':' ∈ m ∧ a = ⟨'[' :: m ++ [']'], [(3, m)]⟩ := by
  obtain ⟨front, hfront, s, split, closing, hclosing, rfl⟩ := Pattern.exists_of_mem_append h
  obtain ⟨opening, hopening, _, -, ranged, hranged, rfl⟩ := Pattern.exists_of_mem_append hfront
  obtain ⟨inner, hinner, rfl⟩ := List.mem_map.mp hranged
  obtain ⟨-, rfl⟩ := Pattern.mem_char.mp hopening
  obtain ⟨⟨s, rfl⟩, rfl⟩ := Pattern.mem_char.mp hclosing
  obtain ⟨colon, plain', kept⟩ := mem_rangeText hinner
  simp only [Reading.append, Reading.keep, List.append_assoc, List.cons_append, List.nil_append,
    List.cons.injEq, true_and] at split
  -- the closing bracket is the first one, so the colon may be any of them
  have closes : ∀ s, Pattern.Stops (· != ']') (']' :: s) := fun s => Pattern.stops_cons.mpr (by simp)
  have text : inner.text = m := (Pattern.run_unique split (fun c hc => by simpa using (plain c hc).2)
    (closes t) (fun c hc => by simpa using plain' c hc) (closes s)).1
  exact ⟨text ▸ colon, by simp [Reading.append, Reading.keep, text, kept]⟩

theorem takes_bracketed (before : Option Char) {m : Text} (colon : ':' ∈ m) (plain : ∀ c ∈ m, c ≠ '[' ∧ c ≠ ']') :
    bracketed.Takes before ('[' :: m ++ [']']) [(3, m)] t :=
  .of_forall (fun _ ha => (eq_of_mem_bracketed plain ha).2) (not_refuses_bracketed colon plain)

/-- What the pattern keeps of the name and the range. -/
def PortDeclaration.KeepsRange (d : PortDeclaration) (kept : List (Nat × Text)) : Prop :=
  match d.range with
  | none => kept = [(4, d.name.text)]
  | some range => ∃ x, Text.trim x = Text.trim range.text ∧ kept = [(4, d.name.text), (3, x)]

def PortDeclaration.keptType (d : PortDeclaration) : List (Nat × Text) :=
  match d.netType with
  | none => []
  | some named => [(2, named.2.text)]

/-- What the pattern keeps of a port. -/
def PortDeclaration.Keeps (d : PortDeclaration) (kept : List (Nat × Text)) : Prop :=
  ∃ range, d.KeepsRange range ∧ kept = range ++ d.keptType ++ [(1, d.keyword.text)]

theorem leads_rangeTokens (d : PortDeclaration) (behind : List Token) :
    Leads (d.rangeTokens ++ behind) := by
  rw [PortDeclaration.rangeTokens]
  cases d.range with
  | none => exact .word _ d.name.nonempty d.name.word
  | some range => exact .mark _ (by decide) (by decide)

theorem leads_signedTokens (d : PortDeclaration) (behind : List Token) :
    Leads (d.signedTokens ++ behind) := by
  rw [PortDeclaration.signedTokens]
  cases d.signed with
  | none => exact leads_rangeTokens d behind
  | some s => exact .word _ (s.ne_nil (by decide)) (s.word (by decide))

theorem leads_typeTokens (d : PortDeclaration) (behind : List Token) :
    Leads (d.typeTokens ++ behind) := by
  rw [PortDeclaration.typeTokens]
  cases d.netType with
  | none => exact leads_signedTokens d behind
  | some named =>
      obtain ⟨type, s⟩ := named
      have key := isKeyLetter_of_mem_portKeywords (mem_portKeywords_netType type)
      exact .word _ (s.ne_nil (by cases type <;> decide)) (s.word key)

section Port

variable (d : PortDeclaration) (ends : EndsPort c)
include ends

theorem read_name : Read (.group 4 .word) [Token.word d.name.text] (mark [c] :: behind)
    (· = [(4, d.name.text)]) :=
  read_last (ends.leads rfl rfl behind) fun _ _ stops =>
    (Pattern.takes_atLeastOne d.name.nonempty d.name.word stops).group 4

omit ends in
theorem plain_range {g m h : Text} (front : ∀ c ∈ g, Text.isBlank c = true)
    (plain : ∀ c ∈ m, c ≠ '[' ∧ c ≠ ']') (back : ∀ c ∈ h, Text.isBlank c = true) :
    ∀ c ∈ g ++ m ++ h, c ≠ '[' ∧ c ≠ ']' := by
  have blank : ∀ c, Text.isBlank c = true → c ≠ '[' ∧ c ≠ ']' := fun _ =>
    Text.forall_blank (fun c => c ≠ '[' ∧ c ≠ ']') (by decide)
  simp only [List.mem_append]
  rintro c ((hc | hc) | hc)
  · exact blank c (front c hc)
  · exact plain c hc
  · exact blank c (back c hc)

omit ends in
theorem read_range {m : Text} (colon : ':' ∈ m) (plain : ∀ c ∈ m, c ≠ '[' ∧ c ≠ ']') (name : Name)
    (leads : Leads behind) : Read (bracketed ++ .blanks ++ .group 4 .word)
      [mark ['['], mark m, mark [']'], Token.word name.text] behind
      fun kept => ∃ x, Text.trim x = Text.trim m ∧ kept = [(4, name.text), (3, x)] := by
  intro gaps fits
  obtain ⟨g₁, gaps, rfl, fits₁, fits⟩ := fits.cons
  obtain ⟨g₂, gaps, rfl, fits₂, fits⟩ := fits.cons
  obtain ⟨g₃, gaps, rfl, fits₃, fits⟩ := fits.cons
  obtain ⟨g₄, gaps, rfl, fits₄, fits⟩ := fits.cons
  have colon : ':' ∈ g₁ ++ m ++ g₂ := by simp [colon]
  have plain := plain_range fits₁.blank plain fits₂.blank
  have wordEnds : Pattern.Stops Text.isWord (g₄ ++ layOut behind gaps) := leads.stops_word fits fits₄ rfl
  have visible : Pattern.Stops Text.isBlank (name.text ++ (g₄ ++ layOut behind gaps)) :=
    name.stops_blank _
  refine ⟨('[' :: (g₁ ++ m ++ g₂) ++ [']']) ++ g₃ ++ name.text,
    [(4, name.text), (3, g₁ ++ m ++ g₂)], g₄, gaps, by simp [layOut, mark, Token.word],
    fits₄.blank, fits, ⟨g₁ ++ m ++ g₂, ?_, rfl⟩, fun before => ?_⟩
  · rw [List.append_assoc, Text.trim_blanks_append fits₁.blank, Text.trim_append_blanks fits₂.blank]
  · have bracketed := (takes_bracketed before colon plain).blanks fits₃.blank visible
    exact bracketed.append ((Pattern.takes_atLeastOne name.nonempty name.word wordEnds).group 4)

theorem read_rangeTail : Read rangeTail d.rangeTokens (mark [c] :: behind) d.KeepsRange := by
  unfold PortDeclaration.KeepsRange PortDeclaration.rangeTokens
  cases d.range with
  | none =>
      refine .skip (fun before gaps fits => ?_) (read_name d ends)
      obtain ⟨gap, gaps, rfl, -, -⟩ := fits.cons
      apply Pattern.Refuses.append
      refine Pattern.refuses_of_stops rfl fun c hc => ?_
      change c ∈ (d.name.text ++ _).head? at hc
      rw [List.head?_append_of_ne_nil _ d.name.nonempty] at hc
      have word := d.name.word c (List.mem_of_mem_head? hc)
      have plain : c ≠ '[' := Text.ne_of_isWord word (by decide)
      simp [Pattern.char, Pattern.opens, Pattern.nullable, plain]
  | some range => exact (read_range range.colon range.unbracketed d.name (ends.leads rfl rfl behind)).optional

theorem read_signedTail : Read signedTail d.signedTokens (mark [c] :: behind) d.KeepsRange := by
  rw [PortDeclaration.signedTokens]
  cases d.signed with
  | none =>
      refine .skip (fun before gaps fits => ?_) (read_rangeTail d ends)
      rw [Pattern.refuses_append_assoc, Pattern.refuses_append_assoc]
      exact refuses_keyword_at_range (by decide) rangeTail_skipsBlanks (ends.closed_rangeTail)
        (ends.leads rfl rfl behind) d fits
  | some s =>
      have rest := Read.keyword (leads_rangeTokens d (mark [c] :: behind)) (s.ne_nil (by decide)) (s.word (by decide))
        (fun _ _ => Pattern.takes_keyword s.spells) (read_rangeTail d ends)
      refine rest.optional.imp ?_
      rintro _ ⟨kept, keeps, rfl⟩
      rwa [List.append_nil]

theorem read_typeTail : Read typeTail d.typeTokens (mark [c] :: behind) fun kept =>
    ∃ range, d.KeepsRange range ∧ kept = range ++ d.keptType := by
  rw [PortDeclaration.typeTokens, PortDeclaration.keptType]
  cases d.netType with
  | none =>
      refine .imp (.skip (fun before gaps fits => ?_) (read_signedTail d ends)) fun kept keeps =>
        ⟨kept, keeps, (List.append_nil kept).symm⟩
      exact refuses_netTypes_at_signedTokens ends d fits
  | some named =>
      obtain ⟨type, s⟩ := named
      have key := isKeyLetter_of_mem_portKeywords (mem_portKeywords_netType type)
      exact .optional (.keyword (leads_signedTokens d _) (s.ne_nil (by cases type <;> decide)) (s.word key)
        (fun _ _ => (takes_netTypes s).group 2) (read_signedTail d ends))

theorem read_portBody : Read portBody d.tokens (mark [c] :: behind) d.Keeps := by
  have key := isKeyLetter_of_mem_portKeywords (mem_portKeywords_direction d.direction)
  have nonempty : d.direction.name ≠ [] := by cases d.direction <;> decide
  have read := Read.keyword (leads_typeTokens d (mark [c] :: behind)) (d.keyword.ne_nil nonempty) (d.keyword.word key)
    (fun _ _ => (takes_directions d.keyword).group 1) (read_typeTail d ends)
  refine read.imp ?_
  rintro _ ⟨_, ⟨range, keeps, rfl⟩, rfl⟩
  exact ⟨range, keeps, rfl⟩

end Port

end Pinout.Verilog
