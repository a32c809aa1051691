import Pinout.Proofs.Verilog.Declarations
import Pinout.Proofs.Verilog.LooseHeader
import Pinout.Proofs.Verilog.PortScan

/-! # Scanning loose declarations

On laid out words and ranges the tail of the port pattern reads the name that is told for them, or
nothing. So a scan of a declaration finds the ports that are told, one after the other.
-/

namespace Pinout.Verilog

open Token
open Pattern (SpellsOne)

variable {before : Option Char} {t : Text} {items : List Item} {tokens behind : List Token}
  {gaps : List Text} {c : Char} {p q : Pattern} {next : List Item → Option (Name × List Item)}

theorem EndsPort.leads_items (ends : EndsPort c) (items : List Item) (behind : List Token) :
    Leads (itemTokens items ++ mark [c] :: behind) := by
  match items with
  | [] => exact ends.leads rfl rfl behind
  | .word w :: _ => exact .word _ w.nonempty w.word
  | .range _ :: _ => exact .mark _ (by decide) (by decide)

theorem startsWord_items (items : List Item)
    (h : (itemTokens items ++ mark [c] :: behind).head?.any Token.isWord = true) :
    StartsWord (itemTokens items ++ mark [c] :: behind) := by
  match items, h with
  | .word w :: _, _ => exact ⟨_, _, rfl, w.nonempty, w.word⟩

/-- What the pattern reads of the parts in front of `behind` is what is told. -/
def Tells (q : Pattern) (items : List Item) (behind : List Token) : Option (Name × List Item) → Prop
  | some (name, rest) => ∃ taken, itemTokens items = taken ++ itemTokens rest ∧
      Read q taken (itemTokens rest ++ behind) fun kept =>
        kept.lookup 1 = none ∧ kept.lookup 4 = some name.text
  | none => ∀ before gaps, Fits (itemTokens items ++ behind) gaps →
      q.Refuses before (layOut (itemTokens items ++ behind) gaps)

theorem Tells.skip {told : Option (Name × List Item)} (h : Tells q items behind told)
    (refuses : ∀ before gaps, Fits (itemTokens items ++ behind) gaps →
      (p ++ q).Refuses before (layOut (itemTokens items ++ behind) gaps)) :
    Tells (.optional p ++ q) items behind told := by
  cases told with
  | none => exact fun before gaps fits =>
      Pattern.refuses_optional_append.mpr ⟨refuses before gaps fits, h before gaps fits⟩
  | some told =>
      obtain ⟨taken, split, read⟩ := h
      refine ⟨taken, split, read.skip fun before gaps fits => ?_⟩
      rw [← List.append_assoc, ← split] at fits ⊢
      exact refuses before gaps fits

theorem layOut_range {r : Bracketed} (fits : Fits ((Item.range r).tokens ++ tokens) gaps) :
    ∃ m gap gaps', layOut ((Item.range r).tokens ++ tokens) gaps =
        '[' :: m ++ [']'] ++ (gap ++ layOut tokens gaps') ∧
      (':' ∈ m → ':' ∈ r.text) ∧ (∀ c ∈ m, c ≠ '[' ∧ c ≠ ']') ∧
      (∀ c ∈ gap, Text.isBlank c = true) ∧ Fits tokens gaps' := by
  obtain ⟨g₁, gaps, rfl, fits₁, fits⟩ := fits.cons
  obtain ⟨g₂, gaps, rfl, fits₂, fits⟩ := fits.cons
  obtain ⟨g₃, gaps, rfl, fits₃, fits⟩ := fits.cons
  refine ⟨g₁ ++ r.text ++ g₂, g₃, gaps, by simp [Item.tokens, layOut, mark], fun colon => ?_,
    plain_range fits₁.blank r.unbracketed fits₂.blank, fits₃.blank, fits⟩
  have solid : ∀ g : Text, (∀ c ∈ g, Text.isBlank c = true) → ':' ∉ g := fun g blank hc =>
    absurd (blank ':' hc) (by decide)
  simpa [solid g₁ fits₁.blank, solid g₂ fits₂.blank] using colon

theorem refuses_rangeTail_at_range {m : Text} (plain : ∀ c ∈ m, c ≠ '[' ∧ c ≠ ']')
    (h : ':' ∈ m → (.blanks ++ .group 4 .word : Pattern).Refuses (some ']') t) :
    rangeTail.Refuses before ('[' :: m ++ [']'] ++ t) := by
  refine Pattern.refuses_optional_append.mpr ⟨?_, ?_⟩
  · rw [Pattern.refuses_append_assoc]
    refine Pattern.refuses_append fun a s ha split => ?_
    obtain ⟨colon, rfl⟩ := eq_of_mem_bracketed plain ha
    obtain rfl := List.append_cancel_left split
    change Pattern.Refuses _ (lastOf before ('[' :: m ++ [']'])) t
    rw [lastOf_append]
    exact h colon
  · exact Pattern.refuses_of_stops rfl (Pattern.stops_cons.mpr (by decide))

theorem opens_name (c : Char) : (Pattern.group 4 .word).opens c = Text.isWord c :=
  Bool.or_false _

theorem refuses_name_at_mark {gap : Text} (blank : ∀ c ∈ gap, Text.isBlank c = true)
    (visible : Text.isBlank c = false) (plain : Text.isWord c = false) (fits : Fits (mark [c] :: behind) gaps) :
    (.blanks ++ .group 4 .word : Pattern).Refuses before (gap ++ layOut (mark [c] :: behind) gaps) := by
  obtain ⟨_, _, rfl, -, -⟩ := fits.cons
  refine Pattern.refuses_many_run blank (Pattern.stops_cons.mpr visible) rfl
    (fun d hd => (opens_name d).trans (Text.isWord_of_isBlank hd)) ?_
  exact Pattern.refuses_of_stops rfl (Pattern.stops_cons.mpr ((opens_name c).trans plain))

theorem refuses_rangeTail_at_mark {r : Bracketed} (visible : Text.isBlank c = false)
    (plain : Text.isWord c = false) (fits : Fits ((Item.range r).tokens ++ mark [c] :: behind) gaps) :
    rangeTail.Refuses before (layOut ((Item.range r).tokens ++ mark [c] :: behind) gaps) := by
  obtain ⟨m, gap, gaps', text, -, unbracketed, blank, fits'⟩ := layOut_range fits
  rw [text]
  exact refuses_rangeTail_at_range unbracketed fun _ => refuses_name_at_mark blank visible plain fits'

theorem refuses_bracketed_at_name (name : Name) :
    (bracketed ++ .blanks ++ .group 4 .word : Pattern).Refuses before (name.text ++ t) := by
  obtain ⟨c, w, text⟩ := List.exists_cons_of_ne_nil name.nonempty
  have word := name.word c (by simp [text])
  have plain : c ≠ '[' := Text.ne_of_isWord word (by decide)
  rw [text]
  refine (Pattern.refuses_of_stops rfl (Pattern.stops_cons.mpr ?_)).append.append
  simp [bracketed, Pattern.char, Pattern.opens, Pattern.nullable, plain]

theorem tells_rangeTail (ends : EndsPort c) (items : List Item) (behind : List Token) :
    Tells rangeTail items (mark [c] :: behind) (nameBehindRange items) := by
  match items with
  | [] =>
      intro before gaps fits
      obtain ⟨_, _, rfl, -, -⟩ := fits.cons
      exact Pattern.refuses_of_stops rfl (Pattern.stops_cons.mpr ends.closed_rangeTail)
  | .word name :: rest =>
      have read : Read (.group 4 .word) [Token.word name.text] (itemTokens rest ++ mark [c] :: behind)
          (· = [(4, name.text)]) := read_last (ends.leads_items rest behind) fun _ _ stops =>
        (Pattern.takes_atLeastOne name.nonempty name.word stops).group 4
      refine ⟨[Token.word name.text], rfl, .skip (fun before gaps fits => ?_) (read.imp ?_)⟩
      · obtain ⟨_, _, rfl, -, -⟩ := fits.cons
        exact refuses_bracketed_at_name name
      · rintro _ rfl
        exact ⟨rfl, rfl⟩
  | [.range r] =>
      obtain ⟨visible, plain⟩ : Text.isBlank c = false ∧ Text.isWord c = false := by
        rcases ends with rfl | rfl <;> exact ⟨by decide, by decide⟩
      exact fun before gaps fits => refuses_rangeTail_at_mark visible plain fits
  | .range r :: .range r' :: rest =>
      exact fun before gaps fits => refuses_rangeTail_at_mark (by decide) (by decide) fits
  | .range r :: .word name :: rest =>
      by_cases colon : ':' ∈ r.text
      · rw [nameBehindRange, if_pos colon]
        have read := read_range colon r.unbracketed name (ends.leads_items rest behind)
        refine ⟨_, rfl, read.optional.imp ?_⟩
        rintro _ ⟨x, -, rfl⟩
        exact ⟨rfl, rfl⟩
      · rw [nameBehindRange, if_neg colon]
        intro before gaps fits
        change Fits ((Item.range r).tokens ++ _) gaps at fits
        obtain ⟨m, gap, gaps', text, same, unbracketed, -, -⟩ := layOut_range fits
        change rangeTail.Refuses before (layOut ((Item.range r).tokens ++ _) gaps)
        rw [text]
        exact refuses_rangeTail_at_range unbracketed fun found => absurd (same found) colon

/-- A keyword is skipped where no word stands. -/
private theorem tells_beforeMark {keywords : List Text} {kept : Text → List (Nat × Text)}
    {told : Option (Name × List Item)} (reads : p.ReadsOne keywords kept) (nonempty : ¬ SpellsOne keywords [])
    (tells : Tells q items (mark [c] :: behind) told)
    (stops : ∀ gaps, Fits (itemTokens items ++ mark [c] :: behind) gaps →
      Pattern.Stops Text.isWord (layOut (itemTokens items ++ mark [c] :: behind) gaps)) :
    Tells (.optional (p ++ .boundary ++ .blanks) ++ q) items (mark [c] :: behind) told := by
  refine tells.skip fun before gaps fits => ?_
  rw [Pattern.refuses_append_assoc, Pattern.refuses_append_assoc, ← List.nil_append (layOut _ _)]
  exact reads.refuses (by simp) (stops gaps fits) fun spells => absurd spells nonempty

/-- A keyword is given up where no name can be read behind it. -/
private theorem tells_givenUp {keywords : List Text} {kept : Text → List (Nat × Text)} {w : Name}
    {told : Option (Name × List Item)} (reads : p.ReadsOne keywords kept) (skips : q.SkipsBlanks) (ends : EndsPort c)
    (tells : Tells q (.word w :: items) (mark [c] :: behind) told)
    (refused : SpellsOne keywords w.text → Tells q items (mark [c] :: behind) none) :
    Tells (.optional (p ++ .boundary ++ .blanks) ++ q) (.word w :: items) (mark [c] :: behind) told := by
  refine tells.skip fun before gaps fits => ?_
  obtain ⟨gap, gaps, rfl, gapFits, fits⟩ := fits.cons
  have leads := ends.leads_items items behind
  rw [Pattern.refuses_append_assoc, Pattern.refuses_append_assoc]
  refine reads.refuses w.word (leads.stops_word fits gapFits rfl) fun spells => ?_
  refine Pattern.refuses_many_run gapFits.blank (leads.stops_blank fits) skips.reads skips.closed ?_
  exact refused spells _ gaps fits

theorem tells_pastKeyword {keywords : List Text} {kept : Text → List (Nat × Text)}
    (reads : p.ReadsOne keywords kept) (skips : q.SkipsBlanks) (nonempty : ¬ SpellsOne keywords [])
    (undirected : ∀ w, (kept w).lookup 1 = none) (ends : EndsPort c)
    (tells : ∀ items, Tells q items (mark [c] :: behind) (next items)) (items : List Item) :
    Tells (.optional (p ++ .boundary ++ .blanks) ++ q) items (mark [c] :: behind)
      (pastKeyword keywords next items) := by
  match items with
  | [] =>
      refine tells_beforeMark reads nonempty (tells []) fun gaps fits => ?_
      obtain ⟨_, _, rfl, -, -⟩ := fits.cons
      rcases ends with rfl | rfl <;> exact Pattern.stops_cons.mpr (by decide)
  | .range r :: rest =>
      refine tells_beforeMark reads nonempty (tells (.range r :: rest)) fun gaps fits => ?_
      obtain ⟨_, _, rfl, -, -⟩ := fits.cons
      exact Pattern.stops_cons.mpr (by decide)
  | .word w :: rest =>
      have here := tells (.word w :: rest)
      have read := tells rest
      rw [pastKeyword]
      split
      · rename_i spells
        cases told : next rest with
        | none =>
            rw [told] at read
            exact tells_givenUp reads skips ends here fun _ => read
        | some found =>
            rw [told] at read
            obtain ⟨taken, split, read⟩ := read
            have leads := ends.leads_items rest behind
            rw [split, List.append_assoc] at leads
            have whole := Read.keyword leads w.nonempty w.word (fun _ _ => reads.takes spells) read
            refine ⟨Token.word w.text :: taken, congrArg (Token.word w.text :: ·) split, whole.optional.imp ?_⟩
            rintro _ ⟨more, ⟨direction, name⟩, rfl⟩
            exact ⟨by simp [List.lookup_append, direction, undirected], by simp [List.lookup_append, name]⟩
      · exact tells_givenUp reads skips ends here fun spells => absurd spells ‹_›

theorem tells_typeTail (ends : EndsPort c) (items : List Item) (behind : List Token) :
    Tells typeTail items (mark [c] :: behind) (nameBehindType items) := by
  have sign : (Pattern.keyword "signed").ReadsOne signKeywords _ := Pattern.readsOne_keyword (by decide) (by decide)
  refine tells_pastKeyword (readsOne_netTypes.group 2) signedTail_skipsBlanks (by decide) (fun _ => rfl) ends ?_ items
  exact tells_pastKeyword sign rangeTail_skipsBlanks (by decide) (fun _ => rfl) ends
    fun items => tells_rangeTail ends items behind

/-- What is kept of a port tells its direction and its name. -/
def Found.Shows (f : Found) (r : Reading) : Prop :=
  r.kept.lookup 1 = some f.direction.text ∧ r.kept.lookup 4 = some f.name.text

theorem refuses_portPattern_at_word {w : Name} (stops : Pattern.Stops Text.isWord t)
    (h : SpellsOne directionKeywords w.text → (.blanks ++ typeTail : Pattern).Refuses (lastOf before w.text) t) :
    portPattern.Refuses before (w.text ++ t) := by
  rw [Pattern.Refuses, readings_portPattern]
  exact Pattern.refuses_boundary_append.mpr (.inr ((readsOne_directions.group 1).refuses w.word stops h))

theorem portBody_endsWord : portBody.EndsWord := by
  have name : (Pattern.group 4 .word).EndsWord := Pattern.endsWord_word.group 4
  exact (((name.append _).append _).append _).append _

theorem scans_word (ends : EndsPort c) {w : Name} {rest : List Item}
    (h : SpellsOne directionKeywords w.text → nameBehindType rest = none) :
    Scans portPattern [Token.word w.text] (itemTokens rest ++ mark [c] :: behind) (· = []) := by
  refine (unread_word portPattern_skipsBlanks portPattern_beginsWord w.word
    fun before gap gaps gapFits fits => ?_).scans_word
  have leads := ends.leads_items rest behind
  refine refuses_portPattern_at_word (leads.stops_word fits gapFits rfl) fun directs => ?_
  refine Pattern.refuses_many_run gapFits.blank (leads.stops_blank fits) typeTail_skipsBlanks.reads
    typeTail_skipsBlanks.closed ?_
  have none := tells_typeTail ends rest behind
  rw [h directs] at none
  exact none _ gaps fits

theorem scans_range (r : Bracketed) (behind : List Token) :
    Scans portPattern (Item.range r).tokens behind (· = []) := by
  have closing := scans_mark portPattern_skipsBlanks (c := ']') (by decide) (by decide) behind
  have text : Unread portPattern [mark r.text] (mark [']'] :: behind) :=
    unread_of_quiet portPattern_skipsBlanks fun before gap gaps gapFits fits =>
      quiet_of_noDirection r.noDirection (gapFits.stops_mark fits (fun _ => Text.isWord_of_isBlank) (by decide))
  have opening := scans_mark portPattern_skipsBlanks (c := '[') (by decide) (by decide)
    (mark r.text :: mark [']'] :: behind)
  have inside : Scans portPattern [mark r.text, mark [']']] behind (· = []) := text.scans_ahead.prepend closing
  exact opening.prepend inside

/-- A scan of parts finds the ports that are told. The induction is the one of `foundIn`: behind a port the
scan goes on with the parts behind its name. -/
theorem scans_items (ends : EndsPort c) (items : List Item) (behind : List Token) :
    Scans portPattern (itemTokens items) (mark [c] :: behind) (List.Forall₂ Found.Shows (foundIn items)) := by
  fun_induction foundIn items with
  | case1 =>
      refine Scans.nil.imp ?_
      rintro _ rfl
      exact .nil
  | case2 r rest ih => exact (scans_range r _).prepend ih
  | case3 w rest directs name after told ih =>
      have read := tells_typeTail ends rest behind
      rw [told] at read
      obtain ⟨taken, split, read⟩ := read
      have leads := ends.leads_items rest behind
      rw [split, List.append_assoc] at leads
      have whole := Read.keyword leads w.nonempty w.word
        (fun _ _ => (readsOne_directions.group 1).takes directs) read
      have port := whole.scans portPattern_skipsBlanks portPattern_readsAtWord ⟨_, _, rfl, w.nonempty, w.word⟩
        fun next => ⟨portBody_endsWord, startsWord_items after next⟩
      have both := port.append ih
      rw [List.cons_append, ← split] at both
      refine both.imp ?_
      rintro _ ⟨_, others, ⟨r, ⟨more, ⟨direction, last⟩, kept⟩, rfl⟩, all, rfl⟩
      exact .cons ⟨by simp [kept, List.lookup_append, direction], by simp [kept, List.lookup_append, last]⟩ all
  | case4 w rest directs told ih => exact (scans_word ends fun _ => told).prepend ih
  | case5 w rest other ih => exact (scans_word ends fun directs => absurd directs other).prepend ih

theorem Found.pinRead_eq {f : Found} {r : Reading} (h : f.Shows r) : pinRead r = f.pin := by
  rw [pinRead, Found.pin, Reading.group, Reading.group, Reading.group?, Reading.group?, h.1, h.2]
  rfl

theorem LooseHeader.uncommented (h : LooseHeader) : Unread commentPattern h.tokens [] := by
  have items : ∀ (items : List Item) behind, Unread commentPattern (itemTokens items) behind := by
    intro items behind
    induction items with
    | nil => exact .nil
    | cons item items ih =>
        cases item with
        | word w => exact .cons (unread_comment_word w.word _) ih
        | range r =>
            refine .cons (unread_comment_mark (by decide) _) (.cons ?_ (.cons (unread_comment_mark (by decide) _) ih))
            exact unread_commentFree r.commentFree (by decide) (by decide) _
  refine .cons (unread_comment_word (by decide) _) (.cons (unread_comment_word h.name.word _) ?_)
  refine .cons (unread_comment_mark (by decide) _) (.append (unread_separated (unread_comment_mark (by decide)) ?_ ?_)
    (.cons (unread_comment_mark (by decide) _) (unread_comment_mark (by decide) _)))
  all_goals simp only [List.forall_mem_map]
  · exact fun d _ behind => items d.parts _
  · exact fun d _ => items d.parts _

theorem forall₂_flatten {α β γ : Type} {R : β → γ → Prop} {expected : α → List β} {items : List α} {parts : List (List γ)}
    (h : List.Forall₂ (fun item part => List.Forall₂ R (expected item) part) items parts) :
    List.Forall₂ R (items.flatMap expected) parts.flatten := by
  induction h with
  | nil => exact .nil
  | cons first _ ih => exact List.rel_append first ih

/-- The pins that are reported of a header are the ones that are found in its declarations. -/
theorem pins_layOut {h : LooseHeader} {gaps : List Text} (fits : Fits h.tokens gaps) :
    (ports (layOut h.tokens gaps)).map (List.map Port.pin) =
      (h.ports.flatMap LooseDeclaration.found).mapM Found.pin := by
  have stripped : stripComments (layOut h.tokens gaps) = layOut h.tokens gaps :=
    Pattern.replaceAll_of_quiet lineFeeds (h.uncommented.quiet fits none)
  have ahead : ∀ behind, Unread portPattern [Token.word "module", Token.word h.name.text] (mark ['('] :: behind) :=
    fun behind => .cons (unread_port_keyword ⟨"module", rfl⟩ (by decide) (by decide) _)
      (unread_port_name h.name (by decide) (.mark _ (by decide) (by decide)))
  obtain ⟨parts, all, found⟩ := scan_list portPattern_skipsBlanks (by decide) (by decide) (by decide) (by decide)
    h.ports (fun d _ c behind ends => scans_items ends d.parts behind) ahead
    (.cons (unread_port_mark (by decide) _) (unread_port_mark (by decide) _)) fits
  have shown : List.Forall₂ Found.Shows _ _ := forall₂_flatten all
  rw [pins_eq_scan, stripped, LooseHeader.tokens]
  change List.mapM pinRead (portPattern.scan none (layOut ([Token.word "module", Token.word h.name.text] ++ _) gaps)) = _
  rw [found]
  exact Extraction.mapM_congr (shown.imp fun _ _ => Found.pinRead_eq)

/-- What is reported of loose declarations. One that is understood gives no port a name but its last word,
and any other one gives a port one of the words in front of its name. -/
theorem names_looseHeader (h : LooseHeader) (gaps : List Text) (fits : Fits h.tokens gaps) :
    (ports (layOut h.tokens gaps)).map (List.map Port.pin) =
        (h.ports.flatMap LooseDeclaration.found).mapM Found.pin ∧
      ∀ d ∈ h.ports, (Understood d.parts → ∀ f ∈ d.found, f.name = d.name) ∧
        (¬ Understood d.parts → ∃ f ∈ d.found, .word f.name ∈ d.items) :=
  ⟨pins_layOut fits, fun d _ => ⟨fun understood _ hf => d.name_eq_of_understood understood hf,
    d.exists_of_not_understood⟩⟩

/-- A header with a variable, a port with two ranges and a plain one. -/
def variableHeader : LooseHeader where
  name := ⟨"m", by decide, by decide⟩
  ports := [
    { direction := ⟨"input", by decide, by decide⟩
      directs := by decide
      items := [.word ⟨"real", by decide, by decide⟩]
      name := ⟨"x", by decide, by decide⟩ },
    { direction := ⟨"output", by decide, by decide⟩
      directs := by decide
      items := [.range ⟨"3:0", by decide, by decide, by decide⟩, .range ⟨"1:0", by decide, by decide, by decide⟩]
      name := ⟨"y", by decide, by decide⟩ },
    { direction := ⟨"inout", by decide, by decide⟩
      directs := by decide
      items := [.word ⟨"wire", by decide, by decide⟩]
      name := ⟨"z", by decide, by decide⟩ }]

def variableGaps : List Text :=
  [" ", "", "", " ", " ", "", " ", " ", "", "", "", "", "", " ", "", " ", " ", " ", "", "", ""].map String.toList

theorem names_looseHeader_variable : Fits variableHeader.tokens variableGaps ∧
    (ports (layOut variableHeader.tokens variableGaps)).map (List.map Port.pin) =
      (variableHeader.ports.flatMap LooseDeclaration.found).mapM Found.pin ∧
    ∀ d ∈ variableHeader.ports, (Understood d.parts → ∀ f ∈ d.found, f.name = d.name) ∧
      (¬ Understood d.parts → ∃ f ∈ d.found, .word f.name ∈ d.items) :=
  ⟨by decide, names_looseHeader variableHeader variableGaps (by decide)⟩

/-- A variable is reported under its type. -/
theorem ports_variableHeader :
    layOut variableHeader.tokens variableGaps =
        "module m(input real x, output [3:0][1:0] y, inout wire z);".toList ∧
      ports (layOut variableHeader.tokens variableGaps) =
        .ok [⟨"real", .input, "wire", some "1"⟩, ⟨"z", .inout, "wire", some "1"⟩] ∧
      variableHeader.ports.map (·.name.text) = ["x", "y", "z"].map String.toList :=
  ⟨by decide, by decide, by decide⟩

end Pinout.Verilog
