import Pinout.Proofs.Extraction
import Pinout.Proofs.Verilog.PortReading
import Pinout.Proofs.Verilog.Uncommented

/-! # Scanning for ports

The port pattern finds nothing in a header but its ports: other words are no directions, or they are
followed by a mark that no port goes on with.
-/

namespace Pinout.Verilog

open Token

variable {before : Option Char} {t : Text} {tokens behind : List Token} {gaps : List Text} {c : Char}

theorem portPattern_beginsWord : portPattern.BeginsWord := by
  refine Pattern.beginsWord_of_boundary readings_portPattern rfl fun c h => ?_
  simp [directions, Pattern.opens, Pattern.nullable] at h
  rcases h with variant | variant | variant
  · exact Pattern.isWord_of_isVariant (by decide) variant
  · exact Pattern.isWord_of_isVariant (by decide) variant
  · exact Pattern.isWord_of_isVariant (by decide) variant

theorem typeTail_skipsBlanks : typeTail.SkipsBlanks where
  reads := rfl
  closed _ := Text.forall_blank (typeTail.opens · = false) (by decide +kernel)

theorem refuses_portPattern (h : ∀ keyword ∈ ["input", "output", "inout"].map String.toList,
    (Pattern.keyword keyword ++ (.boundary ++ (.blanks ++ typeTail))).Refuses before t) :
    portPattern.Refuses before t := by
  rw [Pattern.Refuses, readings_portPattern]
  change Pattern.Refuses _ before t
  rw [Pattern.refuses_boundary_append, Pattern.refuses_group_append, directions,
    Pattern.refuses_orElse_append, Pattern.refuses_orElse_append]
  exact .inr ⟨h _ (by decide), h _ (by decide), h _ (by decide)⟩

theorem unread_port_mark (h : portPattern.opens c = false) (behind : List Token) :
    Unread portPattern [mark [c]] behind :=
  unread_of_closed portPattern_skipsBlanks fun d hd => by rwa [List.mem_singleton.mp hd]

theorem unread_port_name (name : Name) (closed : typeTail.opens c = false)
    (leads : Leads (mark [c] :: behind)) :
    Unread portPattern [Token.word name.text] (mark [c] :: behind) := by
  refine unread_word portPattern_skipsBlanks portPattern_beginsWord name.word
    fun before gap gaps gapFits fits => refuses_portPattern fun keyword h => ?_
  have known : keyword ∈ portKeywords := by
    revert keyword
    decide
  have both : Fits (Token.word name.text :: mark [c] :: behind) (gap :: gaps) := ⟨gapFits, fits⟩
  change Pattern.Refuses _ before (layOut (Token.word name.text :: mark [c] :: behind) (gap :: gaps))
  exact refuses_keyword_at_name known typeTail_skipsBlanks closed leads name both

theorem unread_port_keyword {keyword : Text} (s : Spelling keyword)
    (key : ∀ letter ∈ keyword, Pattern.isKeyLetter letter = true)
    (differs : ∀ direction ∈ ["input", "output", "inout"].map String.toList,
      ¬ direction <+: keyword ∧ ¬ keyword <+: direction) (behind : List Token) :
    Unread portPattern [Token.word s.text] behind := by
  have letters : ∀ direction ∈ ["input", "output", "inout"].map String.toList,
      ∀ letter ∈ direction, Pattern.isKeyLetter letter = true := by decide
  exact unread_word portPattern_skipsBlanks portPattern_beginsWord (s.word key) fun _ _ _ _ _ =>
    refuses_portPattern fun direction h => (s.refuses key (letters direction h) (differs direction h)).append

theorem refuses_of_directionWord (h : directionWord.Refuses before t) : portPattern.Refuses before t := by
  rw [Pattern.Refuses, readings_portPattern]
  change Pattern.Refuses _ before t
  rw [directionWord, Pattern.refuses_append_assoc, Pattern.refuses_boundary_append] at h
  refine Pattern.refuses_boundary_append.mpr (h.imp_right fun refused => ?_)
  rw [Pattern.refuses_group_append, ← Pattern.refuses_append_assoc]
  exact Pattern.Refuses.append refused

theorem directionWord_reads_word {a : Reading} (h : a ∈ directionWord.readings before t) :
    ∀ c ∈ a.text, Text.isWord c = true := by
  obtain ⟨front, hfront, _, -, closing, hclosing, rfl⟩ := Pattern.exists_of_mem_append h
  obtain ⟨opening, hopening, _, -, direction, hdirection, rfl⟩ := Pattern.exists_of_mem_append hfront
  obtain ⟨-, rfl⟩ := Pattern.mem_boundary.mp hopening
  obtain ⟨-, rfl⟩ := Pattern.mem_boundary.mp hclosing
  simp only [Reading.append, Reading.nothing, List.nil_append, List.append_nil]
  rcases List.mem_append.mp hdirection with h | h
  · exact (Pattern.mem_keyword h).2.word (by decide)
  rcases List.mem_append.mp h with h | h
  · exact (Pattern.mem_keyword h).2.word (by decide)
  · exact (Pattern.mem_keyword h).2.word (by decide)

/-- A text without directions is unread wherever no word runs on behind it. -/
theorem quiet_of_noDirection {x s : Text} (h : directionWord.search? x = none)
    (stops : Pattern.Stops Text.isWord s) : portPattern.Quiet before x s := by
  have alone : directionWord.Quiet none x [] := Pattern.quiet_of_find?_eq_none h
  have there : directionWord.Quiet none x s := by
    refine alone.elsewhere rfl stops.any.symm fun y z _ _ before a ha => ?_
    exact Pattern.front_of_stops (Pattern.front_of_mem ha) (directionWord_reads_word ha) stops
  exact portPattern_beginsWord.quiet_behind (there.imp fun _ _ => refuses_of_directionWord) before

theorem ParameterDeclaration.unread_port (d : ParameterDeclaration) (plain : Text.isWord c = false)
    (behind : List Token) : Unread portPattern d.tokens (mark [c] :: behind) := by
  refine .cons (unread_port_keyword ⟨"parameter", rfl⟩ (by decide) (by decide) _) ?_
  refine .cons (unread_port_name d.name (by decide) (.mark _ (by decide) (by decide))) ?_
  refine .cons (unread_port_mark (by decide) _) ?_
  refine unread_of_quiet portPattern_skipsBlanks fun before gap gaps gapFits fits =>
    quiet_of_noDirection d.noDirection ?_
  exact gapFits.stops_mark fits (fun _ => Text.isWord_of_isBlank) plain

theorem AnsiHeader.unread_port (h : AnsiHeader) (behind : List Token) :
    Unread portPattern (Token.word "module" :: Token.word h.name.text :: h.parameterTokens)
      (mark ['('] :: behind) := by
  refine .cons (unread_port_keyword ⟨"module", rfl⟩ (by decide) (by decide) _) ?_
  rw [parameterTokens]
  split
  · exact unread_port_name h.name (by decide) (.mark _ (by decide) (by decide))
  · refine .cons (unread_port_name h.name (by decide) (.mark _ (by decide) (by decide))) ?_
    refine .cons (unread_port_mark (by decide) _) (.cons (unread_port_mark (by decide) _) ?_)
    refine .append (unread_separated (unread_port_mark (by decide)) ?_ ?_)
      (unread_port_mark (by decide) _)
    all_goals simp only [List.forall_mem_map]
    · exact fun d _ => d.unread_port (by decide)
    · exact fun d _ => d.unread_port (by decide) _

theorem scan_portPattern {h : AnsiHeader} {gaps : List Text} (fits : Fits h.tokens gaps) :
    List.Forall₂ (fun d r => d.Keeps r.kept) h.ports (portPattern.scan none (layOut h.tokens gaps)) := by
  have scans : ∀ d ∈ h.ports, ∀ c behind, c = ',' ∨ c = ')' → Scans portPattern d.tokens (mark [c] :: behind)
      fun rs => ∃ r, d.Keeps r.kept ∧ rs = [r] := by
    intro d _ c behind ends
    have key := isKeyLetter_of_mem_portKeywords (mem_portKeywords_direction d.direction)
    have nonempty : d.direction.name ≠ [] := by cases d.direction <;> decide
    have starts : StartsWord d.tokens := ⟨_, _, rfl, d.keyword.ne_nil nonempty, d.keyword.word key⟩
    exact (read_portBody d ends).scans portPattern_skipsBlanks portPattern_readsAtWord starts fun next => by cases next
  obtain ⟨parts, all, found⟩ := scan_list portPattern_skipsBlanks (by decide) (by decide) (by decide) (by decide)
    h.ports scans h.unread_port (.cons (unread_port_mark (by decide) _) (unread_port_mark (by decide) _)) fits
  rw [AnsiHeader.tokens, AnsiHeader.portTokens, ← List.cons_append, ← List.cons_append, found]
  exact flatten_of_read all

theorem ofKeyword_spelling {d : Direction} (s : Spelling d.name) :
    Direction.ofKeyword s.text = .ok d := by
  have key := isKeyLetter_of_mem_portKeywords (mem_portKeywords_direction d)
  rw [Direction.ofKeyword, Text.trim_of_word (s.word key), s.toLower key]
  cases d <;> rfl

theorem PortDeclaration.Keeps.lookup {d : PortDeclaration} {kept : List (Nat × Text)} (h : d.Keeps kept) :
    kept.lookup 1 = some d.keyword.text ∧
      kept.lookup 2 = d.netType.map (fun named => named.2.text) ∧
      (kept.lookup 3).map Text.trim = d.range.map (fun range => Text.trim range.text) ∧
      kept.lookup 4 = some d.name.text := by
  obtain ⟨range, keepsRange, rfl⟩ := h
  obtain ⟨direction, keyword, netType, signed, range', name⟩ := d
  cases range' with
  | none =>
      obtain rfl := keepsRange
      cases netType with
      | none => exact ⟨rfl, rfl, rfl, rfl⟩
      | some named => exact ⟨rfl, rfl, rfl, rfl⟩
  | some range' =>
      obtain ⟨x, same, rfl⟩ := keepsRange
      cases netType with
      | none => exact ⟨rfl, rfl, congrArg some same, rfl⟩
      | some named => exact ⟨rfl, rfl, congrArg some same, rfl⟩

theorem PortDeclaration.portOf_eq {found : Match} {d : PortDeclaration}
    (keeps : d.Keeps found.reading.kept) : portOf found = .ok d.port := by
  obtain ⟨direction, type, width, name⟩ := keeps.lookup
  change found.reading.group? 1 = _ at direction
  change found.reading.group? 2 = _ at type
  change (found.reading.group? 3).map Text.trim = _ at width
  change found.reading.group? 4 = _ at name
  rw [Match.group?_reading] at direction type width name
  have typeName : (found.group? 2).map Text.toLower = d.netType.map fun named => named.1.keyword := by
    rw [type, Option.map_map]
    cases d.netType with
    | none => rfl
    | some named =>
        exact congrArg some
          (named.2.toLower (isKeyLetter_of_mem_portKeywords (mem_portKeywords_netType named.1)))
  rw [portOf, Match.group, direction, Match.group, name, typeName, width, Option.getD_some,
    ofKeyword_spelling]
  rfl

theorem ports_layOut {h : AnsiHeader} {gaps : List Text} (fits : Fits h.tokens gaps) :
    ports (layOut h.tokens gaps) = .ok (h.ports.map PortDeclaration.port) := by
  have scanned := scan_portPattern fits
  rw [← Pattern.reading_findAll, List.forall₂_map_right_iff] at scanned
  rw [ports, stripComments_layOut fits]
  exact Extraction.mapM_eq_ok (scanned.imp fun _ _ => PortDeclaration.portOf_eq)

end Pinout.Verilog
