import Pinout.Proofs.Layout.Unread
import Pinout.Vhdl.Instance

/-! # Entities with a port clause

An entity as the language writes it: its name and the ports with their modes and their types. An
entity says how it is written and which interface it declares.
-/

namespace Pinout.Vhdl

/-- The types of a single bit. -/
inductive BitType where
  /-- With one driver or several. -/
  | resolved
  /-- With one driver. -/
  | unresolved
  deriving DecidableEq, Repr

def BitType.keyword : BitType → Text
  | resolved => "std_logic"
  | unresolved => "std_ulogic"

def vectorSuffix : Text := "_vector"

def BitType.vectorKeyword (bits : BitType) : Text :=
  bits.keyword ++ vectorSuffix

/-- The range of a vector. -/
structure Range where
  text : Text
  nonempty : text ≠ []
  trimmed : Text.trim text = text
  plain : ∀ c ∈ text, c ≠ '(' ∧ c ≠ ')' ∧ c ≠ '\n' ∧ c ≠ ';' ∧ c ≠ '"'
  commentFree : ¬ ['-', '-'] <:+: text

theorem Range.not_mem {range : Range} {gap : Text} {c : Char} (blank : ∀ c ∈ gap, Text.isBlank c = true)
    (plain : ∀ d ∈ range.text, d ≠ c) (visible : Text.isBlank c = false) : c ∉ range.text ++ gap := by
  intro h
  rcases List.mem_append.mp h with h | h
  · exact plain c h rfl
  · exact Text.not_mem_of_blank blank visible h

/-- The type of a port as written. -/
inductive PortType where
  | scalar (bits : BitType) (keyword : Spelling bits.keyword)
  /-- A vector, with or without a range. -/
  | vector (bits : BitType) (keyword : Spelling bits.vectorKeyword) (range : Option Range)

/-- A port of an entity. -/
structure PortDeclaration where
  name : Name
  direction : Direction
  mode : Spelling (modeKeyword direction)
  type : PortType

/-- An entity with a port clause. -/
structure PortClause where
  name : Name
  ports : List PortDeclaration

def clauseKeywords : List Text :=
  ["port", BitType.resolved.keyword, BitType.unresolved.keyword, BitType.resolved.vectorKeyword,
    BitType.unresolved.vectorKeyword, modeKeyword .input, modeKeyword .output, modeKeyword .inout]

theorem isKeyLetter_of_mem_clauseKeywords {keyword : Text} (h : keyword ∈ clauseKeywords) :
    ∀ letter ∈ keyword, Pattern.isKeyLetter letter = true := by
  have all : ∀ keyword ∈ clauseKeywords, ∀ letter ∈ keyword, Pattern.isKeyLetter letter = true := by
    decide
  exact all keyword h

theorem mem_clauseKeywords_mode (d : Direction) : modeKeyword d ∈ clauseKeywords := by
  cases d <;> decide

theorem mem_clauseKeywords_scalar (bits : BitType) : bits.keyword ∈ clauseKeywords := by
  cases bits <;> decide

theorem mem_clauseKeywords_vector (bits : BitType) : bits.vectorKeyword ∈ clauseKeywords := by
  cases bits <;> decide

namespace PortType

def text : PortType → Text
  | scalar _ keyword => keyword.text
  | vector _ keyword _ => keyword.text

theorem text_ne_nil (type : PortType) : type.text ≠ [] := by
  cases type with
  | scalar bits s => exact s.ne_nil (by cases bits <;> decide)
  | vector bits s range => exact s.ne_nil (by cases bits <;> decide)

theorem word (type : PortType) : ∀ c ∈ type.text, Text.isWord c = true := by
  cases type with
  | scalar bits s => exact s.word (isKeyLetter_of_mem_clauseKeywords (mem_clauseKeywords_scalar bits))
  | vector bits s range => exact s.word (isKeyLetter_of_mem_clauseKeywords (mem_clauseKeywords_vector bits))

/-- How the type of a port is written. No line is broken between the parentheses of a range. -/
def tokens : PortType → List Token
  | scalar _ keyword => [.word keyword.text]
  | vector _ keyword none => [.word keyword.text]
  | vector _ keyword (some range) =>
    [.word keyword.text, { Token.mark ['('] with isInline := true },
      { Token.mark range.text with isInline := true }, .mark [')']]

theorem exists_tokens (type : PortType) : ∃ rest, type.tokens = .word type.text :: rest := by
  cases type with
  | scalar bits s => exact ⟨_, rfl⟩
  | vector bits s range => cases range <;> exact ⟨_, rfl⟩

def width : PortType → Option Text
  | scalar _ _ => some scalarWidth
  | vector _ _ range => range.map Range.text

end PortType

/-- A pattern finds nothing in a port clause, be it in its marks, its keywords, its names or its ranges. -/
structure IgnoresPorts (p : Pattern) : Prop where
  skips : p.SkipsBlanks
  closed : ∀ c ∈ [':', '(', ')', ';'], p.opens c = false
  keyword : ∀ keyword ∈ clauseKeywords, ∀ (s : Spelling keyword) behind, Token.Unread p [.word s.text] behind
  name : ∀ (name : Name) behind, Token.Unread p [.word name.text] (.mark [':'] :: behind)
  range : ∀ (range : Range) behind,
    Token.Unread p [{ Token.mark range.text with isInline := true }] (.mark [')'] :: behind)

theorem IgnoresPorts.mark {p : Pattern} {c : Char} (ignores : IgnoresPorts p) (hc : c ∈ [':', '(', ')', ';'])
    (behind : List Token) : Token.Unread p [.mark [c]] behind :=
  Token.unread_of_closed ignores.skips fun d hd => by
    rw [List.mem_singleton.mp hd]
    exact ignores.closed c hc

namespace PortDeclaration

def tokens (d : PortDeclaration) : List Token :=
  .word d.name.text :: .mark [':'] :: .word d.mode.text :: d.type.tokens

theorem unread {p : Pattern} {behind : List Token} (ignores : IgnoresPorts p) (d : PortDeclaration) :
    Token.Unread p d.tokens behind := by
  have mark : ∀ c ∈ [':', '(', ')', ';'], ∀ behind, Token.Unread p [.mark [c]] behind := fun _ => ignores.mark
  have typed : Token.Unread p d.type.tokens behind := by
    cases d.type with
    | scalar bits s => exact ignores.keyword _ (mem_clauseKeywords_scalar bits) s behind
    | vector bits s r =>
        have type := ignores.keyword _ (mem_clauseKeywords_vector bits) s
        cases r with
        | none => exact type behind
        | some r =>
            have opening : ∀ behind, Token.Unread p [{ Token.mark ['('] with isInline := true }] behind :=
              fun behind => Token.unread_of_closed ignores.skips
                (by simpa [Token.mark] using ignores.closed '(' (by simp))
            exact .cons (type _) (.cons (opening _) (.cons (ignores.range r _) (mark ')' (by simp) _)))
  refine .cons (ignores.name d.name _) (.cons (mark ':' (by simp) _) (.cons ?_ typed))
  exact ignores.keyword _ (mem_clauseKeywords_mode d.direction) d.mode _

def port (d : PortDeclaration) : Port where
  name := d.name.text
  direction := d.direction
  dataType := d.type.text
  width := d.type.width

end PortDeclaration

namespace PortClause

def openingTokens (e : PortClause) : List Token :=
  [.word "entity", .word e.name.text, .word "is"]

def clauseTokens (e : PortClause) : List Token :=
  .word "port" :: .mark ['('] ::
    (Token.separated [';'] (e.ports.map PortDeclaration.tokens) ++ [.mark [')'], .mark [';']])

def endTokens (e : PortClause) : List Token :=
  [.word "end", .word e.name.text, .mark [';']]

def tokens (e : PortClause) : List Token :=
  e.openingTokens ++ (e.clauseTokens ++ e.endTokens)

theorem unread_clause {p : Pattern} {behind : List Token} (ignores : IgnoresPorts p) (e : PortClause) :
    Token.Unread p e.clauseTokens behind := by
  have mark : ∀ c ∈ [':', '(', ')', ';'], ∀ behind, Token.Unread p [.mark [c]] behind := fun _ => ignores.mark
  refine .cons (ignores.keyword "port" (by decide) ⟨"port", rfl⟩ _) (.cons (mark '(' (by simp) _) ?_)
  refine .append (Token.unread_separated (mark ';' (by simp)) ?_ ?_)
    (.cons (mark ')' (by simp) _) (mark ';' (by simp) _))
  all_goals simp only [List.forall_mem_map]
  · exact fun d _ behind => d.unread ignores
  · exact fun d _ => d.unread ignores

def interface (e : PortClause) : Interface where
  name := e.name.text
  ports := e.ports.map PortDeclaration.port

end PortClause

end Pinout.Vhdl
