import Pinout.Proofs.Layout.Unread
import Pinout.Verilog.Declaration

/-! # ANSI module headers

The header of a module as the language writes it: its name, the parameters with their values and the
ports with everything that may stand in front of their names. A header says how it is written and
which interface it declares.
-/

namespace Pinout.Verilog

def directionWord : Pattern :=
  .boundary ++ (.keyword "input" <|> .keyword "output" <|> .keyword "inout") ++ .boundary

def parameterHead : Pattern :=
  .boundary ++ .exactly "parameter" ++ .gap ++
    .repeated ((.exactly "integer" <|> .exactly "real" <|> .exactly "realtime" <|> .exactly "time" <|>
      .exactly "signed" <|> .exactly "unsigned") ++ .gap) ++
    .word ++ .blanks ++ .char '='

def CommentFree (t : Text) : Prop :=
  ¬ ['/', '/'] <:+: t ∧ ¬ ['/', '*'] <:+: t

instance (t : Text) : Decidable (CommentFree t) :=
  inferInstanceAs (Decidable (_ ∧ _))

/-- A parameter and its value. -/
structure ParameterDeclaration where
  name : Name
  value : Text
  nonempty : value ≠ []
  trimmed : Text.trim value = value
  unbroken : ∀ c ∈ value, c ≠ ',' ∧ c ≠ ';' ∧ c ≠ '\n'
  balanced : Balanced value
  commentFree : CommentFree value
  noDirection : directionWord.search? value = none

/-- The types a port may name. -/
inductive NetType where
  | reg
  | wire
  | logic
  deriving DecidableEq, Repr

def NetType.keyword : NetType → Text
  | reg => "reg"
  | wire => "wire"
  | logic => "logic"

/-- The range of a port. -/
structure Range where
  text : Text
  colon : ':' ∈ text
  unbracketed : ∀ c ∈ text, c ≠ '[' ∧ c ≠ ']'
  commentFree : CommentFree text
  noParameter : parameterHead.search? text = none

/-- A port with what stands in front of its name. -/
structure PortDeclaration where
  direction : Direction
  keyword : Spelling direction.name
  /-- The type, if one is named, and its keyword as written. -/
  netType : Option ((type : NetType) × Spelling type.keyword)
  signed : Option (Spelling "signed")
  range : Option Range
  name : Name

/-- The header of a module. -/
structure AnsiHeader where
  name : Name
  parameters : List ParameterDeclaration
  ports : List PortDeclaration

def portKeywords : List Text :=
  ["input", "output", "inout", "reg", "wire", "logic", "signed"]

theorem isKeyLetter_of_mem_portKeywords {keyword : Text} (h : keyword ∈ portKeywords) :
    ∀ letter ∈ keyword, Pattern.isKeyLetter letter = true := by
  have all : ∀ keyword ∈ portKeywords, ∀ letter ∈ keyword, Pattern.isKeyLetter letter = true := by
    decide
  exact all keyword h

theorem mem_portKeywords_direction (d : Direction) : d.name ∈ portKeywords := by
  cases d <;> decide

theorem mem_portKeywords_netType (type : NetType) : type.keyword ∈ portKeywords := by
  cases type <;> decide

namespace ParameterDeclaration

def tokens (d : ParameterDeclaration) : List Token :=
  [.word "parameter", .word d.name.text, .mark ['='], .mark d.value]

def generic (d : ParameterDeclaration) : Generic where
  name := d.name.text
  default := some d.value

end ParameterDeclaration

namespace PortDeclaration

def rangeTokens (d : PortDeclaration) : List Token :=
  match d.range with
  | some range => [.mark ['['], .mark range.text, .mark [']'], .word d.name.text]
  | none => [.word d.name.text]

def signedTokens (d : PortDeclaration) : List Token :=
  match d.signed with
  | some keyword => .word keyword.text :: d.rangeTokens
  | none => d.rangeTokens

def typeTokens (d : PortDeclaration) : List Token :=
  match d.netType with
  | some ⟨_, keyword⟩ => .word keyword.text :: d.signedTokens
  | none => d.signedTokens

def tokens (d : PortDeclaration) : List Token :=
  .word d.keyword.text :: d.typeTokens

theorem unread {p : Pattern} {behind : List Token} (d : PortDeclaration)
    (keyword : ∀ keyword ∈ portKeywords, ∀ (s : Spelling keyword) behind,
      Token.Unread p [.word s.text] behind)
    (bracket : ∀ c behind, c = '[' ∨ c = ']' → Token.Unread p [.mark [c]] behind)
    (range : ∀ range, d.range = some range → ∀ behind,
      Token.Unread p [.mark range.text] (.mark [']'] :: behind))
    (name : Token.Unread p [.word d.name.text] behind) : Token.Unread p d.tokens behind := by
  have ranged : Token.Unread p d.rangeTokens behind := by
    rw [rangeTokens]
    cases h : d.range with
    | none => exact name
    | some r =>
        exact .cons (bracket '[' _ (.inl rfl)) (.cons (range r h _) (.cons (bracket ']' _ (.inr rfl)) name))
  have sign : Token.Unread p d.signedTokens behind := by
    rw [signedTokens]
    cases d.signed with
    | none => exact ranged
    | some s => exact .cons (keyword _ (by decide) s _) ranged
  have typed : Token.Unread p d.typeTokens behind := by
    rw [typeTokens]
    cases d.netType with
    | none => exact sign
    | some named => exact .cons (keyword _ (mem_portKeywords_netType named.1) named.2 _) sign
  exact .cons (keyword _ (mem_portKeywords_direction d.direction) d.keyword _) typed

def port (d : PortDeclaration) : Port where
  name := d.name.text
  direction := d.direction
  dataType := (d.netType.map fun named => named.1.keyword).getD defaultNetType
  width := some ((d.range.map fun range => Text.trim range.text).getD scalarWidth)

end PortDeclaration

namespace AnsiHeader

def parameterTokens (h : AnsiHeader) : List Token :=
  if h.parameters.isEmpty then []
  else .mark ['#'] :: .mark ['('] ::
    (Token.separated [','] (h.parameters.map ParameterDeclaration.tokens) ++ [.mark [')']])

def portTokens (h : AnsiHeader) : List Token :=
  Token.separated [','] (h.ports.map PortDeclaration.tokens) ++ [.mark [')'], .mark [';']]

def tokens (h : AnsiHeader) : List Token :=
  .word "module" :: .word h.name.text :: (h.parameterTokens ++ .mark ['('] :: h.portTokens)

def interface (h : AnsiHeader) : Interface where
  name := h.name.text
  ports := h.ports.map PortDeclaration.port
  generics := h.parameters.map ParameterDeclaration.generic

end AnsiHeader

end Pinout.Verilog
