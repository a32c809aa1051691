import Pinout.Proofs.Vhdl.LiteralRanges
import Pinout.Proofs.Vhdl.MaskedHeader

/-! # What a string literal holds

Only the end of a header is looked for in a text with its literals masked. Comments, ports and generics are looked for
in the literals as well, and a range is reported with the literals in it. Where nothing of that is found, what a literal
holds makes no difference.
-/

namespace Pinout.Vhdl

variable {a s s' : Text}

section

variable (free : ¬ ['-', '-'] <:+: a) (opens : (entityPattern.search? a).isSome) (paired : QuotesPaired a) (b : Text)
include free opens paired

omit opens in
theorem header_ended (holds : HoldsEntity a) (s : Text) : header (a ++ (literal s ++ b)) = header a := by
  have text : a ++ (literal s ++ b) = a ++ '"' :: (s ++ ['"'] ++ b) := by simp [literal]
  rw [text, header_append_quote free paired holds]

/-- The header is the same with each literal, or it holds the literal and goes on as with any other one. -/
theorem header_literal :
    (∃ body, ∀ s, IsContents s → ¬ ['-', '-'] <:+: s → header (a ++ (literal s ++ b)) = body) ∨
      ∃ body, body <+: stripComments b ∧ ∀ s, IsContents s → ¬ ['-', '-'] <:+: s →
        header (a ++ (literal s ++ b)) = header a ++ (literal s ++ body) := by
  by_cases holds : HoldsEntity a
  · exact .inl ⟨header a, fun s _ _ => header_ended free paired b holds s⟩
  obtain ⟨front, opening, rest, kept, there⟩ := exists_openingAt opens
  have own : header a = opening ++ rest := by rw [header, stripComments_eq_self free, there.headerOf_eq holds]
  refine (there.headerOf_literal paired (stripComments b)).imp ?_ ?_
  · rintro ⟨body, same⟩
    exact ⟨body, fun s contents free' => by rw [header, stripComments_literal free free', same s contents]⟩
  · rintro ⟨body, inside, same⟩
    exact ⟨body, inside, fun s contents free' => by rw [header, stripComments_literal free free', same s contents, own]⟩

end

def titleFront : Text := "entity e is generic ( title : string := "

def titleRest : Text := " & \"-\"; w : integer := 8); port ( p : in std_logic_vector(w - 1 downto 0)); end e;"

/-- A literal between `a` and `b`, in the header of an entity and outside of comments and other literals, makes a
difference to the ports or to the generics if it holds `s` or `s'`. -/
def ToldApart (a b s s' : Text) : Prop :=
  (¬ ['-', '-'] <:+: a ∧ (entityPattern.search? a).isSome ∧ QuotesPaired a ∧ IsContents s ∧ IsContents s') ∧
    ¬ (ports (a ++ (literal s ++ b)) = ports (a ++ (literal s' ++ b)) ∧
      (generics (a ++ (literal s ++ b))).map signature = (generics (a ++ (literal s' ++ b))).map signature)

instance (a b s s' : Text) : Decidable (ToldApart a b s s') :=
  inferInstanceAs (Decidable (_ ∧ _))

end Pinout.Vhdl
