import Mathlib.Data.List.Basic
import Pinout.Text.Classes
import Pinout.Text.Utf8

/-! # Raw texts without surrogates

A raw text can be encoded exactly if it is a text, and then its bytes are those of the text. Blanks are no surrogates,
so trimming neither brings one in nor takes one out.
-/

namespace Pinout

variable {s t : RawText} {bytes : List UInt8}

namespace RawText

def IsPlain (t : RawText) : Prop :=
  ∃ plain : Text, t = plain.raw

theorem isPlain_iff_forall : t.IsPlain ↔ ∀ p ∈ t, p.isSurrogate = false := by
  refine ⟨fun ⟨plain, same⟩ p inside => ?_, fun free => ?_⟩
  · obtain ⟨c, -, rfl⟩ := List.mem_map.mp (same ▸ inside)
    rfl
  · induction t with
    | nil => exact ⟨[], rfl⟩
    | cons p t ih =>
        obtain ⟨first, rest⟩ := List.forall_mem_cons.mp free
        obtain ⟨plain, rfl⟩ := ih rest
        cases p with
        | char c => exact ⟨c :: plain, rfl⟩
        | surrogate offset => cases first

theorem isPlain_raw (plain : Text) : IsPlain plain.raw :=
  ⟨plain, rfl⟩

theorem isPlain_append : IsPlain (s ++ t) ↔ s.IsPlain ∧ t.IsPlain := by
  simp only [isPlain_iff_forall, List.forall_mem_append]

theorem isPlain_reverse : IsPlain t.reverse ↔ t.IsPlain := by
  simp only [isPlain_iff_forall, List.mem_reverse]

theorem encodeFrom_raw (escape : Fin 0x800 → Option UInt8) (position : Nat) (plain : Text) :
    encodeFrom escape position plain.raw = .ok plain.utf8 := by
  induction plain generalizing position with
  | nil => rfl
  | cons c plain ih =>
      have rest := ih (position + 1)
      rw [Text.raw] at rest
      rw [Text.raw, List.map_cons, encodeFrom, rest]
      rfl

theorem isPlain_of_encodeFrom {position : Nat} (encodes : encodeFrom (fun _ => none) position t = .ok bytes) :
    t.IsPlain := by
  induction t generalizing position bytes with
  | nil => exact ⟨[], rfl⟩
  | cons p t ih =>
      cases p with
      | surrogate offset => cases encodes
      | char c =>
          cases rest : encodeFrom (fun _ => none) (position + 1) t with
          | error e =>
              rw [encodeFrom, rest] at encodes
              cases encodes
          | ok more =>
              obtain ⟨plain, rfl⟩ := ih rest
              exact ⟨c :: plain, rfl⟩

/-- Exactly the texts can be encoded. -/
theorem utf8_eq_ok_iff : t.utf8 = .ok bytes ↔ ∃ plain : Text, t = plain.raw ∧ plain.utf8 = bytes := by
  refine ⟨fun encodes => ?_, fun ⟨plain, same, bytes⟩ => ?_⟩
  · obtain ⟨plain, rfl⟩ := isPlain_of_encodeFrom encodes
    exact ⟨plain, rfl, Except.ok.inj ((encodeFrom_raw _ _ plain).symm.trans encodes)⟩
  · rw [same, ← bytes]
    exact encodeFrom_raw ..

theorem isPlain_dropWhile_isBlank : IsPlain (t.dropWhile CodePoint.isBlank) ↔ t.IsPlain := by
  have blanks : IsPlain (t.takeWhile CodePoint.isBlank) := by
    refine isPlain_iff_forall.mpr fun p inside => ?_
    have blank := List.all_eq_true.mp List.all_takeWhile p inside
    cases p with
    | char c => rfl
    | surrogate offset => cases blank
  conv_rhs => rw [← List.takeWhile_append_dropWhile (l := t) (p := CodePoint.isBlank), isPlain_append]
  exact (and_iff_right blanks).symm

theorem isPlain_trim : IsPlain t.trim ↔ t.IsPlain := by
  rw [trim, Text.dropRightWhile, isPlain_reverse, isPlain_dropWhile_isBlank, isPlain_reverse, isPlain_dropWhile_isBlank]

theorem dropWhile_isBlank_raw (plain : Text) :
    plain.raw.dropWhile CodePoint.isBlank = Text.raw (plain.dropWhile Text.isBlank) := by
  rw [Text.raw, List.dropWhile_map]
  rfl

theorem trim_raw (plain : Text) : trim plain.raw = Text.raw plain.trim := by
  rw [trim, dropWhile_isBlank_raw, Text.dropRightWhile, Text.raw, ← List.map_reverse, ← Text.raw, dropWhile_isBlank_raw,
    Text.raw, ← List.map_reverse]
  rfl

end RawText

end Pinout
