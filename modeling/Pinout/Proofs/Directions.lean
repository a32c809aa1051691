import Pinout.Design
import Pinout.Proofs.Extraction
import Pinout.Proofs.Pattern.Groups
import Pinout.Proofs.Pattern.Words
import Pinout.Proofs.Text.Trim

/-! # Directions that are captured

The port patterns capture direction keywords with every case variant of their letters, and an `i` has
variants that lower case does not turn into an `i`. A word with one of them names no direction, and
every other captured word does.
-/

namespace Pinout

open Extraction

variable {k w : Text} {c : Char}

/-- Whether a character is a capital i with a dot or a small one without. -/
def isForeignI (c : Char) : Bool :=
  c == 'İ' || c == 'ı'

/-- The error that a captured word leads to. -/
def misreadWord? (w : Text) : Option UnknownDirection :=
  if w.any isForeignI then some ⟨Text.toLower w⟩ else none

def directionKeywords : List Text :=
  ["input", "output", "inout", "in", "out"]

theorem letters_of_mem_directionKeywords (known : k ∈ directionKeywords) :
    ∀ letter ∈ k, Pattern.isKeyLetter letter = true ∧ letter ≠ 's' ∧ letter ≠ 'k' := by
  have all : ∀ k ∈ directionKeywords, ∀ letter ∈ k,
      Pattern.isKeyLetter letter = true ∧ letter ≠ 's' ∧ letter ≠ 'k' := by decide
  exact all k known

theorem ascii_of_spells (letters : ∀ letter ∈ k, Pattern.isKeyLetter letter = true ∧ letter ≠ 's' ∧ letter ≠ 'k')
    (h : Pattern.Spells k w) (plain : ∀ c ∈ w, isForeignI c = false) : ∀ c ∈ w, c.toNat < 128 := by
  induction h with
  | nil => simp
  | @cons letter c k w accepted _ ih =>
      have ⟨key, noS, noK⟩ := letters letter (by simp)
      have foreign := plain c (by simp)
      have rest := ih (fun letter hl => letters letter (by simp [hl])) fun c hc => plain c (by simp [hc])
      have folded : c.toLower = letter := by
        simp only [isForeignI, Bool.or_eq_false_iff] at foreign
        simpa [Pattern.isVariant, foreign, noS, noK] using accepted
      simp only [List.forall_mem_cons]
      refine ⟨?_, rest⟩
      by_contra above
      rw [← folded, Pattern.toLower_of_not_ascii (Nat.le_of_not_lt above)] at key
      exact above (Pattern.ascii_of_isKeyLetter key)

theorem exists_not_ascii_toLower (foreign : isForeignI c = true) (h : c ∈ w) :
    ∃ d ∈ Text.toLower w, ¬ d.toNat < 128 := by
  have after : ∀ before, ∃ d ∈ Text.lowerAfter before w, ¬ d.toNat < 128 := by
    induction w with
    | nil => cases h
    | cons e w ih =>
        intro before
        rw [Text.lowerAfter]
        rcases List.mem_cons.mp h with rfl | h
        · simp only [isForeignI, Bool.or_eq_true, beq_iff_eq] at foreign
          rcases foreign with rfl | rfl
          · rw [if_neg (by decide), if_pos rfl]
            exact ⟨'\u0307', by simp, by decide⟩
          · rw [if_neg (by decide), if_neg (by decide)]
            have kept : Text.smallLetter 'ı' = 'ı' := by decide
            exact ⟨'ı', by simp [kept], by decide⟩
        · obtain ⟨d, hd, above⟩ := ih h (e :: before)
          exact ⟨d, List.mem_append_right _ hd, above⟩
  exact after []

/-- A captured word names a direction unless there is a foreign i in it. -/
theorem failsWith_ofKeyword (known : k ∈ directionKeywords) (h : Pattern.Spells k w) :
    FailsWith (misreadWord? w) (Direction.ofKeyword w) := by
  have letters := letters_of_mem_directionKeywords known
  have word := h.word fun letter hl => (letters letter hl).1
  rw [Direction.ofKeyword, Text.trim_of_word word, misreadWord?]
  split
  · rename_i foreign
    obtain ⟨c, hc, foreign⟩ := List.any_eq_true.mp foreign
    obtain ⟨d, hd, above⟩ := exists_not_ascii_toLower foreign hc
    have differs : ∀ known ∈ directionKeywords, Text.toLower w ≠ known := by
      have ascii : ∀ known ∈ directionKeywords, ∀ c ∈ known, c.toNat < 128 := by decide
      intro known hk same
      exact above (ascii known hk d (same ▸ hd))
    simp only [directionKeywords, List.forall_mem_cons] at differs
    obtain ⟨input, output, inout, isIn, out, -⟩ := differs
    simp only [Direction.ofName, input, output, inout, isIn, out, if_false]
    rfl
  · rename_i plain
    have ascii := ascii_of_spells letters h fun c hc => by
      rw [Bool.not_eq_true, List.any_eq_false] at plain
      simpa using plain c hc
    rw [Text.toLower_of_ascii ascii, h.folded ascii]
    have all : ∀ k ∈ directionKeywords, ∃ d, (if k = "in".toList then .ok .input
        else if k = "out".toList then .ok .output else Direction.ofName k) = .ok d := by
      simp only [directionKeywords, List.forall_mem_cons]
      exact ⟨⟨.input, rfl⟩, ⟨.output, rfl⟩, ⟨.inout, rfl⟩, ⟨.input, rfl⟩, ⟨.output, rfl⟩, nofun⟩
    exact all k known

namespace Design

/-- The words that are captured as the directions of the ports, in source order. -/
def directionWords (d : Design) : List Text :=
  match d.dialect with
  | .verilog => (Verilog.portPattern.findAll (Verilog.stripComments d.source)).map (·.group 1)
  | .vhdl => (Vhdl.portPattern.findAll (Vhdl.header d.source)).map (·.group 2)

/-- The error of the first direction that is misread. -/
def misread? (d : Design) : Option UnknownDirection :=
  d.directionWords.findSome? misreadWord?

end Design

theorem failsWith_of_readByOne {x y z : Text} (known : [x, y, z] ⊆ directionKeywords)
    (h : Pattern.ReadByOne [(.keyword x <|> .keyword y <|> .keyword z)] w) :
    FailsWith (misreadWord? w) (Direction.ofKeyword w) := by
  obtain ⟨_, body, before, t, a, ha, rfl⟩ := h
  obtain rfl := List.mem_singleton.mp body
  simp only [Pattern.readings_orElse, List.mem_append] at ha
  rcases ha with ha | ha | ha
  · exact failsWith_ofKeyword (known (by simp)) (Pattern.mem_keyword ha).2
  · exact failsWith_ofKeyword (known (by simp)) (Pattern.mem_keyword ha).2
  · exact failsWith_ofKeyword (known (by simp)) (Pattern.mem_keyword ha).2

theorem Verilog.failsWith_direction {found : Match} {code : Text} (h : found ∈ Verilog.portPattern.findAll code) :
    FailsWith (misreadWord? (found.group 1)) (Direction.ofKeyword (found.group 1)) :=
  failsWith_of_readByOne (by decide) (Pattern.readByOne_group 1 h rfl)

theorem Vhdl.failsWith_direction {found : Match} {code : Text} (h : found ∈ Vhdl.portPattern.findAll code) :
    FailsWith (misreadWord? (found.group 2)) (Direction.ofKeyword (found.group 2)) :=
  failsWith_of_readByOne (by decide) (Pattern.readByOne_group 2 h rfl)

namespace Design

variable (d : Design)

theorem failsWith_word {w : Text} (h : w ∈ d.directionWords) :
    FailsWith (misreadWord? w) (Direction.ofKeyword w) := by
  obtain ⟨dialect, source⟩ := d
  cases dialect with
  | verilog =>
      obtain ⟨found, hfound, rfl⟩ := List.mem_map.mp h
      exact Verilog.failsWith_direction hfound
  | vhdl =>
      obtain ⟨found, hfound, rfl⟩ := List.mem_map.mp h
      exact Vhdl.failsWith_direction hfound

theorem failsWith_ports : FailsWith d.misread? d.ports := by
  obtain ⟨dialect, source⟩ := d
  cases dialect with
  | verilog =>
      rw [misread?, directionWords, List.findSome?_map]
      exact .mapM fun found h => (Verilog.failsWith_direction h).map _
  | vhdl =>
      rw [misread?, directionWords, List.findSome?_map]
      exact .mapM fun found h => (Vhdl.failsWith_direction h).map _

theorem failsWith_interface : FailsWith d.misread? d.interface :=
  d.failsWith_ports.map _

theorem failsWith_usage : FailsWith d.misread? d.usage := by
  have ports := d.failsWith_ports
  obtain ⟨dialect, source⟩ := d
  cases dialect with
  | verilog => exact ports.map _
  | vhdl => exact (ports.map _).map _

theorem failsWith_testbench : FailsWith d.misread? d.testbench := by
  have ports := d.failsWith_ports
  obtain ⟨dialect, source⟩ := d
  cases dialect with
  | verilog => exact (ports.map _).map _
  | vhdl => exact (ports.map _).map _

end Design

end Pinout
