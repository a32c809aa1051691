import Pinout.Proofs.Failure
import Pinout.Proofs.Text.Lines
import Pinout.Proofs.Verilog.Extracted
import Pinout.Proofs.Vhdl.Extracted

/-! # Tables of a page

The cells of a table are filled with names, keywords and parts of the source as they are, so a table has a row for each
port or generic exactly if none of its cells holds a bar or a line feed. Only ranges and defaults can.
-/

namespace Pinout

variable {c : Char} {t k w heading rest : Text} {front rows : List Text}

namespace Page

/-- The rows of the table below a heading: what stands behind the heading, an empty line, the header row and the row
that separates it, up to the next line without anything visible. -/
def tableRows (heading page : Text) : List Text :=
  (((page.splitOn '\n').dropWhile (· != heading)).drop 4).takeWhile fun line => line.any fun c => !Text.isBlank c

/-- The rows of the table below a heading are the given ones, each of them with four cells. -/
structure IsTable (page heading : Text) (rows : List Text) : Prop where
  reads : tableRows heading page = rows
  cells : ∀ line ∈ rows, line.count '|' = 5

/-- A text that fills one cell of a table and no more. -/
structure FitsCell (t : Text) : Prop where
  bar : '|' ∉ t
  inline : '\n' ∉ t

instance (t : Text) : Decidable (FitsCell t) :=
  decidable_of_iff ('|' ∉ t ∧ '\n' ∉ t) ⟨fun ⟨bar, inline⟩ => ⟨bar, inline⟩, fun h => ⟨h.bar, h.inline⟩⟩

theorem fitsCell_of_isName (name : t.IsName) : FitsCell t :=
  ⟨name.not_mem (by decide), name.not_mem (by decide)⟩

theorem row_eq (a b c d : Text) : row [a, b, c, d] =
    "| ".toList ++ (a ++ (" | ".toList ++ (b ++ (" | ".toList ++ (c ++ (" | ".toList ++ (d ++ " |".toList))))))) := by
  simp [row, Text.joinWith, List.intercalate_cons_cons, List.intercalate_singleton]

theorem count_row (a b c d : Text) :
    (row [a, b, c, d]).count '|' = 5 + (a.count '|' + b.count '|' + c.count '|' + d.count '|') := by
  have opening : "| ".toList.count '|' = 1 := by decide
  have between : " | ".toList.count '|' = 1 := by decide
  have closing : " |".toList.count '|' = 1 := by decide
  simp only [row_eq, List.count_append, opening, between, closing]
  omega

theorem inline_row_iff (a b c d : Text) :
    '\n' ∉ row [a, b, c, d] ↔ '\n' ∉ a ∧ '\n' ∉ b ∧ '\n' ∉ c ∧ '\n' ∉ d := by
  simp [row_eq]

/-- A row of four cells has five bars and no line feed exactly if each of its texts fills one cell. -/
theorem row_iff (a b c d : Text) : ((row [a, b, c, d]).count '|' = 5 ∧ '\n' ∉ row [a, b, c, d]) ↔
    FitsCell a ∧ FitsCell b ∧ FitsCell c ∧ FitsCell d := by
  have fits : ∀ t : Text, FitsCell t ↔ t.count '|' = 0 ∧ '\n' ∉ t := fun t =>
    ⟨fun h => ⟨List.count_eq_zero.mpr h.bar, h.inline⟩, fun h => ⟨List.count_eq_zero.mp h.1, h.2⟩⟩
  rw [count_row, inline_row_iff, fits, fits, fits, fits]
  constructor
  · rintro ⟨count, first, second, third, fourth⟩
    refine ⟨⟨?_, first⟩, ⟨?_, second⟩, ⟨?_, third⟩, ⟨?_, fourth⟩⟩ <;> omega
  · rintro ⟨⟨first, inline₁⟩, ⟨second, inline₂⟩, ⟨third, inline₃⟩, ⟨fourth, inline₄⟩⟩
    exact ⟨by omega, inline₁, inline₂, inline₃, inline₄⟩

/-- The first rows of a table: the names of the columns and what separates them from the rows below. -/
structure Columns where
  lines : List Text
  two : lines.length = 2
  inline : ∀ l ∈ lines, '\n' ∉ l

/-- The lines of a table with its heading and the empty line behind it. -/
def tableLines (heading : Text) (columns : Columns) (rows : List Text) : List Text :=
  heading :: [] :: (columns.lines ++ rows ++ [[]])

theorem tableRows_append (first : ∀ l ∈ front, heading ∉ l.splitOn '\n') (rest : Text) :
    tableRows heading (front.flatMap (· ++ ['\n']) ++ rest) = tableRows heading rest := by
  have above : ∀ l ∈ front.flatMap (List.splitOn '\n'), (l != heading) = true := by
    intro l hl
    obtain ⟨line, hline, hl⟩ := List.mem_flatMap.mp hl
    simpa using ne_of_mem_of_not_mem hl (first line hline)
  rw [tableRows, tableRows, Text.splitOn_flatMap_append, List.dropWhile_append_of_pos above]

theorem isTable_append_iff (first : ∀ l ∈ front, heading ∉ l.splitOn '\n') :
    IsTable (front.flatMap (· ++ ['\n']) ++ rest) heading rows ↔ IsTable rest heading rows := by
  have same := tableRows_append first rest
  exact ⟨fun table => ⟨same ▸ table.reads, table.cells⟩, fun table => ⟨same.trans table.reads, table.cells⟩⟩

/-- A table has the rows that were written exactly if each of them is a line with five bars. -/
theorem isTable_iff (inline : '\n' ∉ heading) (columns : Columns) (rest : Text) :
    IsTable ((tableLines heading columns rows).flatMap (· ++ ['\n']) ++ rest) heading rows ↔
      ∀ line ∈ rows, line.count '|' = 5 ∧ '\n' ∉ line := by
  constructor
  · intro table line hline
    refine ⟨table.cells line hline, ?_⟩
    -- What is read off a page are lines of it, and no line is broken.
    rw [← table.reads] at hline
    exact Text.not_mem_of_mem_splitOn
      (List.dropWhile_subset _ (List.drop_subset _ _ (List.takeWhile_subset _ hline)))
  · intro lines
    refine ⟨?_, fun line hline => (lines line hline).1⟩
    have below : ∀ l ∈ tableLines heading columns rows, '\n' ∉ l := by
      simp only [tableLines, List.forall_mem_cons, List.forall_mem_append, List.not_mem_nil]
      exact ⟨inline, nofun, ⟨columns.inline, fun l hl => (lines l hl).2⟩, nofun, nofun⟩
    -- A row with a bar in it does not end the table.
    have visible : ∀ line ∈ rows, (line.any fun c => !Text.isBlank c) = true := by
      intro line hline
      have bar : '|' ∈ line := List.count_pos_iff.mp (by rw [(lines line hline).1]; decide)
      exact List.any_eq_true.mpr ⟨'|', bar, by decide⟩
    rw [tableRows, Text.splitOn_flatMap_append, Text.flatMap_splitOn_of_unbroken below, tableLines, List.cons_append,
      List.dropWhile_cons_of_neg (by simp)]
    simp only [List.cons_append, List.drop_succ_cons, List.append_assoc]
    rw [List.drop_left' columns.two, List.takeWhile_append_of_pos visible,
      List.takeWhile_cons_of_neg (by simp), List.append_nil]

def portHeading : Text := "## Ports"

def genericHeading : Text := "## Generics"

def introduction (dialect : Dialect) (name : Text) : List Text :=
  ["# " ++ name, "",
    "Documentation for the " ++ dialect.title ++ " " ++ dialect.unitKeyword ++ " `" ++ name ++ "`.", ""]

/-- The lines of a page up to the section of the generics. -/
def portLines (dialect : Dialect) (unit : Interface) : List Text :=
  introduction dialect unit.name ++ (portHeading :: [] :: (portTable unit.ports ++ [[]]))

/-- A page up to the section of the generics. -/
def portText (dialect : Dialect) (unit : Interface) : Text :=
  (portLines dialect unit).flatMap (· ++ ['\n'])

theorem exists_render (dialect : Dialect) (unit : Interface) (diagram : Text) (description : Option Text)
    (usage testbench : Text) : ∃ rest, render dialect unit diagram description usage testbench =
      portText dialect unit ++
        ((genericHeading :: [] :: (genericTable unit.generics ++ [[]])).flatMap (· ++ ['\n']) ++ rest) := by
  refine ⟨List.flatMap (· ++ ['\n']) (List.flatten
    (["## Block Diagram".toList, [], "![".toList ++ unit.name ++ " block diagram](" ++ diagram ++ ")"] ::
      descriptionSection description :: backSections dialect usage testbench)), ?_⟩
  rw [portText, ← List.flatMap_append, ← List.flatMap_append]
  unfold render Text.document portLines introduction frontSections
  simp only [List.flatten_cons, List.append_assoc, List.cons_append, List.nil_append]
  rfl

def portColumns : Columns where
  lines := ["| Name | Direction | Type | Width |", "|------|-----------|------|-------|"]
  two := rfl
  inline := by decide

def genericColumns : Columns where
  lines := ["| Name | Type | Width | Default |", "|------|------|-------|---------|"]
  two := rfl
  inline := by decide

theorem portTable_of_ne_nil {ports : List Port} (nonempty : ports ≠ []) :
    portTable ports = portColumns.lines ++ ports.map portRow := by
  rw [portTable, if_neg (by simpa using nonempty)]
  rfl

theorem genericTable_of_ne_nil {generics : List Generic} (nonempty : generics ≠ []) :
    genericTable generics = genericColumns.lines ++ generics.map genericRow := by
  rw [genericTable, if_neg (by simpa using nonempty)]
  rfl

theorem inline_introduction (dialect : Dialect) (name : t.IsName) : ∀ l ∈ introduction dialect t, '\n' ∉ l := by
  have plain : '\n' ∉ t := name.not_mem (by decide)
  have title : '\n' ∉ dialect.title := by cases dialect <;> decide
  have keyword : '\n' ∉ dialect.unitKeyword := by cases dialect <;> decide
  simp [introduction, plain, title, keyword]

theorem heading_not_mem_introduction (dialect : Dialect) (t : Text) (marked : "##".toList <+: heading) :
    heading ∉ introduction dialect t := by
  obtain ⟨rest, rfl⟩ := marked
  simp [introduction]

theorem heading_not_mem_splitOn (unbroken : ∀ l ∈ front, '\n' ∉ l) (absent : heading ∉ front) :
    ∀ l ∈ front, heading ∉ l.splitOn '\n' := by
  intro l hl
  rw [List.splitOn_eq_singleton (unbroken l hl), List.mem_singleton]
  rintro rfl
  exact absent hl

variable {unit : Interface} {dialect : Dialect} {description : Option Text} {diagram usage testbench : Text}

theorem isTable_ports (name : unit.name.IsName) (nonempty : unit.ports ≠ []) (rest : Text) :
    IsTable (portText dialect unit ++ rest) portHeading (unit.ports.map portRow) ↔
      ∀ p ∈ unit.ports, (portRow p).count '|' = 5 ∧ '\n' ∉ portRow p := by
  have first := heading_not_mem_splitOn (inline_introduction dialect name)
    (heading_not_mem_introduction dialect unit.name (by decide : "##".toList <+: portHeading))
  rw [portText, portLines, portTable_of_ne_nil nonempty, List.flatMap_append, List.append_assoc, isTable_append_iff first]
  exact (isTable_iff (by decide) portColumns _).trans List.forall_mem_map

theorem isTable_generics (nonempty : unit.generics ≠ []) (rest : Text) :
    IsTable ((genericHeading :: [] :: (genericTable unit.generics ++ [[]])).flatMap (· ++ ['\n']) ++ rest) genericHeading
        (unit.generics.map genericRow) ↔
      ∀ g ∈ unit.generics, (genericRow g).count '|' = 5 ∧ '\n' ∉ genericRow g := by
  rw [genericTable_of_ne_nil nonempty]
  exact (isTable_iff (by decide) genericColumns _).trans List.forall_mem_map

/-- Where no row of the first table repeats the heading of the second, the second is found from the top of the page. -/
theorem tableRows_portText (name : unit.name.IsName) (first : ∀ p ∈ unit.ports, genericHeading ∉ (portRow p).splitOn '\n')
    (rest : Text) : tableRows genericHeading (portText dialect unit ++ rest) = tableRows genericHeading rest := by
  have introduced := heading_not_mem_splitOn (inline_introduction dialect name)
    (heading_not_mem_introduction dialect unit.name (by decide : "##".toList <+: genericHeading))
  have fixed : ∀ l ∈ portHeading :: [] :: "No ports found.".toList :: portColumns.lines, genericHeading ∉ l.splitOn '\n' :=
    heading_not_mem_splitOn (by decide) (by decide)
  have table : ∀ l ∈ portTable unit.ports, genericHeading ∉ l.splitOn '\n' := by
    by_cases empty : unit.ports = []
    · rw [portTable, if_pos (List.isEmpty_iff.mpr empty)]
      exact fun l hl => fixed l (by simp [List.mem_singleton.mp hl])
    · rw [portTable_of_ne_nil empty]
      exact List.forall_mem_append.mpr ⟨fun l hl => fixed l (by simp [hl]), List.forall_mem_map.mpr first⟩
  refine tableRows_append ?_ rest
  simp only [portLines, List.forall_mem_append, List.forall_mem_cons]
  exact ⟨introduced, fixed _ (by simp), fixed _ (by simp), table, fixed _ (by simp), nofun⟩

end Page

/-- In lower case, a keyword is spelled with small letters, underscores and characters beyond ASCII. -/
theorem mem_toLower_of_spells (key : ∀ letter ∈ k, Pattern.isKeyLetter letter = true) (h : Pattern.Spells k w) :
    ∀ c ∈ Text.toLower w, Pattern.isKeyLetter c = true ∨ 128 ≤ c.toNat := by
  have after : ∀ before, ∀ c ∈ Text.lowerAfter before w, Pattern.isKeyLetter c = true ∨ 128 ≤ c.toNat := by
    induction h with
    | nil => simp [Text.lowerAfter]
    | @cons letter c k w accepted _ ih =>
        intro before
        rw [Text.lowerAfter, List.forall_mem_append]
        refine ⟨?_, ih (fun letter hl => key letter (by simp [hl])) (c :: before)⟩
        have known := key letter (by simp)
        by_cases ascii : c.toNat < 128
        · have folded := Pattern.toLower_of_isVariant accepted ascii
          rw [if_neg (by rintro rfl; exact absurd ascii (by decide)), if_neg (by rintro rfl; exact absurd ascii (by decide)),
            Text.smallLetter, if_pos ascii, folded]
          simp [known]
        · have kept : c.toLower ≠ letter := by
            rintro rfl
            rw [Pattern.toLower_of_not_ascii (Nat.le_of_not_lt ascii)] at known
            exact ascii (Pattern.ascii_of_isKeyLetter known)
          simp only [Pattern.isVariant, Bool.or_eq_true, Bool.and_eq_true, beq_iff_eq, kept, false_or] at accepted
          rcases accepted with (⟨-, rfl | rfl⟩ | ⟨-, rfl⟩) | ⟨-, rfl⟩
          all_goals
            rw [if_neg (by decide)]
            decide +kernel
  exact after []

open Page

theorem fitsCell_direction (d : Direction) : FitsCell d.name := by
  cases d <;> decide

theorem Verilog.fitsCell_dataType {code : Text} {found : Match} {p : Port} (h : found ∈ portPattern.findAll code)
    (declares : portOf found = .ok p) : FitsCell p.dataType := by
  obtain ⟨direction, -, declares⟩ := Extraction.exists_of_bind_eq_ok declares
  cases declares
  cases type : found.group? 2 with
  | none => exact (by decide : FitsCell defaultNetType)
  | some w =>
      rw [← Match.group?_reading] at type
      obtain ⟨body, hbody, before, t, a, read, rfl⟩ := (Pattern.readsIn_of_mem_findAll rfl h).readByOne type
      obtain rfl := List.mem_singleton.mp hbody
      obtain ⟨k, key, spelled⟩ : ∃ k, (∀ letter ∈ k, Pattern.isKeyLetter letter = true) ∧ Pattern.Spells k a.text := by
        rcases List.mem_append.mp read with read | read
        · exact ⟨_, by decide, (Pattern.mem_keyword read).2⟩
        · rcases List.mem_append.mp read with read | read
          · exact ⟨_, by decide, (Pattern.mem_keyword read).2⟩
          · exact ⟨_, by decide, (Pattern.mem_keyword read).2⟩
      have plain := mem_toLower_of_spells key spelled
      exact ⟨fun bar => absurd (plain _ bar) (by decide), fun feed => absurd (plain _ feed) (by decide)⟩

/-- Only ranges and defaults can have more than one cell. -/
structure FitsTables (unit : Interface) : Prop where
  name : unit.name.IsName
  ports : ∀ p ∈ unit.ports, FitsCell p.name ∧ FitsCell p.dataType
  generics : ∀ g ∈ unit.generics, FitsCell g.name ∧ FitsCell (textOrEmpty g.dataType)

namespace Design

variable {d : Design} {unit : Interface} {description diagramPath : Option Text} {page : Text}

theorem fitsTables (read : d.interface = .ok unit) : FitsTables unit := by
  obtain ⟨dialect, source⟩ := d
  cases dialect with
  | verilog =>
      have known := Verilog.extractedFrom_interface read
      obtain ⟨ports, declared, made⟩ := Extraction.exists_of_bind_eq_ok read
      cases made
      refine ⟨known.name, fun p hp => ⟨fitsCell_of_isName (known.ports p hp).1, ?_⟩, fun g hg => ?_⟩
      · obtain ⟨found, hfound, declares⟩ := Extraction.mem_of_mapM_eq_ok declared hp
        exact Verilog.fitsCell_dataType hfound declares
      · obtain ⟨name, v, same, -⟩ := known.generics g hg
        rw [same]
        exact ⟨fitsCell_of_isName name, (by decide : FitsCell [])⟩
  | vhdl =>
      have known := Vhdl.extractedFrom_interface read
      refine ⟨known.name, fun p hp => ?_, fun g hg => ?_⟩
      · exact ⟨fitsCell_of_isName (known.ports p hp).name, fitsCell_of_isName (known.ports p hp).dataType⟩
      · obtain ⟨type, same, name⟩ := (known.generics g hg).dataType
        rw [same]
        exact ⟨fitsCell_of_isName (known.generics g hg).name, fitsCell_of_isName name⟩

end Design

def counterModule : Design where
  dialect := .verilog
  source := "module counter #(parameter STEP = 2 * 3) (input clk, output reg [STEP - 1:0] count);"

def counterUnit : Interface where
  name := "counter"
  ports := [
    { name := "clk", direction := .input, dataType := "wire" },
    { name := "count", direction := .output, dataType := "reg", width := some "STEP - 1:0".toList }]
  generics := [{ name := "STEP", default := some "2 * 3".toList }]

theorem interface_counterModule : counterModule.interface = .ok counterUnit := by
  decide +kernel

def maskModule : Design where
  dialect := .verilog
  source := "module m #(parameter A = 1 | 2) (input a);"

end Pinout
