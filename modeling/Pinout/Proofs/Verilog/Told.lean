import Mathlib.Data.List.Forall2
import Pinout.Proofs.Verilog.TestbenchReadBack

/-! # What generated Verilog tells

An instance tells the name of the module, its parameters with their defaults and the names of its ports. A
testbench tells the signals for the ports as well. An instance is told line by line; in a testbench a range may
go over several lines, so that it is read from the front, and a range ends at its bracket.
-/

namespace Pinout

def Generic.assigned (g : Generic) : Text × Option Text :=
  (g.name, g.default)

/-- What a signal for a port shows: whether the port is driven, how wide it is and its name. -/
def Port.shown (p : Port) : Bool × Option Text × Text :=
  (p.isInput, p.width, p.name)

namespace Verilog

open Text

variable {α β γ : Type} {s t label x y : Text} {code code' source source' : Text} {unit unit' : Interface}
  {overrides overrides' : List (Text × Text)} {ports ports' : List Port} {p q : Port} {g h : Generic}

/-- Rows that tell what they are written for tell it one after the other. -/
theorem map_told {write : α → γ} {key : α → β} {items items' : List α}
    (told : ∀ a ∈ items, ∀ b ∈ items', write a = write b → key a = key b)
    (same : items.map write = items'.map write) : items.map key = items'.map key := by
  induction items generalizing items' with
  | nil => rw [List.map_eq_nil_iff.mp same.symm]
  | cons a items ih =>
      cases items' with
      | nil => cases same
      | cons b items' =>
          obtain ⟨first, rest⟩ := List.cons.inj same
          have others := ih (fun a ha b hb => told a (by simp [ha]) b (by simp [hb])) rest
          rw [List.map_cons, List.map_cons, told a (by simp) b (by simp) first, others]

theorem binding_eq (formal actual : Text) :
    binding formal actual = "  .".toList ++ (formal ++ '(' :: (actual ++ [')'])) := by
  unfold binding
  simp

theorem binding_inj {formal formal' actual actual' : Text} (known : formal.IsName) (known' : formal'.IsName)
    (same : binding formal actual = binding formal' actual') : formal = formal' ∧ actual = actual' := by
  have plain : isWord '(' = false := by decide
  rw [binding_eq, binding_eq] at same
  obtain ⟨formals, behind⟩ :=
    append_cons_inj (known.not_mem plain) (known'.not_mem plain) (List.append_cancel_left same)
  exact ⟨formals, List.append_cancel_right behind⟩

/-- Bindings of names to texts of one line. -/
def Inline (overrides : List (Text × Text)) : Prop :=
  ∀ o ∈ overrides, o.1.IsName ∧ '\n' ∉ o.2

def bindings (overrides : List (Text × Text)) : List Text :=
  punctuate ",".toList (overrides.map fun o => binding o.1 o.2)

theorem bindings_inj (inline : Inline overrides) (inline' : Inline overrides')
    (same : bindings overrides = bindings overrides') : overrides = overrides' := by
  have told : overrides.map id = overrides'.map id := map_told (fun o ho o' ho' row => by
    obtain ⟨formals, actuals⟩ := binding_inj (inline o ho).1 (inline' o' ho').1 row
    exact Prod.ext formals actuals) (punctuate_inj same)
  rwa [List.map_id, List.map_id] at told

theorem inline_bindings (inline : Inline overrides) : ∀ l ∈ bindings overrides, '\n' ∉ l ∧ l.head? = some ' ' := by
  intro l hl
  obtain ⟨part, hpart, same⟩ := mem_punctuate hl
  obtain ⟨o, ho, rfl⟩ := List.mem_map.mp hpart
  obtain ⟨known, unbroken⟩ := inline o ho
  have plain : '\n' ∉ o.1 := known.not_mem (by decide)
  rw [binding_eq] at same
  rcases same with rfl | rfl
  · exact ⟨by simp [plain, unbroken], rfl⟩
  · exact ⟨by simp [plain, unbroken], rfl⟩

/-- The line between the parameters and the ports of an instance. -/
def middleLine (label : Text) : Text :=
  ") ".toList ++ label ++ " (".toList

def headLines (unit label : Text) (overrides : List (Text × Text)) : List Text :=
  if overrides.isEmpty then [unit ++ " ".toList ++ label ++ " (".toList]
  else (unit ++ " #(".toList) :: (bindings overrides ++ [middleLine label])

def portPairs (ports : List Port) : List (Text × Text) :=
  ports.map fun p => (p.name, p.name)

theorem instantiation_eq (unit label : Text) (overrides : List (Text × Text)) (ports : List Port) :
    instantiation unit label overrides ports =
      joinLines (headLines unit label overrides ++ (bindings (portPairs ports) ++ [");".toList])) := by
  unfold instantiation headLines bindings portPairs middleLine
  split <;> simp [List.map_map, Function.comp_def]

theorem inline_portPairs (names : ∀ p ∈ ports, p.name.IsName) : Inline (portPairs ports) := by
  intro o ho
  obtain ⟨p, hp, rfl⟩ := List.mem_map.mp ho
  exact ⟨names p hp, (names p hp).not_mem (by decide)⟩

theorem unbroken_lines {unit : Text} (known : unit.IsName) (one : '\n' ∉ label) (inline : Inline overrides)
    (names : ∀ p ∈ ports, p.name.IsName) :
    ∀ l ∈ headLines unit label overrides ++ (bindings (portPairs ports) ++ [");".toList]), '\n' ∉ l := by
  have plain : '\n' ∉ unit := known.not_mem (by decide)
  have parameters : ∀ l ∈ bindings overrides, '\n' ∉ l := fun l hl => (inline_bindings inline l hl).1
  have signals : ∀ l ∈ bindings (portPairs ports), '\n' ∉ l := fun l hl =>
    (inline_bindings (inline_portPairs names) l hl).1
  unfold headLines
  split
  · simpa [plain, one, or_imp, forall_and] using signals
  · simpa [middleLine, plain, one, or_imp, forall_and] using ⟨parameters, signals⟩

theorem portNames_inj (names : ∀ p ∈ ports, p.name.IsName) (names' : ∀ p ∈ ports', p.name.IsName)
    (same : bindings (portPairs ports) ++ [");".toList] = bindings (portPairs ports') ++ [");".toList]) :
    ports.map Port.name = ports'.map Port.name := by
  have pairs := bindings_inj (inline_portPairs names) (inline_portPairs names') (List.append_cancel_right same)
  exact map_told (fun _ _ _ _ pair => congrArg Prod.fst pair) pairs

theorem instantiation_inj {unit unit' : Text} (known : unit.IsName) (known' : unit'.IsName) (one : '\n' ∉ label)
    (inline : Inline overrides) (inline' : Inline overrides')
    (names : ∀ p ∈ ports, p.name.IsName) (names' : ∀ p ∈ ports', p.name.IsName)
    (same : instantiation unit label overrides ports = instantiation unit' label overrides' ports') :
    unit = unit' ∧ overrides = overrides' ∧ ports.map Port.name = ports'.map Port.name := by
  rw [instantiation_eq, instantiation_eq] at same
  have lines := joinLines_inj (by simp) (by simp) (unbroken_lines known one inline names)
    (unbroken_lines known' one inline' names') same
  have blank : ' ' ∉ unit := known.not_mem (by decide)
  have blank' : ' ' ∉ unit' := known'.not_mem (by decide)
  -- The first line tells the name, and whether there are parameters: the label has a blank behind it.
  have label_ne : label ++ " (".toList ≠ "#(".toList := fun h => by simpa using congrArg List.reverse h
  unfold headLines at lines
  split at lines <;> split at lines
  · rename_i empty empty'
    obtain ⟨first, rest⟩ := List.cons.inj lines
    rw [List.append_assoc, List.append_assoc, List.append_assoc, List.append_assoc] at first
    refine ⟨(append_cons_inj blank blank' first).1, ?_, portNames_inj names names' rest⟩
    rw [List.isEmpty_iff.mp empty, List.isEmpty_iff.mp empty']
  · obtain ⟨first, -⟩ := List.cons.inj lines
    rw [List.append_assoc, List.append_assoc] at first
    exact absurd (append_cons_inj blank blank' first).2 label_ne
  · obtain ⟨first, -⟩ := List.cons.inj lines
    rw [List.append_assoc, List.append_assoc] at first
    exact absurd (append_cons_inj blank blank' first).2 label_ne.symm
  · obtain ⟨first, rest⟩ := List.cons.inj lines
    have outside : ∀ {overrides}, Inline overrides → middleLine label ∉ bindings overrides := fun inline h => by
      simpa [middleLine] using (inline_bindings inline _ h).2
    have closing : middleLine label ∉ bindings (portPairs ports') ++ [");".toList] := by
      rw [List.mem_append, not_or]
      exact ⟨outside (inline_portPairs names'), by simp [middleLine]⟩
    have rows : bindings overrides' ++ middleLine label :: (bindings (portPairs ports') ++ [");".toList]) =
        bindings overrides ++ middleLine label :: (bindings (portPairs ports) ++ [");".toList]) := by
      simpa using rest.symm
    obtain ⟨parameters, -, signals⟩ := (List.append_cons_inj_of_notMem (outside inline') closing).mp rows
    exact ⟨(append_cons_inj blank blank' first).1, (bindings_inj inline' inline parameters).symm,
      portNames_inj names names' signals.symm⟩

/-- The rows of a section, a line feed behind each. -/
def rows (write : α → Text) (items : List α) : Text :=
  (items.map write).flatMap (· ++ ['\n'])

/-- A row tells its item in front of whatever follows it, and begins with a margin. -/
structure RowsTell (write : α → Text) (key : α → β) (items items' : List α) : Prop where
  told : ∀ a ∈ items, ∀ b ∈ items', ∀ {s t}, write a ++ '\n' :: s = write b ++ '\n' :: t → key a = key b ∧ s = t
  margin : ∀ a, (write a).head? = some ' '

/-- Rows are told up to the first line without a margin. -/
theorem RowsTell.rows_append_inj {write : α → Text} {key : α → β} {items items' : List α}
    (tells : RowsTell write key items items') (ends : s.head? ≠ some ' ') (ends' : t.head? ≠ some ' ')
    (same : rows write items ++ s = rows write items' ++ t) : items.map key = items'.map key ∧ s = t := by
  have apart : ∀ a items s t, t.head? ≠ some ' ' → rows write (a :: items) ++ s ≠ t := by
    rintro a items s _ outside rfl
    refine outside ?_
    simp [rows, List.head?_append, tells.margin a]
  induction items generalizing items' with
  | nil =>
      cases items' with
      | nil => exact ⟨rfl, same⟩
      | cons b items' => exact absurd same.symm (apart b items' t s ends)
  | cons a items ih =>
      cases items' with
      | nil => exact absurd same (apart a items s t ends')
      | cons b items' =>
          have step : write a ++ '\n' :: (rows write items ++ s) = write b ++ '\n' :: (rows write items' ++ t) := by
            simpa [rows] using same
          obtain ⟨first, rest⟩ := tells.told a (by simp) b (by simp) step
          have fewer : RowsTell write key items items' :=
            ⟨fun a ha b hb => tells.told a (by simp [ha]) b (by simp [hb]), tells.margin⟩
          obtain ⟨others, behind⟩ := ih fewer rest
          rw [List.map_cons, List.map_cons, first, others]
          exact ⟨rfl, behind⟩

def sectionText (heading : Text) (write : α → Text) (items : List α) : Text :=
  if items.isEmpty then [] else heading ++ rows write items

/-- Neither a section with this heading nor a further row of a section begins the text. -/
def Closes (heading s : Text) : Prop :=
  s.head? ≠ some ' ' ∧ ¬ heading <+: s

theorem RowsTell.section_append_inj {write : α → Text} {key : α → β} {items items' : List α} {heading : Text}
    (tells : RowsTell write key items items') (closes : Closes heading s) (closes' : Closes heading t)
    (same : sectionText heading write items ++ s = sectionText heading write items' ++ t) :
    items.map key = items'.map key ∧ s = t := by
  unfold sectionText at same
  split at same <;> split at same
  · rename_i empty empty'
    rw [List.isEmpty_iff.mp empty, List.isEmpty_iff.mp empty']
    exact ⟨rfl, same⟩
  -- One section is empty and the other is not: its heading stands where none may.
  · rw [List.append_assoc] at same
    exact absurd ⟨_, same.symm⟩ closes.2
  · rw [List.append_assoc] at same
    exact absurd ⟨_, same⟩ closes'.2
  · rw [List.append_assoc, List.append_assoc] at same
    exact tells.rows_append_inj closes.1 closes'.1 (List.append_cancel_left same)

theorem parameterLine_eq (g : Generic) (s : Text) : parameterLine g ++ '\n' :: s =
    "  parameter ".toList ++ (g.name ++ ' ' :: ("= ".toList ++ (textOrEmpty g.default ++ ';' :: '\n' :: s))) := by
  unfold parameterLine
  simp only [List.append_assoc]
  rfl

theorem tells_parameterLine (extracted : ExtractedFrom code unit) (extracted' : ExtractedFrom code' unit') :
    RowsTell parameterLine Generic.assigned unit.generics unit'.generics where
  margin _ := by
    unfold parameterLine
    simp only [List.append_assoc]
    rfl
  told g hg h hh s t same := by
    obtain ⟨name, v, declared, value⟩ := extracted.generics g hg
    obtain ⟨name', v', declared', value'⟩ := extracted'.generics h hh
    have default : g.default = some v := by rw [declared]
    have default' : h.default = some v' := by rw [declared']
    have blank : isWord ' ' = false := by decide
    rw [parameterLine_eq, parameterLine_eq, default, default'] at same
    obtain ⟨names, values⟩ :=
      append_cons_inj (name.not_mem blank) (name'.not_mem blank) (List.append_cancel_left same)
    obtain ⟨same, rest⟩ := append_cons_inj (fun hv => (value.unbroken _ hv).2.1 rfl)
      (fun hv => (value'.unbroken _ hv).2.1 rfl) (List.append_cancel_left values)
    refine ⟨?_, (List.cons.inj rest).2⟩
    rw [Generic.assigned, Generic.assigned, names, default, default']
    exact congrArg (fun v => (h.name, some v)) same

theorem signalLine_eq (p : Port) (s : Text) : signalLine p ++ '\n' :: s =
    "  ".toList ++ (signalKind p ++ (signalRange p ++ ' ' :: (p.name ++ ';' :: '\n' :: s))) := by
  unfold signalLine
  simp

theorem signalKind_append_inj (same : signalKind p ++ s = signalKind q ++ t) : p.isInput = q.isInput ∧ s = t := by
  unfold signalKind at same
  cases input : p.isInput <;> cases input' : q.isInput <;> simp [input, input'] at same
  · exact ⟨rfl, same⟩
  · exact ⟨rfl, same⟩

/-- A range begins with a bracket, and a name does not. A range ends at its bracket, and a name at the semicolon. -/
theorem signalRange_append_inj {w w' : Text} (width : p.width = some w) (width' : q.width = some w')
    (bracket : ']' ∉ w) (bracket' : ']' ∉ w') (name : p.name.IsName) (name' : q.name.IsName)
    (same : signalRange p ++ ' ' :: (p.name ++ ';' :: s) = signalRange q ++ ' ' :: (q.name ++ ';' :: t)) :
    p.width = q.width ∧ p.name = q.name ∧ s = t := by
  have semicolon : isWord ';' = false := by decide
  have named : ∀ {s t : Text}, p.name ++ ';' :: s = q.name ++ ';' :: t → p.name = q.name ∧ s = t :=
    append_cons_inj (name.not_mem semicolon) (name'.not_mem semicolon)
  have apart : ∀ {p : Port} {s t : Text}, p.name.IsName → p.name ++ ';' :: s ≠ '[' :: t := by
    intro p s t known same
    obtain ⟨c, n, split⟩ := List.exists_cons_of_ne_nil known.nonempty
    rw [split] at same
    obtain ⟨rfl, -⟩ := List.cons.inj same
    exact known.not_mem (by decide) (split ▸ List.mem_cons_self)
  unfold signalRange at same
  rw [width, width'] at same
  split at same <;> split at same
  · rename_i scalar scalar'
    obtain ⟨names, rest⟩ := named (List.cons.inj same).2
    exact ⟨(of_decide_eq_true scalar).trans (of_decide_eq_true scalar').symm, names, rest⟩
  · exact absurd (List.cons.inj same).2 (apart name)
  · exact absurd (List.cons.inj same).2.symm (apart name')
  · have ranges : w ++ ']' :: ' ' :: (p.name ++ ';' :: s) = w' ++ ']' :: ' ' :: (q.name ++ ';' :: t) := by
      simpa [textOrEmpty] using same
    obtain ⟨rfl, behind⟩ := append_cons_inj bracket bracket' ranges
    exact ⟨width.trans width'.symm, named (List.cons.inj behind).2⟩

theorem tells_signalLine (extracted : ExtractedFrom code unit) (extracted' : ExtractedFrom code' unit') :
    RowsTell signalLine Port.shown unit.ports unit'.ports where
  margin _ := by
    unfold signalLine
    simp
  told p hp q hq s t same := by
    obtain ⟨name, w, width, range⟩ := extracted.ports p hp
    obtain ⟨name', w', width', range'⟩ := extracted'.ports q hq
    rw [signalLine_eq, signalLine_eq] at same
    obtain ⟨kinds, behind⟩ := signalKind_append_inj (List.append_cancel_left same)
    obtain ⟨widths, names, rest⟩ := signalRange_append_inj width width' (fun h => (range.unbracketed _ h).2 rfl)
      (fun h => (range'.unbracketed _ h).2 rfl) name name' behind
    exact ⟨by rw [Port.shown, Port.shown, kinds, widths, names], (List.cons.inj rest).2⟩

def parameterHeading : Text := "\n  // Parameters\n"

def signalHeading : Text := "\n  // Inputs and outputs\n"

/-- What a testbench goes on with behind its declarations. -/
def instanceHeading : Text := "\n  // Instantiate the Unit Under Test (UUT)\n"

theorem flatMap_section? {heading : List Text} (write : α → Text) (items : List α) :
    (section? heading (items.map write)).flatMap (· ++ ['\n']) =
      sectionText (heading.flatMap (· ++ ['\n'])) write items := by
  unfold section? sectionText rows
  rw [List.isEmpty_map]
  split
  · rfl
  · rw [List.flatMap_append]

theorem exists_testbenchOf_eq (unit : Interface) : ∃ rest, testbenchOf unit = opening unit.name ++
    (sectionText parameterHeading parameterLine unit.generics ++
      (sectionText signalHeading signalLine unit.ports ++ (instanceHeading ++ rest))) := by
  rw [testbenchOf, document_cons, document_cons, document_cons, document_cons, flatMap_section?, flatMap_section?,
    List.flatMap_cons, List.flatMap_cons]
  simp only [List.append_assoc]
  exact ⟨_, rfl⟩

theorem opening_append_inj {name name' : Text} (known : name.IsName) (known' : name'.IsName)
    (same : opening name ++ s = opening name' ++ t) : name = name' ∧ s = t := by
  have plain : isWord ';' = false := by decide
  rw [opening_eq, opening_eq] at same
  simp only [List.append_assoc] at same
  have names : name ++ "_tb".toList ++ ';' :: '\n' :: s = name' ++ "_tb".toList ++ ';' :: '\n' :: t := by
    simpa using List.append_cancel_left (List.append_cancel_left
      (List.append_cancel_left (List.append_cancel_left same)))
  obtain ⟨both, rest⟩ := append_cons_inj (known.testbench.not_mem plain) (known'.testbench.not_mem plain) names
  exact ⟨List.append_cancel_right both, (List.cons.inj rest).2⟩

theorem closes_of_heading {heading other : Text} (short : heading.length ≤ other.length) (differs : ¬ heading <+: other)
    (first : other.head? = some '\n') (rest : Text) : Closes heading (other ++ rest) := by
  refine ⟨by simp [List.head?_append, first], fun begins => differs ?_⟩
  exact List.prefix_of_prefix_length_le begins (List.prefix_append other rest) short

theorem closes_signals (ports : List Port) (rest : Text) :
    Closes parameterHeading (sectionText signalHeading signalLine ports ++ (instanceHeading ++ rest)) := by
  unfold sectionText
  split
  · exact closes_of_heading (by decide) (by decide) (by decide) rest
  · rw [List.append_assoc]
    exact closes_of_heading (by decide) (by decide) (by decide) _

theorem closes_instance (rest : Text) : Closes signalHeading (instanceHeading ++ rest) :=
  closes_of_heading (by decide) (by decide) (by decide) rest

theorem testbenchOf_inj (extracted : ExtractedFrom code unit) (extracted' : ExtractedFrom code' unit')
    (same : testbenchOf unit = testbenchOf unit') :
    unit.name = unit'.name ∧ unit.generics.map Generic.assigned = unit'.generics.map Generic.assigned ∧
      unit.ports.map Port.shown = unit'.ports.map Port.shown := by
  obtain ⟨rest, text⟩ := exists_testbenchOf_eq unit
  obtain ⟨rest', text'⟩ := exists_testbenchOf_eq unit'
  rw [text, text'] at same
  obtain ⟨names, declarations⟩ := opening_append_inj extracted.name extracted'.name same
  obtain ⟨parameters, declarations⟩ := (tells_parameterLine extracted extracted').section_append_inj
    (closes_signals unit.ports rest) (closes_signals unit'.ports rest') declarations
  obtain ⟨signals, -⟩ := (tells_signalLine extracted extracted').section_append_inj
    (closes_instance rest) (closes_instance rest') declarations
  exact ⟨names, parameters, signals⟩

def usageOf (unit : Interface) : Text :=
  instantiation unit.name "instance_name" (unit.generics.map fun g => (g.name, textOrEmpty g.default)) unit.ports

theorem usage_eq (read : interface source = .ok unit) : usage source = .ok (usageOf unit) := by
  obtain ⟨ports, declared, made⟩ := Extraction.exists_of_bind_eq_ok read
  cases made
  rw [usage, declared]
  rfl

theorem exists_interface_of_usage {text : Text} (used : usage source = .ok text) :
    ∃ unit, interface source = .ok unit := by
  obtain ⟨ports, declared, -⟩ := Extraction.exists_of_bind_eq_ok used
  exact ⟨_, by rw [interface, declared]; rfl⟩

theorem exists_interface_of_testbench {text : Text} (tested : testbench source = .ok text) :
    ∃ unit, interface source = .ok unit := by
  obtain ⟨unit, read, -⟩ := Extraction.exists_of_bind_eq_ok tested
  exact ⟨unit, read⟩

theorem inline_defaults (extracted : ExtractedFrom code unit) :
    Inline (unit.generics.map fun g => (g.name, textOrEmpty g.default)) := by
  intro o ho
  obtain ⟨g, hg, rfl⟩ := List.mem_map.mp ho
  obtain ⟨name, v, declared, value⟩ := extracted.generics g hg
  refine ⟨name, fun broken => ?_⟩
  rw [declared] at broken
  exact (value.unbroken _ broken).2.2 rfl

theorem usageOf_inj (extracted : ExtractedFrom code unit) (extracted' : ExtractedFrom code' unit')
    (same : usageOf unit = usageOf unit') :
    unit.name = unit'.name ∧ unit.generics.map Generic.assigned = unit'.generics.map Generic.assigned ∧
      unit.ports.map Port.name = unit'.ports.map Port.name := by
  obtain ⟨names, values, pins⟩ := instantiation_inj extracted.name extracted'.name (by decide)
    (inline_defaults extracted) (inline_defaults extracted') (fun p hp => (extracted.ports p hp).1)
    (fun p hp => (extracted'.ports p hp).1) same
  refine ⟨names, map_told (fun g hg h hh pair => ?_) values, pins⟩
  obtain ⟨-, v, declared, -⟩ := extracted.generics g hg
  obtain ⟨-, v', declared', -⟩ := extracted'.generics h hh
  rw [declared, declared'] at pair ⊢
  exact congrArg (fun o : Text × Text => (o.1, some o.2)) pair

theorem usageOf_congr (name : unit.name = unit'.name)
    (parameters : unit.generics.map Generic.assigned = unit'.generics.map Generic.assigned)
    (names : unit.ports.map Port.name = unit'.ports.map Port.name) : usageOf unit = usageOf unit' := by
  have values := map_told (fun g _ h _ (same : g.assigned = h.assigned) =>
    congrArg (fun a : Text × Option Text => (a.1, textOrEmpty a.2)) same) parameters
  have pairs := map_told (fun p _ q _ (same : p.name = q.name) => congrArg (fun n => (n, n)) same) names
  change unit.generics.map (fun g => (g.name, textOrEmpty g.default)) = _ at values
  change portPairs unit.ports = portPairs unit'.ports at pairs
  rw [usageOf, usageOf, instantiation_eq, instantiation_eq, name, values, pairs]
  rfl

theorem parameterLine_congr (same : g.assigned = h.assigned) : parameterLine g = parameterLine h := by
  obtain ⟨name, default⟩ := Prod.mk.inj same
  unfold parameterLine
  rw [name, default]

theorem signalLine_congr (same : p.shown = q.shown) : signalLine p = signalLine q := by
  obtain ⟨input, rest⟩ := Prod.mk.inj same
  obtain ⟨width, name⟩ := Prod.mk.inj rest
  have kinds : signalKind p = signalKind q := by rw [signalKind, signalKind, input]
  have ranges : signalRange p = signalRange q := by
    rw [signalRange, signalRange, Port.isScalar, Port.isScalar, width]
  unfold signalLine
  rw [kinds, ranges, name]

theorem inputs_shown (same : unit.ports.map Port.shown = unit'.ports.map Port.shown) :
    unit.inputs.map Port.name = unit'.inputs.map Port.name := by
  have inputs : ∀ ports : List Port,
      (ports.filter Port.isInput).map Port.name = ((ports.map Port.shown).filter (·.1)).map (·.2.2) := fun ports => by
    rw [List.filter_map, List.map_map]
    rfl
  rw [Interface.inputs, Interface.inputs, inputs, inputs, same]

theorem assignment_congr (same : p.name = q.name) (digit : Text) : assignment p digit = assignment q digit := by
  unfold assignment
  rw [same]

theorem pulse_congr (same : ports.map Port.name = ports'.map Port.name) : pulse ports = pulse ports' := by
  cases ports with
  | nil => rw [List.map_eq_nil_iff.mp same.symm]
  | cons first rest =>
      cases ports' with
      | nil => cases same
      | cons first' rest' =>
          have first : ∀ digit, assignment first digit = assignment first' digit :=
            assignment_congr (List.cons.inj same).1
          rw [pulse, pulse, first, first]

theorem testbenchOf_congr (name : unit.name = unit'.name)
    (parameters : unit.generics.map Generic.assigned = unit'.generics.map Generic.assigned)
    (signals : unit.ports.map Port.shown = unit'.ports.map Port.shown) : testbenchOf unit = testbenchOf unit' := by
  have names : unit.ports.map Port.name = unit'.ports.map Port.name :=
    map_told (fun p _ q _ (same : p.shown = q.shown) => congrArg (·.2.2) same) signals
  have formals : unit.generics.map (fun g => (g.name, g.name)) = unit'.generics.map fun g => (g.name, g.name) :=
    map_told (fun g _ h _ (same : g.assigned = h.assigned) => congrArg (fun a => (a.1, a.1)) same) parameters
  have pairs : portPairs unit.ports = portPairs unit'.ports :=
    map_told (fun p _ q _ (same : p.name = q.name) => congrArg (fun n => (n, n)) same) names
  have declared : unit.generics.map parameterLine = unit'.generics.map parameterLine :=
    map_told (fun _ _ _ _ => parameterLine_congr) parameters
  have shown : unit.ports.map signalLine = unit'.ports.map signalLine :=
    map_told (fun _ _ _ _ => signalLine_congr) signals
  have cleared : unit.inputs.map (assignment · "0") = unit'.inputs.map (assignment · "0") :=
    map_told (fun _ _ _ _ same => assignment_congr same "0") (inputs_shown signals)
  unfold testbenchOf
  rw [instantiation_eq, instantiation_eq, name, formals, pairs, declared, shown, cleared,
    pulse_congr (inputs_shown signals)]

/-- Two sources have the same instance exactly if they have the same module name, parameters with defaults and
port names, and the same testbench exactly if the signals for their ports are the same as well. -/
theorem generated_eq_iff (source source' : Text) :
    ((∃ text, usage source = .ok text ∧ usage source' = .ok text) ↔
      ∃ unit unit', interface source = .ok unit ∧ interface source' = .ok unit' ∧ unit.name = unit'.name ∧
        unit.generics.map Generic.assigned = unit'.generics.map Generic.assigned ∧
        unit.ports.map Port.name = unit'.ports.map Port.name) ∧
    ((∃ text, testbench source = .ok text ∧ testbench source' = .ok text) ↔
      ∃ unit unit', interface source = .ok unit ∧ interface source' = .ok unit' ∧ unit.name = unit'.name ∧
        unit.generics.map Generic.assigned = unit'.generics.map Generic.assigned ∧
        unit.ports.map Port.shown = unit'.ports.map Port.shown) := by
  refine ⟨⟨?_, ?_⟩, ⟨?_, ?_⟩⟩
  · rintro ⟨text, used, used'⟩
    obtain ⟨unit, read⟩ := exists_interface_of_usage used
    obtain ⟨unit', read'⟩ := exists_interface_of_usage used'
    have same := ((usage_eq read).symm.trans used).trans (used'.symm.trans (usage_eq read'))
    exact ⟨unit, unit', read, read', usageOf_inj (extractedFrom_interface read) (extractedFrom_interface read')
      (Except.ok.inj same)⟩
  · rintro ⟨unit, unit', read, read', name, parameters, names⟩
    exact ⟨_, usage_eq read, usageOf_congr name parameters names ▸ usage_eq read'⟩
  · rintro ⟨text, tested, tested'⟩
    obtain ⟨unit, read⟩ := exists_interface_of_testbench tested
    obtain ⟨unit', read'⟩ := exists_interface_of_testbench tested'
    have same := ((testbench_eq read).symm.trans tested).trans (tested'.symm.trans (testbench_eq read'))
    exact ⟨unit, unit', read, read', testbenchOf_inj (extractedFrom_interface read) (extractedFrom_interface read')
      (Except.ok.inj same)⟩
  · rintro ⟨unit, unit', read, read', name, parameters, signals⟩
    exact ⟨_, testbench_eq read, testbenchOf_congr name parameters signals ▸ testbench_eq read'⟩

end Verilog

end Pinout
