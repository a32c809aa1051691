import Pinout.Proofs.Extraction
import Pinout.Proofs.Pattern.Found
import Pinout.Proofs.Pattern.Words
import Pinout.Proofs.Text.Trim
import Pinout.Proofs.Vhdl.Comments
import Pinout.Vhdl.Context
import Pinout.Vhdl.Declaration

/-! # What is extracted from an entity

Whatever the source is, the names and types in an interface are names, a default and the range of a
port are parts of the source, and the range of a generic is put together from two bounds of the source
and the order between them in small letters.
-/

namespace Pinout.Vhdl

variable {code source t v : Text} {c : Char} {unit : Interface}

/-- A bound of a range as one is found in a source. -/
structure IsBound (code b : Text) : Prop where
  part : b <:+: code
  nonempty : b ≠ []
  plain : ∀ c ∈ b, Text.isBlank c = false ∧ c ≠ '(' ∧ c ≠ ')'

/-- The range of a generic: two bounds and the order between them. -/
def IsBounds (code w : Text) : Prop :=
  ∃ high order low, w = high ++ " " ++ order ++ " " ++ low ∧ IsBound code high ∧ IsBound code low ∧
    (order = "downto" ∨ order = "to")

/-- A default as one is found in a source. -/
structure IsValue (code v : Text) : Prop where
  part : v <:+: code
  unbroken : ';' ∉ v
  trimmed : Text.trim v = v

/-- The width of a port: a range as one is found behind a parenthesis in a source, or a single bit. -/
structure IsWidth (code w : Text) : Prop where
  part : w = scalarWidth ∨ ∃ g, (∀ c ∈ g, Text.isBlank c = true) ∧ '(' :: (g ++ w) <:+: code
  unbroken : '\n' ∉ w
  trimmed : Text.trim w = w

/-- A generic as one is found in a source without comments. -/
structure GenericIn (code : Text) (g : Generic) : Prop where
  name : g.name.IsName
  dataType : ∃ type, g.dataType = some type ∧ type.IsName
  width : ∀ w ∈ g.width, IsBounds code w
  default : ∀ v ∈ g.default, IsValue code v

/-- A port as one is found in a source without comments. -/
structure PortIn (code : Text) (p : Port) : Prop where
  name : p.name.IsName
  dataType : p.dataType.IsName
  width : ∀ w ∈ p.width, IsWidth code w

/-- An interface as one is found in a source without comments. -/
structure ExtractedFrom (code : Text) (unit : Interface) : Prop where
  name : unit.name.IsName
  generics : ∀ g ∈ unit.generics, GenericIn code g
  ports : ∀ p ∈ unit.ports, PortIn code p

theorem IsBound.mono {b : Text} (h : IsBound t b) (part : t <:+: code) : IsBound code b where
  part := h.part.trans part
  nonempty := h.nonempty
  plain := h.plain

theorem GenericIn.mono {g : Generic} (h : GenericIn t g) (part : t <:+: code) : GenericIn code g where
  name := h.name
  dataType := h.dataType
  width w hw := by
    obtain ⟨high, order, low, same, highBound, lowBound, known⟩ := h.width w hw
    exact ⟨high, order, low, same, highBound.mono part, lowBound.mono part, known⟩
  default v hv := ⟨(h.default v hv).part.trans part, (h.default v hv).unbroken, (h.default v hv).trimmed⟩

theorem PortIn.mono {p : Port} (h : PortIn t p) (part : t <:+: code) : PortIn code p where
  name := h.name
  dataType := h.dataType
  width w hw := ⟨(h.width w hw).part.imp_right fun ⟨g, blank, inside⟩ => ⟨g, blank, inside.trans part⟩,
    (h.width w hw).unbroken, (h.width w hw).trimmed⟩

theorem isInfix_headerOf (code : Text) : headerOf code <:+: code := by
  rw [headerOf]
  split
  · exact List.infix_rfl
  · dsimp only
    split
    · exact (List.take_prefix _ _).isInfix.trans (List.drop_suffix _ _).isInfix
    · exact (List.drop_suffix _ _).isInfix

theorem not_dashes_infix_header (source : Text) : ¬ ['-', '-'] <:+: header source := fun dashes =>
  not_dashes_infix_stripComments source (dashes.trans (isInfix_headerOf _))

theorem isInfix_of_genericClause? {clause : Text} (h : genericClause? code = some clause) : clause <:+: code := by
  obtain ⟨found, search, rfl⟩ := Option.map_eq_some_iff.mp h
  have reads := Pattern.readsIn_of_search? (p := genericBlockPattern) rfl search
  have kept := reads.group?_eq 1 rfl
  rw [Match.group_reading] at kept
  exact reads.infix_of_group? kept

/-- Lower case leaves the keyword of what spells it, if no letter has a variant beyond ASCII. -/
theorem toLower_of_spells {k w : Text} (h : Pattern.Spells k w)
    (letters : ∀ letter ∈ k, Pattern.isKeyLetter letter = true ∧ letter ≠ 'i' ∧ letter ≠ 's' ∧ letter ≠ 'k') :
    Text.toLower w = k := by
  have ascii : ∀ c ∈ w, c.toNat < 128 := by
    induction h with
    | nil => simp
    | @cons letter c k w accepted _ ih =>
        obtain ⟨key, noI, noS, noK⟩ := letters letter (by simp)
        have folded : c.toLower = letter := by simpa [Pattern.isVariant, noI, noS, noK] using accepted
        simp only [List.forall_mem_cons]
        refine ⟨?_, ih fun letter hl => letters letter (by simp [hl])⟩
        by_contra above
        rw [← folded, Pattern.toLower_of_not_ascii (Nat.le_of_not_lt above)] at key
        exact above (Pattern.ascii_of_isKeyLetter key)
  rw [Text.toLower_of_ascii ascii, h.folded ascii]

theorem order_of_readByOne {w : Text} (h : Pattern.ReadByOne [(.keyword "downto" <|> .keyword "to")] w) :
    Text.toLower w = "downto" ∨ Text.toLower w = "to" := by
  obtain ⟨body, hbody, before, t, a, read, rfl⟩ := h
  obtain rfl := List.mem_singleton.mp hbody
  rcases List.mem_append.mp read with read | read
  · exact .inl (toLower_of_spells (Pattern.mem_keyword read).2 (by decide))
  · exact .inr (toLower_of_spells (Pattern.mem_keyword read).2 (by decide))

theorem plain_of_readByOne_bound {b : Text} (h : Pattern.ReadByOne [bound] b) :
    b ≠ [] ∧ ∀ c ∈ b, Text.isBlank c = false ∧ c ≠ '(' ∧ c ≠ ')' := by
  obtain ⟨body, hbody, before, t, a, read, rfl⟩ := h
  obtain rfl := List.mem_singleton.mp hbody
  obtain ⟨nonempty, plain, -⟩ := Pattern.mem_atLeastOne read
  exact ⟨nonempty, fun c hc => by simpa [and_assoc] using plain c hc⟩

theorem genericIn_genericOf {found : Match} (h : found ∈ genericPattern.findAll code) :
    GenericIn code (genericOf found) := by
  have reads := Pattern.readsIn_of_mem_findAll rfl h
  have name := Pattern.isName_of_readByOne_word (reads.group 1 rfl)
  have type := Pattern.isName_of_readByOne_word (reads.group 2 rfl)
  rw [Match.group_reading] at name type
  refine ⟨name, ⟨_, rfl, type⟩, fun w hw => ?_, fun v hv => ?_⟩
  · obtain ⟨high, kept, rfl⟩ := Option.map_eq_some_iff.mp hw
    rw [← Match.group?_reading] at kept
    have order := reads.group?_eq_with 4 rfl kept
    have low := reads.group?_eq_with 5 rfl kept
    have highBound := plain_of_readByOne_bound (reads.readByOne kept)
    have lowBound := plain_of_readByOne_bound (reads.readByOne low)
    refine ⟨high, _, found.group 5, rfl, ⟨reads.infix_of_group? kept, highBound.1, highBound.2⟩, ?_, ?_⟩
    · rw [Match.group_reading] at low lowBound
      exact ⟨reads.infix_of_group? low, lowBound.1, lowBound.2⟩
    · have := order_of_readByOne (reads.readByOne order)
      rwa [Match.group_reading] at this
  · obtain ⟨raw, kept, rfl⟩ := Option.map_eq_some_iff.mp hv
    rw [← Match.group?_reading] at kept
    obtain ⟨body, hbody, before, t, a, read, rfl⟩ := reads.readByOne kept
    obtain rfl := List.mem_singleton.mp hbody
    refine ⟨(Text.trim_infix _).trans (reads.infix_of_group? kept), fun hc => ?_, Text.trim_trim _⟩
    exact absurd ((Pattern.mem_atLeastOne read).2.1 _ ((Text.trim_infix _).subset hc)) (by decide)

theorem isWord_of_mayRead_keyword {k : Text} (key : ∀ letter ∈ k, Pattern.isKeyLetter letter = true)
    (h : (Pattern.keyword k).mayRead c = true) : Text.isWord c = true := by
  induction k with
  | nil => cases h
  | cons letter k ih =>
      rcases Bool.or_eq_true_iff.mp h with variant | rest
      · exact Pattern.isWord_of_isVariant (key letter (by simp)) variant
      · exact ih (fun letter hl => key letter (by simp [hl])) rest

theorem isName_of_readByOne_type {w : Text} (h : Pattern.ReadByOne (portPattern.groupBodies 3) w) : w.IsName := by
  obtain ⟨body, hbody, before, t, a, read, rfl⟩ := h
  obtain rfl := List.mem_singleton.mp hbody
  refine ⟨Pattern.ne_nil_of_mem rfl read, fun c hc => ?_⟩
  have reads := Pattern.mayRead_of_mem read c hc
  have parts : (Pattern.keyword "std_").mayRead c = true ∨ (Pattern.keyword "u").mayRead c = true ∨
      (Pattern.keyword "logic").mayRead c = true ∨ (Pattern.keyword "_vector").mayRead c = true := by
    simpa only [Pattern.mayRead_append, Pattern.mayRead_optional, Bool.or_eq_true, or_assoc] using reads
  rcases parts with part | part | part | part
  all_goals exact isWord_of_mayRead_keyword (by decide) part

theorem isWidth_portWidth {type : Text} {range : Option Text}
    (h : ∀ r ∈ range, '(' :: r <:+: code ∧ '\n' ∉ r) : ∀ w ∈ portWidth type range, IsWidth code w := by
  intro w hw
  unfold portWidth at hw
  split at hw
  · rcases range with _ | _ | ⟨c, rest⟩
    · cases hw
    · cases hw
    · obtain ⟨part, unbroken⟩ := h _ rfl
      cases hw
      obtain ⟨g, blank, split⟩ := Text.exists_trimLeft (c :: rest)
      have front : g ++ Text.trim (c :: rest) <+: c :: rest := by
        conv_rhs => rw [split]
        exact (List.prefix_append_right_inj g).mpr (Text.trim_prefix_trimLeft _)
      refine ⟨.inr ⟨g, blank, ((List.prefix_cons_inj '(').mpr front).isInfix.trans part⟩,
        fun hc => unbroken ((Text.trim_infix _).subset hc), Text.trim_trim _⟩
  · cases hw
    exact ⟨.inl rfl, by decide, by decide⟩

theorem parenthesis_of_range {a : Reading} {before : Option Char} {r : Text}
    (h : a ∈ portPattern.readings before t) (kept : (5, r) ∈ a.kept) : '(' :: r <:+: a.text := by
  obtain ⟨front, hfront, _, -, tail, htail, rfl⟩ := Pattern.exists_of_mem_append h
  refine List.IsInfix.trans ?_ (List.suffix_append front.text tail.text).isInfix
  rcases List.mem_append.mp kept with kept | kept
  · rcases List.mem_append.mp htail with htail | htail
    · obtain ⟨inner, hinner, rfl⟩ := List.mem_map.mp htail
      have kept : (5, r) ∈ inner.kept := (List.mem_cons.mp kept).resolve_left (by simp)
      obtain ⟨ranged, hranged, _, -, closing, hclosing, rfl⟩ := Pattern.exists_of_mem_append hinner
      obtain ⟨opening, hopening, _, -, range, hrange, rfl⟩ := Pattern.exists_of_mem_append hranged
      obtain ⟨gap, hgap, _, -, parenthesis, hparenthesis, rfl⟩ := Pattern.exists_of_mem_append hopening
      obtain ⟨body, hbody, rfl⟩ := List.mem_map.mp hrange
      obtain ⟨-, rfl⟩ := Pattern.mem_char.mp hparenthesis
      obtain ⟨-, rfl⟩ := Pattern.mem_char.mp hclosing
      obtain ⟨-, -, none⟩ := Pattern.mem_many.mp hgap
      obtain ⟨_, -, rfl⟩ := List.mem_map.mp hbody
      simp only [Reading.append, Reading.keep, none, List.append_nil, List.nil_append, List.mem_singleton,
        Prod.mk.injEq, true_and] at kept
      subst kept
      exact ⟨gap.text, [')'], by simp [Reading.append, Reading.keep]⟩
    · obtain rfl := List.mem_singleton.mp htail
      cases kept
  · obtain ⟨body, hbody, -⟩ := Pattern.readByOne_of_mem_kept hfront kept
    cases hbody

theorem portIn_portOf {found : Match} {p : Port} (h : found ∈ portPattern.findAll code)
    (declares : portOf found = .ok p) : PortIn code p := by
  have reads := Pattern.readsIn_of_mem_findAll rfl h
  have name := Pattern.isName_of_readByOne_word (reads.group 1 rfl)
  have type := isName_of_readByOne_type (reads.group 3 rfl)
  rw [Match.group_reading] at name type
  obtain ⟨direction, -, declares⟩ := Extraction.exists_of_bind_eq_ok declares
  cases declares
  refine ⟨name, type, isWidth_portWidth fun r hr => ?_⟩
  rw [Option.mem_def, ← Match.group?_reading] at hr
  obtain ⟨u, s, split, there⟩ := reads
  have inside := parenthesis_of_range there (Pattern.mem_kept_of_group? hr)
  obtain ⟨body, hbody, before, t, a, read, rfl⟩ := Pattern.ReadsIn.readByOne ⟨u, s, split, there⟩ hr
  obtain rfl := List.mem_singleton.mp hbody
  exact ⟨inside.trans ⟨u, s, by rw [split, List.append_assoc]⟩, Pattern.not_mem_of_never (by decide) read⟩

/-- Whatever the source is, its interface is made of names and of parts of it. -/
theorem extractedFrom_interface (h : interface source = .ok unit) : ExtractedFrom (stripComments source) unit := by
  have part : ∀ {t}, t <:+: header source → t <:+: stripComments source := fun inside =>
    inside.trans (isInfix_headerOf _)
  obtain ⟨ports, declared, h⟩ := Extraction.exists_of_bind_eq_ok h
  cases h
  refine ⟨Pattern.isName_search? rfl rfl rfl ⟨by decide, by decide⟩ _, fun g hg => ?_, fun p hp => ?_⟩
  · change g ∈ generics source at hg
    rw [generics, genericsOf] at hg
    split at hg
    · rename_i clause opened
      obtain ⟨found, hfound, rfl⟩ := List.mem_map.mp hg
      exact (genericIn_genericOf hfound).mono (part (isInfix_of_genericClause? opened))
    · cases hg
  · obtain ⟨found, hfound, declares⟩ := Extraction.mem_of_mapM_eq_ok declared hp
    exact (portIn_portOf hfound declares).mono (part List.infix_rfl)

/-- Whether a character may stand in the name of a package. -/
def isSelected (c : Char) : Bool :=
  Text.isWord c || c == '.'

/-- A context as one is found in a source without comments. -/
structure ContextFrom (code : Text) (context : Context) : Prop where
  libraries : ∀ library ∈ context.libraries, library.IsName
  packages : ∀ package ∈ context.packages, package ≠ [] ∧ ∀ c ∈ package, isSelected c = true

theorem exists_of_mem_firstOccurrences {p : Pattern} {x : Text} (reads : p.nullable = false)
    (always : p.alwaysKeeps 1 = true) (h : x ∈ firstOccurrences p code) :
    ∃ a, p.ReadsIn code a ∧ a.group? 1 = some x := by
  obtain ⟨found, hfound, rfl⟩ := List.mem_map.mp (List.mem_eraseDups.mp h)
  have read := Pattern.readsIn_of_mem_findAll reads hfound
  refine ⟨_, read, ?_⟩
  rw [read.group?_eq 1 always, Match.group_reading]

theorem contextFrom_context (source : Text) : ContextFrom (stripComments source) (context source) where
  libraries library h := by
    obtain ⟨a, reads, kept⟩ := exists_of_mem_firstOccurrences (p := libraryPattern) rfl rfl h
    exact Pattern.isName_of_readByOne_word (reads.readByOne kept)
  packages package h := by
    obtain ⟨a, reads, kept⟩ := exists_of_mem_firstOccurrences (p := usePattern) rfl rfl h
    obtain ⟨body, hbody, before, t, b, read, rfl⟩ := reads.readByOne kept
    obtain rfl := List.mem_singleton.mp hbody
    exact ⟨(Pattern.mem_atLeastOne read).1, (Pattern.mem_atLeastOne read).2.1⟩

end Pinout.Vhdl
