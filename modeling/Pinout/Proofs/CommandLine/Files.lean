import Mathlib.Data.List.Basic
import Mathlib.Data.List.Nodup
import Mathlib.Data.List.TakeDrop
import Pinout.CommandLine.FileTree

/-! # Writing to a file tree

A write changes what is at one place, the one its path leads to. Afterwards the path leads to what was written, since
no place on the way there was changed.
-/

namespace Pinout.CommandLine

variable {tree opened old : FileTree} {directory location other : Location} {names : List FileName} {path : RawText}
  {bytes contents : List UInt8} {node : Node} {stream : FileTree.Stream}

@[simp] theorem Location.names_child_ne (directory : Location) (name : FileName) : (directory.child name).names ≠ [] := by
  simp [child]

namespace FileTree

/-- The place of the file that is there or would be put there. -/
def Place.target? : Place → Option Location
  | .file location _ | .vacant location => some location
  | _ => none

/-- The place of the file that writing to a path fills. -/
def target? (tree : FileTree) (path : RawText) : Option Location :=
  tree.resolve path |>.toOption.bind Place.target?

theorem node?_of_names_ne (named : location.names ≠ []) : tree.node? location = tree.nodes.lookup location := by
  simp [node?, named]

theorem lookup_overwrite (nodes : List (Location × Node)) (location : Location) (node : Node) (other : Location) :
    (nodes.map fun (place, old) => (place, if place = location then node else old)).lookup other =
      (nodes.lookup other).map fun old => if other = location then node else old := by
  induction nodes with
  | nil => rfl
  | cons n nodes ih =>
      obtain ⟨place, there⟩ := n
      simp only [List.map_cons, List.lookup_cons]
      by_cases same : other = place
      · simp [same]
      · simpa [beq_eq_false_iff_ne.mpr same] using ih

theorem node?_put (named : location.names ≠ []) (node : Node) (other : Location) :
    (tree.put location node).node? other = if other = location then some node else tree.node? other := by
  by_cases origin : other.names = []
  · have elsewhere : other ≠ location := fun same => named (same ▸ origin)
    simp [node?, origin, elsewhere]
  · rw [node?_of_names_ne origin, node?_of_names_ne origin, put]
    dsimp only
    cases held : tree.nodes.lookup location with
    | some there =>
        rw [Option.isSome_some, if_pos rfl, lookup_overwrite]
        split
        · next same => rw [same, held, Option.map_some]
        · exact Option.map_id'
    | none =>
        rw [Option.isSome_none, if_neg Bool.false_ne_true, List.lookup_append]
        split
        · next same => simp [same, held]
        · next elsewhere => simp [List.lookup_cons, beq_eq_false_iff_ne.mpr elsewhere]

theorem put_put (location : Location) (first second : Node) :
    (tree.put location first).put location second = tree.put location second := by
  simp only [put]
  cases held : tree.nodes.lookup location with
  | some there =>
      have kept : ((tree.nodes.map fun (place, old) => (place, if place = location then first else old)).lookup
          location).isSome := by
        rw [lookup_overwrite, held]
        rfl
      simp only [Option.isSome_some, if_true, kept, List.map_map]
      congr 1
      refine List.map_congr_left fun (place, old) _ => ?_
      by_cases same : place = location <;> simp [same]
  | none =>
      have elsewhere : ∀ n ∈ tree.nodes, n.1 ≠ location := fun n member same =>
        bne_iff_ne.mp (List.lookup_eq_none_iff.mp held n member) same.symm
      have unchanged : (tree.nodes.map fun (place, old) => (place, if place = location then second else old)) =
          tree.nodes := by
        refine (List.map_congr_left fun n member => ?_).trans (List.map_id _)
        simp [elsewhere n member]
      simp [List.lookup_append, held, unchanged]

theorem location_of_vacancy {name : FileName} (h : (tree.vacancy directory name).target? = some location) :
    directory.child name = location := by
  rw [vacancy] at h
  split at h
  · split at h <;> cases h
  · exact Option.some.inj h

theorem follow_target (h : (tree.follow directory names).target? = some location) :
    location.names ≠ [] ∧ (tree.node? location = none ∨ ∃ contents, tree.node? location = some (.file contents)) := by
  fun_induction follow tree directory names
  case case2 ih | case3 ih | case6 ih | case7 ih => exact ih h
  case case8 there _ =>
    obtain rfl := Option.some.inj h
    exact ⟨Location.names_child_ne _ _, .inr ⟨_, there⟩⟩
  case case14 vacant _ =>
    obtain rfl := location_of_vacancy h
    exact ⟨Location.names_child_ne _ _, .inl vacant⟩
  all_goals cases h

theorem follow_name {name : FileName} {rest : List FileName} (notHere : ¬ (name = [] || name = hereName) = true)
    (notAbove : ¬ name = aboveName) (goesOn : ¬ (!rest.isEmpty && rest.all List.isEmpty) = true)
    (fits : ¬ longestName < name.length) :
    tree.follow directory (name :: rest) =
      match tree.node? (directory.child name) with
      | some .directory | some (.sealed _) => tree.follow (directory.child name) rest
      | some (.file contents) => if rest.isEmpty then .file (directory.child name) contents else .blocked
      | some (.device device) => if rest.isEmpty then .device device else .blocked
      | some .detached => if rest.isEmpty then .detached else .blocked
      | none => if rest.isEmpty then tree.vacancy directory name else .missing :=
  (if_neg notHere).trans ((if_neg notAbove).trans ((if_neg goesOn).trans (if_neg fits)))

/-- Once a file is put where names lead, they lead to it: the directories on the way are still there. -/
theorem follow_put (h : (tree.follow directory names).target? = some location) (bytes : List UInt8) :
    (tree.put location (.file bytes)).follow directory names = .file location bytes := by
  obtain ⟨named, free⟩ := follow_target h
  have kept {below : Location} {held : Node} (there : tree.node? below = some held) (other : ∀ bytes, held ≠ .file bytes) :
      (tree.put location (.file bytes)).node? below = some held := by
    rw [node?_put named, if_neg, there]
    rintro rfl
    rcases free with vacant | ⟨contents, file⟩
    · cases vacant.symm.trans there
    · exact other _ (Option.some.inj (there.symm.trans file))
  fun_induction follow tree directory names
  case case2 here ih =>
    rw [follow, if_pos here]
    exact ih h
  case case3 notHere ih =>
    rw [follow, if_neg notHere, if_pos rfl]
    exact ih h
  case case6 notHere notAbove goesOn fits below there ih | case7 notHere notAbove goesOn fits below _ there ih =>
    rw [follow_name notHere notAbove goesOn fits, kept there nofun]
    exact ih h
  case case8 notHere notAbove goesOn fits below _ _ last =>
    have same : below = location := Option.some.inj h
    rw [follow_name notHere notAbove goesOn fits, node?_put named, if_pos same, ← same]
    exact if_pos last
  case case14 notHere notAbove goesOn fits below _ last =>
    have same : below = location := location_of_vacancy h
    rw [follow_name notHere notAbove goesOn fits, node?_put named, if_pos same, ← same]
    exact if_pos last
  all_goals cases h

theorem place_target {bytes : List UInt8} (h : (tree.place bytes).target? = some location) :
    bytes ≠ [] ∧ bytes.length ≤ longestPath ∧
      (tree.follow (Location.start bytes) (pathNames bytes)).target? = some location := by
  rw [place] at h
  split at h
  · cases h
  · split at h
    · cases h
    · next nonempty short => exact ⟨by simpa using nonempty, Nat.le_of_not_lt short, h⟩

theorem place_put {path : List UInt8} (h : (tree.place path).target? = some location) (bytes : List UInt8) :
    (tree.put location (.file bytes)).place path = .file location bytes := by
  obtain ⟨nonempty, short, leads⟩ := place_target h
  rw [place, if_neg (by simpa using nonempty), if_neg (Nat.not_lt.mpr short), follow_put leads]

theorem target?_eq_some_iff : tree.target? path = some location ↔
    ∃ place, tree.resolve path = .ok place ∧ place.target? = some location := by
  rw [target?]
  cases tree.resolve path <;> simp [Except.toOption]

theorem resolve_eq_ok_iff {place : Place} : tree.resolve path = .ok place ↔
    ∃ bytes, path.systemBytes = .ok bytes ∧ 0 ∉ bytes ∧ tree.place bytes = place := by
  rw [resolve]
  cases path.systemBytes with
  | error e => simp
  | ok bytes => by_cases null : 0 ∈ bytes <;> simp [null]

theorem resolve_put (h : tree.target? path = some location) (bytes : List UInt8) :
    (tree.put location (.file bytes)).resolve path = .ok (.file location bytes) := by
  obtain ⟨_, resolves, leads⟩ := target?_eq_some_iff.mp h
  obtain ⟨row, encodes, plain, rfl⟩ := resolve_eq_ok_iff.mp resolves
  exact resolve_eq_ok_iff.mpr ⟨row, encodes, plain, place_put leads bytes⟩

theorem names_ne_of_target (h : tree.target? path = some location) : location.names ≠ [] := by
  obtain ⟨_, resolves, leads⟩ := target?_eq_some_iff.mp h
  obtain ⟨row, -, -, rfl⟩ := resolve_eq_ok_iff.mp resolves
  obtain ⟨-, -, followed⟩ := place_target leads
  exact (follow_target followed).1

theorem read?_put (h : tree.target? path = some location) (bytes : List UInt8) :
    (tree.put location (.file bytes)).read? path = some bytes := by
  rw [read?, resolve_put h]

theorem target?_of_read? (h : tree.read? path = some bytes) : ∃ location, tree.target? path = some location := by
  rw [read?] at h
  split at h
  · next resolved => exact ⟨_, target?_eq_some_iff.mpr ⟨_, resolved, rfl⟩⟩
  · cases h

/-- What opening a path for writing does: it empties the file there, or finds a device. -/
theorem openForWriting_eq_ok (h : tree.openForWriting path = .ok (stream, opened)) :
    (∃ location, tree.target? path = some location ∧ stream = .file location ∧ opened = tree.put location (.file [])) ∨
      ∃ device, tree.target? path = none ∧ stream = .device device ∧ opened = tree := by
  rw [openForWriting] at h
  cases resolved : tree.resolve path with
  | error e =>
      rw [resolved] at h
      cases h
  | ok place =>
      rw [resolved] at h
      cases place with
      | file location _ | vacant location =>
          cases h
          exact .inl ⟨location, target?_eq_some_iff.mpr ⟨_, resolved, rfl⟩, rfl, rfl⟩
      | device kind =>
          cases h
          exact .inr ⟨kind, by simp [target?, resolved, Except.toOption, Place.target?], rfl, rfl⟩
      | _ => cases h

theorem openForWriting_of_target (h : tree.target? path = some location) :
    tree.openForWriting path = .ok (.file location, tree.put location (.file [])) := by
  obtain ⟨place, resolved, leads⟩ := target?_eq_some_iff.mp h
  rw [openForWriting, resolved]
  cases place with
  | file | vacant =>
      cases leads
      rfl
  | _ => cases leads

theorem taken_isPrefix (tree : FileTree) (bytes : List UInt8) : tree.taken bytes <+: bytes :=
  List.take_prefix ..

/-- The system does not take all the bytes exactly if it has an error for it. -/
theorem shortfall?_eq_none_iff : tree.shortfall? bytes = none ↔ tree.taken bytes = bytes := by
  rw [shortfall?, taken, List.take_eq_self_iff]
  cases tree.shortage <;> simp

/-- No place is listed twice, and none is an origin. -/
structure Tidy (tree : FileTree) : Prop where
  nodup : (tree.nodes.map (·.1)).Nodup
  named : ∀ n ∈ tree.nodes, n.1.names ≠ []

namespace Tidy

theorem node?_of_mem (h : tree.Tidy) (inside : (location, node) ∈ tree.nodes) : tree.node? location = some node := by
  obtain ⟨front, back, split⟩ := List.append_of_mem inside
  have nodup := h.nodup
  rw [split, List.map_append, List.map_cons, List.nodup_middle, List.nodup_cons] at nodup
  rw [node?_of_names_ne (h.named _ inside), List.lookup_eq_some_iff]
  refine ⟨front, back, split, fun n before => bne_iff_ne.mpr fun same => nodup.1 ?_⟩
  exact List.mem_append_left _ (List.mem_map.mpr ⟨n, before, same.symm⟩)

theorem put (h : tree.Tidy) (named : location.names ≠ []) (node : Node) : (tree.put location node).Tidy := by
  rw [FileTree.put]
  split
  · refine ⟨?_, fun n inside => ?_⟩
    · simpa [Function.comp_def] using h.nodup
    · obtain ⟨m, there, rfl⟩ := List.mem_map.mp inside
      exact h.named m there
  · next vacant =>
      rw [Bool.not_eq_true, Option.isSome_eq_false_iff, Option.isNone_iff_eq_none, List.lookup_eq_none_iff] at vacant
      have absent : location ∉ tree.nodes.map (·.1) := by
        intro inside
        obtain ⟨n, there, same⟩ := List.mem_map.mp inside
        exact bne_iff_ne.mp (vacant n there) same.symm
      refine ⟨?_, fun n inside => ?_⟩
      · rw [List.map_append, List.map_singleton, ← List.concat_eq_append]
        exact List.Nodup.concat absent h.nodup
      · rcases List.mem_append.mp inside with there | new
        · exact h.named n there
        · rw [List.mem_singleton.mp new]
          exact named

theorem install (h : tree.Tidy) (directory : Location) (names : List FileName) (contents : List UInt8) :
    (tree.install directory names contents).Tidy := by
  fun_induction FileTree.install tree directory names contents with
  | case1 => exact h
  | case2 => exact h.put (Location.names_child_ne _ _) _
  | case3 _ _ _ _ _ _ _ ih | case4 _ _ _ _ _ _ ih => exact ih h
  | case5 _ _ _ _ _ _ _ _ _ _ ih =>
      refine ih (?_ : Tidy (if _ then _ else _))
      split
      · exact h
      · exact h.put (Location.names_child_ne _ _) _

end Tidy

theorem ofFiles_induction {P : FileTree → Prop} (bare : P {})
    (install : ∀ tree directory names contents, P tree → P (tree.install directory names contents))
    (files : List (List UInt8 × List UInt8)) : P (ofFiles files) := by
  rw [ofFiles]
  generalize ({} : FileTree) = tree at bare
  induction files generalizing tree with
  | nil => exact bare
  | cons file files ih => exact ih _ (install _ _ _ _ bare)

theorem tidy_ofFiles (files : List (List UInt8 × List UInt8)) : (ofFiles files).Tidy := by
  refine ofFiles_induction ?_ (fun _ _ _ _ tidy => tidy.install ..) files
  exact ⟨by decide, by decide⟩

theorem shortage_install (tree : FileTree) (directory : Location) (names : List FileName) (contents : List UInt8) :
    (tree.install directory names contents).shortage = tree.shortage := by
  fun_induction FileTree.install tree directory names contents with
  | case1 | case2 => rfl
  | case3 _ _ _ _ _ _ _ ih | case4 _ _ _ _ _ _ ih => exact ih
  | case5 _ _ _ _ _ _ _ _ _ _ ih =>
      refine ih.trans (?_ : FileTree.shortage (if _ then _ else _) = _)
      split <;> rfl

theorem shortage_ofFiles (files : List (List UInt8 × List UInt8)) : (ofFiles files).shortage = none :=
  ofFiles_induction (P := fun tree => tree.shortage = none) rfl
    (fun _ _ _ _ enough => (shortage_install ..).trans enough) files

theorem mem_files :
    (location, contents) ∈ tree.files ↔ (location, .file contents) ∈ tree.nodes ∧ location.isInside := by
  rw [files, List.mem_filterMap]
  refine ⟨fun ⟨⟨place, node⟩, inside, read⟩ => ?_, fun ⟨inside, here⟩ => ⟨_, inside, if_pos here⟩⟩
  cases node with
  | file contents =>
      obtain ⟨here, same⟩ := Option.ite_none_right_eq_some.mp read
      cases same
      exact ⟨inside, here⟩
  | _ => cases read

theorem lookup_files (inside : location.isInside) (there : tree.nodes.lookup location = some (.file contents)) :
    tree.files.lookup location = some contents := by
  obtain ⟨front, back, split, before⟩ := List.lookup_eq_some_iff.mp there
  have listed : tree.files = files { nodes := front } ++ (location, contents) :: files { nodes := back } := by
    simp [files, split, inside]
  refine List.lookup_eq_some_iff.mpr ⟨_, _, listed, fun ⟨place, held⟩ earlier => ?_⟩
  exact before _ (mem_files.mp earlier).1

/-- A change that is reported is at a place of the working directory: the file there is new or has other contents. -/
theorem exists_location_of_mem_changesSince {name : RawText} (tidy : tree.Tidy)
    (reported : (name, contents) ∈ tree.changesSince old) :
    ∃ location, location.isInside ∧ name = location.path ∧
      tree.node? location = some (.file contents) ∧ old.node? location ≠ some (.file contents) := by
  rw [changesSince, List.mem_mergeSort, List.mem_map] at reported
  obtain ⟨⟨location, written⟩, changed, same⟩ := reported
  obtain ⟨rfl, rfl⟩ := Prod.mk.inj same
  obtain ⟨listed, other⟩ := List.mem_filter.mp changed
  obtain ⟨member, inside⟩ := mem_files.mp listed
  refine ⟨location, inside, rfl, tidy.node?_of_mem member, fun there => ?_⟩
  rw [node?_of_names_ne (tidy.named _ member)] at there
  exact absurd (lookup_files inside there) (by simpa using other)

theorem changesSince_self (tidy : tree.Tidy) : tree.changesSince tree = [] := by
  refine List.eq_nil_iff_forall_not_mem.mpr fun ⟨name, contents⟩ reported => ?_
  obtain ⟨location, -, -, here, elsewhere⟩ := exists_location_of_mem_changesSince tidy reported
  exact elsewhere here

end FileTree

end Pinout.CommandLine
