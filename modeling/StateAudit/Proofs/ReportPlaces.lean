import StateAudit.Proofs.PathSpelling
import StateAudit.Proofs.TreePaths

/-! Where a report can be put, in a tree that takes every write. A directory that is missing on the way is
made, so only what is there and is no directory is in the way, and at the place itself anything but a file
that can be opened. -/

namespace StateAudit.Files

namespace Node

/-- Whatever is there on the way down from a node is a directory, the node too. -/
def Clear (node : Node) (names : List String) : Prop :=
  ∀ front, front <+: names → ∀ reached, node.child? front = some reached → reached.isDirectory = true

variable {node : Node} {names others : List String}

theorem isDirectory_iff : node.isDirectory = true ↔ ∃ entries, node = .directory entries := by
  cases node with
  | directory entries => exact ⟨fun _ => ⟨entries, rfl⟩, fun _ => rfl⟩
  | file opened => exact ⟨nofun, nofun⟩
  | socket => exact ⟨nofun, nofun⟩

theorem Clear.here (clear : node.Clear names) : ∃ entries, node = .directory entries :=
  isDirectory_iff.mp (clear [] List.nil_prefix node rfl)

theorem Clear.front (clear : node.Clear (names ++ others)) : node.Clear names :=
  fun front before => clear front (before.trans (List.prefix_append _ _))

theorem Clear.last (clear : node.Clear names) {reached : Node} (found : node.child? names = some reached) :
    ∃ entries, reached = .directory entries :=
  isDirectory_iff.mp (clear names List.prefix_rfl reached found)

/-- Whether a file can be put at names below a node, and be it in directories that are missing. -/
structure Admits (node : Node) (names : List String) (name : String) : Prop where
  clear : node.Clear names
  file : ∀ reached, node.child? (names ++ [name]) = some reached → ∃ handle, reached = .file (.ok handle)

/-- Below what is not there nothing is. -/
theorem child?_missing (missing : node.child? names = none) (others : List String) :
    node.child? (names ++ others) = none := by
  rw [child?_append, missing, Option.bind_none]

/-- What leads down to a directory is one. -/
theorem directory_above {entries : List (String × Node)} (found : node.child? names = some (.directory entries)) :
    ∃ entries, node = .directory entries := by
  cases names with
  | nil => exact ⟨entries, Option.some.inj found⟩
  | cons name rest =>
    cases node with
    | directory listed => exact ⟨listed, rfl⟩
    | file opened => cases found
    | socket => cases found

end Node

namespace Tree
variable {top : Node} {trail : Trail} {names : List String}

/-- No place in the tree refuses a write or is short of room. -/
def TakesAll (tree : Tree) : Prop := ∀ names, tree.writing names = .free

section Joined
variable {tree : Tree} {path name : String} {base : Trail} {entries : List (String × Node)}
  (spelled : Path.Spelled path names) (plain : Path.Plain name)
  (short : (Path.join path name).utf8ByteSize ≤ pathLimit)
  (started : walk tree.top [] (tree.start path) = .ok base)

include plain in
theorem start_join (tree : Tree) (path : String) : tree.start (Path.join path name) = tree.start path := by
  rw [start, Path.isAbsolute_join plain, ← start]

include spelled plain short started

end Joined

/-- What is left after directories were made down to a place: the place is a directory that holds what
it held before. A trail leads to where the path begins, before and after. -/
structure Made (tree made : Tree) (path : String) (names : List String) (base base' : Trail) : Prop where
  started : walk made.top [] (made.start path) = .ok base'
  same : base'.names = base.names
  directory : ∃ entries, (base'.last made.top).child? names = some (.directory entries)
  held : ∀ name, (base'.last made.top).child? (names ++ [name]) = (base.last tree.top).child? (names ++ [name])
  takes : made.TakesAll

section Making
variable {tree : Tree} {path name : String} {base : Trail}

theorem exists_made_put (takes : tree.TakesAll) {entries : List (String × Node)} (started : walk tree.top [] (tree.start path) = .ok base)
    (around : base.last tree.top = .directory entries) (missing : (base.last tree.top).child? names = none) :
    ∃ base', Made tree (tree.put (base.names ++ names) (.directory [])) path names base base' := by
  have leads := walk_leads .top started
  have free : ¬ tree.top.IsDirectory (base.names ++ names) := by
    rintro ⟨listed, held⟩
    rw [leads.child?_below, missing] at held
    cases held
  obtain ⟨base', started', same⟩ :=
    walk_keeps (fun _ => Node.isDirectory_put free (.directory [])) .top .top rfl started around
  have leads' := walk_leads .top started'
  have reached : (base'.last (tree.top.put (base.names ++ names) (.directory []))).child? names =
      some (.directory []) := by
    rw [← leads'.child?_below, same]
    exact Node.child?_put _ _ _
  refine ⟨base', started', same, ⟨[], reached⟩, ?_, takes⟩
  intro name
  rw [Node.child?_missing missing, put, Node.child?_append, reached]
  rfl

theorem Made.vacant {made : Tree} {base' : Trail} (kept : Made tree made path names base base')
    (missing : (base.last tree.top).child? names = none) (name : String) :
    (base'.last made.top).child? (names ++ [name]) = none := by
  rw [kept.held, Node.child?_missing missing]

/-- After a missing directory was made, one below it is made too. -/
theorem Made.below {made : Tree} {base' : Trail} (kept : Made tree made path names base base') (plain : Path.Plain name)
    (missing : (base.last tree.top).child? names = none) :
    ∃ base'', Made tree (made.put (base'.names ++ (names ++ [name])) (.directory [])) (Path.join path name)
      (names ++ [name]) base base'' := by
  obtain ⟨listed, directory⟩ := kept.directory
  obtain ⟨inner, below⟩ := Node.directory_above directory
  have vacant := kept.vacant missing name
  obtain ⟨base'', put⟩ := exists_made_put kept.takes (start_join plain made path ▸ kept.started) below vacant
  refine ⟨base'', put.started, put.same.trans kept.same, put.directory, ?_, put.takes⟩
  intro last
  rw [put.held, Node.child?_missing vacant, List.append_assoc, Node.child?_missing missing]

end Making

/-- A path of plain names that lead down from a directory, which is the top or the working directory. -/
structure Locates (tree : Tree) (target : String) (around : Node) (names : List String) (name : String) : Prop where
  spelled : ∃ path, target = Path.join path name ∧ Path.Spelled path names
  plain : Path.Plain name
  short : target.utf8ByteSize ≤ pathLimit
  start : ∃ base, walk tree.top [] (tree.start target) = .ok base ∧ base.last tree.top = around
  directory : around.isDirectory = true

end Tree

end StateAudit.Files

namespace StateAudit
open Files

end StateAudit
