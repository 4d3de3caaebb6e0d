import StateAudit.Files.Collect
import StateAudit.Proofs.ByteOrder
import StateAudit.Proofs.DictionaryEntries
import StateAudit.Proofs.PathSpelling
import Mathlib.Data.List.Forall2
import Mathlib.Data.List.Nodup

/-! Which logs inputs stand for. A directory stands for the files below it that have the extension of
logs, in the order of the names that lead to them. A directory below it that its path is too long to
open is passed over with all that it holds. -/

namespace StateAudit.Files

namespace Path

/-- The path to what names lead to from the end of a path. -/
def below (path : String) (names : List String) : String := names.foldl join path

/-- Something, then a dot and the extension of logs. -/
def HasLogExtension (name : String) : Prop := ∃ stem, stem ≠ [] ∧ name.toList = stem ++ ".jsonl".toList

theorem isLog_iff {name : String} : isLog name = true ↔ HasLogExtension name := by
  rw [isLog, Bool.and_eq_true, List.isSuffixOf_iff_suffix, bne_iff_ne, ne_eq, ← String.toList_inj]
  constructor
  · rintro ⟨⟨stem, whole⟩, longer⟩
    refine ⟨stem, ?_, whole.symm⟩
    rintro rfl
    exact longer whole.symm
  · rintro ⟨stem, filled, whole⟩
    exact ⟨⟨stem, whole.symm⟩, fun bare => filled (List.append_left_eq_self.mp (whole.symm.trans bare))⟩

theorem size_le_below (path : String) (names : List String) : path.utf8ByteSize ≤ (below path names).utf8ByteSize := by
  induction names generalizing path with
  | nil => exact Nat.le_refl _
  | cons name rest ih => exact Nat.le_trans size_le_join (ih (join path name))

theorem names_below {found : List String} (plain : ∀ name ∈ found, Plain name) (path : String) :
    names (below path found) = names path ++ found := by
  induction found generalizing path with
  | nil => exact (List.append_nil _).symm
  | cons name rest ih =>
    have own := names_join (plain name List.mem_cons_self) path
    have later := ih (fun other member => plain other (List.mem_cons_of_mem _ member)) (join path name)
    rw [own, List.append_assoc, List.singleton_append] at later
    exact later

end Path

theorem Node.sizeOf_lookup {entries : List (String × Node)} {name : String} {node : Node}
    (found : entries.lookup name = some node) : sizeOf node < sizeOf (Node.directory entries) := by
  obtain ⟨before, after, rfl, -⟩ := List.lookup_eq_some_iff.mp found
  have inside : sizeOf (name, node) < sizeOf (before ++ (name, node) :: after) := List.sizeOf_lt_of_mem (by simp)
  simp only [Prod.mk.sizeOf_spec, Node.directory.sizeOf_spec] at inside ⊢
  omega

/-- What holds of a directory when it holds of whatever its names lead to holds of every node. -/
theorem Node.induction {motive : Node → Prop} (file : ∀ opened, motive (.file opened)) (socket : motive .socket)
    (directory : ∀ entries, (∀ name node, entries.lookup name = some node → motive node) → motive (.directory entries)) :
    ∀ node, motive node
  | .file opened => file opened
  | .socket => socket
  | .directory entries => directory entries fun _ node _ => Node.induction file socket directory node
termination_by node => node
decreasing_by exact Node.sizeOf_lookup ‹_›

/-- Whether a walk that comes to a node by a path, and by a name in it, lists what names lead to from there. -/
structure Node.Reaches (path name : String) (node : Node) (names : List String) : Prop where
  file : ∃ opened, node.child? names = some (.file opened)
  extension : Path.isLog (names.getLast?.getD name) = true
  opened : names ≠ [] → (Path.below path names.dropLast).utf8ByteSize ≤ pathLimit

/-- Whether names lead through an entry of a directory to a log. -/
def Enters (path : String) (entries : List (String × Node)) (first : String) (rest : List String) : Prop :=
  ∃ node, entries.lookup first = some node ∧ node.Reaches (Path.join path first) first rest

/-- Logs with the names that lead to them, which are in their order and are those with some property. -/
structure Lists (path : String) (logs : List String) (leads : List String → Prop) (found : List (List String)) : Prop where
  paths : logs = found.map (Path.below path)
  exact : ∀ names, names ∈ found ↔ leads names
  ordered : found.Pairwise (List.Lex Utf8.Before)

theorem Lists.congr {path : String} {logs : List String} {leads others : List String → Prop} {found : List (List String)}
    (lists : Lists path logs leads found) (same : ∀ names, leads names ↔ others names) : Lists path logs others found :=
  ⟨lists.paths, fun names => (lists.exact names).trans (same names), lists.ordered⟩

section Walk
variable {path name : String} {entries : List (String × Node)}

theorem Node.reaches_file {opened : Except Fault Handle} {names : List String} :
    (Node.file opened).Reaches path name names ↔ names = [] ∧ Path.isLog name = true := by
  constructor
  · rintro ⟨⟨other, leads⟩, extension, -⟩
    cases names with
    | nil => exact ⟨rfl, extension⟩
    | cons first rest => cases leads
  · rintro ⟨rfl, log⟩
    exact ⟨⟨opened, rfl⟩, log, absurd rfl⟩

theorem Node.reaches_socket {names : List String} : ¬ Node.socket.Reaches path name names := by
  rintro ⟨⟨opened, leads⟩, -, -⟩
  cases names <;> cases leads

theorem Node.reaches_nil : ¬ (Node.directory entries).Reaches path name [] := by
  rintro ⟨⟨opened, leads⟩, -, -⟩
  cases leads

theorem Node.reaches_cons {first : String} {rest : List String} :
    (Node.directory entries).Reaches path name (first :: rest) ↔
      path.utf8ByteSize ≤ pathLimit ∧ Enters path entries first rest := by
  constructor
  · rintro ⟨⟨opened, file⟩, extension, short⟩
    have within := short (List.cons_ne_nil _ _)
    refine ⟨Nat.le_trans (Path.size_le_below _ _) within, ?_⟩
    rw [child?, Option.bind_eq_some_iff] at file
    obtain ⟨node, found, file⟩ := file
    refine ⟨node, found, ⟨opened, file⟩, ?_, ?_⟩
    · rwa [List.getLast?_cons] at extension
    · intro filled
      rwa [List.dropLast_cons_of_ne_nil filled] at within
  · rintro ⟨short, node, found, ⟨opened, file⟩, extension, within⟩
    refine ⟨⟨opened, by rw [child?, found, Option.bind_some, file]⟩, by rwa [List.getLast?_cons], fun _ => ?_⟩
    cases rest with
    | nil => exact short
    | cons second rest => exact within (List.cons_ne_nil _ _)

theorem sorted_logsByName : Dictionary.Sorted (logsByName path entries) := by
  induction entries with
  | nil => exact Dictionary.sorted_nil
  | cons entry rest ih =>
    rw [logsByName]
    exact Dictionary.sorted_insert _ _ ih

theorem get?_logsByName : (logsByName path entries).get? name =
    (entries.lookup name).map (logsBelow (Path.join path name) name) := by
  induction entries with
  | nil => rfl
  | cons entry rest ih =>
    obtain ⟨other, node⟩ := entry
    rw [logsByName, Dictionary.get?_insert, ih, ← Dictionary.get?, ← Dictionary.get?, Dictionary.get?_cons]
    split
    next same => rw [same]; rfl
    next => rfl

/-- Where logs come by name, those of one name come in their order before those of the next. -/
theorem exists_lists_entries (leads : String → List String → Prop) {logs : Dictionary (List String)}
    (sorted : logs.Sorted) (each : ∀ entry ∈ logs, ∃ found, Lists (Path.join path entry.1) entry.2 (leads entry.1) found) :
    ∃ found, Lists path (logs.flatMap (·.2)) (fun names => ∃ entry ∈ logs, ∃ rest, names = entry.1 :: rest ∧
      leads entry.1 rest) found := by
  induction logs with
  | nil => exact ⟨[], rfl, by simp, .nil⟩
  | cons entry logs ih =>
    obtain ⟨name, own⟩ := entry
    obtain ⟨first, later⟩ := Dictionary.sorted_cons.mp sorted
    obtain ⟨found, lists⟩ := each (name, own) List.mem_cons_self
    obtain ⟨others, rest⟩ := ih later fun entry member => each entry (List.mem_cons_of_mem _ member)
    refine ⟨found.map (name :: ·) ++ others, ?_, ?_, ?_⟩
    · rw [List.flatMap_cons, rest.paths, lists.paths, List.map_append, List.map_map]
      rfl
    · intro names
      rw [List.mem_append, rest.exact, List.mem_map]
      simp only [lists.exact, List.mem_cons, exists_eq_or_imp, eq_comm, and_comm]
    · refine List.pairwise_append.mpr ⟨lists.ordered.map _ fun _ _ => .cons, rest.ordered, ?_⟩
      intro names member other inside
      obtain ⟨below, -, rfl⟩ := List.mem_map.mp member
      obtain ⟨entry, behind, after, rfl, -⟩ := (rest.exact other).mp inside
      exact .rel (Utf8.before_iff.mpr (first entry behind))

theorem exists_lists_directory (name : String) (short : path.utf8ByteSize ≤ pathLimit)
    (each : ∀ first node, entries.lookup first = some node → ∀ path, ∃ found,
      Lists path (logsBelow path first node) (node.Reaches path first) found) :
    ∃ found, Lists path ((logsByName path entries).flatMap (·.2)) ((Node.directory entries).Reaches path name) found := by
  have held {first : String} {logs : List String} : (first, logs) ∈ logsByName path entries ↔
      ∃ node, entries.lookup first = some node ∧ logsBelow (Path.join path first) first node = logs := by
    rw [Dictionary.mem_iff_get? sorted_logsByName, get?_logsByName, Option.map_eq_some_iff]
  have listed : ∀ entry ∈ logsByName path entries,
      ∃ found, Lists (Path.join path entry.1) entry.2 (Enters path entries entry.1) found := by
    rintro ⟨first, logs⟩ member
    obtain ⟨node, known, rfl⟩ := held.mp member
    obtain ⟨found, lists⟩ := each first node known (Path.join path first)
    exact ⟨found, lists.congr fun names => by simp [Enters, known]⟩
  obtain ⟨found, lists⟩ := exists_lists_entries _ sorted_logsByName listed
  refine ⟨found, lists.congr fun names => ?_⟩
  cases names with
  | nil => simp [Node.reaches_nil]
  | cons first rest =>
    rw [Node.reaches_cons]
    constructor
    · rintro ⟨entry, -, after, same, node, known, reaches⟩
      obtain ⟨rfl, rfl⟩ := List.cons.inj same
      exact ⟨short, node, known, reaches⟩
    · rintro ⟨-, node, known, reaches⟩
      exact ⟨(first, _), held.mpr ⟨node, known, rfl⟩, rest, rfl, node, known, reaches⟩

theorem exists_lists (node : Node) (path name : String) :
    ∃ found, Lists path (logsBelow path name node) (node.Reaches path name) found := by
  induction node using Node.induction generalizing path name with
  | file opened =>
    rw [logsBelow]
    split
    next log => exact ⟨[[]], rfl, by simp [Node.reaches_file, log], List.pairwise_singleton _ _⟩
    next other => exact ⟨[], rfl, by simp [Node.reaches_file, other], .nil⟩
  | socket =>
    rw [logsBelow]
    exact ⟨[], rfl, by simp [Node.reaches_socket], .nil⟩
  | directory entries each =>
    rw [logsBelow]
    split
    next long =>
      refine ⟨[], rfl, fun names => ⟨nofun, fun reaches => ?_⟩, .nil⟩
      cases names with
      | nil => exact absurd reaches Node.reaches_nil
      | cons first rest => exact absurd (Node.reaches_cons.mp reaches).1 (Nat.not_le.mpr long)
    next short =>
      exact exists_lists_directory name (Nat.not_lt.mp short) fun first node known path => each first node known path first

end Walk

/-- Names that lead from a directory to a log below it, through directories that their paths can open. -/
structure LogAt (input : String) (entries : List (String × Node)) (names : List String) : Prop where
  file : ∃ opened, (Node.directory entries).child? names = some (.file opened)
  extension : ∀ name ∈ names.getLast?, Path.HasLogExtension name
  opened : (Path.below input names.dropLast).utf8ByteSize ≤ pathLimit

/-- No name of its own makes a directory a log. -/
theorem reaches_iff {input name : String} {entries : List (String × Node)} {names : List String} :
    (Node.directory entries).Reaches input name names ↔ LogAt input entries names := by
  cases names with
  | nil =>
    refine ⟨fun reaches => absurd reaches Node.reaches_nil, ?_⟩
    rintro ⟨⟨opened, leads⟩, -, -⟩
    cases leads
  | cons first rest =>
    have extension : Path.isLog ((first :: rest).getLast?.getD name) = true ↔
        ∀ last ∈ (first :: rest).getLast?, Path.HasLogExtension last := by
      rw [List.getLast?_cons, Option.getD_some, Path.isLog_iff]
      simp
    constructor
    · rintro ⟨file, log, opened⟩
      exact ⟨file, extension.mp log, opened (List.cons_ne_nil _ _)⟩
    · rintro ⟨file, log, opened⟩
      exact ⟨file, extension.mpr log, fun _ => opened⟩

/-- The logs that a directory stands for: whatever names lead to one, and in the order of these names. -/
structure Walked (input : String) (entries : List (String × Node)) (found : List (List String)) (logs : List String) :
    Prop extends Lists input logs (LogAt input entries) found where
  /-- Names that can be names of files are those of the paths, so the paths have this order too, and none
  is there twice. -/
  distinct : (∀ names ∈ found, ∀ name ∈ names, Path.Plain name) →
    (logs.map Path.names).Pairwise (List.Lex Utf8.Before) ∧ logs.Nodup

/-- What an input stands for. -/
inductive Expands (tree : Tree) (input : String) : List String → Prop
  | itself : (∀ entries, tree.find input ≠ .ok (.directory entries)) → Expands tree input [input]
  | directory {entries : List (String × Node)} {found : List (List String)} {logs : List String} :
      tree.find input = .ok (.directory entries) → Walked input entries found logs → Expands tree input logs

theorem Tree.size_of_find {tree : Tree} {path : String} {node : Node} (found : tree.find path = .ok node) :
    path.utf8ByteSize ≤ pathLimit := by
  rw [find, resolve, checkPath] at found
  split at found
  next => cases found
  next walked =>
    split at walked
    next => cases walked
    next checked =>
      split at checked
      next => cases checked
      next =>
        split at checked
        next => cases checked
        next =>
          split at checked
          next => cases checked
          next short => exact Nat.not_lt.mp short

theorem lex_irrefl (names : List String) : ¬ List.Lex Utf8.Before names names := by
  induction names with
  | nil => nofun
  | cons name rest ih =>
    rintro (_ | before | later)
    · exact lt_irrefl name (Utf8.before_iff.mp before)
    · exact ih later

theorem nodup_of_ordered {found : List (List String)} (ordered : found.Pairwise (List.Lex Utf8.Before)) : found.Nodup := by
  refine ordered.imp ?_
  rintro names _ before rfl
  exact lex_irrefl names before

theorem expand_expands (tree : Tree) (input : String) : Expands tree input (expand tree input) := by
  rw [expand]
  split
  next entries found =>
    obtain ⟨names, lists⟩ := exists_lists_directory "" (Tree.size_of_find found)
      fun first node _ path => exists_lists node path first
    refine .directory found ⟨lists.congr fun _ => reaches_iff, fun plain => ?_⟩
    have spelled : ((logsByName input entries).flatMap (·.2)).map Path.names = names.map (Path.names input ++ ·) := by
      rw [lists.paths, List.map_map]
      exact List.map_congr_left fun leads member => Path.names_below (plain leads member) input
    have ordered : (((logsByName input entries).flatMap (·.2)).map Path.names).Pairwise (List.Lex Utf8.Before) := by
      rw [spelled]
      exact lists.ordered.map _ fun first second before => before.append_left _ _
    exact ⟨ordered, (nodup_of_ordered ordered).of_map Path.names⟩
  next other => exact .itself other

/-- Inputs stand for their logs one after another. -/
theorem collectLogs_expands (tree : Tree) (inputs : List String) :
    ∃ lists, collectLogs tree inputs = lists.flatten ∧ List.Forall₂ (Expands tree) inputs lists := by
  refine ⟨inputs.map (expand tree), List.flatMap_def, ?_⟩
  exact List.forall₂_map_right_iff.mpr (List.forall₂_same.mpr fun input _ => expand_expands tree input)

/-- The working directory by a path as long as wanted. -/
def dotted : Nat → String
  | 0 => "."
  | count + 1 => "./" ++ dotted count

theorem toList_dotted (count : Nat) : (dotted (count + 1)).toList = '.' :: '/' :: (dotted count).toList := by
  rw [dotted, String.toList_append]
  rfl

theorem size_dotted (count : Nat) : (dotted count).utf8ByteSize = 2 * count + 1 := by
  induction count with
  | zero => rfl
  | succ count ih =>
    rw [dotted, String.utf8ByteSize_append, ih, show "./".utf8ByteSize = 2 from rfl]
    omega

theorem names_dotted (count : Nat) : Path.names (dotted count) = List.replicate (count + 1) "." := by
  induction count with
  | zero => decide +kernel
  | succ count ih =>
    have cut : Path.split (dotted (count + 1)).toList = ['.'] :: Path.split (dotted count).toList := by
      rw [toList_dotted]
      exact Path.split_append ['.'] _
    rw [Path.names, cut, List.replicate_succ, ← ih]
    rfl

theorem writable_dotted (count : Nat) : '\x00' ∉ (dotted count).toList := by
  induction count with
  | zero => decide
  | succ count ih =>
    rw [toList_dotted]
    simpa using ih

theorem walk_dots (entries : List (String × Node)) (count : Nat) :
    Tree.walk (.directory entries) [] (List.replicate count ".") = .ok [] := by
  induction count with
  | zero => rfl
  | succ count ih => exact ih

theorem find_dotted {entries : List (String × Node)} {count : Nat} (short : 2 * count + 1 ≤ pathLimit) :
    Tree.find { top := .directory entries } (dotted count) = .ok (.directory entries) := by
  have filled : (dotted count).isEmpty = false := by
    rw [String.isEmpty_eq_false_iff]
    intro empty
    have size := size_dotted count
    rw [empty, String.utf8ByteSize_empty] at size
    omega
  have checked : Tree.checkPath (dotted count) = .ok () := by
    rw [Tree.checkPath, if_neg (by simpa using writable_dotted count), filled, size_dotted,
      if_neg (Nat.not_lt.mpr short)]
    rfl
  have start : Tree.start { top := .directory entries } (dotted count) = [] := ite_self _
  simp only [Tree.find, Tree.resolve, checked, start, names_dotted, List.nil_append, walk_dots]
  simp [Trail.last, Node.isDirectory]

def nestedTree : Tree := { top := .directory [("d", .directory [("x.jsonl", .ofBytes [])])] }

theorem unlisted_log : ¬ ∀ (tree : Tree) (input : String) (entries : List (String × Node)),
    tree.find input = .ok (.directory entries) → ∀ names opened,
      (Node.directory entries).child? names = some (.file opened) →
      (∀ name ∈ names.getLast?, Path.HasLogExtension name) → Path.below input names ∈ collectLogs tree [input] := by
  intro listed
  have found : nestedTree.find (dotted 2047) = .ok nestedTree.top := find_dotted (by decide)
  have log : Path.HasLogExtension "x.jsonl" := Path.isLog_iff.mp (by decide +kernel)
  have member := listed nestedTree (dotted 2047) _ found ["d", "x.jsonl"] _ rfl (by simpa using log)
  have long : pathLimit < (Path.join (dotted 2047) "d").utf8ByteSize := by
    have size := Path.size_join (dotted 2047) "d"
    rw [size_dotted] at size
    exact size
  have none : collectLogs nestedTree [dotted 2047] = [] := by
    rw [collectLogs, List.flatMap_singleton, expand, found]
    simp only [nestedTree, logsByName, logsBelow, if_pos long, Dictionary.insert, List.flatMap_cons, List.flatMap_nil,
      List.append_nil]
  rw [none] at member
  cases member

end StateAudit.Files
