import StateAudit.Delivery
import StateAudit.Proofs.DictionaryEntries

/-! Where paths lead in a file tree. What is written to a path is read back from it: a new file takes the
place of a file or of nothing, so every directory is still there, and the path leads where it led before. -/

namespace StateAudit.Files

namespace Node

theorem child?_append (node : Node) (names others : List String) :
    node.child? (names ++ others) = (node.child? names).bind (·.child? others) := by
  induction names generalizing node with
  | nil => rfl
  | cons name rest ih =>
    cases node with
    | directory entries =>
      rw [List.cons_append, child?, child?, Option.bind_assoc]
      exact congrArg _ (funext fun below => ih below)
    | file opened => rfl
    | socket => rfl

theorem child?_put (top : Node) (names : List String) (node : Node) :
    (top.put names node).child? names = some node := by
  induction names generalizing top with
  | nil => rfl
  | cons name rest ih =>
    rw [put, child?, ← Dictionary.get?, Dictionary.get?_insert, if_pos rfl, Option.bind_some, ih]

def IsDirectory (top : Node) (names : List String) : Prop := ∃ entries, top.child? names = some (.directory entries)

/-- A node that is put where no directory is leaves every directory in place. -/
theorem isDirectory_put {top : Node} {names : List String} (free : ¬ top.IsDirectory names) (node : Node)
    {others : List String} (held : top.IsDirectory others) : (top.put names node).IsDirectory others := by
  induction names generalizing top others with
  | nil =>
    obtain ⟨entries, held⟩ := held
    have above : top.IsDirectory [] := by
      cases others with
      | nil => exact ⟨entries, held⟩
      | cons name rest =>
        cases top with
        | directory listed => exact ⟨listed, rfl⟩
        | file opened => cases held
        | socket => cases held
    exact absurd above free
  | cons name rest ih =>
    cases others with
    | nil => exact ⟨_, rfl⟩
    | cons other below =>
      obtain ⟨entries, held⟩ := held
      cases top with
      | file opened => cases held
      | socket => cases held
      | directory listed =>
        rw [child?, Option.bind_eq_some_iff] at held
        obtain ⟨inner, found, held⟩ := held
        rw [IsDirectory, put, child?, ← Dictionary.get?, Dictionary.get?_insert]
        split
        next same =>
          subst same
          have within : ¬ inner.IsDirectory rest := by
            rintro ⟨deeper, reached⟩
            exact free ⟨deeper, by rw [child?, found, Option.bind_some, reached]⟩
          rw [entriesOf, found]
          exact ih within ⟨entries, held⟩
        next => exact ⟨entries, by rw [entriesOf, Dictionary.get?, found, Option.bind_some, held]⟩

end Node

/-- A trail that leads down from the top, each node in the directory before it. -/
inductive Trail.Leads (top : Node) : Trail → Prop
  | top : Leads top []
  | into {trail : Trail} {entries : List (String × Node)} {name : String} {node : Node} : Leads top trail →
      trail.last top = .directory entries → entries.lookup name = some node → Leads top ((name, node) :: trail)

namespace Trail

theorem names_cons (name : String) (node : Node) (trail : Trail) :
    names ((name, node) :: trail) = trail.names ++ [name] := by
  simp [names]

theorem names_tail (trail : Trail) : names trail.tail = trail.names.dropLast := by
  cases trail with
  | nil => rfl
  | cons last trail => rw [names_cons, List.dropLast_concat, List.tail_cons]

namespace Leads
variable {top : Node} {trail : Trail}

theorem child? (leads : Leads top trail) : top.child? trail.names = some (trail.last top) := by
  induction leads with
  | top => rfl
  | into _ last found ih =>
    rw [names_cons, Node.child?_append, ih, last, Option.bind_some, Node.child?, found]
    rfl

/-- A trail leads to what is below its end. -/
theorem child?_below (leads : Leads top trail) (names : List String) :
    top.child? (trail.names ++ names) = (trail.last top).child? names := by
  rw [Node.child?_append, leads.child?, Option.bind_some]

theorem child?_concat (leads : Leads top trail) {entries : List (String × Node)}
    (last : trail.last top = .directory entries) (name : String) :
    top.child? (trail.names ++ [name]) = entries.lookup name := by
  rw [leads.child?_below, last, Node.child?]
  exact Option.bind_fun_some _

theorem tail (leads : Leads top trail) : Leads top trail.tail := by
  cases leads with
  | top => exact .top
  | into above _ _ => exact above

theorem isDirectory (leads : Leads top trail) {entries : List (String × Node)}
    (last : trail.last top = .directory entries) : top.IsDirectory trail.names :=
  ⟨entries, by rw [leads.child?, last]⟩

theorem last_of_isDirectory (leads : Leads top trail) (held : top.IsDirectory trail.names) :
    ∃ entries, trail.last top = .directory entries := by
  obtain ⟨entries, held⟩ := held
  exact ⟨entries, Option.some.inj (leads.child?.symm.trans held)⟩

end Leads

end Trail

namespace Tree
variable {top : Node} {trail ended : Trail}

/-- A step of a walk begins in a directory, and stays there, goes up, or goes to one of its entries. -/
theorem walk_cons {name : String} {rest : List String} (walked : walk top trail (name :: rest) = .ok ended) :
    ∃ entries, trail.last top = .directory entries ∧
      (name = "." ∧ walk top trail rest = .ok ended ∨ name = ".." ∧ walk top trail.tail rest = .ok ended ∨
        name ≠ "." ∧ name ≠ ".." ∧ name.utf8ByteSize ≤ nameLimit ∧
          ∃ node, entries.lookup name = some node ∧ walk top ((name, node) :: trail) rest = .ok ended) := by
  rw [walk] at walked
  split at walked
  next entries last =>
    refine ⟨entries, last, ?_⟩
    split at walked
    next here => exact .inl ⟨here, walked⟩
    next notHere =>
      split at walked
      next up => exact .inr (.inl ⟨up, walked⟩)
      next notUp =>
        split at walked
        next => cases walked
        next short =>
          split at walked
          next node found => exact .inr (.inr ⟨notHere, notUp, not_lt.mp short, node, found, walked⟩)
          next => cases walked
  next => cases walked

theorem walk_into {entries : List (String × Node)} {name : String} {node : Node}
    (last : trail.last top = .directory entries) (notHere : name ≠ ".") (notUp : name ≠ "..")
    (short : name.utf8ByteSize ≤ nameLimit) (found : entries.lookup name = some node) (rest : List String) :
    walk top trail (name :: rest) = walk top ((name, node) :: trail) rest := by
  rw [walk, last]
  simp only [notHere, notUp, not_lt.mpr short, found, ite_false]

theorem walk_leads {names : List String} (leads : trail.Leads top) (walked : walk top trail names = .ok ended) :
    ended.Leads top := by
  induction names generalizing trail with
  | nil =>
    obtain rfl := Except.ok.inj walked
    exact leads
  | cons name rest ih =>
    obtain ⟨entries, last, ⟨-, walked⟩ | ⟨-, walked⟩ | ⟨-, -, -, node, found, walked⟩⟩ := walk_cons walked
    · exact ih leads walked
    · exact ih leads.tail walked
    · exact ih (leads.into last found) walked

/-- A walk that ends in a directory also begins in one. -/
theorem walk_directory {names : List String} {entries : List (String × Node)}
    (walked : walk top trail names = .ok ended) (last : ended.last top = .directory entries) :
    ∃ entries, trail.last top = .directory entries := by
  cases names with
  | nil =>
    obtain rfl := Except.ok.inj walked
    exact ⟨entries, last⟩
  | cons name rest =>
    obtain ⟨listed, first, -⟩ := walk_cons walked
    exact ⟨listed, first⟩

/-- Where all directories are still there, a walk to one of them leads there again. -/
theorem walk_keeps {top' : Node} (keeps : ∀ names, top.IsDirectory names → top'.IsDirectory names)
    {names : List String} {trail' : Trail} {entries : List (String × Node)} (leads : trail.Leads top)
    (leads' : trail'.Leads top') (same : trail'.names = trail.names) (walked : walk top trail names = .ok ended)
    (last : ended.last top = .directory entries) :
    ∃ ended' : Trail, walk top' trail' names = .ok ended' ∧ ended'.names = ended.names := by
  induction names generalizing trail trail' with
  | nil =>
    obtain rfl := Except.ok.inj walked
    exact ⟨trail', rfl, same⟩
  | cons name rest ih =>
    obtain ⟨listed, first, step⟩ := walk_cons walked
    obtain ⟨listed', first'⟩ := leads'.last_of_isDirectory (same ▸ keeps _ (leads.isDirectory first))
    obtain ⟨here, walked⟩ | ⟨up, walked⟩ | ⟨notHere, notUp, short, node, found, walked⟩ := step
    · rw [walk, first']
      simp only [here, ite_true]
      exact ih leads leads' same walked
    · rw [walk, first']
      simp only [up, show ".." ≠ "." by decide, ite_true, ite_false]
      refine ih leads.tail leads'.tail ?_ walked
      rw [Trail.names_tail, Trail.names_tail, same]
    · -- A name that the walk goes on from is that of a directory, so the other tree has it too.
      have below := leads.into first found
      obtain ⟨inner, held⟩ := walk_directory walked last
      obtain ⟨kept, found'⟩ := keeps _ (below.isDirectory held)
      rw [Trail.names_cons, ← same, leads'.child?_concat first'] at found'
      rw [walk_into first' notHere notUp short found']
      exact ih below (leads'.into first' found') (by rw [Trail.names_cons, Trail.names_cons, same]) walked

variable {tree : Tree} {path name : String} {names : List String}

theorem isPresent_of_openRead {handle : Handle} (opened : tree.openRead path = .ok handle) :
    tree.isPresent path = true := by
  rw [openRead] at opened
  rw [isPresent]
  cases found : tree.find path with
  | error fault =>
    rw [found] at opened
    cases opened
  | ok node => rfl

end Tree

end StateAudit.Files

namespace StateAudit
variable {tree after : Files.Tree} {path report : String}

end StateAudit
