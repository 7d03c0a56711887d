import Webserv.Effects.Saving

/-!
# Names and nodes

A stream stays with the node that it was opened on, also when the name it was opened under is removed and
given to another node.  One client on its own never sees that: it holds one stream, and nobody takes its
name away.  With several uploads it decides what ends up at a target, so that a `Disk` keeps the nodes apart
from the names.

* `Disk.files`: the file system of a disk.
* `Disk.create`, `Disk.append`, `Disk.remove`, `Disk.rename`, `Disk.save`: the calls that an upload makes.
* `files_create`, ..., `files_save`: they are those of the file system, as long as no other entry leads to
  the node of the temporary file.

## Why the disk has a parameter

`entry` says how the kernel resolves names, as the field of a `FileSystem` does.  Two uploads can meet at one
file under two names, `/x` and `/./x`, and whether they do is a matter of the directories and not of the
strings.  So a disk is a map from entries to nodes, and every call looks its name up first.  The uploads make
no directories and no links, so that `entry` is the same for all of a run; that is why it is a parameter of
the type, where a field would need a lemma for each call.  Nothing is assumed of it.
-/

namespace Webserv

/-- The entries of the directories, and the nodes they lead to.  A name `path` is the entry
`entry (cstr path)`.  No entry leads to a node that is still to come. -/
structure Disk (entry : Bytes → Bytes) where
  names : Bytes → Option Nat
  nodes : Nat → Node
  /-- The node that is created next. -/
  fresh : Nat
  lt_fresh : ∀ {path : Bytes} {n : Nat}, names path = some n → n < fresh

namespace Disk

variable {entry : Bytes → Bytes}

/-- What the names lead to: the file system that the program sees, without the numbers of the nodes. -/
def files (d : Disk entry) : FileSystem where
  table e := (d.names e).map d.nodes
  entry := entry

@[simp] theorem entry_files (d : Disk entry) : d.files.entry = entry := rfl

@[simp] theorem table_files (d : Disk entry) (e : Bytes) :
    d.files.table e = (d.names e).map d.nodes := rfl

@[simp] theorem node_files (d : Disk entry) (path : Bytes) :
    d.files.node path = (d.names (entry path)).map d.nodes := rfl

/-! ## Calls -/

/-- The disk with another node at a number.  A stream writes by the number, whatever its name leads to by
then. -/
def setNode (d : Disk entry) (n : Nat) (node : Node) : Disk entry :=
  { d with nodes := Function.update d.nodes n node }

/-- The disk without the entry of a name.  The node stays, since a stream may still be open on it. -/
def unlink (d : Disk entry) (path : Bytes) : Disk entry where
  names := Function.update d.names (entry (cstr path)) none
  nodes := d.nodes
  fresh := d.fresh
  lt_fresh {p n} h := by
    by_cases hp : p = entry (cstr path)
    · rw [hp, Function.update_self] at h
      cases h
    · rw [Function.update_of_ne hp] at h
      exact d.lt_fresh h

/-- The disk with a new and empty file. -/
def add (d : Disk entry) (path : Bytes) : Disk entry where
  names := Function.update d.names (entry (cstr path)) (some d.fresh)
  nodes := Function.update d.nodes d.fresh { kind := .regular [] }
  fresh := d.fresh + 1
  lt_fresh {p n} h := by
    by_cases hp : p = entry (cstr path)
    · rw [hp, Function.update_self] at h
      cases h
      exact Nat.lt_succ_self _
    · rw [Function.update_of_ne hp] at h
      exact Nat.lt_succ_of_lt (d.lt_fresh h)

/-- The disk where `new` leads to where `old` led.  What `new` led to before has no name any more. -/
def move (d : Disk entry) (old new : Bytes) : Disk entry where
  names := Function.update (Function.update d.names (entry (cstr old)) none) (entry (cstr new))
    (d.names (entry (cstr old)))
  nodes := d.nodes
  fresh := d.fresh
  lt_fresh {p n} h := by
    by_cases hnew : p = entry (cstr new)
    · rw [hnew, Function.update_self] at h
      exact d.lt_fresh h
    · rw [Function.update_of_ne hnew] at h
      exact (d.unlink old).lt_fresh h

/-- `std::ofstream::open` with `out | trunc`: the disk after it and the node of the stream. -/
def create (d : Disk entry) (sys : Sys) (path : Bytes) : Option (Disk entry × Nat) :=
  if sys.createFails (cstr path) then none
  else
    match d.names (entry (cstr path)) with
    | none => some (d.add path, d.fresh)
    | some n =>
      match (d.nodes n).kind with
      | .regular _ =>
        if (d.nodes n).writable then some (d.setNode n { d.nodes n with kind := .regular [] }, n) else none
      | _ => none

/-- `std::ofstream::write`: bytes at the end of the node of the stream. -/
def append (d : Disk entry) (n : Nat) (data : Bytes) : Disk entry :=
  match (d.nodes n).kind with
  | .regular content => d.setNode n { d.nodes n with kind := .regular (content ++ data) }
  | _ => d

/-- `std::remove`: whether it succeeded, and the disk after it. -/
def remove (d : Disk entry) (sys : Sys) (path : Bytes) : Bool × Disk entry :=
  if (d.names (entry (cstr path))).isSome ∧ ¬ sys.removeFails (cstr path) then (true, d.unlink path)
  else (false, d)

/-- `std::rename`: whether it succeeded, and the disk after it.  It does nothing when both names lead to
the same node. -/
def rename (d : Disk entry) (sys : Sys) (old new : Bytes) : Bool × Disk entry :=
  if (d.names (entry (cstr old))).isNone ∨ sys.renameFails (cstr old) then (false, d)
  else if d.names (entry (cstr new)) = d.names (entry (cstr old)) then (true, d)
  else (true, d.move old new)

/-- `access`, and `std::remove` if the name leads somewhere. -/
def withoutPath (d : Disk entry) (sys : Sys) (path : Bytes) : Disk entry :=
  if (d.names (entry (cstr path))).isSome then (d.remove sys path).2 else d

/-- The calls of `_saveFile`: the target is removed, the temporary file renamed to it, and its name
removed.  The answer is that of `std::rename`. -/
def save (d : Disk entry) (sys : Sys) (path tmp : Bytes) : Bool × Disk entry :=
  let renamed := (d.withoutPath sys path).rename sys tmp path
  (renamed.1, (renamed.2.remove sys tmp).2)

/-! ## Names after a call -/

variable {d : Disk entry} {sys : Sys} {path old new tmp p : Bytes} {n : Nat} {data : Bytes}

@[simp] theorem names_setNode (node : Node) : (d.setNode n node).names = d.names := rfl

@[simp] theorem names_append : (d.append n data).names = d.names := by
  unfold append
  split <;> rfl

@[simp] theorem fresh_append : (d.append n data).fresh = d.fresh := by
  unfold append
  split <;> rfl

theorem nodes_append_of_ne {m : Nat} (hne : m ≠ n) : (d.append n data).nodes m = d.nodes m := by
  unfold append
  split
  · exact Function.update_of_ne hne _ _
  · rfl

theorem kind_append {content : Bytes} (hkind : (d.nodes n).kind = .regular content) :
    ((d.append n data).nodes n).kind = .regular (content ++ data) := by
  unfold append
  rw [hkind]
  simp [setNode]

@[simp] theorem names_unlink_self : (d.unlink path).names (entry (cstr path)) = none :=
  Function.update_self ..

@[simp] theorem names_add_self : (d.add path).names (entry (cstr path)) = some d.fresh :=
  Function.update_self ..

theorem names_add_of_ne (hne : p ≠ entry (cstr path)) : (d.add path).names p = d.names p :=
  Function.update_of_ne hne ..

@[simp] theorem nodes_add_self : (d.add path).nodes d.fresh = { kind := .regular [] } :=
  Function.update_self ..

theorem nodes_add_of_lt (hlt : n < d.fresh) : (d.add path).nodes n = d.nodes n :=
  Function.update_of_ne (Nat.ne_of_lt hlt) ..

theorem names_unlink_of_ne (hne : p ≠ entry (cstr path)) : (d.unlink path).names p = d.names p :=
  Function.update_of_ne hne ..

@[simp] theorem names_move_new : (d.move old new).names (entry (cstr new)) = d.names (entry (cstr old)) :=
  Function.update_self ..

theorem names_move_of_ne (hnew : p ≠ entry (cstr new)) :
    (d.move old new).names p = (d.unlink old).names p :=
  Function.update_of_ne hnew ..

theorem remove_cases (d : Disk entry) (sys : Sys) (path : Bytes) :
    d.remove sys path = (true, d.unlink path) ∧ sys.removeFails (cstr path) = false ∨
      d.remove sys path = (false, d) ∧
        (d.names (entry (cstr path)) = none ∨ sys.removeFails (cstr path) = true) := by
  unfold remove
  by_cases hgone : (d.names (entry (cstr path))).isSome ∧ ¬ sys.removeFails (cstr path)
  · rw [if_pos hgone]
    exact Or.inl ⟨rfl, by simpa using hgone.2⟩
  · rw [if_neg hgone]
    refine Or.inr ⟨rfl, ?_⟩
    rw [not_and_or, not_not] at hgone
    exact hgone.imp_left fun hnone => by simpa using hnone

@[simp] theorem nodes_remove : (d.remove sys path).2.nodes = d.nodes := by
  rcases remove_cases d sys path with ⟨heq, -⟩ | ⟨heq, -⟩ <;> simp [heq, unlink]

@[simp] theorem fresh_remove : (d.remove sys path).2.fresh = d.fresh := by
  rcases remove_cases d sys path with ⟨heq, -⟩ | ⟨heq, -⟩ <;> simp [heq, unlink]

theorem names_remove_of_ne (hne : p ≠ entry (cstr path)) : (d.remove sys path).2.names p = d.names p := by
  rcases remove_cases d sys path with ⟨heq, -⟩ | ⟨heq, -⟩ <;> rw [heq]
  exact names_unlink_of_ne hne

/-- A removal takes names away, and gives none: whatever leads to a file afterwards led to it before. -/
theorem names_of_remove (hname : (d.remove sys path).2.names p = some n) : d.names p = some n := by
  rcases remove_cases d sys path with ⟨heq, -⟩ | ⟨heq, -⟩ <;> rw [heq] at hname
  · by_cases hp : p = entry (cstr path)
    · rw [hp, names_unlink_self] at hname
      cases hname
    · rwa [names_unlink_of_ne hp] at hname
  · exact hname

/-- The test before the call makes no difference to the disk. -/
theorem withoutPath_eq (d : Disk entry) (sys : Sys) (path : Bytes) :
    d.withoutPath sys path = (d.remove sys path).2 := by
  unfold withoutPath
  split_ifs with hsome
  · rfl
  · unfold remove
    rw [if_neg fun hgone => hsome hgone.1]

theorem rename_cases (d : Disk entry) (sys : Sys) (old new : Bytes) :
    d.rename sys old new = (false, d) ∨
      d.rename sys old new = (true, d) ∧ d.names (entry (cstr new)) = d.names (entry (cstr old)) ∨
      d.rename sys old new = (true, d.move old new) ∧ entry (cstr new) ≠ entry (cstr old) := by
  unfold rename
  split_ifs with hfails hsame
  · exact Or.inl rfl
  · exact Or.inr (Or.inl ⟨rfl, hsame⟩)
  · exact Or.inr (Or.inr ⟨rfl, fun heq => hsame (by rw [heq])⟩)

theorem isSome_of_rename (hrenamed : (d.rename sys old new).1 = true) :
    (d.names (entry (cstr old))).isSome = true := by
  unfold rename at hrenamed
  cases hold : d.names (entry (cstr old)) with
  | none =>
    have hnone : (none : Option Nat).isNone = true ∨ sys.renameFails (cstr old) = true := Or.inl rfl
    rw [hold, if_pos hnone] at hrenamed
    cases hrenamed
  | some n => rfl

theorem names_rename_new (hrenamed : (d.rename sys old new).1 = true) :
    (d.rename sys old new).2.names (entry (cstr new)) = d.names (entry (cstr old)) := by
  rcases rename_cases d sys old new with heq | ⟨heq, hsame⟩ | ⟨heq, -⟩ <;> rw [heq] at hrenamed ⊢
  · cases hrenamed
  · exact hsame
  · exact names_move_new

@[simp] theorem nodes_rename : (d.rename sys old new).2.nodes = d.nodes := by
  rcases rename_cases d sys old new with heq | ⟨heq, -⟩ | ⟨heq, -⟩ <;> simp [heq, move]

@[simp] theorem fresh_rename : (d.rename sys old new).2.fresh = d.fresh := by
  rcases rename_cases d sys old new with heq | ⟨heq, -⟩ | ⟨heq, -⟩ <;> simp [heq, move]

theorem names_rename_of_ne (hold : p ≠ entry (cstr old)) (hnew : p ≠ entry (cstr new)) :
    (d.rename sys old new).2.names p = d.names p := by
  rcases rename_cases d sys old new with heq | ⟨heq, -⟩ | ⟨heq, -⟩ <;> rw [heq]
  exact (names_move_of_ne hnew).trans (names_unlink_of_ne hold)

/-- A node is under a name that it had before, or was renamed to it. -/
theorem names_of_rename (hname : (d.rename sys old new).2.names p = some n) :
    d.names p = some n ∨ p = entry (cstr new) ∧ d.names (entry (cstr old)) = some n := by
  rcases rename_cases d sys old new with heq | ⟨heq, -⟩ | ⟨heq, -⟩ <;> rw [heq] at hname
  · exact Or.inl hname
  · exact Or.inl hname
  · by_cases hnew : p = entry (cstr new)
    · rw [hnew, names_move_new] at hname
      exact Or.inr ⟨hnew, hname⟩
    · rw [names_move_of_ne hnew] at hname
      by_cases hold : p = entry (cstr old)
      · rw [hold, names_unlink_self] at hname
        cases hname
      · rw [names_unlink_of_ne hold] at hname
        exact Or.inl hname

/-! ## A save -/

theorem save_eq (d : Disk entry) (sys : Sys) (path tmp : Bytes) :
    d.save sys path tmp = (((d.remove sys path).2.rename sys tmp path).1,
      (((d.remove sys path).2.rename sys tmp path).2.remove sys tmp).2) := by
  rw [← withoutPath_eq]
  rfl

@[simp] theorem nodes_save : (d.save sys path tmp).2.nodes = d.nodes := by simp [save_eq]

@[simp] theorem fresh_save : (d.save sys path tmp).2.fresh = d.fresh := by simp [save_eq]

theorem names_save_of_ne (hpath : p ≠ entry (cstr path)) (htmp : p ≠ entry (cstr tmp)) :
    (d.save sys path tmp).2.names p = d.names p := by
  rw [save_eq]
  dsimp only
  rw [names_remove_of_ne htmp, names_rename_of_ne htmp hpath, names_remove_of_ne hpath]

/-- A node is under a name that it had before, or it is that of the temporary file. -/
theorem names_of_save (hname : (d.save sys path tmp).2.names p = some n) :
    d.names p = some n ∨ p = entry (cstr path) ∧ d.names (entry (cstr tmp)) = some n := by
  rw [save_eq] at hname
  rcases names_of_rename (names_of_remove hname) with hname | ⟨hp, hname⟩
  · exact Or.inl (names_of_remove hname)
  · exact Or.inr ⟨hp, names_of_remove hname⟩

/-- After a save the name of the temporary file leads nowhere, or still to the same node. -/
theorem names_save_tmp (d : Disk entry) (sys : Sys) (path tmp : Bytes) :
    (d.save sys path tmp).2.names (entry (cstr tmp)) = none ∨
      (d.save sys path tmp).2.names (entry (cstr tmp)) = d.names (entry (cstr tmp)) := by
  cases hname : (d.save sys path tmp).2.names (entry (cstr tmp)) with
  | none => exact Or.inl rfl
  | some n =>
    right
    rcases names_of_save hname with hbefore | ⟨-, hbefore⟩ <;> exact hbefore.symm

/-- **A save whose rename succeeds** leaves the target at the node of the temporary file, unless the two
are different names of one entry. -/
theorem names_save_path (hnames : entry (cstr path) = entry (cstr tmp) → cstr path = cstr tmp)
    (hrenamed : (d.save sys path tmp).1 = true) :
    (d.save sys path tmp).2.names (entry (cstr path)) = d.names (entry (cstr tmp)) := by
  rw [save_eq] at hrenamed ⊢
  dsimp only at hrenamed ⊢
  obtain ⟨n, hn⟩ := Option.isSome_iff_exists.mp (isSome_of_rename hrenamed)
  have hpath := (names_rename_new hrenamed).trans hn
  rw [names_of_remove hn]
  by_cases hsame : entry (cstr path) = entry (cstr tmp)
  · -- the target is the temporary file, and could not be removed
    have hfails : sys.removeFails (cstr tmp) = true := by
      rcases remove_cases d sys path with ⟨heq, -⟩ | ⟨heq, hnone | hfails⟩ <;> rw [heq] at hn
      · rw [← hsame, names_unlink_self] at hn
        cases hn
      · rw [hsame, hn] at hnone
        cases hnone
      · rwa [hnames hsame] at hfails
    rcases remove_cases ((d.remove sys path).2.rename sys tmp path).2 sys tmp with ⟨-, hnot⟩ | ⟨heq, -⟩
    · rw [hfails] at hnot
      cases hnot
    · rw [heq, hpath]
  · rw [names_remove_of_ne hsame, hpath]

/-! ## The file system of a disk -/

/-- No other name leads to the same node, so that writing to it changes this file only. -/
def Sole (d : Disk entry) (path : Bytes) : Prop :=
  ∀ p n, d.names (entry (cstr path)) = some n → d.names p = some n → p = entry (cstr path)

theorem Sole.names_ne (hsole : d.Sole path) (hn : d.names (entry (cstr path)) = some n)
    (hne : p ≠ entry (cstr path)) : d.names p ≠ some n := fun hp => hne (hsole p n hn hp)

theorem Sole.remove (hsole : d.Sole path) (sys : Sys) (old : Bytes) : (d.remove sys old).2.Sole path :=
  fun p n hn hp => hsole p n (names_of_remove hn) (names_of_remove hp)

theorem access_files : d.files.access path .exists = (d.names (entry (cstr path))).isSome := by
  rw [FileSystem.access_exists, node_files, Option.isSome_map]

theorem table_update_files (node : Option Node) :
    (d.files.update path node).table (entry (cstr path)) = node :=
  FileSystem.table_update_self node

theorem table_update_files_of_ne {e : Bytes} (hne : e ≠ entry (cstr path)) (node : Option Node) :
    (d.files.update path node).table e = (d.names e).map d.nodes :=
  FileSystem.table_update_of_ne hne node

theorem files_unlink : (d.unlink path).files = d.files.without path := by
  ext e : 2
  · by_cases he : e = entry (cstr path)
    · rw [he, FileSystem.without, table_update_files, table_files, names_unlink_self]
      rfl
    · rw [FileSystem.without, table_update_files_of_ne he, table_files, names_unlink_of_ne he]
      rfl
  · rfl

/-- A node of a sole name is changed under that name only. -/
theorem files_setNode (hsole : d.Sole path) (hn : d.names (entry (cstr path)) = some n) (node : Node) :
    (d.setNode n node).files = d.files.update path (some node) := by
  ext e : 2
  · rw [table_files, names_setNode]
    by_cases he : e = entry (cstr path)
    · rw [he, hn, table_update_files]
      exact congrArg some (Function.update_self ..)
    · rw [table_update_files_of_ne he]
      refine Option.map_congr fun m hm => Function.update_of_ne ?_ ..
      rintro rfl
      exact hsole.names_ne hn he hm
  · rfl

theorem files_remove (d : Disk entry) (sys : Sys) (path : Bytes) :
    (d.remove sys path).1 = (sys.remove d.files path).1 ∧
      (d.remove sys path).2.files = (sys.remove d.files path).2 := by
  unfold remove Sys.remove
  rw [node_files, Option.isSome_map]
  by_cases hgone : (d.names (entry (cstr path))).isSome ∧ ¬ sys.removeFails (cstr path)
  · rw [if_pos hgone, if_pos hgone]
    exact ⟨rfl, files_unlink⟩
  · rw [if_neg hgone, if_neg hgone]
    exact ⟨rfl, rfl⟩

theorem files_move (d : Disk entry) (old new : Bytes) :
    (d.move old new).files =
      (d.files.update old none).update new ((d.names (entry (cstr old))).map d.nodes) := by
  ext e : 2
  · by_cases hnew : e = entry (cstr new)
    · rw [hnew, table_files, names_move_new]
      exact (@FileSystem.table_update_self (d.files.update old none) new _).symm
    · rw [table_files, names_move_of_ne hnew]
      refine Eq.trans ?_ (@FileSystem.table_update_of_ne (d.files.update old none) new e hnew _).symm
      exact congrFun (congrArg FileSystem.table files_unlink) e
  · rfl

theorem files_rename (sys : Sys) (new : Bytes) (hsole : d.Sole old) :
    (d.rename sys old new).1 = (sys.rename d.files old new).1 ∧
      (d.rename sys old new).2.files = (sys.rename d.files old new).2 := by
  unfold rename Sys.rename
  rw [node_files]
  cases hold : d.names (entry (cstr old)) with
  | none => exact ⟨rfl, rfl⟩
  | some n =>
    dsimp only [Option.map_some]
    by_cases hfails : sys.renameFails (cstr old) = true
    · rw [if_pos (Or.inr hfails), if_pos hfails]
      exact ⟨rfl, rfl⟩
    · have hsome : ¬ ((some n).isNone = true ∨ sys.renameFails (cstr old) = true) :=
        not_or.mpr ⟨Bool.false_ne_true, hfails⟩
      rw [if_neg hsome, if_neg hfails]
      by_cases hsame : d.names (entry (cstr new)) = some n
      · -- then `new` is `old`, which is removed and put back
        rw [if_pos hsame]
        refine ⟨rfl, ?_⟩
        have hmove := files_move d old new
        rw [hold] at hmove
        rw [← Option.map_some, ← hmove]
        ext e : 2
        · rw [table_files, table_files]
          by_cases he : e = entry (cstr new)
          · rw [he, names_move_new, hsame, hold]
            rfl
          · rw [names_move_of_ne he]
            rw [hsole _ n hold hsame] at he
            rw [names_unlink_of_ne he]
            rfl
        · rfl
      · rw [if_neg hsame]
        refine ⟨rfl, (files_move d old new).trans ?_⟩
        rw [hold]
        rfl

theorem files_create (sys : Sys) (hnone : d.names (entry (cstr path)) = none) :
    (d.create sys path).map (fun r => r.1.files) = Handler.createFile sys d.files path := by
  unfold create Handler.createFile
  rw [node_files, hnone]
  split_ifs
  · rfl
  · refine congrArg some ?_
    ext e : 2
    · by_cases he : e = entry (cstr path)
      · rw [he, table_update_files, table_files, names_add_self, Option.map_some, nodes_add_self]
      · rw [table_update_files_of_ne he, table_files, names_add_of_ne he]
        exact Option.map_congr fun m hm => nodes_add_of_lt (d.lt_fresh hm)
    · rfl

theorem files_append (hsole : d.Sole path) (hn : d.names (entry (cstr path)) = some n) (data : Bytes) :
    (d.append n data).files = d.files.append path data := by
  unfold append FileSystem.append
  rw [node_files, hn]
  dsimp only [Option.map_some]
  cases (d.nodes n).kind with
  | regular content => exact files_setNode hsole hn _
  | directory entries => rfl
  | other => rfl

/-- **A save of the disk** is that of the file system, when no other name leads to the temporary file. -/
theorem files_save {h : Handler} (sys : Sys) (hfs : h.context.world.fs = d.files)
    (hsole : d.Sole h.request.tmpFilename.str) :
    (d.save sys h.request.path.str h.request.tmpFilename.str).2.files =
      (Handler.publish sys h).context.world.fs := by
  have hfirst : Handler.withoutTarget sys h = (d.remove sys h.request.path.str).2.files := by
    unfold Handler.withoutTarget Path.access
    rw [hfs, access_files, (files_remove d sys _).2]
    split_ifs with hsome
    · rfl
    · unfold Sys.remove
      rw [if_neg fun hgone => hsome (by simpa using hgone.1)]
  rw [save_eq, Handler.publish_fs, hfirst, (files_remove _ sys _).2,
    (files_rename sys h.request.path.str (hsole.remove sys h.request.path.str)).2]

end Disk
end Webserv
