import Webserv.Bytes

/-!
# The operating system

What the program sees of the world, as one state and one record of answers.

* `FileSystem`: what is on the disk, and how names lead there.  It is a state: the calls of the program
  change it.
* `Sys`: what the kernel answers during one call into a client, how many bytes `recv` and `send` moved,
  which calls failed, the clock, the random suffixes.  Nothing ties the answers of one call to those of
  another, so that a theorem about every `Sys` covers every combination of them.

## Why names are resolved

The program compares names as strings, and the kernel does not: `/r/../x` and `/x` are one file, and so are
`/x` and `/./x`.  A model with one node for every string would keep apart what a request can make meet.
The file system therefore has two parts: `entry` takes a name to the directory entry that the kernel finds
for it, and `table` takes an entry to what is there.  Nothing is assumed of `entry`, so that the theorems
hold for every layout of directories, mount points and links to directories.  What the program does to a
file it does at the entry of the name, and `entry` stays as it is, because the program makes no directories
and no links, and DELETE and the uploads refuse a target that is a directory.  Another process may change
both parts.

## What is left out

`Sys` has the answers that the program looks at.  It does not look at the state of the `std::ofstream` of an
upload after the file was opened, and here writing to it and closing it always succeed: a disk that is full
is not modelled.  Neither is an entry that is itself a symbolic link, which `open` and `stat` follow and
`remove` and `rename` do not, nor two entries for one file, a hard link.
-/

namespace Webserv

/-! ## Files -/

/-- What a name leads to: a regular file with its bytes, a directory with its entries, or something else. -/
inductive NodeKind where
  | regular (content : Bytes)
  | directory (entries : List Bytes)
  | other
  deriving DecidableEq

/-- A node, with the permissions this process has on it: what `access`, `stat` and `open` ask about it. -/
structure Node where
  kind : NodeKind
  readable : Bool := true
  writable : Bool := true
  executable : Bool := true
  mtime : Int := 0
  dev : Nat := 0
  deriving DecidableEq

/-- What `stat` tells about a node, as far as the program looks at it: its kind, its size, its time and its
device. -/
structure Stat where
  isReg : Bool
  isDir : Bool
  size : Nat
  mtime : Int
  dev : Nat
  deriving DecidableEq

def Node.stat (n : Node) : Stat where
  isReg := match n.kind with | .regular _ => true | _ => false
  isDir := match n.kind with | .directory _ => true | _ => false
  size := match n.kind with | .regular content => content.length | _ => 0
  mtime := n.mtime
  dev := n.dev

/-- The file system: what the directory entries lead to, and the entry that the kernel finds for a name.
A name is a C string; the entries may be thought of as absolute names without `.`, `..` and links. -/
@[ext]
structure FileSystem where
  table : Bytes → Option Node
  entry : Bytes → Bytes := id

/-- What a name leads to, by way of the entry that it is resolved to. -/
def FileSystem.node (fs : FileSystem) (path : Bytes) : Option Node := fs.table (fs.entry path)

/-- The modes of `access`. -/
inductive AccessMode where
  | exists | read | write | execute
  deriving DecidableEq

namespace FileSystem

/-- `0 == access(path, mode)`: the name leads somewhere, and this process has the right. -/
def access (fs : FileSystem) (path : Bytes) (mode : AccessMode) : Bool :=
  match fs.node (cstr path), mode with
  | none, _ => false
  | some _, .exists => true
  | some n, .read => n.readable
  | some n, .write => n.writable
  | some n, .execute => n.executable

/-- Another node at the entry of a name, and so under every other name of that entry. -/
def update (fs : FileSystem) (path : Bytes) (n : Option Node) : FileSystem :=
  { fs with table := fun e => if e = fs.entry (cstr path) then n else fs.table e }

/-- Bytes appended to a regular file; nothing happens where there is none. -/
def append (fs : FileSystem) (path data : Bytes) : FileSystem :=
  match fs.node (cstr path) with
  | some n =>
    match n.kind with
    | .regular content => fs.update path (some { n with kind := .regular (content ++ data) })
    | _ => fs
  | none => fs

end FileSystem

/-! ## The answers of the kernel -/

abbrev Fd := Int

/-- `REQ_BUFFER_SIZE`. -/
abbrev reqBufferSize : Nat := 65536

/-- `REQ_DIR_BUFFER_SIZE`. -/
abbrev reqDirBufferSize : Nat := 128

/-- The bytes of one successful `recv`: at least one, at most the buffer. -/
structure Packet where
  bytes : Bytes
  ne_nil : bytes ≠ []
  length_le : bytes.length ≤ reqBufferSize

/-- The result of `recv`: at least one byte, the end of the stream, or an error. -/
inductive Recv where
  | data (p : Packet)
  | closed
  | error

/-- The result of `send`: the bytes taken, at most as many as were offered, or `-1`. -/
inductive Send where
  | accepted (n : Nat)
  | error

/-- The largest `time_t`, the initial value of the timestamps that are not armed. -/
abbrev timeMax : Int := 2 ^ 63 - 1

/-- The answers of the kernel during one call into a client. -/
structure Sys where
  now : Int
  recv : Recv
  send : Send
  /-- The `n`-th `send` of the run on the CGI socket. -/
  cgiSend : Nat → Send
  epollCtl : Fd → Bool
  /-- Whether `Server::addCGIToClientMap` finds the client. -/
  addCGI : Bool
  socketpair : Option (Nat × Nat)
  fork : Option Nat
  statFails : Bytes → Bool
  openFails : Bytes → Bool
  createFails : Bytes → Bool
  removeFails : Bytes → Bool
  renameFails : Bytes → Bool
  opendirFails : Bytes → Bool
  /-- The error of the `n`-th `readdir` of the call. -/
  readdirFails : Nat → Bool
  /-- The `n`-th random string of the call. -/
  random : Nat → Bytes
  /-- The bytes in memory after a buffer, for a write that reads past its end. -/
  overread : Nat → Byte
  /-- `strftime` of a local time, as `"%F %R"`. -/
  strftime : Int → Bytes
  now_nonneg : 0 ≤ now
  now_le : now ≤ timeMax

namespace Sys

/-- `stat`, which may fail for a file that is there. -/
def stat (sys : Sys) (fs : FileSystem) (path : Bytes) : Option Stat :=
  if sys.statFails (cstr path) then none else (fs.node (cstr path)).map Node.stat

/-- `std::remove`: whether it succeeded, and the file system after it. -/
def remove (sys : Sys) (fs : FileSystem) (path : Bytes) : Bool × FileSystem :=
  if (fs.node (cstr path)).isSome ∧ ¬ sys.removeFails (cstr path) then
    (true, fs.update path none)
  else (false, fs)

/-- `std::rename`: whether it succeeded, and the file system after it. -/
def rename (sys : Sys) (fs : FileSystem) (old new : Bytes) : Bool × FileSystem :=
  match fs.node (cstr old) with
  | some n =>
    if sys.renameFails (cstr old) then (false, fs)
    else (true, (fs.update old none).update new (some n))
  | none => (false, fs)

/-- The first `n` bytes from a buffer, read past its end when it is shorter. -/
def readMemory (sys : Sys) (buffer : Bytes) (n : Nat) : Bytes :=
  buffer.take n ++ (List.range (n - buffer.length)).map sys.overread

/-- Every call succeeds, nothing is received, one byte is sent, and the clock is at `now`. -/
def quiet (now : Nat) (h : decide ((now : Int) ≤ timeMax) = true := by exact Eq.refl true) : Sys where
  now := now
  recv := .closed
  send := .accepted 1
  cgiSend := fun _ => .accepted reqBufferSize
  epollCtl := fun _ => true
  addCGI := true
  socketpair := some (7, 8)
  fork := some 100
  statFails := fun _ => false
  openFails := fun _ => false
  createFails := fun _ => false
  removeFails := fun _ => false
  renameFails := fun _ => false
  opendirFails := fun _ => false
  readdirFails := fun _ => false
  random := fun _ => bytes "aaaaaaaa"
  overread := fun _ => 0
  strftime := fun _ => []
  now_nonneg := Int.natCast_nonneg now
  now_le := of_decide_eq_true h

/-- The same, with bytes received from the client. -/
def receiving (b : Bytes) (hne : b ≠ [] := by decide)
    (hle : b.length ≤ reqBufferSize := by decide) : Sys :=
  { Sys.quiet 0 with recv := .data ⟨b, hne, hle⟩ }

end Sys

theorem Sys.readMemory_of_le (sys : Sys) {buffer : Bytes} {n : Nat} (h : n ≤ buffer.length) :
    sys.readMemory buffer n = buffer.take n := by
  rw [readMemory, Nat.sub_eq_zero_of_le h, List.range_zero, List.map_nil, List.append_nil]

/-! ## What the calls change -/

namespace FileSystem

/-- The file system without what `path` leads to, and so without it under every other name of the entry. -/
def without (fs : FileSystem) (path : Bytes) : FileSystem := fs.update path none

variable {fs : FileSystem} {path : Bytes}

@[simp] theorem entry_update (n : Option Node) : (fs.update path n).entry = fs.entry := rfl

@[simp] theorem entry_without : (fs.without path).entry = fs.entry := rfl

@[simp] theorem table_update_self (n : Option Node) : (fs.update path n).table (fs.entry (cstr path)) = n :=
  if_pos rfl

theorem table_update_of_ne {e : Bytes} (hne : e ≠ fs.entry (cstr path)) (n : Option Node) :
    (fs.update path n).table e = fs.table e := if_neg hne

@[simp] theorem node_update_self (n : Option Node) : (fs.update path n).node (cstr path) = n :=
  table_update_self n

theorem node_update_of_ne {p : Bytes} (hne : fs.entry p ≠ fs.entry (cstr path)) (n : Option Node) :
    (fs.update path n).node p = fs.node p := table_update_of_ne hne n

@[simp] theorem node_without_self : (fs.without path).node (cstr path) = none := node_update_self none

theorem node_without_of_ne {p : Bytes} (hne : fs.entry p ≠ fs.entry (cstr path)) :
    (fs.without path).node p = fs.node p := node_update_of_ne hne none

/-- Two names of one entry lead to the same, as the kernel resolves both before it looks anything up. -/
theorem node_eq_of_entry {p q : Bytes} (hsame : fs.entry p = fs.entry q) : fs.node p = fs.node q :=
  congrArg fs.table hsame

/-- What is put at a name is put at every name of its entry. -/
theorem update_eq_of_entry {q : Bytes} (hsame : fs.entry (cstr path) = fs.entry (cstr q)) (n : Option Node) :
    fs.update path n = fs.update q n := by
  unfold update
  rw [hsame]

theorem without_of_none (hnone : fs.node (cstr path) = none) : fs.without path = fs := by
  ext e : 2
  · by_cases he : e = fs.entry (cstr path)
    · rw [he]
      exact (table_update_self none).trans hnone.symm
    · exact table_update_of_ne he none
  · rfl

@[simp] theorem without_update (n : Option Node) : (fs.update path n).without path = fs.without path := by
  ext e : 2
  · by_cases he : e = fs.entry (cstr path)
    · rw [he]
      exact (@table_update_self (fs.update path n) path none).trans (table_update_self none).symm
    · refine (@table_update_of_ne (fs.update path n) path e he none).trans ?_
      exact (table_update_of_ne he n).trans (table_update_of_ne he none).symm
  · rfl

@[simp] theorem without_without : (fs.without path).without path = fs.without path :=
  without_update none

@[simp] theorem without_append (data : Bytes) : (fs.append path data).without path = fs.without path := by
  unfold append
  cases fs.node (cstr path) with
  | none => rfl
  | some n =>
    dsimp only
    split <;> simp

@[simp] theorem entry_append (data : Bytes) : (fs.append path data).entry = fs.entry := by
  unfold append
  cases fs.node (cstr path) with
  | none => rfl
  | some n =>
    dsimp only
    split <;> rfl

@[simp] theorem isSome_node_append (data : Bytes) :
    ((fs.append path data).node (cstr path)).isSome = (fs.node (cstr path)).isSome := by
  unfold append
  cases hnode : fs.node (cstr path) with
  | none => simp [hnode]
  | some n =>
    dsimp only
    split <;> simp [hnode]

/-- File systems that are the same without `path` resolve names in the same way. -/
theorem entry_of_without {fs' : FileSystem} (hsame : fs'.without path = fs.without path) :
    fs'.entry = fs.entry := by
  have hentry := congrArg FileSystem.entry hsame
  rwa [entry_without, entry_without] at hentry

/-- Two file systems that are the same without `path` have the same other entries. -/
theorem table_of_without {fs' : FileSystem} (hsame : fs'.without path = fs.without path) {e : Bytes}
    (hne : e ≠ fs.entry (cstr path)) : fs'.table e = fs.table e := by
  have hne' : e ≠ fs'.entry (cstr path) := by rwa [entry_of_without hsame]
  calc fs'.table e = (fs'.without path).table e := (table_update_of_ne hne' none).symm
    _ = (fs.without path).table e := by rw [hsame]
    _ = fs.table e := table_update_of_ne hne none

/-- Two file systems that are the same without `path` have the same other files. -/
theorem node_of_without {fs' : FileSystem} (hsame : fs'.without path = fs.without path) {p : Bytes}
    (hne : fs.entry p ≠ fs.entry (cstr path)) : fs'.node p = fs.node p := by
  rw [node, entry_of_without hsame]
  exact table_of_without hsame hne

theorem access_exists : fs.access path .exists = (fs.node (cstr path)).isSome := by
  unfold access
  cases fs.node (cstr path) <;> rfl

theorem remove_fst (sys : Sys) :
    (sys.remove fs path).1 = ((fs.node (cstr path)).isSome && !sys.removeFails (cstr path)) := by
  unfold Sys.remove
  split_ifs with hgone
  · simp [hgone.1, hgone.2]
  · cases hsome : (fs.node (cstr path)).isSome <;> simp_all

theorem remove_snd (sys : Sys) :
    (sys.remove fs path).2 =
      if (fs.node (cstr path)).isSome && !sys.removeFails (cstr path) then fs.without path else fs := by
  rw [← remove_fst]
  unfold Sys.remove
  by_cases hgone : (fs.node (cstr path)).isSome = true ∧ ¬ sys.removeFails (cstr path) = true
  · rw [if_pos hgone, if_pos rfl]
    rfl
  · rw [if_neg hgone, if_neg Bool.false_ne_true]

@[simp] theorem entry_remove (sys : Sys) : (sys.remove fs path).2.entry = fs.entry := by
  rw [remove_snd]
  split_ifs <;> rfl

@[simp] theorem entry_rename (sys : Sys) (new : Bytes) : (sys.rename fs path new).2.entry = fs.entry := by
  unfold Sys.rename
  cases fs.node (cstr path) with
  | none => rfl
  | some n =>
    dsimp only
    split_ifs <;> rfl

theorem rename_fst (sys : Sys) (new : Bytes) :
    (sys.rename fs path new).1 = ((fs.node (cstr path)).isSome && !sys.renameFails (cstr path)) := by
  unfold Sys.rename
  cases fs.node (cstr path) with
  | none => rfl
  | some n => cases sys.renameFails (cstr path) <;> rfl

theorem rename_of_false {sys : Sys} {new : Bytes} (hfails : (sys.rename fs path new).1 = false) :
    (sys.rename fs path new).2 = fs := by
  unfold Sys.rename at hfails ⊢
  cases hnode : fs.node (cstr path) with
  | none => rfl
  | some n =>
    rw [hnode] at hfails
    dsimp only at hfails ⊢
    split_ifs at hfails ⊢
    rfl

/-- Renaming a file to another name of its own entry changes nothing. -/
theorem without_rename_of_entry (sys : Sys) {new : Bytes}
    (hsame : fs.entry (cstr new) = fs.entry (cstr path)) :
    (sys.rename fs path new).2.without path = fs.without path := by
  unfold Sys.rename
  cases fs.node (cstr path) with
  | none => rfl
  | some n =>
    dsimp only
    split_ifs
    · rfl
    · rw [@update_eq_of_entry (fs.update path none) new path hsame, without_update, without_update]

/-- `std::remove` of a file that it can remove leaves the file system without it, also when there was
none. -/
theorem remove_eq_without {sys : Sys} (hremove : sys.removeFails (cstr path) = false) :
    (sys.remove fs path).2 = fs.without path := by
  rw [remove_snd, hremove]
  cases hnode : fs.node (cstr path) with
  | none => exact (without_of_none hnode).symm
  | some n => rfl

end FileSystem

/-! ## Streams -/

/-- A `std::ifstream` on a regular file: the name it was opened with and the bytes not read. -/
structure IStream where
  name : Bytes := []
  isOpen : Bool := false
  failed : Bool := false
  rest : Bytes := []
  deriving DecidableEq

namespace IStream

/-- `std::ifstream::open`.  On a stream that is open already it only sets the fail bit. -/
def openAt (s : IStream) (sys : Sys) (fs : FileSystem) (path : Bytes) : IStream :=
  if s.isOpen then { s with failed := true }
  else if sys.openFails (cstr path) then { s with failed := true }
  else
    match fs.node (cstr path) with
    | none => { s with failed := true }
    | some n =>
      if n.readable then
        { name := cstr path, isOpen := true, failed := false,
          rest := match n.kind with | .regular content => content | _ => [] }
      else { s with failed := true }

/-- `std::ifstream::read` and `gcount`: the bytes, and the stream after them. -/
def read (s : IStream) (n : Nat) : Bytes × IStream :=
  if s.isOpen ∧ ¬ s.failed then
    (s.rest.take n, { s with failed := decide (s.rest.length < n), rest := s.rest.drop n })
  else ([], { s with failed := true })

end IStream

/-- The `std::ofstream` of an upload: the bytes written since it was opened. -/
structure OStream where
  isOpen : Bool := false
  written : Bytes := []
  deriving DecidableEq

end Webserv
