import Webserv.Disk
import Webserv.FailedUploads

/-!
# Uploads side by side

Any number of uploads share a disk.  Each one opens a temporary file, appends to it, saves it and is
destroyed, and the steps of all of them come in any order.

* `UploadStore.step`: a step of one upload.
* `UploadStore.Isolates`: a save puts the bytes of its own upload at the target, and no save or destructor
  takes the file of an upload to another target.
* `UploadStore.along_isolates`: uploads are isolated when each one is opened with names that are apart from
  those of the others.
* `UploadStore.not_isolates`: two PUTs of the same file name with one temporary directory.

## Why the names matter only at the opening

The name of a temporary file is free when it is drawn, and after that the program trusts it.  So a PUT that
was saved, and whose temporary name is gone, still removes that name in its destructor, when it may be the
temporary file of another upload by then.  In the same way a save removes its target without asking whose
file it is.  Which file a name stands for is settled once and for all when the upload is opened, because no
later step changes the name or the way it is resolved: if the names of a new upload keep clear of those of
the others at that moment, no later step of one of them touches the files of another, in any order.  That is
what `OpensApart` asks, and it asks it of entries: `/x` and `/./x` are one file.

## How a run is followed

`Own` is what holds of an upload by itself, `Pair` what holds of one beside another, and both only look at the
disk through `names` and `nodes`.  A step of an upload does to the disk what `Acts` says, whichever step it
is, and an opening what `Opens` says; the invariant is preserved from these two descriptions, without the
functions behind them.
-/

namespace Webserv

/-! ## Uploads -/

/-- A request object with the stream of its temporary file.  The stream stays with its node, also when the
name is taken away. -/
structure Upload where
  request : ARequest
  /-- The node that the stream was opened on. -/
  inode : Option Nat := none
  /-- The rename of the save succeeded. -/
  renamed : Bool := false
  destroyed : Bool := false

namespace Upload

variable (entry : Bytes → Bytes) (u : Upload)

/-- The entry of the temporary file, as the kernel resolves its name. -/
def tmp : Bytes := entry (cstr u.request.tmpFilename.str)

/-- The entry of the target, as the kernel resolves its name. -/
def target : Bytes := entry (cstr u.request.path.str)

def isOpen : Bool := u.request.file.isOpen

/-- The bytes that it appended, in the order of its calls. -/
def written : Bytes := u.request.file.written

/-- Where its file should be: at the target once the rename has succeeded, at the temporary name before. -/
def name : Bytes := if u.renamed then u.target entry else u.tmp entry

/-- Its target and its temporary name are not two names of one entry. -/
def NamesApart : Prop :=
  u.target entry = u.tmp entry → cstr u.request.path.str = cstr u.request.tmpFilename.str

variable {entry}

/-- Its file is at an entry: the entry leads to the node that its stream was opened on. -/
def At (d : Disk entry) (p : Bytes) : Prop := ∃ n, u.inode = some n ∧ d.names p = some n

/-- Its destructor is still to come, and removes the temporary name. -/
def Removes : Prop := u.request.kind = .put ∧ u.destroyed = false

/-- The stream, after `data` was written to it. -/
def append (data : Bytes) : Upload :=
  { u with request := { u.request with
      file := { u.request.file with written := u.request.file.written ++ data } } }

/-- `_file.close()`. -/
def close : Upload :=
  { u with request := { u.request with file := { u.request.file with isOpen := false } } }

/-- `_file.write`: the disk and the upload after it.  It goes to the node of the stream, not to what the
name leads to now. -/
def write (d : Disk entry) (data : Bytes) : Disk entry × Upload :=
  match u.isOpen, u.inode with
  | true, some n => (d.append n data, u.append data)
  | _, _ => (d, u)

/-- `ARequest::_saveFile`, on an open stream.  A stream that is closed is not saved again. -/
def save (d : Disk entry) (sys : Sys) : Disk entry × Upload :=
  if u.isOpen then
    let saved := d.save sys u.request.path.str u.request.tmpFilename.str
    (saved.2, { u.close with renamed := saved.1 })
  else (d, u)

/-- The disk after `~RequestPUT`, or after the empty destructor of `RequestPOST`. -/
def destroyFile (d : Disk entry) (sys : Sys) : Disk entry :=
  match u.request.kind with
  | .put => d.withoutPath sys u.request.tmpFilename.str
  | .get | .post | .delete | .head => d

/-- The destructor, which runs once.  For a PUT it removes the temporary name, if a file is there. -/
def destroy (d : Disk entry) (sys : Sys) : Disk entry × Upload :=
  if u.destroyed then (d, u) else (u.destroyFile d sys, { u.close with destroyed := true })

end Upload

/-- What an upload is opened with: a request object that was not opened yet, and a kernel whose random
strings are eight lower-case letters. -/
structure Opening where
  sys : Sys
  handler : Handler
  isUpload : handler.request.IsUpload
  closed : handler.request.file = {}
  path_normal : squeeze handler.request.path.str = handler.request.path.str
  temp_normal : squeeze handler.rule.bodyTempPath.str = handler.rule.bodyTempPath.str
  letters : ∀ n, (sys.random n).length = 8 ∧
    ∀ b ∈ sys.random n, b ∈ bytes "abcdefghijklmnopqrstuvwxyz"

namespace Opening

variable {entry : Bytes → Bytes}

theorem slash_notMem_random (o : Opening) (n : Nat) : slash ∉ o.sys.random n :=
  fun hmem => absurd ((o.letters n).2 slash hmem) (by decide)

/-- The request object, on a disk: the handler with the files that the disk shows. -/
def on (o : Opening) (d : Disk entry) : Handler :=
  { o.handler with context := o.handler.context.setFs d.files }

/-- `ARequest::_openFile`: the disk after it, and the upload, if a free name was found. -/
def upload (o : Opening) (d : Disk entry) : Option (Disk entry × Upload) :=
  match Handler.generateFilename o.sys (o.on d) with
  | (.reqContinue, h) =>
    match d.create o.sys h.request.tmpFilename.str with
    | some (d', n) =>
      some (d', { request := { h.request with file := { isOpen := true } }, inode := some n })
    | none => some (d, { request := h.request })
  | _ => none

end Opening

/-! ## Steps -/

/-- The uploads of the clients, on one disk.  The number of an upload stands for its request object. -/
structure UploadStore (entry : Bytes → Bytes) where
  disk : Disk entry
  uploads : Nat → Option Upload

/-- A step of the upload with a number: the four operations of the source that touch the disk, one at a
time. -/
inductive UploadEvent where
  | opens (i : Nat) (o : Opening)
  | appends (i : Nat) (data : Bytes)
  | saves (i : Nat) (sys : Sys)
  | destroys (i : Nat) (sys : Sys)

namespace UploadStore

variable {entry : Bytes → Bytes}

/-- A disk without uploads, at which every run begins. -/
def start (d : Disk entry) : UploadStore entry := ⟨d, fun _ => none⟩

def put (s : UploadStore entry) (i : Nat) (d : Disk entry) (u : Upload) : UploadStore entry :=
  ⟨d, Function.update s.uploads i (some u)⟩

/-- The step of an upload that is there: the disk and the upload after it. -/
def act (d : Disk entry) (u : Upload) : UploadEvent → Disk entry × Upload
  | .opens _ _ => (d, u)
  | .appends _ data => u.write d data
  | .saves _ sys => u.save d sys
  | .destroys _ sys => u.destroy d sys

end UploadStore

/-- The upload whose step it is. -/
def UploadEvent.index : UploadEvent → Nat
  | .opens i _ => i
  | .appends i _ => i
  | .saves i _ => i
  | .destroys i _ => i

namespace UploadStore

variable {entry : Bytes → Bytes}

def step (s : UploadStore entry) (e : UploadEvent) : UploadStore entry :=
  match s.uploads e.index, e with
  | some u, e => s.put e.index (act s.disk u e).1 (act s.disk u e).2
  | none, .opens i o =>
    match o.upload s.disk with
    | some (d, u) => s.put i d u
    | none => s
  | none, _ => s

/-! ## Isolation -/

/-- The file that a save renamed to the target holds what its upload appended. -/
def SavesOwn (s s' : UploadStore entry) (i : Nat) : Prop :=
  ∀ u u', s.uploads i = some u → u.isOpen = true → s'.uploads i = some u' → u'.renamed = true →
    (s'.disk.files.node (cstr u'.request.path.str)).map Node.kind = some (.regular u'.written)

/-- The file of every upload to another target stays where it is: the temporary file at its name, or the
saved file at its target. -/
def Spares (s s' : UploadStore entry) (i : Nat) : Prop :=
  ∀ u v j, j ≠ i → s.uploads i = some u → s.uploads j = some v → v.target entry ≠ u.target entry →
    v.At s.disk (v.name entry) → v.At s'.disk (v.name entry)

/-- What every step owes the other uploads: a save puts its own bytes at its target, and neither a save nor
a destructor takes away a file of another. -/
def Isolates (s : UploadStore entry) : UploadEvent → Prop
  | .saves i sys => SavesOwn s (s.step (.saves i sys)) i ∧ Spares s (s.step (.saves i sys)) i
  | .destroys i sys => Spares s (s.step (.destroys i sys)) i
  | .opens _ _ | .appends _ _ => True

/-- A save of `u` does not hit the temporary name of `v`, by whatever name it goes there, if that entry is in
use: because `v` is open, or, with another target, because its file is still there or its destructor is still
to remove it. -/
def Apart (d : Disk entry) (u v : Upload) : Prop :=
  u.isOpen = true → v.isOpen = true ∨ v.target entry ≠ u.target entry ∧ (v.At d (v.tmp entry) ∨ v.Removes) →
    u.target entry ≠ v.tmp entry

/-- The names of a new upload, and those of another one: they keep clear of each other where one of the two
could take a file away from the other. -/
structure Avoids (d : Disk entry) (u v : Upload) : Prop where
  apart : Apart d u v
  apart_symm : Apart d v u
  /-- The destructor of the other one does not remove the new temporary file. -/
  tmp_ne : u.isOpen = true → v.Removes → u.tmp entry ≠ v.tmp entry

/-- An upload is opened with names that are apart from those of the others, and from each other. -/
def OpensApart (s : UploadStore entry) : UploadEvent → Prop
  | .opens i o => s.uploads i = none → ∀ d u, o.upload s.disk = some (d, u) →
      (u.isOpen = true → u.NamesApart entry) ∧ ∀ j v, s.uploads j = some v → Avoids s.disk u v
  | .appends _ _ | .saves _ _ | .destroys _ _ => True

/-! ## Steps one by one -/

theorem step_of_some {s : UploadStore entry} {e : UploadEvent} {u : Upload} (hu : s.uploads e.index = some u) :
    s.step e = s.put e.index (act s.disk u e).1 (act s.disk u e).2 := by
  unfold step
  rw [hu]

/-- A step of an upload that is not there opens one, or does nothing. -/
theorem step_of_none {s : UploadStore entry} {e : UploadEvent} (hu : s.uploads e.index = none) :
    s.step e = s ∨ ∃ o d u, e = .opens e.index o ∧ o.upload s.disk = some (d, u) ∧
      s.step e = s.put e.index d u := by
  unfold step
  rw [hu]
  cases e with
  | opens i o =>
    dsimp only [UploadEvent.index]
    cases hupload : o.upload s.disk with
    | none => exact Or.inl rfl
    | some r => exact Or.inr ⟨o, r.1, r.2, rfl, hupload, rfl⟩
  | appends i data => exact Or.inl rfl
  | saves i sys => exact Or.inl rfl
  | destroys i sys => exact Or.inl rfl

@[simp] theorem disk_put (s : UploadStore entry) (i : Nat) (d : Disk entry) (u : Upload) :
    (s.put i d u).disk = d := rfl

@[simp] theorem uploads_put_self (s : UploadStore entry) (i : Nat) (d : Disk entry) (u : Upload) :
    (s.put i d u).uploads i = some u := Function.update_self ..

theorem uploads_put_of_ne (s : UploadStore entry) {i j : Nat} (hne : j ≠ i) (d : Disk entry) (u : Upload) :
    (s.put i d u).uploads j = s.uploads j := Function.update_of_ne hne ..

/-! ## The invariant -/

/-- What holds of an upload: while it is open, its file is at its temporary name only, and holds what it
appended. -/
structure Own (d : Disk entry) (u : Upload) : Prop where
  lt_fresh : ∀ {n}, u.inode = some n → n < d.fresh
  isOpen : u.isOpen = true → ∃ n, u.inode = some n ∧ d.names (u.tmp entry) = some n ∧
    (d.nodes n).kind = .regular u.written ∧ d.Sole u.request.tmpFilename.str
  namesApart : u.isOpen = true → u.NamesApart entry

/-- What holds of an upload `u` beside another one: their streams are on different nodes, their names keep
apart, and a destructor that is still to run finds no file of the other. -/
structure Pair (d : Disk entry) (u v : Upload) : Prop where
  inode_ne : ∀ {n}, u.inode = some n → v.inode ≠ some n
  apart : Apart d u v
  /-- The destructor of an upload that was saved finds no file at the temporary name. -/
  free : u.Removes → u.isOpen = false → v.isOpen = true ∨ v.target entry ≠ u.target entry →
    ¬ v.At d (u.tmp entry)

/-- The invariant of the store: each upload has its own node, and any two of them keep clear of each other. -/
structure Sound (s : UploadStore entry) : Prop where
  own : ∀ {i u}, s.uploads i = some u → Own s.disk u
  pair : ∀ {i j u v}, s.uploads i = some u → s.uploads j = some v → i ≠ j → Pair s.disk u v

theorem sound_start (d : Disk entry) : Sound (start d) where
  own hu := nomatch hu
  pair hu := nomatch hu

/-- The store after an upload was put in it.  Only the pairs with this upload are new, and the others keep
what they had. -/
theorem sound_put {s : UploadStore entry} {i : Nat} {d : Disk entry} {u : Upload} (hown : Own d u)
    (hother : ∀ {j v}, j ≠ i → s.uploads j = some v → Own d v ∧ Pair d u v ∧ Pair d v u)
    (hothers : ∀ {j k v w}, j ≠ i → k ≠ i → j ≠ k → s.uploads j = some v → s.uploads k = some w →
      Pair d v w) : Sound (s.put i d u) where
  own {j v} hv := by
    by_cases hj : j = i
    · rw [hj, uploads_put_self] at hv
      cases hv
      exact hown
    · rw [uploads_put_of_ne s hj] at hv
      exact (hother hj hv).1
  pair {j k v w} hv hw hne := by
    by_cases hj : j = i
    · have hk : k ≠ i := fun hk => hne (hj.trans hk.symm)
      rw [hj, uploads_put_self] at hv
      rw [uploads_put_of_ne s hk] at hw
      cases hv
      exact (hother hk hw).2.1
    · rw [uploads_put_of_ne s hj] at hv
      by_cases hk : k = i
      · rw [hk, uploads_put_self] at hw
        cases hw
        exact (hother hj hv).2.2
      · rw [uploads_put_of_ne s hk] at hw
        exact hothers hj hk hne hv hw

/-! ## What a step does to the disk -/

/-- What a step of an upload does: it gives a name to no file but its own, and that only at the target,
and takes away no name but its own. -/
structure Acts (d : Disk entry) (u : Upload) (d' : Disk entry) (u' : Upload) : Prop where
  tmp : u'.tmp entry = u.tmp entry
  target : u'.target entry = u.target entry
  inode : u'.inode = u.inode
  isOpen : u'.isOpen = true → u.isOpen = true
  removes : u'.Removes → u.Removes
  fresh : d'.fresh = d.fresh
  nodes : ∀ {n}, u.inode ≠ some n → d'.nodes n = d.nodes n
  of_names : ∀ {p n}, d'.names p = some n → d.names p = some n ∨
    u.isOpen = true ∧ u'.isOpen = false ∧ p = u.target entry ∧ u.inode = some n
  names : ∀ {p n}, d.names p = some n → u.inode ≠ some n → (u.isOpen = true → p ≠ u.target entry) →
    (u.Removes → u.isOpen = false → p ≠ u.tmp entry) → d'.names p = some n
  own : Own d' u'
  /-- A stream that was closed leaves no other file at its temporary name. -/
  free : u.isOpen = true → u'.isOpen = false → ∀ {n}, d'.names (u.tmp entry) = some n → u.inode = some n

namespace Acts

variable {d d' : Disk entry} {u u' v w : Upload}

theorem names_of_ne (h : Acts d u d' u') {p : Bytes} {n : Nat} (hne : u.inode ≠ some n)
    (hname : d'.names p = some n) : d.names p = some n :=
  (h.of_names hname).resolve_right fun hown => hne hown.2.2.2

/-- The file of another upload is where it was before. -/
theorem at_of_at (h : Acts d u d' u') (hne : ∀ {n}, u.inode = some n → v.inode ≠ some n) {p : Bytes}
    (hat : v.At d' p) : v.At d p := by
  obtain ⟨n, hn, hname⟩ := hat
  exact ⟨n, hn, h.names_of_ne (fun hu => hne hu hn) hname⟩

/-- The file of another upload to another target is still where it should be. -/
theorem at_name (h : Acts d u d' u') (hpair : Pair d u v) (htarget : v.target entry ≠ u.target entry)
    (hat : v.At d (v.name entry)) : v.At d' (v.name entry) := by
  obtain ⟨n, hn, hname⟩ := hat
  refine ⟨n, hn, h.names hname (fun hu => hpair.inode_ne hu hn) (fun hopen => ?_) fun hput hclosed heq => ?_⟩
  · unfold Upload.name at hname ⊢
    split_ifs at hname ⊢
    · exact htarget
    · exact (hpair.apart hopen (Or.inr ⟨htarget, Or.inl ⟨n, hn, hname⟩⟩)).symm
  · rw [heq] at hname
    exact hpair.free hput hclosed (Or.inr htarget) ⟨n, hn, hname⟩

/-- Another upload that is open keeps its file: what was done concerned files of other names. -/
theorem own_other (h : Acts d u d' u') (hpair : Pair d u v) (hv : Own d v) : Own d' v where
  lt_fresh hn := by
    rw [h.fresh]
    exact hv.lt_fresh hn
  isOpen hopen := by
    obtain ⟨n, hn, hname, hkind, hsole⟩ := hv.isOpen hopen
    have hne : u.inode ≠ some n := fun hu => hpair.inode_ne hu hn
    have hname' : d'.names (v.tmp entry) = some n := by
      refine h.names hname hne (fun hopen' => (hpair.apart hopen' (Or.inl hopen)).symm)
        fun hput hclosed heq => ?_
      exact hpair.free hput hclosed (Or.inl hopen) ⟨n, hn, heq ▸ hname⟩
    refine ⟨n, hn, hname', by rw [h.nodes hne, hkind], fun p m hm hp => ?_⟩
    obtain rfl : n = m := Option.some.inj (hname'.symm.trans hm)
    exact hsole p n hname (h.names_of_ne hne hp)
  namesApart := hv.namesApart

theorem pair_left (h : Acts d u d' u') (hpair : Pair d u v) : Pair d' u' v where
  inode_ne hn := hpair.inode_ne (h.inode ▸ hn)
  apart hopen hother := by
    rw [h.target] at hother ⊢
    exact hpair.apart (h.isOpen hopen) (hother.imp_right fun hother =>
      ⟨hother.1, hother.2.imp_left (h.at_of_at hpair.inode_ne)⟩)
  free hput hclosed hother hat := by
    rw [h.tmp] at hat
    rw [h.target] at hother
    cases hopen : u.isOpen with
    | true =>
      obtain ⟨n, hn, hname⟩ := hat
      exact hpair.inode_ne (h.free hopen hclosed hname) hn
    | false => exact hpair.free (h.removes hput) hopen hother (h.at_of_at hpair.inode_ne hat)

theorem pair_right (h : Acts d u d' u') (hpair : Pair d u v) (hpair' : Pair d v u) : Pair d' v u' where
  inode_ne hn := by
    rw [h.inode]
    exact hpair'.inode_ne hn
  apart hopen hother := by
    rw [h.tmp]
    rw [h.tmp, h.target] at hother
    refine hpair'.apart hopen (hother.elim (fun hopen' => Or.inl (h.isOpen hopen')) fun hother => ?_)
    cases hopen' : u.isOpen with
    | true => exact Or.inl rfl
    | false =>
      refine Or.inr ⟨hother.1, hother.2.imp (fun hat => ?_) h.removes⟩
      obtain ⟨n, hn, hname⟩ := hat
      refine ⟨n, h.inode ▸ hn, (h.of_names hname).resolve_right fun hown => ?_⟩
      rw [hopen'] at hown
      cases hown.1
  free hput hclosed hother hat := by
    rw [h.target] at hother
    obtain ⟨n, hn, hname⟩ := hat
    rw [h.inode] at hn
    rcases h.of_names hname with hbefore | ⟨hopen, hclosed', htarget, -⟩
    · exact hpair'.free hput hclosed (hother.imp_left h.isOpen) ⟨n, hn, hbefore⟩
    · -- `u` was saved at the temporary name of `v`, whose destructor is still to come
      have hne : u.target entry ≠ v.target entry :=
        hother.resolve_left (by rw [hclosed']; exact Bool.false_ne_true)
      exact hpair.apart hopen (Or.inr ⟨hne.symm, Or.inr hput⟩) htarget.symm

theorem pair_others (h : Acts d u d' u') (hw : Pair d u w) (hpair : Pair d v w) : Pair d' v w where
  inode_ne := hpair.inode_ne
  apart hopen hother := hpair.apart hopen (hother.imp_right fun hother =>
    ⟨hother.1, hother.2.imp_left (h.at_of_at hw.inode_ne)⟩)
  free hput hclosed hother hat := hpair.free hput hclosed hother (h.at_of_at hw.inode_ne hat)

end Acts

theorem acts_refl {d : Disk entry} {u : Upload} (hown : Own d u) : Acts d u d u where
  tmp := rfl
  target := rfl
  inode := rfl
  isOpen := id
  removes := id
  fresh := rfl
  nodes _ := rfl
  of_names := Or.inl
  names hname _ _ _ := hname
  own := hown
  free hopen hclosed := by
    rw [hopen] at hclosed
    cases hclosed

theorem acts_append {d : Disk entry} {u : Upload} {n : Nat} (hown : Own d u) (hn : u.inode = some n)
    (data : Bytes) : Acts d u (d.append n data) (u.append data) where
  tmp := rfl
  target := rfl
  inode := rfl
  isOpen := id
  removes := id
  fresh := Disk.fresh_append
  nodes hne := Disk.nodes_append_of_ne fun heq => hne (heq ▸ hn)
  of_names hname := Or.inl (by rwa [Disk.names_append] at hname)
  names hname _ _ _ := by rwa [Disk.names_append]
  own := by
    refine ⟨fun hn' => ?_, fun hopen => ?_, hown.namesApart⟩
    · rw [Disk.fresh_append]
      exact hown.lt_fresh hn'
    · obtain ⟨m, hm, hname, hkind, hsole⟩ := hown.isOpen hopen
      obtain rfl : n = m := Option.some.inj (hn.symm.trans hm)
      refine ⟨n, hn, ?_, Disk.kind_append hkind, ?_⟩
      · rw [Disk.names_append]
        exact hname
      · unfold Disk.Sole
        rw [Disk.names_append]
        exact hsole
  free hopen hclosed := by
    have hsame : (u.append data).isOpen = u.isOpen := rfl
    rw [hsame, hopen] at hclosed
    cases hclosed

theorem own_of_closed {d d' : Disk entry} {u u' : Upload} (hown : Own d u) (hinode : u'.inode = u.inode)
    (hfresh : d'.fresh = d.fresh) (hclosed : u'.isOpen = false) : Own d' u' where
  lt_fresh hn := by
    rw [hfresh]
    exact hown.lt_fresh (hinode ▸ hn)
  isOpen hopen := by
    rw [hclosed] at hopen
    cases hopen
  namesApart hopen := by
    rw [hclosed] at hopen
    cases hopen

theorem acts_save {d : Disk entry} {u : Upload} (hown : Own d u) (hopen : u.isOpen = true) (sys : Sys)
    (renamed : Bool) :
    Acts d u (d.save sys u.request.path.str u.request.tmpFilename.str).2
      { u.close with renamed := renamed } where
  tmp := rfl
  target := rfl
  inode := rfl
  isOpen hopen' := nomatch hopen'
  removes := id
  fresh := Disk.fresh_save
  nodes _ := by rw [Disk.nodes_save]
  of_names hname := by
    obtain ⟨m, hm, htmp, -⟩ := hown.isOpen hopen
    refine (Disk.names_of_save hname).imp_right fun ⟨hp, hn⟩ => ⟨hopen, rfl, hp, ?_⟩
    rw [hm, ← htmp]
    exact hn
  names hname hne htarget _ := by
    obtain ⟨m, hm, htmp, -⟩ := hown.isOpen hopen
    rw [Disk.names_save_of_ne (htarget hopen)]
    · exact hname
    · rintro rfl
      exact hne (by rw [hm, ← htmp]; exact hname)
  own := own_of_closed hown rfl Disk.fresh_save rfl
  free _ _ n hname := by
    obtain ⟨m, hm, htmp, -⟩ := hown.isOpen hopen
    rw [hm, ← htmp]
    rcases Disk.names_save_tmp d sys u.request.path.str u.request.tmpFilename.str with hnone | hsame
    · have hname' : _ = some n := hname
      rw [show u.tmp entry = entry (cstr u.request.tmpFilename.str) from rfl, hnone] at hname'
      cases hname'
    · exact hsame.symm.trans hname

theorem nodes_destroyFile (d : Disk entry) (u : Upload) (sys : Sys) :
    (u.destroyFile d sys).nodes = d.nodes := by
  unfold Upload.destroyFile
  split <;> simp [Disk.withoutPath_eq]

theorem fresh_destroyFile (d : Disk entry) (u : Upload) (sys : Sys) :
    (u.destroyFile d sys).fresh = d.fresh := by
  unfold Upload.destroyFile
  split <;> simp [Disk.withoutPath_eq]

theorem names_of_destroyFile {d : Disk entry} {u : Upload} {sys : Sys} {p : Bytes} {n : Nat}
    (hname : (u.destroyFile d sys).names p = some n) : d.names p = some n := by
  unfold Upload.destroyFile at hname
  split at hname
  · rw [Disk.withoutPath_eq] at hname
    exact Disk.names_of_remove hname
  all_goals exact hname

theorem names_destroyFile_of_ne {d : Disk entry} {u : Upload} (sys : Sys) {p : Bytes}
    (hne : u.request.kind = .put → p ≠ u.tmp entry) : (u.destroyFile d sys).names p = d.names p := by
  unfold Upload.destroyFile
  split
  · rename_i hput
    rw [Disk.withoutPath_eq, Disk.names_remove_of_ne (hne hput)]
  all_goals rfl

theorem acts_destroyFile {d : Disk entry} {u : Upload} (hown : Own d u) (hdestroyed : u.destroyed = false)
    (sys : Sys) : Acts d u (u.destroyFile d sys) { u.close with destroyed := true } where
  tmp := rfl
  target := rfl
  inode := rfl
  isOpen hopen := nomatch hopen
  removes hput := nomatch hput.2
  fresh := fresh_destroyFile d u sys
  nodes _ := by rw [nodes_destroyFile]
  of_names hname := Or.inl (names_of_destroyFile hname)
  names hname hne _ hremoves := by
    rw [names_destroyFile_of_ne sys]
    · exact hname
    · rintro hput rfl
      cases hopen : u.isOpen with
      | true =>
        obtain ⟨m, hm, htmp, -⟩ := hown.isOpen hopen
        exact hne (by rw [hm, ← htmp]; exact hname)
      | false => exact hremoves ⟨hput, hdestroyed⟩ hopen rfl
  own := own_of_closed hown rfl (fresh_destroyFile d u sys) rfl
  free hopen _ n hname := by
    obtain ⟨m, hm, htmp, -⟩ := hown.isOpen hopen
    rw [hm, ← htmp]
    exact names_of_destroyFile hname

/-- **What a step of an upload does to the disk**: it touches its own names and its own node only, at which
everything else is as it was. -/
theorem acts_act {d : Disk entry} {u : Upload} (hown : Own d u) (e : UploadEvent) :
    Acts d u (act d u e).1 (act d u e).2 := by
  cases e with
  | opens i o => exact acts_refl hown
  | appends i data =>
    dsimp only [act, Upload.write]
    split
    · rename_i n hopen hn
      exact acts_append hown hn data
    · exact acts_refl hown
  | saves i sys =>
    dsimp only [act, Upload.save]
    split_ifs with hopen
    · exact acts_save hown hopen sys _
    · exact acts_refl hown
  | destroys i sys =>
    dsimp only [act, Upload.destroy]
    split_ifs with hdestroyed
    · exact acts_refl hown
    · exact acts_destroyFile hown (by simpa using hdestroyed) sys

theorem Sound.acts {s : UploadStore entry} (hs : Sound s) {i : Nat} {u u' : Upload} {d' : Disk entry}
    (hu : s.uploads i = some u) (h : Acts s.disk u d' u') : Sound (s.put i d' u') :=
  sound_put h.own
    (fun hj hv => ⟨h.own_other (hs.pair hu hv hj.symm) (hs.own hv), h.pair_left (hs.pair hu hv hj.symm),
      h.pair_right (hs.pair hu hv hj.symm) (hs.pair hv hu hj)⟩)
    fun _ hk hjk hv hw => h.pair_others (hs.pair hu hw hk.symm) (hs.pair hv hw hjk)

theorem Sound.spares {s : UploadStore entry} (hs : Sound s) {i : Nat} {u u' : Upload} {d' : Disk entry}
    (hu : s.uploads i = some u) (h : Acts s.disk u d' u') : Spares s (s.put i d' u') i := by
  intro u₀ v j hj hu₀ hv htarget hat
  obtain rfl : u = u₀ := Option.some.inj (hu.symm.trans hu₀)
  exact h.at_name (hs.pair hu hv hj.symm) htarget hat

/-! ## Openings -/

/-- What an opening does: the name it draws was free, and it creates the file, or nothing happens to the
disk. -/
structure Opens (d d' : Disk entry) (u : Upload) : Prop where
  names_tmp : d.names (u.tmp entry) = none
  renamed : u.renamed = false
  created : u.isOpen = true ∧ d' = d.add u.request.tmpFilename.str ∧ u.inode = some d.fresh ∧
      u.written = [] ∨
    u.isOpen = false ∧ d' = d ∧ u.inode = none

theorem opens_upload {o : Opening} {d d' : Disk entry} {u : Upload} (hupload : o.upload d = some (d', u)) :
    Opens d d' u := by
  unfold Opening.upload Handler.generateFilename at hupload
  dsimp only at hupload
  cases hname : Handler.tryNames o.sys (o.on d).context.world.fs
      (Handler.tmpBasename (o.on d).rule (o.on d).request.path) 100 0 with
  | none =>
    unfold Handler.tmpBasename at hname
    rw [hname] at hupload
    cases hupload
  | some tmp =>
    obtain ⟨hfree, hrandom⟩ := Handler.tryNames_eq_some hname
    have hnamed : Handler.Named o.sys (o.on d) (o.on d).request.path tmp := ⟨o.path_normal, hrandom, hfree⟩
    have hnormal : (Path.ofString tmp).str = tmp := by
      rw [Path.ofString_str]
      exact hnamed.squeeze_eq o.slash_notMem_random o.temp_normal
    have hnone : d.names (entry (cstr (Path.ofString tmp).str)) = none := by
      rw [hnormal]
      exact Option.map_eq_none_iff.mp hfree
    unfold Handler.tmpBasename at hname
    rw [hname] at hupload
    dsimp only at hupload
    unfold Disk.create at hupload
    rw [hnone] at hupload
    by_cases hfails : o.sys.createFails (cstr (Path.ofString tmp).str) = true
    · rw [if_pos hfails] at hupload
      obtain ⟨rfl, rfl⟩ := Prod.mk.inj (Option.some.inj hupload)
      refine ⟨hnone, rfl, Or.inr ⟨?_, rfl, rfl⟩⟩
      show o.handler.request.file.isOpen = false
      rw [o.closed]
    · rw [if_neg hfails] at hupload
      obtain ⟨rfl, rfl⟩ := Prod.mk.inj (Option.some.inj hupload)
      exact ⟨hnone, rfl, Or.inl ⟨rfl, rfl, rfl, rfl⟩⟩

namespace Opens

variable {d d' : Disk entry} {u v w : Upload}

theorem names_of_ne (h : Opens d d' u) {p : Bytes} (hne : p ≠ u.tmp entry) : d'.names p = d.names p := by
  rcases h.created with ⟨-, rfl, -⟩ | ⟨-, rfl, -⟩
  · exact Disk.names_add_of_ne hne
  · rfl

theorem fresh_le (h : Opens d d' u) : d.fresh ≤ d'.fresh := by
  rcases h.created with ⟨-, rfl, -⟩ | ⟨-, rfl, -⟩
  · exact Nat.le_succ _
  · exact Nat.le_refl _

/-- The nodes that were there are under the names that they had. -/
theorem names_iff (h : Opens d d' u) {p : Bytes} {n : Nat} (hlt : n < d.fresh) :
    d'.names p = some n ↔ d.names p = some n := by
  by_cases hp : p = u.tmp entry
  · subst hp
    rw [h.names_tmp]
    rcases h.created with ⟨-, rfl, -⟩ | ⟨-, rfl, -⟩
    · have hself : (d.add u.request.tmpFilename.str).names (u.tmp entry) = some d.fresh := Disk.names_add_self
      rw [hself]
      refine ⟨fun heq => ?_, fun heq => nomatch heq⟩
      exact absurd (Option.some.inj heq) (Nat.ne_of_gt hlt)
    · rw [h.names_tmp]
  · rw [h.names_of_ne hp]

theorem nodes_of_lt (h : Opens d d' u) {n : Nat} (hlt : n < d.fresh) : d'.nodes n = d.nodes n := by
  rcases h.created with ⟨-, rfl, -⟩ | ⟨-, rfl, -⟩
  · exact Disk.nodes_add_of_lt hlt
  · rfl

theorem at_iff (h : Opens d d' u) (hv : Own d v) {p : Bytes} : v.At d' p ↔ v.At d p :=
  exists_congr fun _ => and_congr_right fun hn => h.names_iff (hv.lt_fresh hn)

theorem own (h : Opens d d' u) (hnames : u.isOpen = true → u.NamesApart entry) : Own d' u := by
  rcases h.created with ⟨hopen, rfl, hn, hwritten⟩ | ⟨hclosed, rfl, hn⟩
  · refine ⟨fun hn' => ?_, fun _ => ⟨d.fresh, hn, Disk.names_add_self, ?_, fun p n hname hp => ?_⟩, hnames⟩
    · rw [hn] at hn'
      cases hn'
      exact Nat.lt_succ_self _
    · rw [Disk.nodes_add_self, hwritten]
    · by_contra hne
      rw [Disk.names_add_self] at hname
      rw [Disk.names_add_of_ne hne] at hp
      cases hname
      exact absurd (d.lt_fresh hp) (Nat.lt_irrefl _)
  · refine ⟨fun hn' => ?_, fun hopen => ?_, hnames⟩
    · rw [hn] at hn'
      cases hn'
    · rw [hclosed] at hopen
      cases hopen

/-- Another upload that is open keeps its file: the new temporary name was free, and its file is a new one. -/
theorem own_other (h : Opens d d' u) (hv : Own d v) : Own d' v where
  lt_fresh hn := Nat.lt_of_lt_of_le (hv.lt_fresh hn) h.fresh_le
  isOpen hopen := by
    obtain ⟨n, hn, hname, hkind, hsole⟩ := hv.isOpen hopen
    have hlt := hv.lt_fresh hn
    refine ⟨n, hn, (h.names_iff hlt).mpr hname, by rw [h.nodes_of_lt hlt, hkind], fun p m hm hp => ?_⟩
    obtain rfl : n = m := Option.some.inj (((h.names_iff hlt).mpr hname).symm.trans hm)
    exact hsole p n hname ((h.names_iff hlt).mp hp)
  namesApart := hv.namesApart

theorem inode_ne (h : Opens d d' u) (hv : Own d v) {n : Nat} (hn : u.inode = some n) :
    v.inode ≠ some n := by
  intro hn'
  have hlt := hv.lt_fresh hn'
  rcases h.created with ⟨-, -, hfresh, -⟩ | ⟨-, -, hnone⟩
  · rw [hfresh] at hn
    cases hn
    exact absurd hlt (Nat.lt_irrefl _)
  · rw [hnone] at hn
    cases hn

theorem pair_left (h : Opens d d' u) (hv : Own d v) (havoids : Avoids d u v) : Pair d' u v where
  inode_ne := h.inode_ne hv
  apart hopen hother := havoids.apart hopen (hother.imp_right fun hother =>
    ⟨hother.1, hother.2.imp_left (h.at_iff hv).mp⟩)
  free _ _ _ hat := by
    obtain ⟨n, -, hname⟩ := (h.at_iff hv).mp hat
    rw [h.names_tmp] at hname
    cases hname

theorem pair_right (h : Opens d d' u) (hv : Own d v) (havoids : Avoids d u v) : Pair d' v u where
  inode_ne hn hn' := h.inode_ne hv hn' hn
  apart hopen hother := by
    refine havoids.apart_symm hopen ?_
    rcases h.created with ⟨hopen', -⟩ | ⟨-, rfl, -⟩
    · exact Or.inl hopen'
    · exact hother
  free hput _ _ hat := by
    obtain ⟨n, hn, hname⟩ := hat
    rcases h.created with ⟨hopen, rfl, -⟩ | ⟨-, -, hnone⟩
    · have hne : v.tmp entry ≠ u.tmp entry := (havoids.tmp_ne hopen hput).symm
      rw [h.names_of_ne hne] at hname
      rcases h.created with ⟨-, -, hfresh, -⟩ | ⟨hclosed, -⟩
      · rw [hfresh] at hn
        cases hn
        exact absurd (d.lt_fresh hname) (Nat.lt_irrefl _)
      · rw [hopen] at hclosed
        cases hclosed
    · rw [hnone] at hn
      cases hn

theorem pair_others (h : Opens d d' u) (hw : Own d w) (hpair : Pair d v w) : Pair d' v w where
  inode_ne := hpair.inode_ne
  apart hopen hother := hpair.apart hopen (hother.imp_right fun hother =>
    ⟨hother.1, hother.2.imp_left (h.at_iff hw).mp⟩)
  free hput hclosed hother hat := hpair.free hput hclosed hother ((h.at_iff hw).mp hat)

end Opens

theorem Sound.opens {s : UploadStore entry} (hs : Sound s) {i : Nat} {d' : Disk entry} {u : Upload}
    (h : Opens s.disk d' u) (hnames : u.isOpen = true → u.NamesApart entry)
    (havoids : ∀ j v, s.uploads j = some v → Avoids s.disk u v) :
    Sound (s.put i d' u) :=
  sound_put (h.own hnames)
    (fun {j v} _ hv => ⟨h.own_other (hs.own hv), h.pair_left (hs.own hv) (havoids j v hv),
      h.pair_right (hs.own hv) (havoids j v hv)⟩)
    fun _ _ hjk hv hw => h.pair_others (hs.own hw) (hs.pair hv hw hjk)

/-! ## Handlers -/

/-- A handler of the client whose upload it is: its file system is that of the disk. -/
structure Sees (d : Disk entry) (u : Upload) (h : Handler) : Prop where
  request : h.request = u.request
  fs : h.context.world.fs = d.files

/-- `_openFile`. -/
theorem sees_openFile {o : Opening} {d d' : Disk entry} {u : Upload} (hupload : o.upload d = some (d', u)) :
    Sees d' u (Handler.openFile o.sys (o.on d)) := by
  have hnone := (opens_upload hupload).names_tmp
  unfold Opening.upload at hupload
  unfold Handler.openFile
  have hfs : (Handler.generateFilename o.sys (o.on d)).2.context.world.fs = d.files := by
    unfold Handler.generateFilename
    dsimp only
    split <;> rfl
  generalize Handler.generateFilename o.sys (o.on d) = r at hupload hfs ⊢
  obtain ⟨ret, h⟩ := r
  have hfs' : h.context.world.fs = d.files := hfs
  cases ret with
  | reqContinue =>
    have htmp : u.tmp entry = entry (cstr h.request.tmpFilename.str) := by
      dsimp only at hupload
      split at hupload
      · obtain ⟨-, rfl⟩ := Prod.mk.inj (Option.some.inj hupload)
        rfl
      · obtain ⟨-, rfl⟩ := Prod.mk.inj (Option.some.inj hupload)
        rfl
    rw [htmp] at hnone
    have hcreate := Disk.files_create o.sys hnone
    dsimp only at hupload ⊢
    rw [hfs', ← hcreate]
    cases hdisk : d.create o.sys h.request.tmpFilename.str with
    | none =>
      rw [hdisk] at hupload
      obtain ⟨rfl, rfl⟩ := Prod.mk.inj (Option.some.inj hupload)
      exact ⟨rfl, hfs'⟩
    | some r =>
      rw [hdisk] at hupload
      obtain ⟨rfl, rfl⟩ := Prod.mk.inj (Option.some.inj hupload)
      exact ⟨rfl, rfl⟩
  | reqDone => cases hupload
  | reqError => cases hupload
  | throws fault => cases hupload

/-- `_writeChunk` of an upload: `n` bytes from the buffer, or past its end. -/
theorem Sees.writeFile {d : Disk entry} {u : Upload} {h : Handler} (hsees : Sees d u h) (hown : Own d u)
    (hopen : u.isOpen = true) (sys : Sys) (n : Int) :
    Sees (u.write d (sys.readMemory h.context.buffer n.toNat)).1
      (u.write d (sys.readMemory h.context.buffer n.toNat)).2 (Handler.writeFile sys h n) := by
  obtain ⟨m, hm, hname, -, hsole⟩ := hown.isOpen hopen
  obtain ⟨ctx, r⟩ := h
  obtain ⟨rfl, hfs⟩ := hsees
  have hopen' : u.request.file.isOpen = true := hopen
  unfold Upload.write Handler.writeFile
  dsimp only
  rw [hopen, hm, if_pos hopen']
  refine ⟨rfl, ?_⟩
  show ctx.world.fs.append u.request.tmpFilename.str _ = _
  rw [show ctx.world.fs = d.files from hfs]
  exact (Disk.files_append hsole hname _).symm

/-- `_saveFile`. -/
theorem Sees.saveFile {d : Disk entry} {u : Upload} {h : Handler} (hsees : Sees d u h) (hown : Own d u)
    (hopen : u.isOpen = true) (hcgi : u.request.cgiPath = none) (sys : Sys) :
    Sees (u.save d sys).1 (u.save d sys).2 (Handler.saveFile sys h).2 := by
  obtain ⟨m, hm, hname, -, hsole⟩ := hown.isOpen hopen
  obtain ⟨ctx, r⟩ := h
  obtain ⟨rfl, hfs⟩ := hsees
  unfold Upload.save
  rw [if_pos hopen, Handler.saveFile_of_file sys hcgi]
  exact ⟨Handler.request_publish sys _,
    (Disk.files_save (h := Handler.closeFile ⟨ctx, u.request⟩) sys hfs hsole).symm⟩

/-- The destructor. -/
theorem Sees.destroy {d : Disk entry} {u : Upload} {h : Handler} (hsees : Sees d u h)
    (hdestroyed : u.destroyed = false) (sys : Sys) :
    (u.destroy d sys).1.files = h.request.destroy sys h.context.world.fs := by
  unfold Upload.destroy ARequest.destroy Upload.destroyFile
  rw [hdestroyed, if_neg Bool.false_ne_true, hsees.request, hsees.fs]
  cases u.request.kind with
  | put =>
    dsimp only
    unfold Disk.withoutPath Path.access
    rw [Disk.access_files]
    split_ifs
    · exact (Disk.files_remove d sys _).2
    · rfl
  | get => rfl
  | post => rfl
  | delete => rfl
  | head => rfl

/-! ## Runs -/

theorem Sound.step {s : UploadStore entry} (hs : Sound s) {e : UploadEvent} (he : OpensApart s e) :
    Sound (s.step e) := by
  cases hu : s.uploads e.index with
  | some u =>
    rw [step_of_some hu]
    exact hs.acts hu (acts_act (hs.own hu) e)
  | none =>
    rcases step_of_none hu with hsame | ⟨o, d, u, hopens, hupload, hstep⟩
    · rw [hsame]
      exact hs
    · rw [hstep]
      rw [hopens] at he
      obtain ⟨hnames, havoids⟩ := he hu d u hupload
      exact hs.opens (opens_upload hupload) hnames havoids

theorem Sound.spares_step {s : UploadStore entry} (hs : Sound s) (e : UploadEvent) :
    Spares s (s.step e) e.index := by
  intro u v j hj hu hv htarget hat
  rw [step_of_some hu]
  exact hs.spares hu (acts_act (hs.own hu) e) u v j hj hu hv htarget hat

theorem Sound.savesOwn {s : UploadStore entry} (hs : Sound s) (i : Nat) (sys : Sys) :
    SavesOwn s (s.step (.saves i sys)) i := by
  intro u u' hu hopen hu' hrenamed
  obtain ⟨n, hn, htmp, hkind, -⟩ := (hs.own hu).isOpen hopen
  have hnames := (hs.own hu).namesApart hopen
  have hstep : s.step (.saves i sys) = _ := step_of_some hu
  rw [hstep] at hu' ⊢
  have hact : act s.disk u (.saves i sys) = u.save s.disk sys := rfl
  dsimp only [UploadEvent.index] at hu' ⊢
  rw [uploads_put_self, hact] at hu'
  rw [disk_put, hact]
  unfold Upload.save at hu' ⊢
  rw [if_pos hopen] at hu' ⊢
  cases hu'
  have hpath := Disk.names_save_path hnames hrenamed
  show ((((s.disk.save sys u.request.path.str u.request.tmpFilename.str).2.names
    (entry (cstr u.request.path.str))).map _).map Node.kind) = some (.regular u.written)
  rw [hpath, show entry (cstr u.request.tmpFilename.str) = u.tmp entry from rfl, htmp, Disk.nodes_save,
    Option.map_some, Option.map_some, hkind]

theorem Sound.isolates {s : UploadStore entry} (hs : Sound s) (e : UploadEvent) : Isolates s e := by
  cases e with
  | opens i o => trivial
  | appends i data => trivial
  | saves i sys => exact ⟨hs.savesOwn i sys, hs.spares_step (.saves i sys)⟩
  | destroys i sys => exact hs.spares_step (.destroys i sys)

/-- **Uploads are isolated** when each one is opened with names that are apart from those of the others: no
step of a run takes a file away from another upload, and each saves its own bytes. -/
theorem along_isolates (d : Disk entry) (es : List UploadEvent)
    (hapart : Transition.Along step OpensApart (start d) es) :
    Transition.Along step Isolates (start d) es := by
  refine Transition.along_iff.mpr fun fs e gs heq => ?_
  rw [heq] at hapart
  exact (Transition.run_invariant (fun s e hs he => hs.step he) (sound_start d)
    (Transition.along_append.mp hapart).1).isolates e

/-! ## Two uploads -/

/-- A location whose uploads share a temporary directory. -/
def sharedLocation : LocationBlock where
  path := Path.ofString (bytes "/")
  clientBodyUploadPath := Path.ofString (bytes "/u/")
  clientBodyTempPath := Path.ofString (bytes "/t/")

set_option maxRecDepth 10000 in
/-- A PUT to a path below the upload directory. -/
def putTo (path : Bytes) : Opening where
  sys := .quiet 0
  handler := {
    context := {
      server := Client.dropServer
      ruleBlock := some sharedLocation
      world := { fs := Client.dropFiles } }
    request := { kind := .put, path := Path.ofString path, cgiPath := none } }
  isUpload := Or.inl rfl
  closed := rfl
  path_normal := (Path.normal_ofString path).squeeze_str
  temp_normal := by
    show squeeze sharedLocation.bodyTempPath.str = sharedLocation.bodyTempPath.str
    decide
  letters _ := by
    show (bytes "aaaaaaaa").length = 8 ∧ ∀ b ∈ bytes "aaaaaaaa", b ∈ bytes "abcdefghijklmnopqrstuvwxyz"
    decide

/-- A disk with the directories of the targets. -/
def sharedDisk : Disk id where
  names p := if p = bytes "/t" ∨ p = bytes "/u" ∨ p = bytes "/u/a" ∨ p = bytes "/u/b" then some 0 else none
  nodes _ := { kind := .directory [] }
  fresh := 1
  lt_fresh h := by
    split_ifs at h
    cases h
    exact Nat.one_pos

/-- The first upload is saved, and then the second one draws the same name. -/
def sameName : List UploadEvent :=
  [.opens 0 (putTo (bytes "/u/a/x")), .appends 0 (bytes "1"), .saves 0 (.quiet 0),
    .opens 1 (putTo (bytes "/u/b/x")), .appends 1 (bytes "2")]

set_option maxRecDepth 10000 in
/-- The destructor of the first upload takes the temporary file of the second one away, although it goes to
another target; and nothing is saved at the target of the second one. -/
theorem not_isolates :
    ¬ Transition.Along step Isolates (start sharedDisk) (sameName ++ [.destroys 0 (.quiet 0)]) ∧
      (Transition.run step (start sharedDisk)
        (sameName ++ [.destroys 0 (.quiet 0), .saves 1 (.quiet 0)])).disk.names (bytes "/u/b/x") = none := by
  refine ⟨fun halong => ?_, by decide +kernel⟩
  let s := Transition.run step (start sharedDisk) sameName
  have hspares : Spares s (s.step (.destroys 0 (.quiet 0))) 0 := (Transition.along_append.mp halong).2.1
  have htarget : (s.uploads 0).map (Upload.target id) = some (bytes "/u/a/x") := by decide +kernel
  have htarget' : (s.uploads 1).map (Upload.target id) = some (bytes "/u/b/x") := by decide +kernel
  have hname : (s.uploads 1).map (Upload.name id) = some (bytes "/t/x.aaaaaaaa.tmp") := by decide +kernel
  have hinode : (s.uploads 1).map Upload.inode = some (some 2) := by decide +kernel
  have hbefore : s.disk.names (bytes "/t/x.aaaaaaaa.tmp") = some 2 := by decide +kernel
  have hafter : (s.step (.destroys 0 (.quiet 0))).disk.names (bytes "/t/x.aaaaaaaa.tmp") = none := by
    decide +kernel
  obtain ⟨u, hu, hu'⟩ := Option.map_eq_some_iff.mp htarget
  obtain ⟨v, hv, hv'⟩ := Option.map_eq_some_iff.mp htarget'
  rw [hv, Option.map_some] at hname hinode
  obtain ⟨n, -, hn⟩ := hspares u v 1 (by decide) hu hv (by rw [hu', hv']; decide)
    ⟨2, Option.some.inj hinode, by rw [Option.some.inj hname, hbefore]⟩
  rw [Option.some.inj hname, hafter] at hn
  cases hn

/-- Two uploads of different names, whose steps alternate. -/
def alternating : List UploadEvent :=
  [.opens 0 (putTo (bytes "/u/a/x")), .appends 0 (bytes "1"), .opens 1 (putTo (bytes "/u/b/y")),
    .appends 1 (bytes "2"), .saves 0 (.quiet 0), .destroys 0 (.quiet 0), .saves 1 (.quiet 0),
    .destroys 1 (.quiet 0)]

set_option maxRecDepth 10000 in
theorem along_isolates_alternating : Transition.Along step Isolates (start sharedDisk) alternating := by
  refine along_isolates sharedDisk alternating ?_
  unfold alternating
  simp only [Transition.along_cons, Transition.along_nil, OpensApart, and_true, true_and]
  refine ⟨?_, ?_⟩
  · refine fun _ d u _ => ⟨fun _ => id, fun j v hv => ?_⟩
    cases hv
  refine fun _ d u hupload => ⟨fun _ => id, fun j v hv => ?_⟩
  let s := Transition.run step (start sharedDisk) (alternating.take 2)
  have htarget : ((putTo (bytes "/u/b/y")).upload s.disk).map (fun r => r.2.target id) =
      some (bytes "/u/b/y") := by decide +kernel
  have htmp : ((putTo (bytes "/u/b/y")).upload s.disk).map (fun r => r.2.tmp id) =
      some (bytes "/t/y.aaaaaaaa.tmp") := by decide +kernel
  have hupload' : (putTo (bytes "/u/b/y")).upload s.disk = some (d, u) := hupload
  rw [hupload'] at htarget htmp
  have htarget' : (s.uploads 0).map (Upload.target id) = some (bytes "/u/a/x") := by decide +kernel
  have htmp' : (s.uploads 0).map (Upload.tmp id) = some (bytes "/t/x.aaaaaaaa.tmp") := by decide +kernel
  obtain rfl : j = 0 := by
    by_contra hj
    have hnone : s.uploads j = none := (uploads_put_of_ne _ hj _ _).trans (uploads_put_of_ne _ hj _ _)
    rw [show s.uploads j = some v from hv] at hnone
    cases hnone
  rw [show s.uploads 0 = some v from hv] at htarget' htmp'
  have hu : u.target id = bytes "/u/b/y" := Option.some.inj htarget
  have hu' : u.tmp id = bytes "/t/y.aaaaaaaa.tmp" := Option.some.inj htmp
  have hv : v.target id = bytes "/u/a/x" := Option.some.inj htarget'
  have hv' : v.tmp id = bytes "/t/x.aaaaaaaa.tmp" := Option.some.inj htmp'
  refine ⟨fun _ _ => ?_, fun _ _ => ?_, fun _ _ => ?_⟩
  · rw [hu, hv']
    decide
  · rw [hv, hu']
    decide
  · rw [hu', hv']
    decide

end UploadStore
end Webserv
