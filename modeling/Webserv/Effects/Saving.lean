import Webserv.Effects.Uploading

/-!
# What the body readers do to the file system

A reader appends to the temporary file of an upload, and at the end of the body saves it: the target is
removed, the temporary file renamed to it, and the temporary name removed.

* `stores_readBody`: a reader appends to the temporary file, or appends and then saves.
* `SavesWhole`: the kernel does both calls of a save, or neither.
* `publish_clean`: a save that does not end with 201 leaves the file system without the temporary file, when
  the kernel both removes and renames, or does neither.

## Why the file system without the temporary file

While a body is read its bytes go into the temporary file, so the file system changes with every call.  What
does not change is everything else.  `without` takes one name out of a file system, and for an appending
reader the result is the same before and after; this is the form in which it is carried through a run, since
it says nothing about how much was written and needs no frame for each name.  At the end of the run the file
is removed, and the file system is equal to that without it.

## Why saves are a case of their own

A save changes the target as well, and what it leaves depends on three answers of the kernel.  `Stores` says
of a call that it has appended, or has appended and then saved; what a save comes to is computed in one
place, as a file system and a status, and the lemmas about saves start from there.
-/

namespace Webserv

namespace Handler

open FileSystem

/-! ## Readers -/

/-- The fields of a request object that name its files, and the file system but for the temporary
file, are the same; without an open temporary file all of the file system is. -/
structure Appends (h h' : Handler) : Prop where
  reads : Reads h h'
  isOpen : h'.request.file.isOpen = h.request.file.isOpen
  without : h'.context.world.fs.without h.request.tmpFilename.str =
    h.context.world.fs.without h.request.tmpFilename.str
  isSome : (h'.context.world.fs.node (cstr h.request.tmpFilename.str)).isSome =
    (h.context.world.fs.node (cstr h.request.tmpFilename.str)).isSome
  closed : h.request.file.isOpen = false → h'.context.world.fs = h.context.world.fs

/-- What a reader leaves of the file system: more bytes in the temporary file, and at the end of the body a
save. -/
inductive Stores (sys : Sys) (h : Handler) : Handler → Prop where
  | appends {h' : Handler} (happends : Appends h h') : Stores sys h h'
  | saves {h₁ h' : Handler} (happends : Appends h h₁) (hreads : Reads h h')
      (hfs : h'.context.world.fs = (publish sys h₁.closeFile).context.world.fs)
      (hstatus : h'.context.response.statusCode =
        (publish sys h₁.closeFile).context.response.statusCode)
      (hclosed : h'.request.file.isOpen = false)
      (hdone : h'.context.requestState.workIn = true) : Stores sys h h'

theorem Reads.tmpFilename {h h' : Handler} (hreads : Reads h h') :
    h'.request.tmpFilename = h.request.tmpFilename := by
  obtain ⟨f, rfl⟩ := hreads.fields
  rfl

theorem Reads.path {h h' : Handler} (hreads : Reads h h') : h'.request.path = h.request.path := by
  obtain ⟨f, rfl⟩ := hreads.fields
  rfl

theorem Reads.cgiPath {h h' : Handler} (hreads : Reads h h') :
    h'.request.cgiPath = h.request.cgiPath := by
  obtain ⟨f, rfl⟩ := hreads.fields
  rfl

theorem Appends.refl (h : Handler) : Appends h h := ⟨.refl h, rfl, rfl, rfl, fun _ => rfl⟩

/-- A call that leaves the file system and the stream alone. -/
theorem Appends.of_same {h₀ h h' : Handler} (happends : Appends h₀ h) (hreads : Reads h h')
    (hfs : h'.context.world.fs = h.context.world.fs)
    (hopen : h'.request.file.isOpen = h.request.file.isOpen) : Appends h₀ h' where
  reads := happends.reads.trans hreads
  isOpen := hopen.trans happends.isOpen
  without := by rw [hfs, happends.without]
  isSome := by rw [hfs, happends.isSome]
  closed hclosed := hfs.trans (happends.closed hclosed)

theorem appends_writeChunk (sys : Sys) {h₀ h : Handler} (happends : Appends h₀ h) (size : Nat) :
    Appends h₀ (writeChunk sys h size).2 := by
  have hreads := reads_writeChunk sys h size
  unfold writeChunk at hreads ⊢
  cases hcgi : h.request.cgiPath with
  | some path =>
    rw [hcgi] at hreads
    dsimp only at hreads ⊢
    unfold sendCGI at hreads ⊢
    dsimp only at hreads ⊢
    cases hsend : (if h.context.cgiSocket = -1 then Send.error
        else sys.cgiSend h.context.world.calls.length) <;> rw [hsend] at hreads
    · exact happends.of_same hreads rfl rfl
    · exact happends.of_same hreads rfl rfl
  | none =>
    rw [hcgi] at hreads
    dsimp only at hreads ⊢
    unfold writeFile at hreads ⊢
    by_cases hopen : h.request.file.isOpen = true
    · rw [if_pos hopen] at hreads ⊢
      dsimp only
      have htmp := happends.reads.tmpFilename
      refine ⟨happends.reads.trans hreads, happends.isOpen, ?_, ?_, fun hclosed => ?_⟩
      · show (h.context.world.fs.append h.request.tmpFilename.str _).without _ = _
        rw [htmp, without_append, happends.without]
      · show ((h.context.world.fs.append h.request.tmpFilename.str _).node _).isSome = _
        rw [htmp, isSome_node_append, happends.isSome]
      · rw [happends.isOpen, hclosed] at hopen
        cases hopen
    · rw [if_neg hopen]
      exact happends

@[simp] theorem request_publish (sys : Sys) (h : Handler) : (publish sys h).request = h.request := by
  rw [publish_eq_publishWith, publishWith_eq]
  rfl

/-- The end of the body: the temporary file is saved, or the CGI gets the end of its input. -/
theorem stores_saveFile (sys : Sys) {h₀ h : Handler} (happends : Appends h₀ h) :
    Stores sys h₀ (saveFile sys h).2.endBody ∧
      ∀ fault, (saveFile sys h).1 = .throws fault → Stores sys h₀ (saveFile sys h).2 := by
  have hsaved := reads_saveFile sys h
  have hreads := happends.reads.trans hsaved
  have hended := hreads.trans (reads_endBody _)
  unfold saveFile at hsaved hreads hended ⊢
  cases hcgi : h.request.cgiPath with
  | none =>
    rw [hcgi] at hreads hended
    refine ⟨?_, fun fault heq => nomatch heq⟩
    refine .saves happends hended rfl rfl ?_ rfl
    show (publish sys h.closeFile).request.file.isOpen = false
    rw [request_publish]
    rfl
  | some path =>
    rw [hcgi] at hsaved hreads hended
    dsimp only at hsaved hreads hended ⊢
    split_ifs at hsaved hreads hended ⊢ with hctl
    · exact ⟨.appends (happends.of_same (hsaved.trans (reads_endBody _)) rfl rfl), fun _ heq => nomatch heq⟩
    · exact ⟨.appends (happends.of_same (hsaved.trans (reads_endBody _)) rfl rfl),
        fun _ _ => .appends (happends.of_same hsaved rfl rfl)⟩

theorem readerRule_stores (sys : Sys) (h₀ : Handler) :
    ReaderRule sys (Appends h₀) fun r => Stores sys h₀ r.2 where
  waits := .appends
  buffer b hI := hI.of_same (.of_fields { bodyFields _ with buffer := b } (Or.inl rfl) rfl) rfl rfl
  counters n m hI := hI.of_same
    (.of_fields { bodyFields _ with contentLength := n, contentTotalLength := m } (Or.inl rfl) rfl) rfl
    rfl
  refuses code _ hI := .appends (hI.of_same (reads_refuseBody _ code) rfl rfl)
  writes := by
    intro h h' ret size hI hwrite _
    have happends := appends_writeChunk sys hI size
    rwa [hwrite] at happends
  writeFails := by
    intro h h' size hI hwrite
    have happends := appends_writeChunk sys hI size
    rw [hwrite] at happends
    exact .appends happends
  saves := by
    intro h h' ret hI hsave _
    have hstores := (stores_saveFile sys hI).1
    rwa [hsave] at hstores
  saveFails := by
    intro h h' fault hI hsave
    have hstores := (stores_saveFile sys hI).2 fault
    rw [hsave] at hstores
    exact hstores rfl

/-- **What a reader does to the file system**: it appends to the temporary file of its upload, and saves it
at the end of the body. -/
theorem stores_readBody (sys : Sys) (h : Handler) : Stores sys h (readBody sys h).2 :=
  (readerRule_stores sys h).readBody (.refl h)

/-! ## Saves -/

/-- The kernel both removes the target and renames the temporary file to it, or does neither, unless the
two names are one entry. -/
def SavesWhole (sys : Sys) (h : Handler) : Prop :=
  let fs := h.context.world.fs
  let path := cstr h.request.path.str
  let tmp := cstr h.request.tmpFilename.str
  fs.entry path ≠ fs.entry tmp → (fs.node path).isSome = true →
    (sys.removeFails path = true ↔ sys.renameFails tmp = true ∨ (fs.node tmp).isSome = false)

instance (sys : Sys) (h : Handler) : Decidable (SavesWhole sys h) := by
  unfold SavesWhole
  infer_instance

theorem SavesWhole.of_appends {sys : Sys} {h h' : Handler} (hwhole : SavesWhole sys h)
    (happends : Appends h h') : SavesWhole sys h' := by
  have hpath := happends.reads.path
  have htmp := happends.reads.tmpFilename
  unfold SavesWhole
  dsimp only
  rw [hpath, htmp, happends.isSome, entry_of_without happends.without]
  intro hne hsome
  rw [node_of_without happends.without hne] at hsome
  exact hwhole hne hsome

/-- Whether the target is there, and cannot be removed. -/
def keepsTarget (sys : Sys) (h : Handler) : Bool :=
  (h.context.world.fs.node (cstr h.request.path.str)).isSome && sys.removeFails (cstr h.request.path.str)

theorem withoutTarget_eq (sys : Sys) (h : Handler) :
    withoutTarget sys h =
      if keepsTarget sys h then h.context.world.fs else h.context.world.fs.without h.request.path.str := by
  unfold withoutTarget keepsTarget Path.access
  rw [access_exists, remove_snd]
  cases hnode : (h.context.world.fs.node (cstr h.request.path.str)) with
  | none => simp [without_of_none hnode]
  | some n => cases sys.removeFails (cstr h.request.path.str) <;> simp

/-- The status after a save is 201 when the kernel did both. -/
theorem statusCode_publish (sys : Sys) {h : Handler} (hremoved : keepsTarget sys h = false)
    (hrenamed : (sys.rename (withoutTarget sys h) h.request.tmpFilename.str h.request.path.str).1 = true) :
    (publish sys h).context.response.statusCode = statusCreated := by
  have hgone : h.request.path.access h.context.world.fs .exists = true →
      (sys.remove h.context.world.fs h.request.path.str).1 = true := by
    intro hexists
    have hsome : (h.context.world.fs.node (cstr h.request.path.str)).isSome = true := by
      rw [← access_exists]
      exact hexists
    unfold keepsTarget at hremoved
    rw [hsome, Bool.true_and] at hremoved
    rw [remove_fst, hsome, hremoved]
    rfl
  rw [publish_eq_publishWith, publishWith_eq]
  exact if_pos ⟨hgone, hrenamed⟩

/-- **A save** ends with 201, or leaves the file system without the temporary file: nothing is half done
when the kernel does both calls or neither. -/
theorem publish_clean (sys : Sys) {h : Handler}
    (hremove : sys.removeFails (cstr h.request.tmpFilename.str) = false) (hwhole : SavesWhole sys h) :
    (publish sys h).context.response.statusCode = statusCreated ∨
      (publish sys h).context.world.fs = h.context.world.fs.without h.request.tmpFilename.str := by
  by_cases hcreated : keepsTarget sys h = false ∧
      (sys.rename (withoutTarget sys h) h.request.tmpFilename.str h.request.path.str).1 = true
  · exact Or.inl (statusCode_publish sys hcreated.1 hcreated.2)
  · right
    rw [publish_fs, remove_eq_without hremove]
    have hwithout := withoutTarget_eq sys h
    generalize withoutTarget sys h = fs' at hcreated hwithout ⊢
    unfold SavesWhole at hwhole
    dsimp only at hwhole
    unfold keepsTarget at hcreated hwithout
    generalize h.context.world.fs = fs at hwhole hcreated hwithout ⊢
    generalize h.request.path.str = path at hwhole hcreated hwithout ⊢
    generalize h.request.tmpFilename.str = tmp at hremove hwhole hcreated hwithout ⊢
    by_cases hsame : fs.entry (cstr path) = fs.entry (cstr tmp)
    · -- the target is the temporary file itself: it was removed, or the rename changes nothing
      have hwithout' : fs'.without tmp = fs.without tmp := by
        rw [hwithout]
        split_ifs
        · rfl
        · rw [show fs.without path = fs.without tmp from update_eq_of_entry hsame none, without_without]
      have hsame' : fs'.entry (cstr path) = fs'.entry (cstr tmp) := by rwa [entry_of_without hwithout']
      rw [without_rename_of_entry sys hsame', hwithout']
    · cases hkept : (fs.node (cstr path)).isSome && sys.removeFails (cstr path) with
      | true =>
        obtain ⟨hsome, hfails⟩ := Bool.and_eq_true_iff.mp hkept
        have hnot : (sys.rename fs' tmp path).1 = false := by
          rw [hwithout, hkept, if_pos rfl, rename_fst]
          rcases (hwhole hsame hsome).mp hfails with hfails' | hnone
          · rw [hfails', Bool.not_true, Bool.and_false]
          · rw [hnone, Bool.false_and]
        rw [rename_of_false hnot, hwithout, hkept, if_pos rfl]
      | false =>
        rw [hkept, if_neg Bool.false_ne_true] at hwithout
        have hnot : (sys.rename fs' tmp path).1 = false := by
          by_contra hrenamed
          exact hcreated ⟨hkept, Bool.not_eq_false _ ▸ hrenamed⟩
        rw [rename_of_false hnot, hwithout]
        cases hnode : fs.node (cstr path) with
        | none => rw [without_of_none hnode]
        | some n =>
          -- the target was removed, so that the rename succeeds
          have hsome : (fs.node (cstr path)).isSome = true := by rw [hnode]; rfl
          rw [hsome, Bool.true_and] at hkept
          rw [rename_fst, hwithout, node_without_of_ne (Ne.symm hsame)] at hnot
          have hnow := (hwhole hsame hsome).mpr
          rw [hkept] at hnow
          cases htmp : (fs.node (cstr tmp)).isSome <;> simp_all

end Handler
end Webserv
