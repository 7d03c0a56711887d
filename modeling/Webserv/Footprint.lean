import Webserv.FailedUploads
import Webserv.RootConfinement
import Mathlib.Data.Set.Function

/-!
# The names that a request may change

What a request makes of the file system is decided by its location, its kind and its target: a DELETE
changes the name it removes, an upload changes its target and its temporary file, and nothing else changes
any name.

* `FileSystem.ChangesIn`: two file systems are the same outside of the entries of a set of names.
* `LocationBlock.Writes`: the names that a location lets a request write.
* `ARequest.Stores`: what an upload knows of its names, once it has opened its temporary file.
* `startsNames_processing`, `changesIn_processing`: `processing` changes such names only.
* `changesIn_readBody`, `changesIn_destroy`: the readers and the destructor of an upload.

## Why a set of names

The name of a temporary file is random, and whether it is used is up to the kernel.  So what a request has
changed is only known when it is over.  What it may change is known at its start, from the location and the
target, and this is a set: the path, and every name that the random letters can make.  `ChangesIn` composes
and is monotone in the set, so that every call of the source is looked at with the names of that call, and
the sets are put together afterwards.

## Why entries and not names

Two names can lead to one entry of a directory, by `.` and `..`, a link or a doubled slash.  A write through
one of them is seen through the other.  So the frame is about entries: outside of those that the names of
the set are resolved to, everything is as it was (`FileSystem.entry`).  A name is untouched when no name of
the set has its entry, which is more than not being in the set.  No call of the program changes how names
are resolved, and `ChangesIn` says this too, since otherwise the sets of two calls could not be compared.
-/

namespace Webserv

/-! ## Sets of names -/

namespace FileSystem

/-- Names are resolved as before, and outside of the entries that the names of a set are resolved to,
everything is as it was. -/
structure ChangesIn (S : Set Bytes) (fs fs' : FileSystem) : Prop where
  entry : fs'.entry = fs.entry
  table : Set.EqOn fs'.table fs.table (fs.entry '' S)ᶜ

variable {S T : Set Bytes} {fs fs₁ fs₂ fs₃ : FileSystem} {path : Bytes}

@[simp] theorem changesIn_refl (S : Set Bytes) (fs : FileSystem) : ChangesIn S fs fs :=
  ⟨rfl, fun _ _ => rfl⟩

theorem changesIn_of_eq (h : fs₂ = fs₁) : ChangesIn S fs₁ fs₂ := by
  rw [h]
  exact changesIn_refl S fs₁

theorem ChangesIn.trans (h₁₂ : ChangesIn S fs₁ fs₂) (h₂₃ : ChangesIn S fs₂ fs₃) :
    ChangesIn S fs₁ fs₃ where
  entry := h₂₃.entry.trans h₁₂.entry
  table := by
    have htable := h₂₃.table
    rw [h₁₂.entry] at htable
    exact htable.trans h₁₂.table

theorem ChangesIn.mono (h : ChangesIn S fs₁ fs₂) (hST : S ⊆ T) : ChangesIn T fs₁ fs₂ where
  entry := h.entry
  table := h.table.mono (Set.compl_subset_compl.mpr (Set.image_mono hST))

/-- A name that no name of the set shares its entry with leads to what it led to. -/
theorem ChangesIn.node (h : ChangesIn S fs₁ fs₂) {p : Bytes} (hp : fs₁.entry p ∉ fs₁.entry '' S) :
    fs₂.node p = fs₁.node p := by
  rw [FileSystem.node, h.entry]
  exact h.table hp

theorem changesIn_update (fs : FileSystem) (path : Bytes) (n : Option Node) :
    ChangesIn {cstr path} fs (fs.update path n) where
  entry := rfl
  table e he := by
    rw [Set.image_singleton] at he
    exact table_update_of_ne he n

theorem changesIn_of_without (h : fs₂.without path = fs₁.without path) :
    ChangesIn {cstr path} fs₁ fs₂ where
  entry := entry_of_without h
  table e he := by
    rw [Set.image_singleton] at he
    exact table_of_without h he

theorem changesIn_remove (sys : Sys) (fs : FileSystem) (path : Bytes) :
    ChangesIn {cstr path} fs (sys.remove fs path).2 := by
  unfold Sys.remove
  split_ifs
  · exact changesIn_update fs path none
  · exact changesIn_refl _ fs

theorem changesIn_rename (sys : Sys) (fs : FileSystem) (old new : Bytes) :
    ChangesIn {cstr old, cstr new} fs (sys.rename fs old new).2 := by
  unfold Sys.rename
  cases fs.node (cstr old) with
  | none => exact changesIn_refl _ fs
  | some n =>
    dsimp only
    split_ifs
    · exact changesIn_refl _ fs
    · have hold := (changesIn_update fs old none).mono (T := {cstr old, cstr new}) (by simp)
      exact hold.trans ((changesIn_update _ new (some n)).mono (by simp))

end FileSystem

/-! ## The names of a location -/

/-- The names that a location lets a request of this kind write, for this target. -/
inductive LocationBlock.Writes (loc : LocationBlock) (kind : RequestKind) (target : Bytes) : Bytes → Prop
  | removed : kind = .delete →
      Writes loc kind target (cstr (localPath loc (target.drop loc.matchLength)).str)
  | stored : kind = .put ∨ kind = .post → loc.canUpload = true →
      Writes loc kind target (cstr (Handler.uploadPath loc target).str)
  | temporary (letters : Bytes) : kind = .put ∨ kind = .post → loc.canUpload = true →
      Writes loc kind target (cstr (Path.ofString (Handler.tmpBasename loc (Handler.uploadPath loc target) ++
        dot :: letters ++ bytes ".tmp")).str)

/-- The names of an upload that has opened its temporary file: its path and its temporary name are among
those that the location lets it write. -/
structure ARequest.Stores (loc : LocationBlock) (target : Bytes) (r : ARequest) : Prop where
  canUpload : loc.canUpload = true
  path : r.path = Handler.uploadPath loc target
  tmpFilename : ∃ letters, r.tmpFilename =
    Path.ofString (Handler.tmpBasename loc (Handler.uploadPath loc target) ++ dot :: letters ++ bytes ".tmp")

section Stores

variable {loc : LocationBlock} {kind : RequestKind} {target : Bytes} {r : ARequest}

theorem ARequest.Stores.writes_path (h : r.Stores loc target) (hkind : kind = .put ∨ kind = .post) :
    loc.Writes kind target (cstr r.path.str) := by
  rw [h.path]
  exact .stored hkind h.canUpload

theorem ARequest.Stores.writes_tmpFilename (h : r.Stores loc target) (hkind : kind = .put ∨ kind = .post) :
    loc.Writes kind target (cstr r.tmpFilename.str) := by
  obtain ⟨letters, htmp⟩ := h.tmpFilename
  rw [htmp]
  exact .temporary letters hkind h.canUpload

theorem ARequest.Stores.subset (h : r.Stores loc target) (hkind : kind = .put ∨ kind = .post) :
    {cstr r.path.str, cstr r.tmpFilename.str} ⊆ {p | loc.Writes kind target p} := by
  rintro p (rfl | rfl)
  · exact h.writes_path hkind
  · exact h.writes_tmpFilename hkind

end Stores

namespace Handler

open FileSystem

/-! ## Processing -/

theorem fs_openCGI (sys : Sys) (h : Handler) : (openCGI sys h).context.world.fs = h.context.world.fs := by
  rcases openCGI_cases sys h with heq | ⟨_, heq⟩ | ⟨_, _, heq⟩ <;> rw [heq] <;> rfl

theorem fs_of_processed {serve finish openDir : Handler → Handler} {h h' : Handler} {selected : Option Path}
    (hserve : ∀ h : Handler, (serve h).context.world.fs = h.context.world.fs)
    (hfinish : ∀ h : Handler, (finish h).context.world.fs = h.context.world.fs)
    (hopen : ∀ h : Handler, (openDir h).context.world.fs = h.context.world.fs)
    (hp : Processed serve finish openDir h selected h') : h'.context.world.fs = h.context.world.fs := by
  cases hp with
  | served q hq => exact (hfinish _).trans (hserve _)
  | refused | redirected => rfl
  | finished p hp code => exact hfinish _
  | listed p hp => exact hopen _

/-- A GET changes nothing. -/
theorem fs_processingGET (sys : Sys) (h : Handler) :
    (processingGET sys h).context.world.fs = h.context.world.fs := by
  refine fs_of_processed ?_ (fun _ => rfl) ?_ (processed_processFile _ _ _ sys h)
  · intro h
    cases hcgi : h.request.cgiPath with
    | none =>
      dsimp only
      unfold openFileGET
      dsimp only
      split_ifs <;> rfl
    | some cgi => exact fs_openCGI sys h
  · intro h
    unfold openDirGET
    dsimp only
    split_ifs <;> rfl

/-- Nor does a HEAD. -/
theorem fs_processingHEAD (sys : Sys) (h : Handler) :
    (processingHEAD sys h).context.world.fs = h.context.world.fs := by
  refine fs_of_processed ?_ ?_ ?_ (processed_processFile _ _ _ sys h) <;> exact fun _ => rfl

theorem changesIn_processingDELETE (sys : Sys) (h : Handler) :
    ChangesIn {cstr h.request.path.str} h.context.world.fs (processingDELETE sys h).context.world.fs := by
  unfold processingDELETE
  dsimp only
  split_ifs
  · cases hs : h.request.path.stat sys h.context.world.fs with
    | none => exact changesIn_refl _ _
    | some q =>
      dsimp only
      rw [← Path.stat_str hs]
      have hremoved := changesIn_remove sys h.context.world.fs q.str
      split_ifs
      · exact changesIn_refl _ _
      · exact hremoved
      · exact hremoved
      · exact changesIn_refl _ _
  · exact changesIn_refl _ _

/-- What `processing` does to the names of a body: it opens no file, and the request is answered or goes to
a CGI; or it opens the temporary file. -/
inductive StartsNames (loc : LocationBlock) (target : Bytes) (h h' : Handler) : Prop
  | idle (hfs : h'.context.world.fs = h.context.world.fs)
      (htmp : h'.request.tmpFilename = h.request.tmpFilename)
      (hdone : h'.request.cgiPath.isSome = true ∧ h'.request.kind = .post ∨
        h'.context.cgiSocket = h.context.cgiSocket ∧ h'.context.response.statusCode ≠ statusNone)
  | stores (hstores : h'.request.Stores loc target)
      (hfs : ChangesIn {cstr h'.request.tmpFilename.str} h.context.world.fs h'.context.world.fs)

theorem Uploads.startsNames {sys : Sys} {h h' : Handler} (huploads : Uploads sys h h')
    (hcan : h.rule.canUpload = true) (hpath : h'.request.path = uploadPath h.rule h.context.target) :
    StartsNames h.rule h.context.target h h' := by
  cases huploads with
  | refused path hcode => exact .idle rfl rfl (Or.inr ⟨rfl, hcode⟩)
  | @unopened path tmp code hnamed hcode =>
    obtain rfl : path = uploadPath h.rule h.context.target := hpath
    obtain ⟨i, rfl⟩ := hnamed.random
    exact .stores ⟨hcan, rfl, sys.random i, rfl⟩ (changesIn_refl _ _)
  | @opened path tmp fs hnamed hcreate =>
    obtain rfl : path = uploadPath h.rule h.context.target := hpath
    obtain ⟨i, rfl⟩ := hnamed.random
    exact .stores ⟨hcan, rfl, sys.random i, rfl⟩ (changesIn_of_without (createFile_without hcreate))

theorem startsNames_upload (sys : Sys) (h : Handler) :
    StartsNames h.rule h.context.target h (upload sys h) := by
  unfold upload
  split_ifs with hdir hcan
  · exact .idle rfl rfl (Or.inr ⟨rfl, (by decide : statusConflict ≠ statusNone)⟩)
  · have huploads := uploads_checkUpload sys (h := h.setPath (uploadPath h.rule h.context.target))
      (Path.normal_ofString _).squeeze_str
    exact huploads.of_setPath.startsNames hcan (path_checkUpload sys _)
  · exact .idle rfl rfl (Or.inr ⟨rfl, (by decide : statusMethodNotAllowed ≠ statusNone)⟩)

/-- The checks of the headers name no file. -/
theorem startsNames_of_checked {sys : Sys} {h h₁ h' : Handler} (f : RequestState → RequestState)
    (hchecked : Checked h (.reqContinue, h₁)) (heq : h' = upload sys (h₁.setState f)) :
    StartsNames h.rule h.context.target h h' := by
  have hupload := startsNames_upload sys (h₁.setState f)
  rw [← heq] at hupload
  cases hchecked with
  | chunked | content =>
    cases hupload with
    | idle hfs htmp hdone => exact .idle hfs htmp hdone
    | stores hstores hfs => exact .stores hstores hfs

theorem startsNames_processingPUT (sys : Sys) (h : Handler) :
    StartsNames h.rule h.context.target h (processingPUT sys h) := by
  have hchecked := checked_checkHeaders h
  unfold processingPUT
  generalize checkHeaders h = r at hchecked ⊢
  obtain ⟨ret, h₁⟩ := r
  cases ret with
  | reqContinue => exact startsNames_of_checked id hchecked rfl
  | reqDone =>
    cases hchecked with
    | refused n hcode => exact .idle rfl rfl (Or.inr ⟨rfl, hcode⟩)
  | reqError | throws => cases hchecked

theorem startsNames_processingPOST (sys : Sys) {h : Handler} (hpost : h.request.kind = .post) :
    StartsNames h.rule h.context.target h (processingPOST sys h) := by
  have hchecked := checked_checkHeaders h
  unfold processingPOST
  generalize checkHeaders h = r at hchecked ⊢
  obtain ⟨ret, h₁⟩ := r
  cases ret with
  | reqContinue =>
    dsimp only
    cases hcgi : h₁.request.cgiPath with
    | none => exact startsNames_of_checked RequestState.setCgiInComplete hchecked rfl
    | some cgi =>
      have hrequest := request_openCGI sys (h₁.setState RequestState.setWorkInComplete)
      have hsame : h₁.request.tmpFilename = h.request.tmpFilename ∧ h₁.request.kind = h.request.kind ∧
          h₁.context.world.fs = h.context.world.fs := by cases hchecked <;> exact ⟨rfl, rfl, rfl⟩
      refine .idle ((fs_openCGI sys _).trans hsame.2.2) ?_ (Or.inl ⟨?_, ?_⟩) <;> rw [hrequest]
      · exact hsame.1
      · show h₁.request.cgiPath.isSome = true
        rw [hcgi]
        rfl
      · exact hsame.2.1.trans hpost
  | reqDone =>
    cases hchecked with
    | refused n hcode => exact .idle rfl rfl (Or.inr ⟨rfl, hcode⟩)
  | reqError | throws => cases hchecked

/-- What `processing` leaves to the readers of a body: the two names that an upload writes, fixed before its
first byte is read. -/
theorem startsNames_processing (sys : Sys) {h : Handler}
    (hkind : h.request.kind = .put ∨ h.request.kind = .post) :
    StartsNames h.rule h.context.target h (processing sys h) := by
  unfold processing
  rcases hkind with hput | hpost
  · rw [hput]
    exact startsNames_processingPUT sys h
  · rw [hpost]
    exact startsNames_processingPOST sys hpost

theorem StartsNames.changesIn {loc : LocationBlock} {kind : RequestKind} {target : Bytes} {h h' : Handler}
    (hstarts : StartsNames loc target h h') (hkind : kind = .put ∨ kind = .post) :
    ChangesIn {p | loc.Writes kind target p} h.context.world.fs h'.context.world.fs := by
  cases hstarts with
  | idle hfs => exact changesIn_of_eq hfs
  | stores hstores hfs =>
    refine hfs.mono ?_
    rintro p rfl
    exact hstores.writes_tmpFilename hkind

/-- **The names that `processing` changes** are among those that the location lets this kind of request
write for this target. -/
theorem changesIn_processing (sys : Sys) {kind : RequestKind} {ctx : RequestContext} {h : Handler}
    (hcreate : createRequest kind ctx = .ok h) :
    ChangesIn {p | ctx.rule.Writes kind ctx.target p} ctx.world.fs (processing sys h).context.world.fs := by
  obtain ⟨chopedTarget, hchop, rfl⟩ := createRequest_ok hcreate
  obtain rfl : ctx.target.drop ctx.rule.matchLength = chopedTarget := by
    unfold chopTarget at hchop
    split_ifs at hchop
    exact Except.ok.inj hchop
  let built : Handler := ⟨ctx.setState kind.initState, {
    kind := kind
    path := localPath ctx.rule (ctx.target.drop ctx.rule.matchLength)
    cgiPath := ctx.rule.findCGI (localPath ctx.rule (ctx.target.drop ctx.rule.matchLength)).extension }⟩
  have hbody := @startsNames_processing sys built
  have hdelete := changesIn_processingDELETE sys built
  cases kind with
  | get => exact changesIn_of_eq (fs_processingGET sys _)
  | head => exact changesIn_of_eq (fs_processingHEAD sys _)
  | put => exact (hbody (Or.inl rfl)).changesIn (Or.inl rfl)
  | post => exact (hbody (Or.inr rfl)).changesIn (Or.inr rfl)
  | delete =>
    refine hdelete.mono ?_
    rintro p rfl
    exact .removed rfl

/-! ## Readers -/

theorem fs_writeChunk_of_cgi (sys : Sys) {h : Handler} (hcgi : h.request.cgiPath.isSome = true) (size : Nat) :
    (writeChunk sys h size).2.request.cgiPath.isSome = true ∧
      (writeChunk sys h size).2.context.world.fs = h.context.world.fs := by
  obtain ⟨path, hpath⟩ := Option.isSome_iff_exists.mp hcgi
  unfold writeChunk
  rw [hpath]
  dsimp only
  unfold sendCGI
  dsimp only
  split <;> exact ⟨hcgi, rfl⟩

theorem fs_saveFile_of_cgi (sys : Sys) {h : Handler} (hcgi : h.request.cgiPath.isSome = true) :
    (saveFile sys h).2.context.world.fs = h.context.world.fs := by
  obtain ⟨path, hpath⟩ := Option.isSome_iff_exists.mp hcgi
  unfold saveFile
  rw [hpath]
  dsimp only
  split_ifs <;> rfl

theorem changesIn_publish (sys : Sys) (h : Handler) :
    ChangesIn {cstr h.request.path.str, cstr h.request.tmpFilename.str} h.context.world.fs
      (publish sys h).context.world.fs := by
  have htarget : ChangesIn {cstr h.request.path.str, cstr h.request.tmpFilename.str} h.context.world.fs
      (withoutTarget sys h) := by
    unfold withoutTarget
    split_ifs
    · exact (changesIn_remove sys _ _).mono (by simp)
    · exact changesIn_refl _ _
  rw [publish_fs]
  refine (htarget.trans ((changesIn_rename sys _ _ _).mono ?_)).trans
    ((changesIn_remove sys _ _).mono (by simp))
  exact (Set.pair_comm _ _).subset

theorem Stores.changesIn {sys : Sys} {h h' : Handler} (hstores : Stores sys h h') :
    ChangesIn {cstr h.request.path.str, cstr h.request.tmpFilename.str} h.context.world.fs
      h'.context.world.fs := by
  cases hstores with
  | appends happends => exact (changesIn_of_without happends.without).mono (by simp)
  | @saves h₁ _ happends hreads hfs =>
    have hpublish := changesIn_publish sys h₁.closeFile
    have hpath : h₁.closeFile.request.path = h.request.path := happends.reads.path
    have htmp : h₁.closeFile.request.tmpFilename = h.request.tmpFilename := happends.reads.tmpFilename
    rw [hpath, htmp, ← hfs] at hpublish
    exact ((changesIn_of_without happends.without).mono (by simp)).trans hpublish

/-- What goes to a CGI is not written to a file. -/
theorem readerRule_fs (sys : Sys) (fs : FileSystem) :
    ReaderRule sys (fun h => h.request.cgiPath.isSome = true ∧ h.context.world.fs = fs)
      fun r => r.2.context.world.fs = fs where
  waits hI := hI.2
  buffer b hI := hI
  counters n m hI := hI
  refuses code _ hI := hI.2
  writes := by
    intro h h' ret size hI hwrite _
    have hsame := fs_writeChunk_of_cgi sys hI.1 size
    rw [hwrite] at hsame
    exact ⟨hsame.1, hsame.2.trans hI.2⟩
  writeFails := by
    intro h h' size hI hwrite
    have hsame := fs_writeChunk_of_cgi sys hI.1 size
    rw [hwrite] at hsame
    exact hsame.2.trans hI.2
  saves := by
    intro h h' ret hI hsave _
    have hsame := fs_saveFile_of_cgi sys hI.1
    rw [hsave] at hsame
    exact hsame.trans hI.2
  saveFails := by
    intro h h' fault hI hsave
    have hsame := fs_saveFile_of_cgi sys hI.1
    rw [hsave] at hsame
    exact hsame.trans hI.2

/-- **What a reader changes**: the names of its upload, or nothing when there is a CGI.  No assumption is
made about where the reader stands. -/
theorem changesIn_readBody (sys : Sys) (h : Handler) :
    (h.request.cgiPath.isSome = true → (readBody sys h).2.context.world.fs = h.context.world.fs) ∧
      ChangesIn {cstr h.request.path.str, cstr h.request.tmpFilename.str} h.context.world.fs
        (readBody sys h).2.context.world.fs :=
  ⟨fun hcgi => (readerRule_fs sys h.context.world.fs).readBody ⟨hcgi, rfl⟩,
    (stores_readBody sys h).changesIn⟩

end Handler

/-- `~RequestPUT` removes the temporary file. -/
theorem ARequest.changesIn_destroy (sys : Sys) (r : ARequest) (fs : FileSystem) :
    FileSystem.ChangesIn {cstr r.tmpFilename.str} fs (r.destroy sys fs) := by
  unfold ARequest.destroy
  split
  · split_ifs
    · exact FileSystem.changesIn_remove sys fs _
    · exact FileSystem.changesIn_refl _ fs
  all_goals exact FileSystem.changesIn_refl _ fs

end Webserv
