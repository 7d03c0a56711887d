import Webserv.Effects.Processing

/-!
# The start of an upload

`processing` of POST and PUT checks the headers, which sets the counters of the body, and then opens a
temporary file or a CGI, or refuses the request.

* `checked_checkHeaders`: the counters that `_checkHeaders` sets.
* `uploads_upload`: the request is refused, or a file is created under a name that was free.
* `startsBody_processing`: the two for `processing`.

## Why the outcomes are listed

Both classes go through a chain of tests, each of which may refuse the request with its own status: the
length is missing or malformed or too large, uploads are not allowed, the directory is not there or not
writable, no name is free, the file cannot be created.  For what comes after, these differ in the status
only.  The relations have one constructor for all refusals, with a status that is set, and one for each way
to go on, with the exact state.  A later proof has a case for each constructor and no case for each test.

## Why the name is free

The name of the temporary file is made of random letters and tried until no file has it.  That it was free
when the file was created is what makes the upload the owner of its file: removing the file restores what
was there.  `Named` keeps this fact, with the letters, and with the directory that the name is put behind.
-/

namespace Webserv
namespace Handler

/-! ## Headers -/

/-- The body is chunked. -/
def setChunked (h : Handler) : Handler :=
  { h with request := { h.request with chunked := true, contentLength := -1 } }

/-- What `_checkHeaders` decides: a refusal with its status, a body in chunks, or a body with a length
within the limit. -/
inductive Checked (h : Handler) : Ret × Handler → Prop where
  | refused (n : Int) {code : Nat} (hcode : code ≠ statusNone) :
      Checked h (.reqDone, (h.setContentLength n).setStatusCode code)
  | chunked : Checked h (.reqContinue, h.setChunked)
  | content {n : Int} (hpos : 0 < n) (hmax : n ≤ h.maxBodySize) :
      Checked h (.reqContinue, h.setContentLength n)

theorem le_sToContentLength (str : Bytes) (chunked : Bool) : -2 ≤ sToContentLength str chunked := by
  unfold sToContentLength contentLengthInvalid contentLengthTooLarge
  dsimp only
  split
  · omega
  · split <;> omega

theorem checked_checkHeaders (h : Handler) : Checked h (checkHeaders h) := by
  unfold checkHeaders
  cases h.context.headers.find? headerContentLength with
  | none =>
    cases h.context.headers.find? headerTransferEncoding with
    | none => exact .refused h.request.contentLength (by decide)
    | some coding =>
      dsimp only
      split_ifs
      · exact .refused h.request.contentLength (by decide)
      · exact .chunked
  | some value =>
    have hle := le_sToContentLength value false
    dsimp only
    generalize sToContentLength value false = n at hle ⊢
    split_ifs with hinvalid hlimit hzero
    · exact .refused n (by decide)
    · exact .refused n (by decide)
    · exact .refused n (by decide)
    · have hinvalid' : ¬ n = -2 := hinvalid
      have hzero' : ¬ n = 0 := hzero
      have hlimit' : ¬ (n = -1 ∨ n > h.maxBodySize) := hlimit
      refine .content ?_ ?_ <;> omega

/-! ## The temporary file -/

/-- The handler with the path of an upload, and with the name of a temporary file. -/
def withNames (h : Handler) (path tmpFilename : Path) : Handler :=
  { h with request := { h.request with path := path, tmpFilename := tmpFilename } }

/-- The temporary file is open, and `fs` is the file system with it. -/
def opened (h : Handler) (fs : FileSystem) : Handler where
  context := h.context.setFs fs
  request := { h.request with file := { isOpen := true } }

/-- What the names of the temporary files of an upload to `path` begin with. -/
def tmpBasename (loc : LocationBlock) (path : Path) : Bytes :=
  if loc.clientBodyUploadPath.str ≠ loc.bodyTempPath.str then loc.bodyTempPath.str ++ path.notdir
  else path.str

/-- A name for the temporary file of an upload to `path`: a random one, and free. -/
structure Named (sys : Sys) (h : Handler) (path : Path) (tmp : Bytes) : Prop where
  squeezed : squeeze path.str = path.str
  random : ∃ i, tmp = tmpBasename h.rule path ++ dot :: sys.random i ++ bytes ".tmp"
  free : h.context.world.fs.node (cstr tmp) = none

/-- What `upload` does: it refuses the request, before or after a name was found, or it opens the
temporary file. -/
inductive Uploads (sys : Sys) (h : Handler) : Handler → Prop where
  | refused (path : Path) {code : Nat} (hcode : code ≠ statusNone) :
      Uploads sys h ((h.setPath path).setStatusCode code)
  | unopened {path : Path} {tmp : Bytes} {code : Nat} (hnamed : Named sys h path tmp)
      (hcode : code ≠ statusNone) :
      Uploads sys h ((h.withNames path (Path.ofString tmp)).setStatusCode code)
  | opened {path : Path} {tmp : Bytes} {fs : FileSystem} (hnamed : Named sys h path tmp)
      (hcreate : createFile sys h.context.world.fs (Path.ofString tmp).str = some fs) :
      Uploads sys h ((h.withNames path (Path.ofString tmp)).opened fs)

/-- The name that is found is one of the random names, and free. -/
theorem tryNames_eq_some {sys : Sys} {fs : FileSystem} {basename tmp : Bytes} : ∀ {n i : Nat},
    tryNames sys fs basename n i = some tmp →
      fs.node (cstr tmp) = none ∧ ∃ j, tmp = basename ++ dot :: sys.random j ++ bytes ".tmp"
  | 0, _, h => nomatch h
  | n + 1, i, h => by
    unfold tryNames at h
    dsimp only at h
    split_ifs at h with haccess
    · exact tryNames_eq_some h
    · obtain rfl := Option.some.inj h
      refine ⟨?_, i, rfl⟩
      unfold FileSystem.access at haccess
      cases hnode : fs.node (cstr (basename ++ dot :: sys.random i ++ bytes ".tmp")) with
      | none => rfl
      | some n =>
        rw [hnode] at haccess
        exact absurd rfl haccess

theorem uploads_openFile (sys : Sys) {h : Handler}
    (hpath : squeeze h.request.path.str = h.request.path.str) : Uploads sys h (openFile sys h) := by
  unfold openFile generateFilename
  have hbasename : (if h.rule.clientBodyUploadPath.str ≠ h.rule.bodyTempPath.str then
      h.rule.bodyTempPath.str ++ h.request.path.notdir else h.request.path.str) =
        tmpBasename h.rule h.request.path := rfl
  dsimp only
  rw [hbasename]
  cases hname : tryNames sys h.context.world.fs (tmpBasename h.rule h.request.path) 100 0 with
  | none => exact .refused h.request.path (by decide)
  | some tmp =>
    obtain ⟨hfree, hrandom⟩ := tryNames_eq_some hname
    have hnamed : Named sys h h.request.path tmp := ⟨hpath, hrandom, hfree⟩
    dsimp only
    cases hcreate : createFile sys h.context.world.fs (Path.ofString tmp).str with
    | none => exact .unopened hnamed (by decide)
    | some fs => exact .opened hnamed hcreate

theorem Uploads.of_setPath {sys : Sys} {h h' : Handler} {path : Path}
    (huploads : Uploads sys (h.setPath path) h') : Uploads sys h h' := by
  cases huploads with
  | refused path hcode => exact .refused path hcode
  | unopened hnamed hcode => exact .unopened ⟨hnamed.squeezed, hnamed.random, hnamed.free⟩ hcode
  | opened hnamed hcreate =>
    exact .opened ⟨hnamed.squeezed, hnamed.random, hnamed.free⟩ hcreate

theorem uploads_checkUpload (sys : Sys) {h : Handler}
    (hpath : squeeze h.request.path.str = h.request.path.str) :
    Uploads sys h (checkUpload sys h) := by
  have hrefused : ∀ code : Nat, code ≠ statusNone → Uploads sys h (h.setStatusCode code) :=
    fun code hcode => .refused h.request.path hcode
  unfold checkUpload
  dsimp only
  split_ifs
  · cases h.request.path.dir.stat sys h.context.world.fs with
    | none => exact hrefused _ (by decide)
    | some upload =>
      dsimp only
      split_ifs
      · exact hrefused _ (by decide)
      · exact hrefused _ (by decide)
      · exact uploads_openFile sys hpath
      · exact hrefused _ (by decide)
  · exact hrefused _ (by decide)

theorem uploads_upload (sys : Sys) (h : Handler) : Uploads sys h (upload sys h) := by
  unfold upload
  split_ifs
  · exact .refused h.request.path (by decide)
  · refine (uploads_checkUpload sys ?_).of_setPath
    exact (Path.normal_ofString _).squeeze_str
  · exact .refused h.request.path (by decide)

/-- The name that is opened is the one that was free, when the random letters hold no slash. -/
theorem Named.squeeze_eq {sys : Sys} {h : Handler} {path : Path} {tmp : Bytes}
    (hnamed : Named sys h path tmp) (hrandom : ∀ i, slash ∉ sys.random i)
    (htemp : squeeze h.rule.bodyTempPath.str = h.rule.bodyTempPath.str) : squeeze tmp = tmp := by
  obtain ⟨hsqueezed, ⟨i, rfl⟩, -⟩ := hnamed
  have hbase : squeeze (tmpBasename h.rule path) = tmpBasename h.rule path := by
    unfold tmpBasename
    split_ifs
    · rw [squeeze_append_of_notMem path.slash_notMem_notdir, htemp]
    · exact hsqueezed
  have hsuffix : slash ∉ dot :: sys.random i ++ bytes ".tmp" := by
    intro hmem
    rcases List.mem_append.mp hmem with hmem | hmem
    · rcases List.mem_cons.mp hmem with heq | hmem
      · exact absurd heq (by decide)
      · exact hrandom i hmem
    · exact absurd hmem (by decide)
  rw [List.append_assoc, squeeze_append_of_notMem hsuffix, hbase]

/-! ## Processing -/

/-- What `processing` of POST and PUT does: the headers are refused, or a CGI is opened, or an upload is
started. -/
inductive StartsBody (sys : Sys) (h : Handler) : Handler → Prop where
  | refused (n : Int) {code : Nat} (hcode : code ≠ statusNone) (f : RequestState → RequestState) :
      StartsBody sys h (((h.setContentLength n).setStatusCode code).setState f)
  | cgi {h₁ : Handler} (hkind : h.request.kind = .post) (hcgi : h.request.cgiPath.isSome = true)
      (hchecked : Checked h (.reqContinue, h₁)) :
      StartsBody sys h (openCGI sys (h₁.setState RequestState.setWorkInComplete))
  | upload {h₁ h' : Handler} (f : RequestState → RequestState)
      (hkind : h.request.kind = .put ∨ h.request.kind = .post ∧ h.request.cgiPath = none)
      (hchecked : Checked h (.reqContinue, h₁)) (huploads : Uploads sys (h₁.setState f) h') :
      StartsBody sys h h'

theorem Checked.cgiPath {h h₁ : Handler} {ret : Ret} (hchecked : Checked h (ret, h₁)) :
    h₁.request.cgiPath = h.request.cgiPath := by
  cases hchecked <;> rfl

theorem startsBody_processingPOST (sys : Sys) {h : Handler} (hpost : h.request.kind = .post) :
    StartsBody sys h (processingPOST sys h) := by
  have hchecked := checked_checkHeaders h
  unfold processingPOST
  generalize checkHeaders h = r at hchecked ⊢
  obtain ⟨ret, h₁⟩ := r
  cases ret with
  | reqContinue =>
    dsimp only
    rw [hchecked.cgiPath]
    cases hcgi : h.request.cgiPath with
    | some path => exact .cgi hpost (by rw [hcgi]; rfl) hchecked
    | none => exact .upload _ (Or.inr ⟨hpost, hcgi⟩) hchecked (uploads_upload sys _)
  | reqDone =>
    cases hchecked with
    | refused n hcode => exact .refused n hcode _
  | reqError | throws => cases hchecked

theorem startsBody_processingPUT (sys : Sys) {h : Handler} (hput : h.request.kind = .put) :
    StartsBody sys h (processingPUT sys h) := by
  have hchecked := checked_checkHeaders h
  unfold processingPUT
  generalize checkHeaders h = r at hchecked ⊢
  obtain ⟨ret, h₁⟩ := r
  cases hchecked with
  | refused n hcode => exact .refused n hcode id
  | chunked => exact .upload id (Or.inl hput) .chunked (uploads_upload sys _)
  | content hpos hmax =>
    exact .upload id (Or.inl hput) (.content hpos hmax) (uploads_upload sys _)

/-- **The start of a body**: the request is refused, goes to a CGI, or is an upload with its temporary file.
-/
theorem startsBody_processing (sys : Sys) {h : Handler}
    (hkind : h.request.kind = .post ∨ h.request.kind = .put) :
    StartsBody sys h (processing sys h) := by
  unfold processing
  rcases hkind with hpost | hput
  · rw [hpost]
    exact startsBody_processingPOST sys hpost
  · rw [hput]
    exact startsBody_processingPUT sys hput

end Handler
end Webserv
