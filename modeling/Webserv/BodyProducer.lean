import Webserv.HeadAgreement

/-!
# What GET opens and what it reads

`processing` opens a regular file or a directory, and `workOut` decides once more which of the two it was,
by the last character of the path.  An index that is a directory is opened in place of the one that the
target names, and without a slash at its end it is read as a file that was never opened.

* `Validates`, `Ends`: what `_validateLocalFile` and `processing` come to.
* `ReadsOpened`: `workOut` reads what was opened, and a directory is that of the target.
* `ProducerFits`: the names and the kinds for which it does.
* `readsOpened_iff`: the two agree.

## Why it is decided twice

What is opened depends on `stat`: a regular file, a directory, or neither.  What is read depends on the
spelling: a path that ends with a slash is read with `readdir`, any other with `read`.  For most names the
two are the same, because a directory without a slash at its end is redirected before it is opened.  But the
index goes another way.  Its name is the path and the entry of the configuration, and nobody redirects it;
when it is no regular file, the directory branch is taken with this path.

## How the proof is organised

`processing` is looked at once.  `Ends` lists what it may come to: an answer with another status, or one of
four successful openings, each with what `stat` has told on the way.  For every opening there is one
equivalence (`readsOpened_serveGET_iff` for a file, `readsOpened_openDirGET_iff` for a directory).  They
hold because a read that goes wrong can be seen: with `readdirBroken` a listing fails where a file would
have been read, so that reading a directory as a file differs in its result.  The names come back to their
inodes through a function that the statement takes as a parameter, since two names may lead to one
directory.
-/

namespace Webserv

namespace FileSystem

/-- The name leads to a regular file, as the kernel resolves it. -/
def IsRegular (fs : FileSystem) (path : Bytes) : Prop :=
  ∃ n, fs.node (cstr path) = some n ∧ n.stat.isReg = true

/-- The name leads to a directory. -/
def IsDirectory (fs : FileSystem) (path : Bytes) : Prop :=
  ∃ n, fs.node (cstr path) = some n ∧ n.stat.isDir = true

theorem IsDirectory.not_isRegular {fs : FileSystem} {path : Bytes} (h : fs.IsDirectory path) :
    ¬ fs.IsRegular path := by
  rintro ⟨n, hn, hreg⟩
  obtain ⟨n', hn', hdir⟩ := h
  obtain rfl := Option.some.inj (hn.symm.trans hn')
  unfold Node.stat at hreg hdir
  cases hkind : n.kind with
  | regular content => rw [hkind] at hdir; cases hdir
  | directory entries => rw [hkind] at hreg; cases hreg
  | other => rw [hkind] at hdir; cases hdir

end FileSystem

namespace Handler

/-! ## What `processing` comes to -/

section

variable (serve openDir : Handler → Handler)

/-- What `_validateLocalFile` of GET comes to: a refusal, a file that is served, or a path that is left to
`processing`. -/
inductive Validates (fs : FileSystem) (h : Handler) : Ret × Handler → Prop
  | refused {p : Path} {code : Nat} (hcode : code ≠ statusOk) :
      Validates fs h (.reqDone, (h.setPath p).setStatusCode code)
  | served {q : Path} (hq : q.str = h.request.path.str) (hreg : fs.IsRegular h.request.path.str) :
      Validates fs h (.reqDone, serve (h.setPath q))
  | other {q : Path} (hq : q.str = h.request.path.str) (hreg : ¬ fs.IsRegular h.request.path.str)
      (hdir : q.isDir = true → fs.IsDirectory h.request.path.str) :
      Validates fs h (.reqContinue, h.setPath q)

/-- What `stat` tells about a path. -/
theorem exists_node_of_stat {p q : Path} {sys : Sys} {fs : FileSystem} (h : p.stat sys fs = some q) :
    ∃ n, fs.node (cstr p.str) = some n ∧ q.isFile = n.stat.isReg ∧ q.isDir = n.stat.isDir := by
  obtain ⟨s, hs, rfl⟩ := Option.map_eq_some_iff.mp h
  unfold Sys.stat at hs
  split_ifs at hs
  obtain ⟨n, hn, rfl⟩ := Option.map_eq_some_iff.mp hs
  exact ⟨n, hn, rfl, rfl⟩

theorem validates_validateLocalFile (sys : Sys) (h : Handler) :
    Validates serve h.context.world.fs h (validateLocalFile serve id sys h) := by
  unfold validateLocalFile
  cases hstat : h.request.path.stat sys h.context.world.fs with
  | none => exact @Validates.refused serve _ h h.request.path statusInternalServerError (by decide)
  | some q =>
    have hstr : q.str = h.request.path.str := Path.stat_str hstat
    obtain ⟨n, hn, hfile, hdir⟩ := exists_node_of_stat hstat
    show Validates _ _ _ (if ¬ q.access h.context.world.fs .read then
        (.reqDone, (h.setPath q).setStatusCode statusForbidden)
      else if q.isFile then (.reqDone, serve (h.setPath q)) else (.reqContinue, h.setPath q))
    by_cases hread : ¬ q.access h.context.world.fs .read
    · rw [if_pos hread]
      exact .refused (by decide)
    rw [if_neg hread]
    by_cases hreg : q.isFile
    · rw [if_pos hreg]
      exact .served hstr ⟨n, hn, hfile ▸ hreg⟩
    · rw [if_neg hreg]
      refine .other hstr ?_ fun hqdir => ⟨n, hn, hdir ▸ hqdir⟩
      rintro ⟨n', hn', hreg'⟩
      obtain rfl := Option.some.inj (hn.symm.trans hn')
      exact hreg (hfile.trans hreg')

/-- What `processing` of GET comes to: an answer with another status than 200, a file, a directory, or an
index of a directory that is one or the other. -/
inductive Ends (fs : FileSystem) (h : Handler) : Handler → Prop
  | answered {h' : Handler} (hstatus : h'.context.response.statusCode ≠ statusOk) : Ends fs h h'
  | file {q : Path} (hq : q.str = h.request.path.str) (hreg : fs.IsRegular h.request.path.str) :
      Ends fs h (serve (h.setPath q))
  | directory {q : Path} (hq : q.str = h.request.path.str) (hdir : fs.IsDirectory h.request.path.str)
      (hformat : q.isDirFormat = true) (hindex : findIndex fs h.request.path h.rule.indexes = none) :
      Ends fs h (openDir (h.setPath q))
  | indexFile {test : Bytes} {q : Path} (hdir : fs.IsDirectory h.request.path.str)
      (hindex : findIndex fs h.request.path h.rule.indexes = some test)
      (hq : q.str = (Path.ofString test).str) (hreg : fs.IsRegular (Path.ofString test).str) :
      Ends fs h (serve (h.setPath q))
  | indexOther {test : Bytes} {q : Path} (hdir : fs.IsDirectory h.request.path.str)
      (hindex : findIndex fs h.request.path h.rule.indexes = some test)
      (hq : q.str = (Path.ofString test).str) (hreg : ¬ fs.IsRegular (Path.ofString test).str) :
      Ends fs h (openDir (h.setPath q))

/-- The indexes are looked up behind the string of the path. -/
theorem findIndex_congr {fs : FileSystem} {p q : Path} (h : q.str = p.str) (indexes : List Bytes) :
    findIndex fs q indexes = findIndex fs p indexes := by
  unfold findIndex Path.concat Path.isDirFormat
  rw [h]

theorem ends_processFile (sys : Sys) (h : Handler) : Ends serve openDir h.context.world.fs h
    (processFile (validateLocalFile serve id sys) openDir h) := by
  unfold processFile
  by_cases hexists : ¬ h.request.path.access h.context.world.fs .exists
  · rw [if_pos hexists]
    exact .answered (show statusNotFound ≠ statusOk by decide)
  rw [if_neg hexists]
  have hfirst := validates_validateLocalFile serve sys h
  generalize validateLocalFile serve id sys h = r at hfirst
  cases hfirst with
  | refused hcode => exact .answered hcode
  | served hq hreg => exact .file hq hreg
  | @other q hq hreg hdir =>
    show Ends _ _ _ _ (if ¬ q.isDir then (h.setPath q).setStatusCode statusConflict
      else if ¬ q.isDirFormat then _ else _)
    by_cases hnot : ¬ q.isDir
    · rw [if_pos hnot]
      exact .answered (show statusConflict ≠ statusOk by decide)
    have hdirectory := hdir (not_not.mp hnot)
    rw [if_neg hnot]
    by_cases hformat : ¬ q.isDirFormat
    · rw [if_pos hformat]
      exact .answered (show statusMovedPermanently ≠ statusOk by decide)
    rw [if_neg hformat]
    have hlisted : ∀ {r : Path}, Ends serve openDir h.context.world.fs h (openDir (h.setPath r)) →
        Ends serve openDir h.context.world.fs h (listDirectory openDir (h.setPath r)) := fun hends => by
      unfold listDirectory
      split_ifs
      · exact hends
      · exact .answered (show statusForbidden ≠ statusOk by decide)
    have hfetch : (h.setPath q).fetchIndexes =
        (findIndex h.context.world.fs h.request.path h.rule.indexes).map fun test =>
          h.setPath (Path.ofString test) := by
      rw [← findIndex_congr hq]
      rfl
    rw [hfetch]
    cases hindex : findIndex h.context.world.fs h.request.path h.rule.indexes with
    | none => exact hlisted (.directory hq hdirectory (not_not.mp hformat) hindex)
    | some test =>
      -- the index is validated like the path of the target, and what is no file is listed in its place
      have hsecond := validates_validateLocalFile serve sys (h.setPath (Path.ofString test))
      rw [Option.map_some]
      dsimp only
      generalize validateLocalFile serve id sys (h.setPath (Path.ofString test)) = r at hsecond
      cases hsecond with
      | refused hcode => exact .answered hcode
      | served hr hreg => exact .indexFile hdirectory hindex hr hreg
      | other hr hreg => exact hlisted (.indexOther hdirectory hindex hr hreg)

end

/-! ## What is opened and what is read -/

/-- GET opened what its `workOut` reads: the file that was opened is read by `_readFile`; the directory that
was opened is read by `_readDir`, and is the one that the target names. -/
structure ReadsOpened {ι : Type*} (inode : Bytes → ι) (h h' : Handler) : Prop where
  file : h'.request.input.isOpen = true → ∀ sys, workOut sys h' = h'.readFile
  directory : h'.request.directory.isSome = true →
    inode (cstr h'.request.path.str) = inode (cstr h.request.path.str) ∧
      ∀ sys, workOut sys h' = readDir sys h'

/-- The names of regular files do not end with a slash, and an index that is a directory is named with a
slash at the end and leads back to the directory of the target. -/
structure ProducerFits {ι : Type*} (inode : Bytes → ι) (fs : FileSystem) (rule : LocationBlock) (p : Path) :
    Prop where
  file : fs.IsRegular p.str → p.isFileFormat = true
  indexFile : fs.IsDirectory p.str → ∀ test, findIndex fs p rule.indexes = some test →
    fs.IsRegular (Path.ofString test).str → (Path.ofString test).isFileFormat = true
  indexDirectory : fs.IsDirectory p.str → ∀ test, findIndex fs p rule.indexes = some test →
    fs.IsDirectory (Path.ofString test).str → (Path.ofString test).isDirFormat = true ∧
      inode (cstr (Path.ofString test).str) = inode (cstr p.str)

section

variable {ι : Type*} {inode : Bytes → ι} {fs : FileSystem} {sys : Sys} {h h' : Handler}

theorem workOut_of_fileFormat (hkind : h'.request.kind = .get) (hformat : h'.request.path.isFileFormat = true)
    (sys : Sys) : workOut sys h' = h'.readFile := by
  unfold workOut workOutGET
  rw [hkind]
  exact if_pos hformat

theorem workOut_of_dirFormat (hkind : h'.request.kind = .get) (hformat : h'.request.path.isDirFormat = true)
    (sys : Sys) : workOut sys h' = readDir sys h' := by
  unfold workOut workOutGET
  rw [hkind]
  exact (if_neg (Path.not_isFileFormat hformat)).trans (if_pos hformat)

theorem workOut_of_no_format (hkind : h'.request.kind = .get) (hfile : ¬ h'.request.path.isFileFormat = true)
    (hdir : ¬ h'.request.path.isDirFormat = true) (sys : Sys) : workOut sys h' = (.reqError, h') := by
  unfold workOut workOutGET
  rw [hkind]
  exact (if_neg hfile).trans (if_neg hdir)

theorem ret_readFile (h : Handler) : (h.readFile).1 = .reqContinue := by
  unfold readFile
  dsimp only
  split_ifs <;> rfl

/-- A file that was opened is read when its name has no slash at the end. -/
theorem readsOpened_file_iff (hkind : h'.request.kind = .get) (hopen : h'.request.input.isOpen = true)
    (hdirectory : h'.request.directory = none) :
    ReadsOpened inode h h' ↔ h'.request.path.isFileFormat = true := by
  constructor
  · intro hreads
    by_contra hfile
    have hread := congrArg Prod.fst (hreads.file hopen (.quiet 0))
    rw [ret_readFile] at hread
    by_cases hdir : h'.request.path.isDirFormat = true
    · rw [workOut_of_dirFormat hkind hdir, readDir, hdirectory] at hread
      cases hread
    · rw [workOut_of_no_format hkind hfile hdir] at hread
      cases hread
  · intro hfile
    refine ⟨fun _ => workOut_of_fileFormat hkind hfile, fun hsome => ?_⟩
    rw [hdirectory] at hsome
    cases hsome

/-- The answers of the kernel when `readdir` fails. -/
def readdirBroken : Sys := { Sys.quiet 0 with readdirFails := fun _ => true }

theorem readDir_broken {entries : List Bytes} (hdirectory : h'.request.directory = some entries) :
    readDir readdirBroken h' = (.reqError, h'.setStatusCode statusInternalServerError) := by
  unfold readDir
  rw [hdirectory]
  cases entries <;> rfl

/-- A directory that was opened is read when its name has a slash at the end. -/
theorem readsOpened_directory_iff (hkind : h'.request.kind = .get)
    (hinput : h'.request.input.isOpen = false) (hsome : h'.request.directory.isSome = true)
    (hstatus : h'.context.response.statusCode = statusOk) :
    ReadsOpened inode h h' ↔ h'.request.path.isDirFormat = true ∧
      inode (cstr h'.request.path.str) = inode (cstr h.request.path.str) := by
  constructor
  · intro hreads
    obtain ⟨hsame, hread⟩ := hreads.directory hsome
    refine ⟨?_, hsame⟩
    by_contra hdir
    obtain ⟨entries, hentries⟩ := Option.isSome_iff_exists.mp hsome
    have hbroken := (hread readdirBroken).trans (readDir_broken hentries)
    by_cases hfile : h'.request.path.isFileFormat = true
    · rw [workOut_of_fileFormat hkind hfile] at hbroken
      have hret := congrArg Prod.fst hbroken
      rw [ret_readFile] at hret
      cases hret
    · rw [workOut_of_no_format hkind hfile hdir] at hbroken
      have hcode : h'.context.response.statusCode = statusInternalServerError :=
        congrArg (fun r : Ret × Handler => r.2.context.response.statusCode) hbroken
      rw [hstatus] at hcode
      cases hcode
  · rintro ⟨hdir, hsame⟩
    refine ⟨fun hopen => ?_, fun _ => ⟨hsame, workOut_of_dirFormat hkind hdir⟩⟩
    rw [hinput] at hopen
    cases hopen

/-- A served file is open, if the status is 200. -/
theorem serveGET_ok (hfresh : h.context.response.statusCode ≠ statusOk)
    (hok : (serveGET sys h).context.response.statusCode = statusOk) :
    (serveGET sys h).request.kind = h.request.kind ∧ (serveGET sys h).request.path = h.request.path ∧
      (serveGET sys h).request.input.isOpen = true ∧
      (serveGET sys h).request.directory = h.request.directory := by
  unfold serveGET at hok ⊢
  cases hcgi : h.request.cgiPath with
  | some cgi =>
    rw [hcgi] at hok
    rcases openCGI_cases sys h with heq | ⟨pair, heq⟩ | ⟨pair, pid, heq⟩
    · rw [show (openCGI sys h).context.response.statusCode = _ by rw [heq]] at hok
      cases hok
    · rw [show (openCGI sys h).context.response.statusCode = _ by rw [heq]] at hok
      cases hok
    · rw [show (openCGI sys h).context.response.statusCode = _ by rw [heq]] at hok
      exact absurd hok hfresh
  | none =>
    rw [hcgi] at hok
    dsimp only at hok ⊢
    unfold openFileGET at hok ⊢
    dsimp only at hok ⊢
    split_ifs at hok ⊢ with hopen
    · exact ⟨rfl, rfl, hopen, rfl⟩
    · cases hok

/-- A listed directory is open, if the status is 200. -/
theorem openDirGET_ok (hok : (openDirGET sys h).context.response.statusCode = statusOk) :
    (openDirGET sys h).request.kind = h.request.kind ∧ (openDirGET sys h).request.path = h.request.path ∧
      (openDirGET sys h).request.directory.isSome = true ∧
      (openDirGET sys h).request.input = h.request.input ∧
      h.context.world.fs.IsDirectory h.request.path.str := by
  unfold openDirGET at hok ⊢
  dsimp only at hok ⊢
  split_ifs at hok ⊢ with hsome
  · refine ⟨rfl, rfl, hsome, rfl, ?_⟩
    unfold opendir at hsome
    split_ifs at hsome
    · cases hsome
    cases hnode : h.context.world.fs.node (cstr h.request.path.str) with
    | none => rw [hnode] at hsome; cases hsome
    | some n =>
      rw [hnode] at hsome
      dsimp only at hsome
      refine ⟨n, hnode, ?_⟩
      unfold Node.stat
      cases hkind : n.kind with
      | directory entries => rfl
      | regular content => rw [hkind] at hsome; cases hsome
      | other => rw [hkind] at hsome; cases hsome
  · cases hok

/-! ## The agreement -/

/-- A file of the name `p.str` was served in place of the target. -/
theorem readsOpened_serveGET_iff {p q : Path} (hkind : h.request.kind = .get)
    (hdirectory : h.request.directory = none) (hfresh : h.context.response.statusCode ≠ statusOk)
    (hok : (serveGET sys (h.setPath q)).context.response.statusCode = statusOk) (hq : q.str = p.str) :
    ReadsOpened inode h (serveGET sys (h.setPath q)) ↔ p.isFileFormat = true := by
  obtain ⟨hkind', hpath, hopen, hdirectory'⟩ := serveGET_ok (h := h.setPath q) hfresh hok
  rw [readsOpened_file_iff (hkind'.trans hkind) hopen (hdirectory'.trans hdirectory), hpath,
    ← Path.isFileFormat_congr hq]
  rfl

/-- A directory of the name `p.str` was listed in place of the target. -/
theorem readsOpened_openDirGET_iff {p q : Path} (hkind : h.request.kind = .get)
    (hinput : h.request.input.isOpen = false)
    (hok : (openDirGET sys (h.setPath q)).context.response.statusCode = statusOk) (hq : q.str = p.str) :
    ReadsOpened inode h (openDirGET sys (h.setPath q)) ↔
      p.isDirFormat = true ∧ inode (cstr p.str) = inode (cstr h.request.path.str) := by
  obtain ⟨hkind', hpath, hsome, hinput', -⟩ := openDirGET_ok hok
  have hinput'' : (openDirGET sys (h.setPath q)).request.input.isOpen = false := by
    rw [hinput']
    exact hinput
  rw [readsOpened_directory_iff (hkind'.trans hkind) hinput'' hsome hok, hpath,
    ← Path.isDirFormat_congr hq, ← hq]
  rfl

/-- A `processing` of GET that ends with 200 opens what its `workOut` reads, and a directory of the target,
exactly if the names fit. -/
theorem readsOpened_processingGET_iff (hkind : h.request.kind = .get)
    (hinput : h.request.input.isOpen = false) (hdirectory : h.request.directory = none)
    (hfresh : h.context.response.statusCode ≠ statusOk)
    (hok : (processingGET sys h).context.response.statusCode = statusOk) :
    ReadsOpened inode h (processingGET sys h) ↔
      ProducerFits inode h.context.world.fs h.rule h.request.path := by
  have hends : Ends (serveGET sys) (openDirGET sys) h.context.world.fs h (processingGET sys h) :=
    ends_processFile (serveGET sys) (openDirGET sys) sys h
  generalize processingGET sys h = h' at hends hok ⊢
  cases hends with
  | answered hstatus => exact absurd hok hstatus
  | file hq hreg =>
    rw [readsOpened_serveGET_iff hkind hdirectory hfresh hok hq]
    constructor
    · exact fun hfile => ⟨fun _ => hfile, fun hdir => absurd hreg hdir.not_isRegular,
        fun hdir => absurd hreg hdir.not_isRegular⟩
    · exact fun hfits => hfits.file hreg
  | directory hq hdir hformat hindex =>
    rw [readsOpened_openDirGET_iff hkind hinput hok hq]
    refine iff_of_true ⟨(Path.isDirFormat_congr hq).symm.trans hformat, rfl⟩
      ⟨fun hreg => ?_, fun _ => ?_, fun _ => ?_⟩
    · exact absurd hreg hdir.not_isRegular
    · intro test htest
      rw [hindex] at htest
      cases htest
    · intro test htest
      rw [hindex] at htest
      cases htest
  | @indexFile test q hdir hindex hq hreg =>
    rw [readsOpened_serveGET_iff hkind hdirectory hfresh hok hq]
    constructor
    · refine fun hfile => ⟨fun h => absurd h hdir.not_isRegular, fun _ test' htest _ => ?_,
        fun _ test' htest hdir' => ?_⟩
      · obtain rfl := Option.some.inj (hindex.symm.trans htest)
        exact hfile
      · obtain rfl := Option.some.inj (hindex.symm.trans htest)
        exact absurd hreg hdir'.not_isRegular
    · exact fun hfits => hfits.indexFile hdir test hindex hreg
  | @indexOther test q hdir hindex hq hreg =>
    -- whatever the index is, it was opened, and is a directory
    obtain ⟨-, -, -, -, hlisted⟩ := openDirGET_ok hok
    have hdir' : h.context.world.fs.IsDirectory (Path.ofString test).str := hq ▸ hlisted
    rw [readsOpened_openDirGET_iff hkind hinput hok hq]
    constructor
    · refine fun hsame => ⟨fun h => absurd h hdir.not_isRegular, fun _ test' htest hreg' => ?_,
        fun _ test' htest _ => ?_⟩
      · obtain rfl := Option.some.inj (hindex.symm.trans htest)
        exact absurd hreg' hreg
      · obtain rfl := Option.some.inj (hindex.symm.trans htest)
        exact hsame
    · exact fun hfits => hfits.indexDirectory hdir test hindex hdir'

end

/-- For every location, target and file system for which `processing` of GET ends with 200, the body
producer matches what was opened exactly if the names fit.  A CGI sets no status, so none has run. -/
theorem readsOpened_iff {ctx : RequestContext} {h : Handler} {sys : Sys}
    (hcreate : createRequest .get ctx = .ok h) (hfresh : ctx.response.statusCode ≠ statusOk)
    (hok : (processingGET sys h).context.response.statusCode = statusOk) {ι : Type*} (inode : Bytes → ι) :
    ReadsOpened inode h (processingGET sys h) ↔
      ProducerFits inode ctx.world.fs ctx.rule h.request.path := by
  obtain ⟨chopedTarget, hchop, rfl⟩ := createRequest_ok hcreate
  exact readsOpened_processingGET_iff rfl rfl rfl hfresh hok

set_option maxRecDepth 10000 in
/-- The index is a file, and its name ends with no slash. -/
theorem readsOpened_index :
    ∃ g, createRequest .get indexContext = .ok g ∧
      (processingGET (Sys.quiet 0) g).context.response.statusCode = statusOk ∧
      (ReadsOpened id g (processingGET (Sys.quiet 0) g) ↔
        ProducerFits id indexContext.world.fs indexContext.rule g.request.path) :=
  ⟨_, rfl, by decide +kernel, @readsOpened_iff indexContext _ (Sys.quiet 0) rfl (by decide +kernel)
    (by decide +kernel) Bytes id⟩

/-- A location with listings and an index that is a directory, and both directories. -/
def nestedContext : RequestContext where
  server := Server.single 3 {} fun _ => 0
  ruleBlock := some {
    path := Path.ofString (bytes "/")
    root := Path.ofString (bytes "/r/")
    allowed := 1
    dirListing := 1
    indexes := [bytes "sub"] }
  method := .get
  target := bytes "/"
  world := {
    fs := {
      table := fun path =>
        if path = bytes "/r/" then some { kind := .directory [bytes "sub"] }
        else if path = bytes "/r/sub" then some { kind := .directory [bytes "a"] }
        else none } }

set_option maxRecDepth 10000 in
/-- The index is opened in place of the directory of the target, and read as a file. -/
theorem not_readsOpened_nested :
    ¬ ∀ (ctx : RequestContext) (h : Handler) (sys : Sys), createRequest .get ctx = .ok h →
      ctx.response.statusCode ≠ statusOk →
      (processingGET sys h).context.response.statusCode = statusOk →
      ReadsOpened id h (processingGET sys h) := by
  intro hall
  have hreads := hall nestedContext _ (Sys.quiet 0) rfl (by decide +kernel) (by decide +kernel)
  have hsame := (hreads.directory (by decide +kernel)).1
  exact absurd hsame (by decide +kernel)

end Handler
end Webserv
