import Webserv.FileSelection

/-!
# Which files are run and which are sent

A GET decides between running a CGI and sending the file once, in the constructor of the request: it looks
up the extension of the decoded path.  The file that is selected afterwards may have another extension,
because an index entry has been appended, or because the name that `open` sees ends at a NUL.

* `NeverServedAsSource`: what becomes of the scripts of a location.
* `isCgiName_createRequest`: the extension that the constructor has looked up.
* `neverServedAsSource_iff`: the scripts are safe exactly when the two extensions agree.
* `not_neverServedAsSource`: with `index.php` as index of a directory they do not.

## Why two extensions

`_cgiPath` is set by the base constructor from the path of the request.  The selection comes later: a
directory gets an index entry appended, and the file is opened with the name that the entry gives.  Nobody
looks up the extension of this name.  So `/` with `index.php` as index sends the source, although
`/index.php` would have run it.  In the other direction, a directory whose own name ends in `.php` has a
CGI, and its index page is given to the interpreter.

## Why the name of the kernel counts

The path may have a NUL in it, since `%00` is decoded.  The extension is looked up in the whole string, and
`open` sees the part before the NUL.  `/a.php%00.txt` is a text file for the constructor and a script for
the kernel.  All names in the statement are therefore those that the kernel sees, and the condition compares
the extension of the decoded path with that of the opened name.  It asks for agreement only where a file is
selected that can be opened or started: what is refused is neither sent nor run.
-/

namespace Webserv

/-- Whether a CGI is configured for the extension of a name. -/
def LocationBlock.isCgiName (loc : LocationBlock) (name : Bytes) : Bool :=
  (loc.findCGI (Path.ofString name).extension).isSome

/-- What becomes of the scripts of a location when a GET has been processed: a file that is open for
raw transfer is not one of them, and a CGI that runs was started for one.  Names are those the
kernel sees. -/
structure NeverServedAsSource (loc : LocationBlock) (h : Handler) : Prop where
  raw : h.request.input.isOpen = true → loc.isCgiName h.request.input.name = false
  cgi : h.context.pid ≠ -1 → loc.isCgiName (cstr h.request.path.str) = true

/-- Whether the kernel lets the file be opened, or the CGI be started. -/
def canLaunch (sys : Sys) (fs : FileSystem) (cgiPath : Option Path) (file : Path) : Bool :=
  match cgiPath with
  | none => (IStream.openAt {} sys fs file.str).isOpen
  | some cgi => cgi.access fs .execute && sys.socketpair.isSome && sys.fork.isSome

/-! ## The constructor -/

/-- The extension is a function of the string: parsing the printed path again gives the same one. -/
theorem Path.extension_ofString_str (s : Bytes) :
    (Path.ofString (Path.ofString s).str).extension = (Path.ofString s).extension := by
  unfold Path.extension
  rw [Path.ofString_chunks, Path.ofString_chunks, Path.ofString_str, components_squeeze]

/-- The CGI of a request is that of the extension of its path. -/
theorem isCgiName_createRequest {kind : RequestKind} {ctx : RequestContext} {h : Handler}
    (hreq : createRequest kind ctx = .ok h) :
    h.rule.isCgiName h.request.path.str = h.request.cgiPath.isSome := by
  obtain ⟨chopedTarget, -, rfl⟩ := createRequest_ok hreq
  unfold LocationBlock.isCgiName
  dsimp only
  rw [localPath, Path.extension_ofString_str]
  rfl

/-! ## Serving the selected file -/

theorem IStream.name_openAt {sys : Sys} {fs : FileSystem} {path : Bytes}
    (h : (IStream.openAt {} sys fs path).isOpen = true) :
    (IStream.openAt {} sys fs path).name = cstr path := by
  rw [IStream.openAt, if_neg Bool.false_ne_true] at h ⊢
  by_cases hfails : sys.openFails (cstr path) = true
  · rw [if_pos hfails] at h
    exact absurd h Bool.false_ne_true
  rw [if_neg hfails] at h ⊢
  cases hn : fs.node (cstr path) with
  | none =>
    rw [hn] at h
    exact absurd h Bool.false_ne_true
  | some n =>
    rw [hn] at h
    dsimp only at h ⊢
    by_cases hread : n.readable = true
    · rw [if_pos hread]
    · rw [if_neg hread] at h
      exact absurd h Bool.false_ne_true

namespace Handler

/-- A file sent as it is.  That is right only if its name is none that the location has a CGI for, or if no
process could have been started. -/
theorem neverServedAsSource_openFileGET (loc : LocationBlock) (sys : Sys) {h : Handler} {q : Path}
    (hpath : h.request.path = q) (hinput : h.request.input = {}) (hpid : h.context.pid = -1) :
    NeverServedAsSource loc (openFileGET sys h) ↔
      (canLaunch sys h.context.world.fs none q = true → loc.isCgiName (cstr q.str) = false) := by
  have hfile : (openFileGET sys h).request.input =
      IStream.openAt {} sys h.context.world.fs q.str := by
    unfold openFileGET
    rw [hinput, hpath]
    dsimp only
    split_ifs <;> rfl
  have hsame : (openFileGET sys h).context.pid = -1 := by
    unfold openFileGET
    dsimp only
    split_ifs <;> exact hpid
  constructor
  · intro hsafe hlaunch
    have hraw := hsafe.raw
    rw [hfile] at hraw
    rw [← IStream.name_openAt hlaunch]
    exact hraw hlaunch
  · intro hname
    refine ⟨fun hopen => ?_, fun hstarted => absurd hsame hstarted⟩
    rw [hfile] at hopen ⊢
    rw [IStream.name_openAt hopen]
    exact hname hopen

/-- A file given to its CGI, which is run instead of being sent.  That is right where the location has a CGI
for its name. -/
theorem neverServedAsSource_openCGI (loc : LocationBlock) (sys : Sys) {h : Handler} {q cgi : Path}
    (hpath : h.request.path = q) (hcgi : h.request.cgiPath = some cgi)
    (hinput : h.request.input = {}) (hpid : h.context.pid = -1) :
    NeverServedAsSource loc (openCGI sys h) ↔
      (canLaunch sys h.context.world.fs (some cgi) q = true →
        loc.isCgiName (cstr q.str) = true) := by
  have hraw : (openCGI sys h).request = h.request := by
    rcases openCGI_cases sys h with heq | ⟨_, heq⟩ | ⟨_, _, heq⟩ <;> rw [heq] <;> rfl
  have hstart : (openCGI sys h).context.pid ≠ -1 ↔
      canLaunch sys h.context.world.fs (some cgi) q = true := by
    unfold openCGI canLaunch
    rw [hcgi, Option.getD_some]
    dsimp only
    by_cases haccess : cgi.access h.context.world.fs .execute = true
    · rw [if_neg (not_not.mpr haccess), haccess]
      cases sys.socketpair with
      | none => exact iff_of_false (not_not.mpr hpid) (by simp)
      | some pair =>
        cases sys.fork with
        | none => exact iff_of_false (not_not.mpr hpid) (by simp)
        | some pid =>
          have hnat : (pid : Int) ≠ -1 := by omega
          exact iff_of_true hnat (by simp)
    · rw [if_pos haccess]
      exact iff_of_false (not_not.mpr hpid) (by simp [haccess])
  constructor
  · intro hsafe hlaunch
    have hname := hsafe.cgi (hstart.mpr hlaunch)
    rwa [hraw, hpath] at hname
  · intro hname
    refine ⟨fun hopen => ?_, fun hstarted => ?_⟩
    · rw [hraw, hinput] at hopen
      exact absurd hopen (by decide)
    · rw [hraw, hpath]
      exact hname (hstart.mp hstarted)

end Handler

/-! ## The decision -/

open Handler in
/-- **The scripts of a location are safe exactly when the extension looked up is that of the file
selected.**  For every GET: a script is never sent, and nothing else is run, if and only if, whenever
a file is selected that the kernel lets be opened or run, the extension of the decoded path and the
extension of the name of that file are both configured for a CGI or both not. -/
theorem neverServedAsSource_iff (sys : Sys) (ctx : RequestContext) (h : Handler)
    (hreq : createRequest .get ctx = .ok h) (hpid : ctx.pid = -1) :
    NeverServedAsSource h.rule (processingGET sys h) ↔
      ∀ q, selectFile sys h.context.world.fs h.rule.indexes h.request.path = some q →
        canLaunch sys h.context.world.fs h.request.cgiPath q = true →
          h.rule.isCgiName h.request.path.str = h.rule.isCgiName (cstr q.str) := by
  rw [isCgiName_createRequest hreq]
  have hinput : h.request.input = {} := by
    obtain ⟨_, -, rfl⟩ := createRequest_ok hreq
    rfl
  have hpid' : h.context.pid = -1 := by
    obtain ⟨_, -, rfl⟩ := createRequest_ok hreq
    exact hpid
  -- without a selected file nothing is opened and nothing is run
  have hnone : ∀ h' : Handler, h'.request.input = {} → h'.context.pid = -1 →
      (NeverServedAsSource h.rule h' ↔ ∀ q, (none : Option Path) = some q →
        canLaunch sys h.context.world.fs h.request.cgiPath q = true →
          h.request.cgiPath.isSome = h.rule.isCgiName (cstr q.str)) := by
    intro h' hopen hstarted
    refine iff_of_true ⟨fun hraw => ?_, fun hrun => absurd hstarted hrun⟩
      (fun q hq => absurd hq (by simp))
    rw [hopen] at hraw
    exact absurd hraw (by decide)
  have hprocessed : Processed _ id (openDirGET sys) h
      (selectFile sys h.context.world.fs h.rule.indexes h.request.path)
      (processingGET sys h) := processed_processFile _ _ _ sys h
  revert hprocessed
  generalize selectFile sys h.context.world.fs h.rule.indexes h.request.path = selected
  generalize processingGET sys h = h'
  intro hprocessed
  cases hprocessed with
  | served q hq =>
    simp only [Option.some.injEq, forall_eq', id]
    have hsame : (h.setPath q).request.cgiPath = h.request.cgiPath := rfl
    rw [hsame]
    cases hcgi : h.request.cgiPath with
    | none =>
      rw [@neverServedAsSource_openFileGET h.rule sys (h.setPath q) q rfl hinput hpid']
      simp only [Option.isSome_none, eq_comm]
      rfl
    | some cgi =>
      rw [@neverServedAsSource_openCGI h.rule sys (h.setPath q) q cgi rfl hcgi hinput hpid']
      simp only [Option.isSome_some, eq_comm]
      rfl
  | refused p hp code => exact hnone _ hinput hpid'
  | finished p hp code => exact hnone _ hinput hpid'
  | redirected p hp location => exact hnone _ hinput hpid'
  | listed p hp =>
    have hdir : (openDirGET sys (h.setPath p)).request.input = {} ∧
        (openDirGET sys (h.setPath p)).context.pid = -1 := by
      unfold openDirGET
      dsimp only
      split_ifs <;> exact ⟨hinput, hpid'⟩
    exact hnone _ hdir.1 hdir.2

/-! ## A script as index -/

/-- A location that runs `.php` files, with `index.php` as index. -/
def phpLocation : LocationBlock where
  path := Path.ofString (bytes "/")
  root := Path.ofString (bytes "/r/")
  allowed := 1
  indexes := [bytes "index.php"]
  gcis := OrderedMap.empty.insert (bytes "php") (Path.ofString (bytes "/php"))

/-- The directory of the location, with a script in it. -/
def phpFiles : FileSystem where
  table path :=
    if path = bytes "/r/" then some { kind := .directory [bytes "index.php"] }
    else if path = bytes "/r/index.php" then some { kind := .regular (bytes "<?php") }
    else if path = bytes "/php" then some { kind := .regular [] }
    else none

/-- A GET on the location. -/
def phpContext (target : Bytes) : RequestContext where
  server := Server.single 3 {} fun _ => 0
  ruleBlock := some phpLocation
  method := .get
  target := target
  world := { fs := phpFiles }

/-- The request object for a target of the location, without a CGI. -/
def phpRequest (target : Bytes) (cgiPath : Option Path) : Handler where
  context := (phpContext target).setState RequestKind.get.initState
  request := { kind := .get, path := localPath phpLocation target, cgiPath := cgiPath }

open Handler in
/-- A script that is named by the target is run. -/
theorem neverServedAsSource_iff_script :
    createRequest .get (phpContext (bytes "/index.php")) =
        .ok (phpRequest (bytes "/index.php") (some (Path.ofString (bytes "/php")))) ∧
      (NeverServedAsSource phpLocation (processingGET (Sys.quiet 0)
          (phpRequest (bytes "/index.php") (some (Path.ofString (bytes "/php"))))) ↔
        ∀ q, selectFile (Sys.quiet 0) phpFiles [bytes "index.php"]
            (localPath phpLocation (bytes "/index.php")) = some q →
          canLaunch (Sys.quiet 0) phpFiles (some (Path.ofString (bytes "/php"))) q = true →
            phpLocation.isCgiName (localPath phpLocation (bytes "/index.php")).str =
              phpLocation.isCgiName (cstr q.str)) :=
  ⟨rfl, neverServedAsSource_iff (Sys.quiet 0) (phpContext (bytes "/index.php")) _ rfl rfl⟩

open Handler in
/-- A script that is the index of the directory named by the target is sent. -/
theorem not_neverServedAsSource :
    createRequest .get (phpContext (bytes "/")) = .ok (phpRequest (bytes "/") none) ∧
      (phpContext (bytes "/")).pid = -1 ∧
        ¬ NeverServedAsSource phpLocation
          (processingGET (Sys.quiet 0) (phpRequest (bytes "/") none)) := by
  refine ⟨rfl, rfl, fun hsafe => ?_⟩
  have hraw := hsafe.raw (by decide)
  revert hraw
  decide

end Webserv
