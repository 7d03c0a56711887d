import Webserv.FileSelection

/-!
# HEAD agrees with GET

`RequestHEAD` and `RequestGET` each have a copy of `_validateLocalFile`, `_fetchIndexes` and `processing`.
Both come to the same decision about a target, which `find` takes from the file system alone; what is left
of the methods is how they serve a file and list a directory.

* `Found`, `find`: the decision.
* `response_processFile`: both copies take it.
* `response_serve`, `response_listing`: what GET does to the response is what HEAD does, as far as the
  status and the headers go, when `open` and `opendir` succeed.
* `head_agrees`: the responses of the two requests.

## Why the decision is a value

The two methods are the same down to the point where GET opens something, so a proof that follows both would
go through every branch twice, and would have to be done again for each question about them.  `find` returns
what stands at the target: a refusal with its status, a redirect, a file or a directory.  The lemma
`response_processFile` is about the shared shape and holds for whatever is done afterwards; it says that the
response is the one that `respond` makes of the decision.  Two requests with the same location, path and
file system find the same.

## Why opening is assumed

GET calls `open` or `opendir` at the end, and a failure there is an error.  HEAD does not call it, and has
no way of knowing.  Between the `access` before and the call itself the rights may also change.  So the
statement is about the requests for which the call of GET succeeds (`Found.Opens`), and it leaves out a
target that is mapped to a CGI, whose headers come from the CGI.
-/

namespace Webserv

/-! ## The decision -/

/-- What stands at a target, as far as it decides the answer: nothing that may be read, a directory without
its slash, a file, or a directory. -/
inductive Found where
  | refused (status : Nat)
  | moved
  | file (path : Path)
  | directory (path : Path)
  deriving DecidableEq

namespace Found

/-- A path that exists: a regular file, a refusal, or something else, of which the `stat` is known. -/
def validate (sys : Sys) (fs : FileSystem) (p : Path) (other : Path → Found) : Found :=
  match p.stat sys fs with
  | none => refused statusInternalServerError
  | some q =>
    if ¬ q.access fs .read then refused statusForbidden
    else if q.isFile then file q
    else other q

/-- A directory, or whatever else the first index leads to, when listings are allowed. -/
def listing (rule : LocationBlock) (p : Path) : Found :=
  if rule.isDirListing then directory p else refused statusForbidden

end Found

open Found in
/-- What stands at a target: the path itself, or the first index of the directory it names. -/
def find (sys : Sys) (fs : FileSystem) (rule : LocationBlock) (p : Path) : Found :=
  if ¬ p.access fs .exists then refused statusNotFound
  else
    validate sys fs p fun q =>
      if ¬ q.isDir then refused statusConflict
      else if ¬ q.isDirFormat then moved
      else
        match Handler.findIndex fs q rule.indexes with
        | some test => validate sys fs (Path.ofString test) (listing rule)
        | none => listing rule q

/-- The call of `open` or `opendir` that GET makes there succeeds. -/
def Found.Opens (sys : Sys) (fs : FileSystem) : Found → Prop
  | refused _ | moved => True
  | file p => (({} : IStream).openAt sys fs p.str).isOpen = true
  | directory p => (Handler.opendir sys fs p.str).isSome = true

instance (sys : Sys) (fs : FileSystem) : (found : Found) → Decidable (found.Opens sys fs)
  | .refused _ => isTrue trivial
  | .moved => isTrue trivial
  | .file p => inferInstanceAs (Decidable ((({} : IStream).openAt sys fs p.str).isOpen = true))
  | .directory p => inferInstanceAs (Decidable ((Handler.opendir sys fs p.str).isSome = true))

/-! ## Both copies take it -/

namespace Handler

section

variable (serve finish openDir : Handler → Handler) (sys : Sys)

/-- The response once the decision is taken.  The two methods give it their own ways with a file and with a
directory. -/
def respond (h : Handler) : Found → Response
  | .refused status => h.context.response.setStatusCode status
  | .moved => (h.context.response.setStatusCode statusMovedPermanently).setHeader headerLocation
      (h.context.target ++ [slash] ++ h.context.queries.originalQueryLine)
  | .file p => (serve (h.setPath p)).context.response
  | .directory p => (openDir (h.setPath p)).context.response

@[simp] theorem respond_setPath (h : Handler) (p : Path) (found : Found) :
    respond serve openDir (h.setPath p) found = respond serve openDir h found := by
  cases found <;> rfl

/-- What `processing` does after `_validateLocalFile`. -/
def goOn (next : Handler → Handler) : Ret × Handler → Handler
  | (.reqContinue, h) => next h
  | (_, h) => h

/-- `_validateLocalFile` and what follows it where it does not answer. -/
theorem response_validateLocalFile {finish : Handler → Handler}
    (hfinish : ∀ h, (finish h).context.response = h.context.response) {h : Handler}
    {next : Handler → Handler} {other : Path → Found}
    (hnext : ∀ q, (next (h.setPath q)).context.response = respond serve openDir h (other q)) :
    (goOn next (validateLocalFile serve finish sys h)).context.response =
      respond serve openDir h (Found.validate sys h.context.world.fs h.request.path other) := by
  unfold validateLocalFile Found.validate
  cases h.request.path.stat sys h.context.world.fs with
  | none => exact hfinish _
  | some q =>
    show (goOn next (if ¬ q.access h.context.world.fs .read then
        (.reqDone, finish ((h.setPath q).setStatusCode statusForbidden))
      else if q.isFile then (.reqDone, finish (serve (h.setPath q)))
      else (.reqContinue, h.setPath q))).context.response =
        respond serve openDir h (if ¬ q.access h.context.world.fs .read then _ else _)
    by_cases hread : ¬ q.access h.context.world.fs .read
    · rw [if_pos hread, if_pos hread]
      exact hfinish _
    rw [if_neg hread, if_neg hread]
    by_cases hfile : q.isFile
    · rw [if_pos hfile, if_pos hfile]
      exact hfinish _
    · rw [if_neg hfile, if_neg hfile]
      exact hnext q

theorem response_listDirectory (h : Handler) (p : Path) :
    (listDirectory openDir (h.setPath p)).context.response =
      respond serve openDir h (Found.listing h.rule p) := by
  show (if h.rule.isDirListing then openDir (h.setPath p)
    else (h.setPath p).setStatusCode statusForbidden).context.response = _
  unfold Found.listing
  split_ifs <;> rfl

/-- **One decision.**  `processing` of GET and of HEAD answers what `find` finds, whatever it does to serve
a file or to list a directory. -/
theorem response_processFile {finish : Handler → Handler}
    (hfinish : ∀ h, (finish h).context.response = h.context.response) (h : Handler) :
    (processFile (validateLocalFile serve finish sys) openDir h).context.response =
      respond serve openDir h (find sys h.context.world.fs h.rule h.request.path) := by
  unfold processFile find
  by_cases hexists : ¬ h.request.path.access h.context.world.fs .exists
  · rw [if_pos hexists, if_pos hexists]
    rfl
  rw [if_neg hexists, if_neg hexists]
  refine response_validateLocalFile serve openDir sys hfinish fun q => ?_
  show (if ¬ q.isDir then (h.setPath q).setStatusCode statusConflict
    else if ¬ q.isDirFormat then
      ((h.setPath q).setStatusCode statusMovedPermanently).setHeader headerLocation
        (h.context.target ++ [slash] ++ h.context.queries.originalQueryLine)
    else _ : Handler).context.response = _
  by_cases hdir : ¬ q.isDir
  · rw [if_pos hdir, if_pos hdir]
    rfl
  rw [if_neg hdir, if_neg hdir]
  by_cases hformat : ¬ q.isDirFormat
  · rw [if_pos hformat, if_pos hformat]
    rfl
  rw [if_neg hformat, if_neg hformat]
  have hfetch : (h.setPath q).fetchIndexes =
      (findIndex h.context.world.fs q h.rule.indexes).map fun test =>
        h.setPath (Path.ofString test) := rfl
  rw [hfetch]
  cases findIndex h.context.world.fs q h.rule.indexes with
  | none => exact response_listDirectory serve openDir h q
  | some test =>
    have hvalid := response_validateLocalFile serve openDir sys hfinish
      (fun r => (response_listDirectory serve openDir (h.setPath (Path.ofString test)) r).trans rfl)
    exact hvalid.trans (respond_setPath ..)

end

/-! ## The two ways to answer -/

/-- What HEAD compares: the status and the headers.  The reason follows from the status, and the bodies
differ. -/
def Agree (r r' : Response) : Prop := r.statusCode = r'.statusCode ∧ r.headers = r'.headers

/-- A file that GET can open is answered like the same file by HEAD. -/
theorem response_openFileGET {sys : Sys} {h : Handler}
    (hopen : (h.request.input.openAt sys h.context.world.fs h.request.path.str).isOpen = true) :
    (openFileGET sys h).context.response = (openFileHEAD h).context.response := by
  unfold openFileGET
  exact (congrArg (fun h => Handler.context h |>.response) (if_pos hopen)).trans rfl

/-- What GET does with a file. -/
def serveGET (sys : Sys) (h : Handler) : Handler :=
  match h.request.cgiPath with
  | some _ => openCGI sys h
  | none => openFileGET sys h

theorem response_processingGET (sys : Sys) (h : Handler) : (processingGET sys h).context.response =
    respond (serveGET sys) (openDirGET sys) h (find sys h.context.world.fs h.rule h.request.path) :=
  response_processFile _ _ sys (fun _ => rfl) h

theorem response_processingHEAD (sys : Sys) (h : Handler) : (processingHEAD sys h).context.response =
    respond openFileHEAD openDirHEAD h (find sys h.context.world.fs h.rule h.request.path) :=
  response_processFile openFileHEAD openDirHEAD sys
    (fun h => (rfl : (h.setState RequestState.setWorkInComplete).context.response = _)) h

/-- A file that GET finds and opens, where there is no CGI. -/
theorem respond_serveGET_file {sys : Sys} {h : Handler} {p : Path} (hcgi : h.request.cgiPath = none)
    (hinput : h.request.input = {}) (hopens : (Found.file p).Opens sys h.context.world.fs) :
    respond (serveGET sys) (openDirGET sys) h (.file p) = (openFileHEAD (h.setPath p)).context.response := by
  have hserve : serveGET sys (h.setPath p) = openFileGET sys (h.setPath p) := by
    show (match h.request.cgiPath with
      | some _ => openCGI sys (h.setPath p)
      | none => openFileGET sys (h.setPath p)) = _
    rw [hcgi]
  have hopen : ((h.setPath p).request.input.openAt sys (h.setPath p).context.world.fs
      (h.setPath p).request.path.str).isOpen = true := by
    show (h.request.input.openAt sys h.context.world.fs p.str).isOpen = true
    rw [hinput]
    exact hopens
  show (serveGET sys (h.setPath p)).context.response = _
  rw [hserve, response_openFileGET hopen]

/-- A directory that GET can open is answered like the same directory by HEAD, but for the body. -/
theorem agree_openDirGET {sys : Sys} {h : Handler}
    (hopen : (opendir sys h.context.world.fs h.request.path.str).isSome = true) :
    Agree (openDirGET sys h).context.response (openDirHEAD h).context.response := by
  unfold openDirGET
  dsimp only
  rw [if_pos hopen]
  exact ⟨rfl, rfl⟩

/-- GET and HEAD on handlers that differ in nothing that they read. -/
theorem agree_processing {sys : Sys} {g h : Handler} (hresponse : g.context.response = h.context.response)
    (hserver : g.context.server = h.context.server) (hrule : g.rule = h.rule)
    (htarget : g.context.target = h.context.target) (hqueries : g.context.queries = h.context.queries)
    (hfs : g.context.world.fs = h.context.world.fs) (hpath : g.request.path = h.request.path)
    (hinput : g.request.input = {}) (hcgi : g.request.cgiPath = none)
    (hopens : (find sys h.context.world.fs h.rule h.request.path).Opens sys h.context.world.fs) :
    Agree (processingGET sys g).context.response (processingHEAD sys h).context.response := by
  rw [response_processingGET, response_processingHEAD, hfs, hrule, hpath]
  generalize find sys h.context.world.fs h.rule h.request.path = found at hopens ⊢
  cases found with
  | refused status =>
    unfold respond
    rw [hresponse]
    exact ⟨rfl, rfl⟩
  | moved =>
    unfold respond
    rw [hresponse, htarget, hqueries]
    exact ⟨rfl, rfl⟩
  | file p =>
    rw [respond_serveGET_file hcgi hinput (by rw [hfs]; exact hopens)]
    show Agree ((((g.context.response.setStatusCode statusOk).setHeader headerContentType
        (g.context.server.getMimeType p.extension)).setHeader headerContentLength
          (numToStr (toInt32 p.size)))) _
    rw [hresponse, hserver]
    exact ⟨rfl, rfl⟩
  | directory p =>
    have hopen : (opendir sys (g.setPath p).context.world.fs (g.setPath p).request.path.str).isSome =
        true := by
      show (opendir sys g.context.world.fs p.str).isSome = true
      rw [hfs]
      exact hopens
    have hsame : (openDirHEAD (g.setPath p)).context.response =
        (openDirHEAD (h.setPath p)).context.response :=
      congrArg (fun r : Response => (r.setStatusCode statusOk).setHeader headerContentType
        (bytes "text/html")) hresponse
    show Agree (openDirGET sys (g.setPath p)).context.response (openDirHEAD (h.setPath p)).context.response
    rw [← hsame]
    exact agree_openDirGET hopen

end Handler

/-! ## The two requests -/

/-- **HEAD agrees with GET.**  Let the two requests have the same context but for the method, the path of
the target not be mapped to a CGI, and the file or directory found there open.  Then the two responses
have the same status and the same headers, of which the content type, the content length and the location
are three. -/
theorem head_agrees {ctx : RequestContext} {method : Method} {sys : Sys} {g h : Handler}
    (hg : createRequest .get ctx = .ok g) (hh : createRequest .head { ctx with method := method } = .ok h)
    (hcgi : g.request.cgiPath = none)
    (hopens : (find sys ctx.world.fs ctx.rule g.request.path).Opens sys ctx.world.fs) :
    let get := (Handler.processingGET sys g).context.response
    let head := (Handler.processingHEAD sys h).context.response
    get.statusCode = head.statusCode ∧
      ∀ name ∈ [headerContentType, headerContentLength, headerLocation],
        get.headers.find? name = head.headers.find? name := by
  obtain ⟨chopedTarget, hchop, rfl⟩ := createRequest_ok hg
  obtain ⟨chopedTarget', hchop', rfl⟩ := createRequest_ok hh
  obtain rfl : chopedTarget = chopedTarget' := Except.ok.inj (hchop.symm.trans hchop')
  obtain ⟨hstatus, hheaders⟩ := Handler.agree_processing
    (g := { context := ctx.setState (RequestKind.initState .get)
            request := {
              kind := .get
              path := localPath ctx.rule chopedTarget
              cgiPath := ctx.rule.findCGI (localPath ctx.rule chopedTarget).extension } })
    (h := { context := RequestContext.setState { ctx with method := method } (RequestKind.initState .head)
            request := {
              kind := .head
              path := localPath ctx.rule chopedTarget
              cgiPath := ctx.rule.findCGI (localPath ctx.rule chopedTarget).extension } })
    rfl rfl rfl rfl rfl rfl rfl rfl hcgi hopens
  exact ⟨hstatus, fun name _ => congrArg (OrderedMap.find? · name) hheaders⟩

/-- A location with an index, and its directory. -/
def indexContext : RequestContext where
  server := Server.single 3 {} fun _ => 0
  ruleBlock := some {
    path := Path.ofString (bytes "/")
    root := Path.ofString (bytes "/r/")
    allowed := 1
    indexes := [bytes "a.html"] }
  method := .get
  target := bytes "/"
  world := {
    fs := {
      table := fun path =>
        if path = bytes "/r/" then some { kind := .directory [bytes "a.html"] }
        else if path = bytes "/r/a.html" then some { kind := .regular (bytes "abc") }
        else none } }

set_option maxRecDepth 10000 in
/-- Both answer the index. -/
theorem head_agrees_index :
    ∃ g h, createRequest .get indexContext = .ok g ∧
      createRequest .head { indexContext with method := .head } = .ok h ∧
        (Handler.processingGET (Sys.quiet 0) g).context.response.statusCode = statusOk ∧
        (Handler.processingGET (Sys.quiet 0) g).context.response.statusCode =
          (Handler.processingHEAD (Sys.quiet 0) h).context.response.statusCode ∧
        ∀ name ∈ [headerContentType, headerContentLength, headerLocation],
          (Handler.processingGET (Sys.quiet 0) g).context.response.headers.find? name =
            (Handler.processingHEAD (Sys.quiet 0) h).context.response.headers.find? name :=
  ⟨_, _, rfl, rfl, by decide +kernel,
    @head_agrees indexContext .head (Sys.quiet 0) _ _ rfl rfl rfl (by decide +kernel)⟩

end Webserv
