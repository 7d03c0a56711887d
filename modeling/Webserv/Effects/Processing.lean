import Webserv.FileSelection
import Webserv.Effects.Reading

/-!
# What `processing` can change

`processing` decides how a request is answered.  Except for the flags that it sets and for the CGI that GET
and POST may open, it leaves everything that its client looks at alone.

* `Quiet`: the part of `processing` that touches neither the flags nor the sockets.
* `Processes`: the fields that any of it may change.
* `started_processing`: what a client finds after the constructor and `processing`.

## Why one relation for five classes

The five classes of requests have a `processing` each, with helpers in common.  The client treats them
alike, through a pointer to the base class.  What it relies on is therefore a statement about all of them:
the flags that are set, whether a CGI is attached, and that the rest of the context is as it was.  `Started`
is that statement.  Each class comes to it through its own lemma, and no other module goes into the text of
a class again to learn what it leaves alone.

## Why the CGI comes last

Opening a CGI changes the flags, the sockets and the process at once, and is the one thing in `processing`
that is not quiet.  In GET and in POST it is the last thing done.  So a run of `processing` is a quiet part,
with one transitive relation for all its helpers, and then nothing or one call of `_openCGI`.
-/

namespace Webserv
namespace Handler

/-! ## The fields -/

/-- The fields that `processing` may change; all others of a handler are the same after it by computation. -/
structure ProcessingFields where
  requestState : RequestState
  response : Response
  fs : FileSystem
  cgiSocket : Fd
  pid : Int
  opened : List Fd
  childEnd : Option Fd
  path : Path
  file : OStream
  tmpFilename : Path
  chunked : Bool
  contentLength : Int
  input : IStream
  directory : Option (List Bytes)

def withProcessing (h : Handler) (f : ProcessingFields) : Handler where
  context := { h.context with
    requestState := f.requestState
    response := f.response
    cgiSocket := f.cgiSocket
    pid := f.pid
    world := { h.context.world with fs := f.fs, opened := f.opened, childEnd := f.childEnd } }
  request := { h.request with
    path := f.path
    file := f.file
    tmpFilename := f.tmpFilename
    chunked := f.chunked
    contentLength := f.contentLength
    input := f.input
    directory := f.directory }

/-- The fields of a handler that `processing` may change. -/
def processingFields (h : Handler) : ProcessingFields where
  requestState := h.context.requestState
  response := h.context.response
  fs := h.context.world.fs
  cgiSocket := h.context.cgiSocket
  pid := h.context.pid
  opened := h.context.world.opened
  childEnd := h.context.world.childEnd
  path := h.request.path
  file := h.request.file
  tmpFilename := h.request.tmpFilename
  chunked := h.request.chunked
  contentLength := h.request.contentLength
  input := h.request.input
  directory := h.request.directory

/-- What `processing` may do to a handler: it sets the fields of `ProcessingFields` and leaves the others. -/
def Processes (h h' : Handler) : Prop := ∃ f, h' = h.withProcessing f

theorem Processes.trans {h₁ h₂ h₃ : Handler} (h₁₂ : Processes h₁ h₂) (h₂₃ : Processes h₂ h₃) :
    Processes h₁ h₃ := by
  obtain ⟨f, rfl⟩ := h₁₂
  obtain ⟨g, rfl⟩ := h₂₃
  exact ⟨g, rfl⟩

theorem Processes.cgiPath {h h' : Handler} (hp : Processes h h') :
    h'.request.cgiPath = h.request.cgiPath := by
  obtain ⟨f, rfl⟩ := hp
  rfl

theorem Processes.kind {h h' : Handler} (hp : Processes h h') :
    h'.request.kind = h.request.kind := by
  obtain ⟨f, rfl⟩ := hp
  rfl

theorem processes_setState (h : Handler) (f : RequestState → RequestState) :
    Processes h (h.setState f) :=
  ⟨{ h.processingFields with requestState := f h.context.requestState }, rfl⟩

/-- The part of `processing` that leaves the flags and the sockets alone. -/
structure Quiet (h h' : Handler) : Prop where
  processes : Processes h h'
  requestState : h'.context.requestState = h.context.requestState
  cgiSocket : h'.context.cgiSocket = h.context.cgiSocket
  opened : h'.context.world.opened = h.context.world.opened

theorem Quiet.trans {h₁ h₂ h₃ : Handler} (h₁₂ : Quiet h₁ h₂) (h₂₃ : Quiet h₂ h₃) : Quiet h₁ h₃ where
  processes := h₁₂.processes.trans h₂₃.processes
  requestState := h₂₃.requestState.trans h₁₂.requestState
  cgiSocket := h₂₃.cgiSocket.trans h₁₂.cgiSocket
  opened := h₂₃.opened.trans h₁₂.opened

/-! ## Files, directories and uploads -/

section Quiet

variable (sys : Sys) (h : Handler)

theorem quiet_setStatusCode (code : Nat) : Quiet h (h.setStatusCode code) :=
  ⟨⟨{ h.processingFields with response := _ }, rfl⟩, rfl, rfl, rfl⟩

theorem quiet_setHeader (key value : Bytes) : Quiet h (h.setHeader key value) :=
  ⟨⟨{ h.processingFields with response := _ }, rfl⟩, rfl, rfl, rfl⟩

theorem quiet_setBody (body : Bytes) : Quiet h (h.setBody body) :=
  ⟨⟨{ h.processingFields with response := _ }, rfl⟩, rfl, rfl, rfl⟩

theorem quiet_setPath (path : Path) : Quiet h (h.setPath path) :=
  ⟨⟨{ h.processingFields with path := path }, rfl⟩, rfl, rfl, rfl⟩

theorem quiet_setContentLength (n : Int) : Quiet h (h.setContentLength n) :=
  ⟨⟨{ h.processingFields with contentLength := n }, rfl⟩, rfl, rfl, rfl⟩

theorem quiet_setFs (fs : FileSystem) : Quiet h { h with context := h.context.setFs fs } :=
  ⟨⟨{ h.processingFields with fs := fs }, rfl⟩, rfl, rfl, rfl⟩

theorem quiet_setFileHeaders : Quiet h h.setFileHeaders :=
  (quiet_setStatusCode h _).trans ((quiet_setHeader _ _ _).trans (quiet_setHeader _ _ _))

theorem quiet_openFileGET : Quiet h (openFileGET sys h) := by
  unfold openFileGET
  extract_lets input request h'
  have hinput : Quiet h h' := ⟨⟨{ h.processingFields with input := input }, rfl⟩, rfl, rfl, rfl⟩
  split_ifs
  · exact hinput.trans (quiet_setFileHeaders h')
  · exact hinput.trans (quiet_setStatusCode h' _)

theorem quiet_openDirGET : Quiet h (openDirGET sys h) := by
  unfold openDirGET
  extract_lets directory request h'
  have hdirectory : Quiet h h' :=
    ⟨⟨{ h.processingFields with directory := directory }, rfl⟩, rfl, rfl, rfl⟩
  split_ifs
  · exact hdirectory.trans
      ((quiet_setStatusCode h' _).trans ((quiet_setHeader _ _ _).trans (quiet_setBody _ _)))
  · exact hdirectory.trans (quiet_setStatusCode h' _)

theorem quiet_openDirHEAD : Quiet h (openDirHEAD h) :=
  (quiet_setStatusCode h _).trans (quiet_setHeader _ _ _)

theorem quiet_generateFilename : Quiet h (generateFilename sys h).2 := by
  unfold generateFilename
  dsimp only
  split
  · exact quiet_setStatusCode h _
  · exact ⟨⟨{ h.processingFields with tmpFilename := _ }, rfl⟩, rfl, rfl, rfl⟩

theorem quiet_openFile : Quiet h (openFile sys h) := by
  have hname := quiet_generateFilename sys h
  unfold openFile
  generalize generateFilename sys h = r at hname ⊢
  obtain ⟨ret, h'⟩ := r
  cases ret with
  | reqContinue =>
    dsimp only
    cases createFile sys h'.context.world.fs h'.request.tmpFilename.str with
    | none => exact hname.trans (quiet_setStatusCode h' _)
    | some fs =>
      exact hname.trans ⟨⟨{ h'.processingFields with fs := fs, file := _ }, rfl⟩, rfl, rfl, rfl⟩
  | _ => exact hname

theorem quiet_checkUpload : Quiet h (checkUpload sys h) := by
  unfold checkUpload
  dsimp only
  split_ifs
  · cases h.request.path.dir.stat sys h.context.world.fs with
    | none => exact quiet_setStatusCode h _
    | some upload =>
      dsimp only
      split_ifs <;> first
        | exact quiet_setStatusCode h _
        | exact quiet_openFile sys h
  · exact quiet_setStatusCode h _

theorem quiet_upload : Quiet h (upload sys h) := by
  unfold upload
  split_ifs
  · exact quiet_setStatusCode h _
  · exact (quiet_setPath h _).trans (quiet_checkUpload sys _)
  · exact quiet_setStatusCode h _

theorem quiet_processingDELETE : Quiet h (processingDELETE sys h) := by
  unfold processingDELETE
  dsimp only
  split_ifs
  · cases h.request.path.stat sys h.context.world.fs with
    | none => exact quiet_setStatusCode h _
    | some path =>
      have hpath : Quiet h (h.setPath path) := quiet_setPath h path
      dsimp only
      split_ifs
      · exact hpath.trans (quiet_setStatusCode _ _)
      · exact hpath.trans ((quiet_setFs _ _).trans (quiet_setStatusCode _ _))
      · exact hpath.trans ((quiet_setFs _ _).trans (quiet_setStatusCode _ _))
      · exact hpath.trans (quiet_setStatusCode _ _)
  · exact quiet_setStatusCode h _

/-- The headers of an upload are in order, or the request is refused with a status. -/
theorem quiet_checkHeaders :
    Quiet h (checkHeaders h).2 ∧
      ((checkHeaders h).1 = .reqContinue ∧
          (checkHeaders h).2.context.response.statusCode = h.context.response.statusCode ∨
        (checkHeaders h).1 = .reqDone ∧
          (checkHeaders h).2.context.response.statusCode ≠ statusNone) := by
  unfold checkHeaders
  cases h.context.headers.find? headerContentLength with
  | none =>
    cases h.context.headers.find? headerTransferEncoding with
    | none =>
      exact ⟨quiet_setStatusCode h _, Or.inr ⟨rfl, show statusLengthRequired ≠ statusNone by decide⟩⟩
    | some coding =>
      dsimp only
      split_ifs
      · exact ⟨quiet_setStatusCode h _,
          Or.inr ⟨rfl, show statusUnsupportedMediaType ≠ statusNone by decide⟩⟩
      · exact ⟨⟨⟨{ h.processingFields with chunked := _, contentLength := _ }, rfl⟩, rfl, rfl, rfl⟩,
          Or.inl ⟨rfl, rfl⟩⟩
  | some value =>
    have hlength := quiet_setContentLength h (sToContentLength value false)
    dsimp only
    split_ifs
    · exact ⟨hlength.trans (quiet_setStatusCode _ _),
        Or.inr ⟨rfl, show statusBadRequest ≠ statusNone by decide⟩⟩
    · exact ⟨hlength.trans (quiet_setStatusCode _ _),
        Or.inr ⟨rfl, show statusPayloadTooLarge ≠ statusNone by decide⟩⟩
    · exact ⟨hlength.trans (quiet_setStatusCode _ _),
        Or.inr ⟨rfl, show statusNoContent ≠ statusNone by decide⟩⟩
    · exact ⟨hlength, Or.inl ⟨rfl, rfl⟩⟩

end Quiet

/-! ## The five classes -/

/-- What `processing` of GET does: a CGI is opened at most at the end. -/
theorem quiet_processingGET (sys : Sys) (h : Handler) :
    Quiet h (processingGET sys h) ∨
      ∃ h₁, Quiet h h₁ ∧ processingGET sys h = openCGI sys h₁ := by
  have hp : Processed _ id (openDirGET sys) h _ (processingGET sys h) := processed_processFile _ _ _ sys h
  generalize processingGET sys h = h' at hp ⊢
  generalize selectFile sys h.context.world.fs h.rule.indexes h.request.path = selected at hp
  cases hp with
  | served q hq =>
    dsimp only [id]
    cases (h.setPath q).request.cgiPath with
    | none => exact Or.inl ((quiet_setPath h q).trans (quiet_openFileGET sys _))
    | some cgi => exact Or.inr ⟨_, quiet_setPath h q, rfl⟩
  | refused p hp code => exact Or.inl ((quiet_setPath h p).trans (quiet_setStatusCode _ code))
  | finished p hp code => exact Or.inl ((quiet_setPath h p).trans (quiet_setStatusCode _ code))
  | redirected p hp location =>
    exact Or.inl ((quiet_setPath h p).trans
      ((quiet_setStatusCode _ _).trans (quiet_setHeader _ _ _)))
  | listed p hp => exact Or.inl ((quiet_setPath h p).trans (quiet_openDirGET sys _))

/-- `processing` of HEAD sets only a flag that the constructor has set. -/
theorem quiet_processingHEAD (sys : Sys) {h : Handler}
    (hwork : h.context.requestState.workIn = true) : Quiet h (processingHEAD sys h) := by
  have hfinish : ∀ {h' : Handler}, Quiet h h' →
      Quiet h (h'.setState RequestState.setWorkInComplete) := by
    intro h' hquiet
    have hstate : h'.context.requestState.setWorkInComplete = h'.context.requestState := by
      have hset : h'.context.requestState.workIn = true := by rw [hquiet.requestState, hwork]
      rw [RequestState.setWorkInComplete, ← hset]
    refine ⟨hquiet.processes.trans (processes_setState h' _), ?_, hquiet.cgiSocket, hquiet.opened⟩
    exact hstate.trans hquiet.requestState
  have hp := processed_processFile openFileHEAD
    (fun h => h.setState RequestState.setWorkInComplete) openDirHEAD sys h
  change Processed _ _ _ h _ (processingHEAD sys h) at hp
  generalize processingHEAD sys h = h' at hp ⊢
  generalize selectFile sys h.context.world.fs h.rule.indexes h.request.path = selected at hp
  cases hp with
  | served q hq => exact hfinish ((quiet_setPath h q).trans (quiet_setFileHeaders _))
  | refused p hp code => exact (quiet_setPath h p).trans (quiet_setStatusCode _ code)
  | finished p hp code => exact hfinish ((quiet_setPath h p).trans (quiet_setStatusCode _ code))
  | redirected p hp location =>
    exact (quiet_setPath h p).trans ((quiet_setStatusCode _ _).trans (quiet_setHeader _ _ _))
  | listed p hp => exact (quiet_setPath h p).trans (quiet_openDirHEAD _)

theorem quiet_processingPUT (sys : Sys) (h : Handler) : Quiet h (processingPUT sys h) := by
  have hcheck := (quiet_checkHeaders h).1
  unfold processingPUT
  generalize checkHeaders h = r at hcheck ⊢
  obtain ⟨ret, h'⟩ := r
  cases ret with
  | reqContinue => exact hcheck.trans (quiet_upload sys h')
  | _ => exact hcheck

/-- What `processing` of POST does: it refuses the headers, opens the CGI, or takes an upload. -/
theorem processes_processingPOST (sys : Sys) (h : Handler) :
    (∃ h₁, Quiet h h₁ ∧ h₁.context.response.statusCode ≠ statusNone ∧
        processingPOST sys h = h₁.setState fun x => x.setCgiInComplete.setCgiOutComplete) ∨
      (h.request.cgiPath.isSome = true ∧ ∃ h₁, Quiet h h₁ ∧
        processingPOST sys h = openCGI sys (h₁.setState RequestState.setWorkInComplete)) ∨
      (h.request.cgiPath = none ∧ ∃ h₁, Quiet h h₁ ∧
        Quiet (h₁.setState RequestState.setCgiInComplete) (processingPOST sys h)) := by
  obtain ⟨hquiet, hcheck⟩ := quiet_checkHeaders h
  unfold processingPOST
  generalize checkHeaders h = r at hquiet hcheck ⊢
  obtain ⟨ret, h₁⟩ := r
  have hcgi : h₁.request.cgiPath = h.request.cgiPath := hquiet.processes.cgiPath
  rcases hcheck with ⟨hret, -⟩ | ⟨hret, hstatus⟩ <;> cases hret
  · right
    dsimp only
    rw [← hcgi]
    cases h₁.request.cgiPath with
    | some cgi => exact Or.inl ⟨rfl, h₁, hquiet, rfl⟩
    | none => exact Or.inr ⟨rfl, h₁, hquiet, quiet_upload sys _⟩
  · exact Or.inl ⟨h₁, hquiet, hstatus, rfl⟩

/-! ## Started requests -/

/-- The flags of the head and of the response are the same. -/
structure SameHead (x y : RequestState) : Prop where
  requestLine : y.requestLine = x.requestLine
  headers : y.headers = x.headers
  read : y.read = x.read
  canWrite : y.canWrite = x.canWrite
  cgiHeaders : y.cgiHeaders = x.cgiHeaders

/-- What a started request looks like to its client: the class of its method, the head's flags as they were,
and a CGI or none. -/
structure Started (ctx : RequestContext) (kind : RequestKind) (h : Handler) : Prop where
  fields : ∃ h₀ : Handler, h₀.context = ctx ∧ Processes h₀ h
  kind_eq : h.request.kind = kind
  flags : SameHead ctx.requestState h.context.requestState
  socket : h.context.cgiSocket ≠ ctx.cgiSocket →
    h.context.cgiSocket ∈ h.context.world.opened ∧ (kind = .get ∨ kind = .post)
  workOut : h.context.requestState.workOut = false → h.context.requestState.cgiIn = true
  body : h.context.response.statusCode = statusNone → h.context.requestState.workIn = false →
    (kind = .put ∨ kind = .post ∧ h.request.cgiPath = none) ∧
      h.context.cgiSocket = ctx.cgiSocket ∧
      h.context.requestState.workOut = true ∧ h.context.requestState.cgiIn = true

/-- What opening the CGI does to the flags and to the sockets. -/
theorem processes_openCGI (sys : Sys) (h : Handler) :
    Processes h (openCGI sys h) ∧
      ((openCGI sys h).context.requestState = h.context.requestState ∨
        (openCGI sys h).context.requestState =
          h.context.requestState.setWorkOutComplete.unsetCgiInComplete) ∧
      ((openCGI sys h).context.cgiSocket ≠ h.context.cgiSocket →
        (openCGI sys h).context.cgiSocket ∈ (openCGI sys h).context.world.opened) := by
  have hopened : ∀ pair : Nat × Nat,
      (pair.1 : Fd) ∈ h.context.world.opened ++ [(pair.1 : Fd)] := fun pair =>
    List.mem_append_right _ (List.mem_singleton.mpr rfl)
  rcases openCGI_cases sys h with heq | ⟨pair, heq⟩ | ⟨pair, pid, heq⟩ <;> rw [heq]
  · exact ⟨(quiet_setStatusCode h _).processes, Or.inl rfl, fun hne => absurd rfl hne⟩
  · exact ⟨⟨{ h.processingFields with response := _, cgiSocket := _, opened := _, childEnd := _ }, rfl⟩,
      Or.inl rfl, fun _ => hopened pair⟩
  · exact ⟨⟨{ h.processingFields with
      requestState := _, cgiSocket := _, pid := _, opened := _, childEnd := _ }, rfl⟩, Or.inr rfl,
      fun _ => hopened pair⟩

section Started

variable {ctx : RequestContext} {h h' : Handler}

/-- A request object is its context and what the constructor makes of the state. -/
theorem processes_created {kind : RequestKind} (hctx : h.context = ctx.setState kind.initState) :
    Processes ⟨ctx, h.request⟩ h := by
  have hset := processes_setState ⟨ctx, h.request⟩ kind.initState
  rw [setState, ← hctx] at hset
  exact hset

/-- A request whose body is not read, started without a CGI. -/
theorem Started.of_quiet {kind : RequestKind} (hctx : h.context = ctx.setState kind.initState)
    (hkind : h.request.kind = kind) (hquiet : Quiet h h')
    (hflags : SameHead ctx.requestState (kind.initState ctx.requestState))
    (hworkOut : (kind.initState ctx.requestState).workOut = false →
      (kind.initState ctx.requestState).cgiIn = true)
    (hbody : (kind.initState ctx.requestState).workIn = true ∨
      kind = .put ∧ (kind.initState ctx.requestState).workOut = true ∧
        (kind.initState ctx.requestState).cgiIn = true) : Started ctx kind h' := by
  have hstate : h'.context.requestState = kind.initState ctx.requestState := by
    rw [hquiet.requestState, hctx]
    rfl
  have hsocket : h'.context.cgiSocket = ctx.cgiSocket := by
    rw [hquiet.cgiSocket, hctx]
    rfl
  refine ⟨⟨⟨ctx, h.request⟩, rfl, (processes_created hctx).trans hquiet.processes⟩,
    hquiet.processes.kind.trans hkind, ?_, ?_, ?_, ?_⟩
  · rw [hstate]
    exact hflags
  · exact fun hne => absurd hsocket hne
  · rw [hstate]
    exact hworkOut
  · intro _ hworkIn
    rw [hstate] at hworkIn ⊢
    rcases hbody with hset | ⟨hput, hout, hin⟩
    · rw [hset] at hworkIn
      cases hworkIn
    · exact ⟨Or.inl hput, hsocket, hout, hin⟩

/-- A request that opens the CGI last. -/
theorem Started.of_openCGI (sys : Sys) {kind : RequestKind} (h₀ : Handler) (hctx : h₀.context = ctx)
    (hkind : h₀.request.kind = kind) (hmethod : kind = .get ∨ kind = .post)
    (hprocesses : Processes h₀ h) (hsocket : h.context.cgiSocket = ctx.cgiSocket)
    (hflags : SameHead ctx.requestState h.context.requestState)
    (hworkIn : h.context.requestState.workIn = true)
    (hworkOut : h.context.requestState.workOut = false → h.context.requestState.cgiIn = true) :
    Started ctx kind (openCGI sys h) := by
  obtain ⟨hopen, hstate, hfd⟩ := processes_openCGI sys h
  rw [hsocket] at hfd
  refine ⟨⟨h₀, hctx, hprocesses.trans hopen⟩, (hprocesses.trans hopen).kind.trans hkind, ?_,
    fun hne => ⟨hfd hne, hmethod⟩, ?_, ?_⟩
  · rcases hstate with hstate | hstate <;> rw [hstate]
    · exact hflags
    · exact ⟨hflags.requestLine, hflags.headers, hflags.read, hflags.canWrite, hflags.cgiHeaders⟩
  · rcases hstate with hstate | hstate <;> rw [hstate]
    · exact hworkOut
    · intro h
      cases h
  · intro _ hnot
    have hset : (openCGI sys h).context.requestState.workIn = true := by
      rcases hstate with hstate | hstate <;> rw [hstate] <;> exact hworkIn
    rw [hset] at hnot
    cases hnot

/-- GET: the CGI is opened last, or not at all. -/
theorem started_processingGET (sys : Sys) (hctx : h.context = ctx.setState RequestKind.get.initState)
    (hkind : h.request.kind = .get) : Started ctx .get (processingGET sys h) := by
  rcases quiet_processingGET sys h with hquiet | ⟨h₁, hquiet, heq⟩
  · exact .of_quiet hctx hkind hquiet ⟨rfl, rfl, rfl, rfl, rfl⟩ (fun _ => rfl) (Or.inl rfl)
  · have hsocket : h.context.cgiSocket = ctx.cgiSocket := by rw [hctx]; rfl
    have hstate : h₁.context.requestState = RequestKind.get.initState ctx.requestState := by
      rw [hquiet.requestState, hctx]
      rfl
    rw [heq]
    refine .of_openCGI sys ⟨ctx, h.request⟩ rfl hkind (Or.inl rfl)
      ((processes_created hctx).trans hquiet.processes) (hquiet.cgiSocket.trans hsocket) ?_ ?_ ?_ <;>
        rw [hstate]
    · exact ⟨rfl, rfl, rfl, rfl, rfl⟩
    · rfl
    · exact fun _ => rfl

/-- POST: the body is refused, goes to a CGI, or is uploaded. -/
theorem started_processingPOST (sys : Sys) (hctx : h.context = ctx.setState RequestKind.post.initState)
    (hkind : h.request.kind = .post) : Started ctx .post (processingPOST sys h) := by
  have hcreated := processes_created hctx
  have hsocket : h.context.cgiSocket = ctx.cgiSocket := by rw [hctx]; rfl
  have hpost : h.context.requestState = ctx.requestState.setWorkOutComplete := by rw [hctx]; rfl
  rcases processes_processingPOST sys h with ⟨h₁, hquiet, hstatus, heq⟩ | ⟨-, h₁, hquiet, heq⟩ |
    ⟨hcgi, h₁, hquiet, hquiet'⟩
  · have hprocesses := (hcreated.trans hquiet.processes).trans (processes_setState h₁
      fun x => x.setCgiInComplete.setCgiOutComplete)
    have hstate : h₁.context.requestState = ctx.requestState.setWorkOutComplete :=
      hquiet.requestState.trans hpost
    rw [heq]
    refine ⟨⟨_, rfl, hprocesses⟩, hprocesses.kind.trans hkind, ?_, ?_, fun _ => rfl, ?_⟩
    · show SameHead _ (h₁.context.requestState.setCgiInComplete.setCgiOutComplete)
      rw [hstate]
      exact ⟨rfl, rfl, rfl, rfl, rfl⟩
    · exact fun hne => absurd (hquiet.cgiSocket.trans hsocket) hne
    · exact fun hnone => absurd hnone hstatus
  · have hstate : h₁.context.requestState = ctx.requestState.setWorkOutComplete :=
      hquiet.requestState.trans hpost
    have hworkOut : (h₁.setState RequestState.setWorkInComplete).context.requestState.workOut =
        true := by
      show h₁.context.requestState.workOut = true
      rw [hstate]
      rfl
    rw [heq]
    refine .of_openCGI sys ⟨ctx, h.request⟩ rfl hkind (Or.inr rfl)
      ((hcreated.trans hquiet.processes).trans (processes_setState h₁ _))
      (hquiet.cgiSocket.trans hsocket) ?_ rfl ?_
    · show SameHead _ h₁.context.requestState.setWorkInComplete
      rw [hstate]
      exact ⟨rfl, rfl, rfl, rfl, rfl⟩
    · intro hnot
      rw [hworkOut] at hnot
      cases hnot
  · have hprocesses := ((hcreated.trans hquiet.processes).trans (processes_setState h₁
      RequestState.setCgiInComplete)).trans hquiet'.processes
    have hstate : (processingPOST sys h).context.requestState =
        ctx.requestState.setWorkOutComplete.setCgiInComplete := by
      rw [hquiet'.requestState]
      show h₁.context.requestState.setCgiInComplete = _
      rw [hquiet.requestState, hpost]
    have hfd : (processingPOST sys h).context.cgiSocket = ctx.cgiSocket :=
      hquiet'.cgiSocket.trans (hquiet.cgiSocket.trans hsocket)
    refine ⟨⟨_, rfl, hprocesses⟩, hprocesses.kind.trans hkind, ?_, ?_, ?_, ?_⟩
    · rw [hstate]
      exact ⟨rfl, rfl, rfl, rfl, rfl⟩
    · exact fun hne => absurd hfd hne
    · rw [hstate]
      exact fun _ => rfl
    · intro _ _
      rw [hstate, hquiet'.processes.cgiPath, (processes_setState h₁ _).cgiPath,
        hquiet.processes.cgiPath]
      exact ⟨Or.inr ⟨rfl, hcgi⟩, hfd, rfl, rfl⟩

/-- **What `processing` leaves to the client**, after the constructor.  It is proved class by class, and
used for all of them at once. -/
theorem started_processing (sys : Sys) {kind : RequestKind} (hreq : createRequest kind ctx = .ok h) :
    Started ctx kind (processing sys h) := by
  obtain ⟨chopedTarget, -, hh⟩ := createRequest_ok hreq
  have hctx : h.context = ctx.setState kind.initState := by rw [hh]
  have hkind : h.request.kind = kind := by rw [hh]
  unfold processing
  rw [hkind]
  cases kind with
  | get => exact started_processingGET sys hctx hkind
  | post => exact started_processingPOST sys hctx hkind
  | delete =>
    exact .of_quiet hctx hkind (quiet_processingDELETE sys h) ⟨rfl, rfl, rfl, rfl, rfl⟩
      (fun _ => rfl) (Or.inl rfl)
  | put =>
    exact .of_quiet hctx hkind (quiet_processingPUT sys h) ⟨rfl, rfl, rfl, rfl, rfl⟩
      (fun _ => rfl) (Or.inr ⟨rfl, rfl, rfl⟩)
  | head =>
    have hworkIn : h.context.requestState.workIn = true := by rw [hctx]; rfl
    exact .of_quiet hctx hkind (quiet_processingHEAD sys hworkIn) ⟨rfl, rfl, rfl, rfl, rfl⟩
      (fun _ => rfl) (Or.inl rfl)

end Started

end Handler
end Webserv
