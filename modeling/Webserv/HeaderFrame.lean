import Webserv.HeaderLines

/-!
# What depends on the header map

`processing` reads the header map at two names, and `_resolveARequest` at a third.  Where two maps say the
same there, the two runs agree in everything but the map.

* `Handler.withHeaders`, `Client.withHeaders`: the same state with another map.
* `Handler.SameFraming`: the maps say the same of the body.
* `Handler.processing_withHeaders`: the request object.
* `Client.resolveARequest_withHeaders`: the choice of the server, of the location and of the object.

## Why equations with another map

To say that a function does not look at a part of its state one exchanges the part, before the call or after
it, and asks for the same result.  This is what each lemma here does for one function of the source:
`processing` after `withHeaders` is `withHeaders` after `processing`.  Stated as equations they compose by
rewriting, along the calls of the source, and no case of a callee is looked at again by its callers.

## Where the map is read

Up to the end of `processing` the functions that read it are `_checkHeaders` and `_resolveARequest`.  The
first reads `Content-Length`, and `Transfer-Encoding` if there is none, so the equation has a condition
there (`SameFraming`), which asks nothing of a name that is not reached.  The second reads `Host`.  The
environment of a CGI holds the whole map, but nothing of it comes back into the state.
-/

namespace Webserv
namespace Handler

/-- The same handler with another header map. -/
abbrev withHeaders (h : Handler) (headers : StringMap) : Handler :=
  { h with context := { h.context with headers := headers } }

variable (sys : Sys) (h : Handler) (headers : StringMap)

theorem request_withHeaders : (h.withHeaders headers).request = h.request := rfl

theorem rule_withHeaders : (h.withHeaders headers).rule = h.rule := rfl

theorem openCGI_withHeaders :
    openCGI sys (h.withHeaders headers) = (openCGI sys h).withHeaders headers := by
  dsimp only [openCGI]
  by_cases hexec : ¬ (h.request.cgiPath.getD {}).access h.context.world.fs .execute
  · rw [if_pos hexec, if_pos hexec]
    rfl
  · rw [if_neg hexec, if_neg hexec]
    cases sys.socketpair with
    | none => rfl
    | some pair => cases sys.fork <;> rfl

theorem generateFilename_withHeaders :
    generateFilename sys (h.withHeaders headers) =
      ((generateFilename sys h).1, (generateFilename sys h).2.withHeaders headers) := by
  have hname : tryNames sys (h.withHeaders headers).context.world.fs =
      tryNames sys h.context.world.fs := rfl
  unfold generateFilename
  dsimp only [request_withHeaders, rule_withHeaders]
  rw [hname]
  generalize tryNames sys h.context.world.fs _ 100 0 = name
  cases name <;> rfl

theorem openFile_withHeaders :
    openFile sys (h.withHeaders headers) = (openFile sys h).withHeaders headers := by
  rw [openFile, openFile, generateFilename_withHeaders]
  generalize generateFilename sys h = r
  obtain ⟨ret, h'⟩ := r
  cases ret with
  | reqContinue =>
    dsimp only
    cases createFile sys h'.context.world.fs h'.request.tmpFilename.str <;> rfl
  | reqDone | reqError | throws => rfl

theorem checkUpload_withHeaders :
    checkUpload sys (h.withHeaders headers) = (checkUpload sys h).withHeaders headers := by
  dsimp only [checkUpload]
  by_cases hexists : ¬ h.request.path.dir.access h.context.world.fs .exists
  · rw [if_pos hexists, if_pos hexists]
    rfl
  rw [if_neg hexists, if_neg hexists]
  cases h.request.path.dir.stat sys h.context.world.fs with
  | none => rfl
  | some upload =>
    dsimp only
    rw [openFile_withHeaders]
    simp only [apply_ite (withHeaders · headers)]
    rfl

theorem upload_withHeaders :
    upload sys (h.withHeaders headers) = (upload sys h).withHeaders headers := by
  show (if h.request.path.isDirFormat then (h.setStatusCode statusConflict).withHeaders headers
    else if ¬ h.rule.canUpload then (h.setStatusCode statusMethodNotAllowed).withHeaders headers
    else checkUpload sys ((h.setPath (uploadPath h.rule h.context.target)).withHeaders headers)) = _
  rw [checkUpload_withHeaders, upload]
  simp only [apply_ite (withHeaders · headers)]

/-! ## Files -/

section Files

variable {sys headers}

/-- An answer of a handler, with another header map. -/
def answerWithHeaders (headers : StringMap) (r : Ret × Handler) : Ret × Handler :=
  (r.1, r.2.withHeaders headers)

variable {serve finish openDir : Handler → Handler}
  (hserve : ∀ h, serve (withHeaders h headers) = (serve h).withHeaders headers)
  (hfinish : ∀ h, finish (withHeaders h headers) = (finish h).withHeaders headers)
  (hopenDir : ∀ h, openDir (withHeaders h headers) = (openDir h).withHeaders headers)

include hserve hfinish in
theorem validateLocalFile_withHeaders (h : Handler) :
    validateLocalFile serve finish sys (h.withHeaders headers) =
      answerWithHeaders headers (validateLocalFile serve finish sys h) := by
  dsimp only [validateLocalFile]
  cases h.request.path.stat sys h.context.world.fs with
  | none => exact congrArg (Prod.mk _) (hfinish (h.setStatusCode statusInternalServerError))
  | some q =>
    show (if ¬ q.access h.context.world.fs .read then _ else if q.isFile then _ else _) =
      answerWithHeaders headers (if ¬ q.access h.context.world.fs .read then _ else _)
    by_cases hread : ¬ q.access h.context.world.fs .read
    · rw [if_pos hread, if_pos hread]
      exact congrArg (Prod.mk _) (hfinish ((h.setPath q).setStatusCode statusForbidden))
    rw [if_neg hread, if_neg hread]
    by_cases hfile : q.isFile
    · rw [if_pos hfile, if_pos hfile]
      refine congrArg (Prod.mk _) (Eq.trans ?_ (hfinish _))
      exact congrArg finish (hserve (h.setPath q))
    · rw [if_neg hfile, if_neg hfile]
      rfl

include hopenDir in
theorem listDirectory_withHeaders (h : Handler) :
    listDirectory openDir (h.withHeaders headers) = (listDirectory openDir h).withHeaders headers := by
  show (if h.rule.isDirListing then openDir (h.withHeaders headers)
    else (h.setStatusCode statusForbidden).withHeaders headers) = _
  rw [hopenDir, listDirectory]
  simp only [apply_ite (withHeaders · headers)]

include hserve hfinish hopenDir in
theorem processFile_withHeaders (h : Handler) :
    processFile (validateLocalFile serve finish sys) openDir (h.withHeaders headers) =
      (processFile (validateLocalFile serve finish sys) openDir h).withHeaders headers := by
  have hvalidate : ∀ h, validateLocalFile serve finish sys (withHeaders h headers) =
      answerWithHeaders headers (validateLocalFile serve finish sys h) :=
    validateLocalFile_withHeaders hserve hfinish
  have hlist := listDirectory_withHeaders hopenDir
  dsimp only [processFile]
  rw [hvalidate]
  by_cases hexists : ¬ h.request.path.access h.context.world.fs .exists
  · rw [if_pos hexists, if_pos hexists]
    rfl
  rw [if_neg hexists, if_neg hexists]
  generalize validateLocalFile serve finish sys h = r
  obtain ⟨ret, h'⟩ := r
  cases ret with
  | reqContinue =>
    dsimp only [answerWithHeaders]
    by_cases hdir : ¬ h'.request.path.isDir
    · rw [if_pos hdir, if_pos hdir]
      rfl
    rw [if_neg hdir, if_neg hdir]
    by_cases hformat : ¬ h'.request.path.isDirFormat
    · rw [if_pos hformat, if_pos hformat]
      rfl
    rw [if_neg hformat, if_neg hformat]
    have hfetch : (h'.withHeaders headers).fetchIndexes =
        h'.fetchIndexes.map fun h => h.withHeaders headers := by
      show (findIndex h'.context.world.fs h'.request.path h'.rule.indexes).map _ =
        ((findIndex h'.context.world.fs h'.request.path h'.rule.indexes).map _).map _
      rw [Option.map_map]
      rfl
    rw [hfetch]
    cases h'.fetchIndexes with
    | none => exact hlist h'
    | some h'' =>
      dsimp only [Option.map_some]
      rw [hvalidate]
      generalize validateLocalFile serve finish sys h'' = r
      obtain ⟨ret, h₃⟩ := r
      cases ret with
      | reqContinue => exact hlist h₃
      | reqDone | reqError | throws => rfl
  | reqDone | reqError | throws => rfl

end Files

theorem processingGET_withHeaders :
    processingGET sys (h.withHeaders headers) = (processingGET sys h).withHeaders headers := by
  refine processFile_withHeaders (fun h => ?_) (fun _ => rfl) (fun h => ?_) h
  · dsimp only [request_withHeaders]
    cases h.request.cgiPath with
    | some cgi => exact openCGI_withHeaders sys h headers
    | none =>
      dsimp only [openFileGET]
      simp only [apply_ite (withHeaders · headers)]
      rfl
  · dsimp only [openDirGET]
    simp only [apply_ite (withHeaders · headers)]
    rfl

theorem processingHEAD_withHeaders :
    processingHEAD sys (h.withHeaders headers) = (processingHEAD sys h).withHeaders headers :=
  processFile_withHeaders (fun _ => rfl) (fun _ => rfl) (fun _ => rfl) h

theorem processingDELETE_withHeaders :
    processingDELETE sys (h.withHeaders headers) = (processingDELETE sys h).withHeaders headers := by
  dsimp only [processingDELETE]
  by_cases hexists : ¬ h.request.path.access h.context.world.fs .exists
  · rw [if_pos hexists, if_pos hexists]
    rfl
  rw [if_neg hexists, if_neg hexists]
  cases h.request.path.stat sys h.context.world.fs with
  | none => rfl
  | some path =>
    dsimp only
    simp only [apply_ite (withHeaders · headers)]
    rfl

/-! ## Bodies -/

/-- The two maps say the same of the length of a body: `Content-Length` is looked up first, and
`Transfer-Encoding` only where there is none. -/
structure SameFraming (headers headers' : StringMap) : Prop where
  length : headers.find? headerContentLength = headers'.find? headerContentLength
  coding : headers.find? headerContentLength = none →
    headers.find? headerTransferEncoding = headers'.find? headerTransferEncoding

section Bodies

variable {h headers} (hagree : SameFraming headers h.context.headers)
include hagree

theorem checkHeaders_withHeaders :
    checkHeaders (h.withHeaders headers) = answerWithHeaders headers (checkHeaders h) := by
  dsimp only [checkHeaders]
  rw [hagree.length]
  cases hlength : h.context.headers.find? headerContentLength with
  | none =>
    dsimp only
    rw [hagree.coding (hagree.length.trans hlength)]
    cases h.context.headers.find? headerTransferEncoding with
    | none => rfl
    | some coding =>
      dsimp only
      simp only [apply_ite (answerWithHeaders headers)]
      rfl
  | some value =>
    dsimp only
    simp only [apply_ite (answerWithHeaders headers)]
    rfl

theorem processingPOST_withHeaders :
    processingPOST sys (h.withHeaders headers) = (processingPOST sys h).withHeaders headers := by
  unfold processingPOST
  rw [checkHeaders_withHeaders hagree]
  generalize checkHeaders h = r
  obtain ⟨ret, h'⟩ := r
  cases ret with
  | reqContinue =>
    dsimp only [answerWithHeaders, request_withHeaders]
    cases h'.request.cgiPath with
    | some cgi => exact openCGI_withHeaders sys (h'.setState RequestState.setWorkInComplete) headers
    | none => exact upload_withHeaders sys (h'.setState RequestState.setCgiInComplete) headers
  | reqDone | reqError | throws => rfl

theorem processingPUT_withHeaders :
    processingPUT sys (h.withHeaders headers) = (processingPUT sys h).withHeaders headers := by
  unfold processingPUT
  rw [checkHeaders_withHeaders hagree]
  generalize checkHeaders h = r
  obtain ⟨ret, h'⟩ := r
  cases ret with
  | reqContinue => exact upload_withHeaders sys h' headers
  | reqDone | reqError | throws => rfl

/-- **The request object.**  `processing` reads the header map for the framing of the body only, so that
with a map that says the same of it the result is the same, with this map. -/
theorem processing_withHeaders :
    processing sys (h.withHeaders headers) = (processing sys h).withHeaders headers := by
  unfold processing
  rw [request_withHeaders]
  cases h.request.kind with
  | get => exact processingGET_withHeaders sys h headers
  | post => exact processingPOST_withHeaders sys hagree
  | delete => exact processingDELETE_withHeaders sys h headers
  | put => exact processingPUT_withHeaders sys hagree
  | head => exact processingHEAD_withHeaders sys h headers

end Bodies

end Handler
/-! ## The client -/

namespace Client

/-- The same client with another header map. -/
abbrev withHeaders (c : Client) (headers : StringMap) : Client :=
  { c with context := { c.context with headers := headers } }

variable (sys : Sys) {c : Client} {headers : StringMap}

theorem startRequest_withHeaders
    (hagree : Handler.SameFraming headers c.context.headers) :
    (c.withHeaders headers).startRequest sys =
      ((c.startRequest sys).1, (c.startRequest sys).2.withHeaders headers) := by
  have hmethod : (c.withHeaders headers).context.method = c.context.method := rfl
  unfold startRequest
  rw [hmethod]
  cases requestKind c.context.method with
  | none => rfl
  | some kind =>
    dsimp only
    have hcreate : createRequest kind (c.withHeaders headers).context =
        (createRequest kind c.context).map fun h => h.withHeaders headers := by
      unfold createRequest
      show (chopTarget c.context.rule c.context.target >>= _) =
        (chopTarget c.context.rule c.context.target >>= _).map _
      cases chopTarget c.context.rule c.context.target <;> rfl
    rw [hcreate]
    cases hh : createRequest kind c.context with
    | error fault => rfl
    | ok h =>
      have hheaders : h.context.headers = c.context.headers := by
        obtain ⟨chopedTarget, -, rfl⟩ := createRequest_ok hh
        rfl
      have hprocessing : Handler.processing sys (h.withHeaders headers) =
          (Handler.processing sys h).withHeaders headers :=
        Handler.processing_withHeaders sys (hheaders ▸ hagree)
      show (_, (c.withHeaders headers).withHandler (Handler.processing sys (h.withHeaders headers))) = _
      rw [hprocessing]
      rfl

/-- **`_resolveARequest`.**  It reads the header map at `Host` and for the framing of the body; where these
agree, so do the results but for the map. -/
theorem resolveARequest_withHeaders
    (hhost : headers.find? headerHost = c.context.headers.find? headerHost)
    (hagree : Handler.SameFraming headers c.context.headers) :
    (c.withHeaders headers).resolveARequest sys =
      ((c.resolveARequest sys).1, (c.resolveARequest sys).2.withHeaders headers) := by
  dsimp only [resolveARequest]
  rw [hhost]
  cases c.context.server.findServerBlock c.connectSocket
      ((c.context.headers.find? headerHost).getD []) with
  | none => rfl
  | some block =>
    dsimp only
    cases block.findLocationBlock (Path.ofString c.context.target) with
    | none => rfl
    | some loc =>
      have hstart := startRequest_withHeaders sys
        (c := { c with context := { c.context with serverBlock := some block, ruleBlock := some loc } })
        hagree
      dsimp only
      by_cases hroot : loc.root.isEmpty
      · rw [if_pos hroot, if_pos hroot]
        rfl
      rw [if_neg hroot, if_neg hroot]
      by_cases hallowed : ¬ loc.isAllowed c.context.method
      · rw [if_pos hallowed, if_pos hallowed]
        rfl
      rw [if_neg hallowed, if_neg hallowed]
      by_cases hredirect : loc.redirection.1 ≠ statusNone
      · rw [if_pos hredirect, if_pos hredirect]
        rfl
      · rw [if_neg hredirect, if_neg hredirect]
        exact hstart

end Client
end Webserv
