import Webserv.Boot
import Webserv.Configuration.Texts
import Webserv.Effects.Starting
import Webserv.Phases
import Webserv.ResponseFormat

/-!
# The heads that clients are sent

The heads hold bytes of the peer and of a CGI: a redirection repeats the target and the query, and the
headers of a CGI become those of the response.  No such byte can end a line at CR LF, or begin the body: the
target is cut out of one line, the headers of a CGI out of one line each, and the rest are words of the
configuration file and texts of the program.

* `Server.SingleLines`: what the configuration has to give; `singleLines_of_boot`: it does.
* `RequestContext.Legible`: the response so far and what it will be made of.
* `legible_processing`, `legible_readBody`, `legible_readCGI`, `legible_step`: kept by every operation.
* `reading_run`: every peer that ends lines at CR LF reads every head as it was meant.

## Why an invariant of the context

Whether a head can be split is decided long before it is rendered.  The target is cut out of the request
line when that is parsed, the query is split off, and both wait in the context until a redirection repeats
them.  So the invariant is about everything in the context that may get into a head: the response so far,
the target and the query, the lines that a CGI has written.  Each operation of the source keeps it, for the
reason that it takes what it adds out of one line, or from a text of the program.  The proof is one lemma
for each operation, in the order of the calls.

## Why the configuration is in it

Mime types and redirections are words of the file and go into heads as they are.  A token of the file ends
at white space, so it holds no line end, and a server that `main` starts has only such words
(`singleLines_of_boot`).

## What is not excluded

The line end is CR LF.  A target may hold a bare LF, or a LF before a CR, and a redirection repeats it.  A
peer that takes the LF for a line end sees a line more than the server has written, as the example at the
end of the module shows.
-/

namespace Webserv

open Search (findSub)

/-! ## The server -/

/-- The texts that the configuration gives to responses, the MIME types and the redirections, are on one
line each. -/
structure Server.SingleLines (server : Server) : Prop where
  mimetypes : ∀ e ∈ server.mimetypes.entries, SingleLine e.2
  redirections : ∀ loc, server.HasLocation loc → SingleLine loc.redirection.2

theorem Server.SingleLines.getMimeType {server : Server} (h : server.SingleLines) (ext : Bytes) :
    SingleLine (server.getMimeType ext) := by
  unfold Server.getMimeType
  cases hfind : server.mimetypes.find? ext with
  | none => decide +kernel
  | some type => exact h.mimetypes (ext, type) (OrderedMap.find?_eq_some_iff.mp hfind)

/-- No token of a file has a line end in it. -/
theorem singleLine_token {content : Bytes} {t : ConfToken} (ht : t ∈ ConfFile.tokenizeFile content) :
    SingleLine t.str := by
  obtain ⟨line, index, hline⟩ := ConfFile.mem_tokenizeLines ht
  rcases ConfFile.isMeta_or_isWord_of_mem (fun _ hc => absurd hc List.not_mem_nil) hline with hmeta | hword
  · rcases hmeta with heq | heq | heq <;> rw [heq] <;> decide
  · refine .of_notMem fun hcr => ?_
    have hspace := (hword.2 cr hcr).1
    revert hspace
    decide

/-- The texts of a server that `main` starts. -/
theorem singleLines_of_boot {signal : Bool} {files : Bytes → Except Bytes Bytes} {sys : ListenSys}
    {args : List Bytes} {server : Server} (h : boot signal files sys args = .serves server) :
    server.SingleLines := by
  obtain ⟨file, token, conf, binds, hparse, -, hconfigure⟩ := configure_of_boot h
  cases file with
  | error strerror => cases hparse
  | ok content =>
    have htexts := texts_of_parse hparse SingleLine.nil fun t ht => singleLine_token ht
    obtain ⟨hmimetypes, hblocks⟩ := blocks_of_configure hconfigure
    refine ⟨by rw [hmimetypes]; exact htexts.mimetypes, fun loc hloc => ?_⟩
    obtain ⟨socket, blocks, block, hfind, hblock, hmem⟩ := hloc
    exact htexts.redirections block ((hblocks socket blocks hfind).2 block hblock) loc hmem

/-! ## The context -/

namespace RequestContext

/-- The response and the heads so far are well formed, and what a redirection would repeat is on one line. -/
structure Legible (server : Server) (ctx : RequestContext) : Prop where
  server_eq : ctx.server = server
  response : ctx.response.WellFormed
  heads : ∀ r ∈ ctx.world.heads, r.WellFormed
  target : SingleLine ctx.target
  query : SingleLine ctx.queries.queryLine

namespace Legible

variable {server : Server} {ctx : RequestContext}

theorem setResponse (h : ctx.Legible server) {r : Response} (hr : r.WellFormed) :
    { ctx with response := r }.Legible server := { h with response := hr }

theorem setStatusCode (h : ctx.Legible server) (code : Nat) : (ctx.setStatusCode code).Legible server :=
  h.setResponse (h.response.setStatusCode code)

theorem setState (h : ctx.Legible server) (f : RequestState → RequestState) :
    (ctx.setState f).Legible server := { h with }

theorem setFs (h : ctx.Legible server) (fs : FileSystem) : (ctx.setFs fs).Legible server := { h with }

theorem record (h : ctx.Legible server) (call : CgiCall) : (ctx.record call).Legible server := { h with }

theorem refuse (h : ctx.Legible server) (code : Nat) : (ctx.refuse code).Legible server :=
  (h.setStatusCode code).setState _

/-- The head that is rendered is that of the response. -/
theorem render (h : ctx.Legible server) : ctx.render.Legible server where
  server_eq := h.server_eq
  response := h.response
  heads := List.forall_mem_append.mpr ⟨h.heads, List.forall_mem_singleton.mpr h.response⟩
  target := h.target
  query := h.query

theorem appendResponse (h : ctx.Legible server) (data : Bytes) : (ctx.appendResponse data).Legible server :=
  { h with }

theorem clearBody (h : ctx.Legible server) :
    { ctx with response := ctx.response.clearBody }.Legible server := h.setResponse (h.response.setBody [])

/-! ### The head of a request -/

theorem parseVersion (h : ctx.Legible server) (line : Bytes) : (ctx.parseVersion line).Legible server := by
  have hversion : { ctx with protocolVersion := line }.Legible server := { h with }
  unfold RequestContext.parseVersion
  dsimp only
  split_ifs
  · exact hversion.refuse _
  · exact hversion.refuse _
  · exact hversion.setState _

/-- The target and the query are parts of the target before. -/
theorem splitQuery (h : ctx.Legible server) : ctx.splitQuery.Legible server := by
  unfold RequestContext.splitQuery
  cases findSub [question] ctx.target with
  | none => exact h
  | some pos => exact { h with target := h.target.take pos, query := h.target.drop (pos + 1) }

theorem parseTarget (h : ctx.Legible server) {line : Bytes} (hline : SingleLine line) :
    (ctx.parseTarget line).Legible server := by
  unfold RequestContext.parseTarget
  cases findSub [space] line with
  | none => exact h.refuse _
  | some pos =>
    have htarget : { ctx with target := line.take pos }.Legible server := { h with target := hline.take pos }
    dsimp only
    split_ifs
    · exact htarget.refuse _
    · exact htarget.splitQuery.parseVersion _

theorem parseMethod (h : ctx.Legible server) {line : Bytes} (hline : SingleLine line) :
    (ctx.parseMethod line).Legible server := by
  unfold RequestContext.parseMethod
  cases findSub [space] line with
  | none => exact h.refuse _
  | some pos =>
    have hmethod : { ctx with method := Method.ofString (line.take pos) }.Legible server := { h with }
    dsimp only
    split_ifs
    · exact h.refuse _
    · exact hmethod.parseTarget (hline.drop _)
    · exact hmethod.refuse _

/-- The line that is taken from a buffer ends at the first line end. -/
theorem singleLine_substr {buffer : Bytes} {pos : Nat} (hfind : BinaryBuffer.find buffer crlf = some pos) :
    SingleLine (BinaryBuffer.substr buffer 0 pos) := by
  rw [find_crlf] at hfind
  rw [BinaryBuffer.substr_zero]
  exact Search.findSub_eq_none_iff.mp (Search.findSub_take (by decide) hfind)

theorem parseRequestLine (h : ctx.Legible server) : ctx.parseRequestLine.2.Legible server := by
  unfold RequestContext.parseRequestLine
  cases hfind : BinaryBuffer.find ctx.buffer crlf with
  | none =>
    dsimp only
    split_ifs
    · exact h.refuse _
    · exact h
  | some pos =>
    have hrest : { ctx with buffer := BinaryBuffer.erase ctx.buffer 0 (pos + 2) }.Legible server := { h with }
    dsimp only
    split_ifs
    · exact h.refuse _
    · exact hrest.parseMethod (singleLine_substr hfind)

theorem parseHeadersLoop (h : ctx.Legible server) (n : Nat) :
    (RequestContext.parseHeadersLoop n ctx).2.Legible server := by
  induction n generalizing ctx with
  | zero => exact h
  | succ n ih =>
    rw [parseHeadersLoop_succ]
    cases findSub crlf ctx.buffer with
    | none => exact h
    | some pos =>
      have hrest : (ctx.dropLine pos).Legible server := { h with }
      dsimp only
      split_ifs
      · exact hrest.refuse _
      · exact hrest.setState _
      · cases findSub (bytes ": ") (ctx.buffer.take pos) with
        | none => exact hrest.refuse _
        | some q => exact ih { hrest with }

theorem parseHead (h : ctx.Legible server) : ctx.parseHead.2.Legible server := by
  have hheaders : ∀ {ctx : RequestContext}, ctx.Legible server →
      (if ctx.requestState.isReadHeadersComplete then (.reqDone, ctx) else ctx.parseHeaders :
        Ret × RequestContext).2.Legible server := by
    intro ctx h
    split_ifs
    · exact h
    · exact h.parseHeadersLoop _
  unfold RequestContext.parseHead
  dsimp only
  split_ifs
  · exact h
  · exact h.parseHeadersLoop _
  · have hline := h.parseRequestLine
    generalize ctx.parseRequestLine = r at hline
    obtain ⟨ret, ctx'⟩ := r
    cases ret with
    | reqDone => exact hheaders hline
    | reqContinue | reqError | throws => exact hline

end Legible
end RequestContext

/-! ## The request object -/

namespace Handler

open RequestContext

variable {server : Server} {h : Handler}

theorem legible_setHeader (hl : h.context.Legible server) {key value : Bytes} (hkey : IsName key)
    (hvalue : SingleLine value) : (h.setHeader key value).context.Legible server :=
  hl.setResponse (hl.response.setHeader hkey hvalue)

theorem legible_setFileHeaders (hserver : server.SingleLines) (hl : h.context.Legible server) :
    h.setFileHeaders.context.Legible server := by
  have htype : SingleLine (h.context.server.getMimeType h.request.path.extension) := by
    rw [hl.server_eq]
    exact hserver.getMimeType _
  have hstatus : (h.setStatusCode statusOk).context.Legible server := hl.setStatusCode statusOk
  exact legible_setHeader (legible_setHeader hstatus (by decide +kernel) htype) (by decide +kernel)
    (singleLine_numToStr _)

theorem legible_openCGI (sys : Sys) (hl : h.context.Legible server) :
    (openCGI sys h).context.Legible server := by
  have hattach : ∀ pair, (h.attachCGI pair).context.Legible server := fun pair => { hl with }
  rcases openCGI_cases sys h with heq | ⟨pair, heq⟩ | ⟨pair, pid, heq⟩ <;> rw [heq]
  · exact hl.setStatusCode _
  · exact (hattach pair).setStatusCode _
  · exact { hattach pair with }

theorem legible_openFileGET (hserver : server.SingleLines) (sys : Sys) (hl : h.context.Legible server) :
    (openFileGET sys h).context.Legible server := by
  unfold openFileGET
  dsimp only
  split_ifs
  · exact legible_setFileHeaders hserver hl
  · exact hl.setStatusCode _

theorem legible_openDirHEAD (hl : h.context.Legible server) : (openDirHEAD h).context.Legible server := by
  have hstatus : (h.setStatusCode statusOk).context.Legible server := hl.setStatusCode statusOk
  exact legible_setHeader hstatus (by decide +kernel) (by decide +kernel)

theorem legible_openDirGET (sys : Sys) (hl : h.context.Legible server) :
    (openDirGET sys h).context.Legible server := by
  unfold openDirGET
  dsimp only
  split_ifs
  · exact (legible_openDirHEAD (h := { h with request := _ }) hl).setResponse
      ((legible_openDirHEAD (h := { h with request := _ }) hl).response.setBody _)
  · exact hl.setStatusCode _

theorem legible_validateLocalFile {serve finish : Handler → Handler} (sys : Sys)
    (hserve : ∀ {h}, h.context.Legible server → (serve h).context.Legible server)
    (hfinish : ∀ {h}, h.context.Legible server → (finish h).context.Legible server)
    (hl : h.context.Legible server) :
    (validateLocalFile serve finish sys h).2.context.Legible server := by
  unfold validateLocalFile
  cases h.request.path.stat sys h.context.world.fs with
  | none => exact hfinish (hl.setStatusCode _)
  | some path =>
    have hpath : (h.setPath path).context.Legible server := hl
    dsimp only
    split_ifs
    · exact hfinish (hserve hpath)
    · exact hpath
    · exact hfinish (hpath.setStatusCode _)

/-- A redirection repeats the target and the query.  Both are parts of the request line, which ends at the
first CR LF. -/
theorem singleLine_location (hl : h.context.Legible server) :
    SingleLine (h.context.target ++ [slash] ++ h.context.queries.originalQueryLine) := by
  have hquery : SingleLine h.context.queries.originalQueryLine := by
    unfold Queries.originalQueryLine
    split_ifs
    · exact .nil
    · exact SingleLine.nil.append_cons (by decide) (by decide) hl.query
  rw [List.append_assoc]
  exact hl.target.append_cons (by decide) (by decide) hquery

theorem legible_processFile {validate : Handler → Ret × Handler} {openDir : Handler → Handler}
    (hvalidate : ∀ {h}, h.context.Legible server → (validate h).2.context.Legible server)
    (hopen : ∀ {h}, h.context.Legible server → (openDir h).context.Legible server)
    (hl : h.context.Legible server) : (processFile validate openDir h).context.Legible server := by
  have hlist : ∀ {h : Handler}, h.context.Legible server →
      (listDirectory openDir h).context.Legible server := by
    intro h hl
    unfold listDirectory
    split_ifs
    · exact hopen hl
    · exact hl.setStatusCode _
  have hfirst := hvalidate hl
  unfold processFile
  split_ifs
  · generalize validate h = r at hfirst
    obtain ⟨ret, h₁⟩ := r
    cases ret with
    | reqContinue =>
      dsimp only
      split_ifs
      · cases hindexes : h₁.fetchIndexes with
        | none => exact hlist hfirst
        | some h₂ =>
          obtain ⟨test, -, rfl⟩ := Option.map_eq_some_iff.mp hindexes
          have hsecond := hvalidate (h := h₁.setPath (Path.ofString test)) hfirst
          dsimp only
          generalize validate (h₁.setPath (Path.ofString test)) = r at hsecond
          obtain ⟨ret, h₃⟩ := r
          cases ret with
          | reqContinue => exact hlist hsecond
          | reqDone | reqError | throws => exact hsecond
      · have hmoved : (h₁.setStatusCode statusMovedPermanently).context.Legible server :=
          hfirst.setStatusCode statusMovedPermanently
        exact legible_setHeader hmoved (by decide +kernel) (singleLine_location hfirst)
      · exact hfirst.setStatusCode _
    | reqDone | reqError | throws => exact hfirst
  · exact hl.setStatusCode _

theorem legible_processingDELETE (sys : Sys) (hl : h.context.Legible server) :
    (processingDELETE sys h).context.Legible server := by
  unfold processingDELETE
  dsimp only
  split_ifs
  · cases h.request.path.stat sys h.context.world.fs with
    | none => exact hl.setStatusCode _
    | some path =>
      dsimp only
      split_ifs
      all_goals first | exact hl.setStatusCode _ | exact (hl.setFs _).setStatusCode _
  · exact hl.setStatusCode _

theorem legible_processing_upload (sys : Sys) (hl : h.context.Legible server)
    (hkind : h.request.kind = .post ∨ h.request.kind = .put) :
    (processing sys h).context.Legible server := by
  have hchecked : ∀ {h₁ : Handler} (f : RequestState → RequestState),
      Checked h (.reqContinue, h₁) → (h₁.setState f).context.Legible server := by
    intro h₁ f hchecked
    cases hchecked <;> exact hl.setState f
  have hstarts := startsBody_processing sys hkind
  generalize processing sys h = h' at hstarts ⊢
  cases hstarts with
  | refused n hcode f => exact (hl.setStatusCode _).setState f
  | cgi _ _ hcontinue => exact legible_openCGI sys (hchecked RequestState.setWorkInComplete hcontinue)
  | upload f _ hcontinue huploads =>
    have hl₁ := hchecked f hcontinue
    cases huploads with
    | refused path hcode => exact hl₁.setStatusCode _
    | unopened hnamed hcode => exact hl₁.setStatusCode _
    | opened hnamed hcreate => exact hl₁.setFs _

/-- **`processing`** of every kind keeps the response legible: the texts it sets are those of the program,
of the configuration and of the target. -/
theorem legible_processing (hserver : server.SingleLines) (sys : Sys) (hl : h.context.Legible server) :
    (processing sys h).context.Legible server := by
  have hupload := legible_processing_upload sys hl
  unfold processing at hupload ⊢
  cases hkind : h.request.kind with
  | get =>
    refine legible_processFile (legible_validateLocalFile sys (fun {h} hl => ?_) id) ?_ hl
    · cases h.request.cgiPath with
      | none => exact legible_openFileGET hserver sys hl
      | some cgi => exact legible_openCGI sys hl
    · exact fun hl => legible_openDirGET sys hl
  | head =>
    exact legible_processFile (legible_validateLocalFile sys (legible_setFileHeaders hserver)
      fun hl => hl.setState _) legible_openDirHEAD hl
  | delete => exact legible_processingDELETE sys hl
  | post =>
    rw [hkind] at hupload
    exact hupload (Or.inl rfl)
  | put =>
    rw [hkind] at hupload
    exact hupload (Or.inr rfl)

/-! ### The body -/

theorem legible_publish (sys : Sys) (hl : h.context.Legible server) :
    (publish sys h).context.Legible server := by
  rw [publish_eq_publishWith, publishWith_eq]
  exact (hl.setFs _).setStatusCode _

theorem legible_writeChunk (sys : Sys) (size : Nat) (hl : h.context.Legible server) :
    (writeChunk sys h size).2.context.Legible server := by
  unfold writeChunk
  cases h.request.cgiPath with
  | none =>
    unfold writeFile
    dsimp only
    split_ifs
    · exact hl.setFs _
    · exact hl
  | some cgi =>
    show (sendCGI sys h size).2.context.Legible server
    unfold sendCGI
    dsimp only
    split <;> exact hl.record _

theorem legible_saveFile (sys : Sys) (hl : h.context.Legible server) :
    (saveFile sys h).2.context.Legible server := by
  unfold saveFile
  cases h.request.cgiPath with
  | none => exact legible_publish sys (h := { h with request := _ }) hl
  | some cgi =>
    dsimp only
    split_ifs <;> exact ((hl.record _).setStatusCode statusOk).record _

theorem legible_endBody (hl : h.context.Legible server) : h.endBody.context.Legible server :=
  hl.setState fun x => x.setWorkInComplete.setCgiOutComplete

theorem readerRule_legible (server : Server) (sys : Sys) :
    ReaderRule sys (fun h => h.context.Legible server) fun r => r.2.context.Legible server where
  waits := id
  buffer _ hl := { hl with }
  counters _ _ := id
  refuses {h} _ code _ hl := legible_endBody (h := h.setStatusCode code) (hl.setStatusCode code)
  writes size hl hwrite _ := by
    have hwritten := legible_writeChunk sys size hl
    rwa [hwrite] at hwritten
  writeFails size hl hwrite := by
    have hwritten := legible_writeChunk sys size hl
    rwa [hwrite] at hwritten
  saves hl hsave _ := by
    have hsaved := legible_saveFile sys hl
    rw [hsave] at hsaved
    exact legible_endBody hsaved
  saveFails hl hsave := by
    have hsaved := legible_saveFile sys hl
    rwa [hsave] at hsaved

theorem legible_readBody (sys : Sys) (hl : h.context.Legible server) :
    (readBody sys h).2.context.Legible server := (readerRule_legible server sys).readBody hl

theorem legible_workIn (sys : Sys) (hl : h.context.Legible server) :
    (workIn sys h).2.context.Legible server := by
  unfold workIn
  cases h.request.kind with
  | post | put => exact legible_readBody sys hl
  | get | delete | head => exact hl

/-! ### The output -/

theorem legible_addBody (body : Bytes) (hl : h.context.Legible server) :
    (h.addBody body).context.Legible server := hl.setResponse (hl.response.setBody _)

theorem legible_sendListing (hl : h.context.Legible server) : h.sendListing.context.Legible server :=
  (hl.appendResponse _).clearBody

theorem legible_readDir (sys : Sys) (hl : h.context.Legible server) :
    (readDir sys h).2.context.Legible server := by
  have hdirectory : ∀ entries : List Bytes,
      ({ h with request := { h.request with directory := some entries } } : Handler).context.Legible server :=
    fun _ => hl
  unfold readDir
  cases h.request.directory with
  | none => exact hl
  | some entries =>
    dsimp only
    generalize readEntries (entryRow sys h) sys.readdirFails entries 0 0 [] = r
    obtain ⟨buffer, batch⟩ := r
    cases batch with
    | failed => exact hl.setStatusCode _
    | full entries => exact legible_sendListing (legible_addBody buffer (hdirectory entries))
    | last =>
      have hbody := legible_addBody htmlFooter (legible_addBody buffer (hdirectory []))
      exact legible_sendListing (h := setState _ _) (hbody.setState RequestState.setWorkOutComplete)

theorem legible_workOut (sys : Sys) (hl : h.context.Legible server) :
    (workOut sys h).2.context.Legible server := by
  unfold workOut
  cases h.request.kind with
  | get =>
    show (workOutGET sys h).2.context.Legible server
    unfold workOutGET readFile
    dsimp only
    split_ifs
    · exact hl.setState _
    · exact hl.appendResponse _
    · exact legible_readDir sys hl
    · exact hl
  | post => exact hl.setState _
  | delete | put | head => exact hl

/-! ### The CGI -/

/-- The status of a CGI is cut out of a header. -/
theorem legible_setCGIStatus (hl : h.context.Legible server) : h.setCGIStatus.context.Legible server := by
  unfold setCGIStatus
  cases hfind : h.context.response.headers.find? headerStatus with
  | none => exact hl.setStatusCode _
  | some value =>
    have hvalue : SingleLine value :=
      hl.response.value (headerStatus, value) (OrderedMap.find?_eq_some_iff.mp hfind)
    have hreason : SingleLine (cgiStatusToStatus value).2 := by
      unfold cgiStatusToStatus
      dsimp only
      split_ifs
      · exact hvalue
      · exact hvalue
      · exact hvalue.drop 4
    exact (hl.setStatusCode _).setResponse
      (((hl.response.setStatusCode _).setReasonPhrase hreason).deleteHeader headerStatus)

theorem legible_renderError (hl : h.context.Legible server) : h.renderError.context.Legible server :=
  (hl.setResponse ((Response.wellFormed_clear _).setStatusCode statusInternalServerError)).render

theorem legible_refuseCGIHeaders (hl : h.context.Legible server) :
    h.refuseCGIHeaders.context.Legible server :=
  legible_renderError (h := setState _ _)
    (hl.setState fun x => x.setCgiHeadersComplete.setCgiInComplete)

theorem legible_endCGIHeaders (hl : h.context.Legible server) : h.endCGIHeaders.context.Legible server :=
  ((legible_setCGIStatus hl).setState RequestState.setCgiHeadersComplete).clearBody.render

/-- A line of a CGI becomes a header.  The line was found by its end, so that neither its name nor its value
holds one. -/
theorem legible_parseCGIHeadersLoop (n : Nat) (hl : h.context.Legible server) :
    (parseCGIHeadersLoop n h).context.Legible server := by
  induction n generalizing h with
  | zero => exact hl
  | succ n ih =>
    rw [parseCGIHeadersLoop]
    cases hfind : BinaryBuffer.find h.request.readBuffer crlf with
    | none => exact hl
    | some pos =>
      have hline := Legible.singleLine_substr hfind
      dsimp only
      generalize BinaryBuffer.substr h.request.readBuffer 0 pos = line at hline ⊢
      generalize BinaryBuffer.erase h.request.readBuffer 0 (pos + 2) = rest
      have hrest : ({ h with request := { h.request with readBuffer := rest } } : Handler).context.Legible
          server := hl
      split_ifs
      · exact legible_endCGIHeaders hrest
      · cases hcolon : findSub (bytes ": ") line with
        | none => exact legible_refuseCGIHeaders hrest
        | some colon =>
          have hname : IsName (line.take colon) :=
            ⟨hline.take colon, Search.findSub_eq_none_iff.mp (Search.findSub_take (by decide) hcolon)⟩
          exact ih (hl.setResponse (hl.response.setHeader hname (hline.drop (colon + 2))))

theorem legible_readCGI (sys : Sys) (hl : h.context.Legible server) :
    (readCGI sys h).2.context.Legible server := by
  have hforward : ∀ {h : Handler}, h.context.Legible server → h.forwardCGI.context.Legible server := by
    intro h hl
    unfold forwardCGI
    split_ifs
    · exact hl.appendResponse _
    · exact hl
  have hrecv : ({ h with context := h.context.record (.recv h.context.cgiSocket) } : Handler).context.Legible
      server := hl.record _
  unfold readCGI
  split_ifs
  · exact hl
  · cases sys.recv with
    | closed =>
      dsimp only
      split_ifs
      · exact hrecv.setState _
      · exact legible_renderError (h := setState _ _) (hrecv.setState _)
    | error => exact hrecv.setState _
    | data packet =>
      dsimp only
      split_ifs
      · exact hforward (h := { context := _, request := _ }) hrecv
      · exact hforward (legible_parseCGIHeadersLoop _ (h := { context := _, request := _ }) hrecv)

theorem legible_CGIIn (sys : Sys) (hl : h.context.Legible server) :
    (CGIIn sys h).2.context.Legible server := by
  unfold CGIIn
  cases h.request.kind with
  | get | post => exact legible_readCGI sys hl
  | delete | put | head => exact hl

theorem legible_CGIOut (sys : Sys) (hl : h.context.Legible server) :
    (CGIOut sys h).2.context.Legible server := by
  unfold CGIOut
  cases h.request.kind with
  | post => exact legible_readBody sys hl
  | get | delete | put | head => exact hl

end Handler

/-! ## The client -/

namespace Client

open RequestContext

variable {server : Server} {c : Client}

theorem legible_render (hl : c.context.Legible server) : c.render.context.Legible server :=
  hl.render.clearBody

theorem legible_switchToWrite (sys : Sys) (hl : c.context.Legible server) :
    (c.switchToWrite sys).2.context.Legible server := by
  rcases switchToWrite_cases c sys with heq | heq <;> rw [heq]
  · exact hl
  · exact hl.setState RequestState.setCanWrite

theorem legible_openErrorPage (sys : Sys) (hl : c.context.Legible server) :
    (c.openErrorPage sys).2.context.Legible server := by
  unfold openErrorPage
  cases c.customErrorPage sys with
  | none => exact hl
  | some path =>
    dsimp only
    split_ifs
    · exact hl.setResponse (hl.response.setHeader (by decide +kernel) (singleLine_numToStr _))
    · exact hl

theorem legible_loadErrorPage (sys : Sys) (hl : c.context.Legible server) :
    (c.loadErrorPage sys).context.Legible server := by
  have hopened := legible_openErrorPage sys hl
  unfold loadErrorPage
  generalize c.openErrorPage sys = r at hopened
  obtain ⟨opened, c₁⟩ := r
  cases opened with
  | true => exact hopened
  | false =>
    have hbody := hopened.response.setBody (errorBody c₁.context.response.statusCode)
    exact (hopened.setResponse (hbody.setHeader (by decide +kernel) (singleLine_numToStr _))).setState
      RequestState.setWorkComplete

theorem legible_startResponse (sys : Sys) (hl : c.context.Legible server) :
    (c.startResponse sys).2.context.Legible server := by
  have hprepared : (c.prepareError sys).context.Legible server := by
    unfold prepareError
    split_ifs
    · exact legible_loadErrorPage sys (c := c.setResponse _)
        (hl.setResponse (hl.response.setHeader (by decide +kernel) (by decide +kernel)))
    · exact hl
  unfold startResponse
  dsimp only
  split_ifs
  · exact legible_switchToWrite sys (legible_render hprepared)
  · exact legible_switchToWrite sys hprepared

theorem legible_handleRequest (sys : Sys) (hl : c.context.Legible server) :
    (c.handleRequest sys).2.context.Legible server := by
  unfold handleRequest
  cases c.request with
  | none => exact legible_startResponse sys hl
  | some request =>
    dsimp only
    split_ifs
    · exact legible_startResponse sys hl
    · have hbody := Handler.legible_workIn sys (h := ⟨(c.touch .clientBody sys.now).context, request⟩) hl
      generalize Handler.workIn sys ⟨(c.touch .clientBody sys.now).context, request⟩ = r at hbody
      obtain ⟨ret, h⟩ := r
      cases ret with
      | reqDone => exact legible_startResponse sys (c := withHandler _ h) hbody
      | reqContinue | reqError | throws => exact hbody

theorem legible_startRequest (hserver : server.SingleLines) (sys : Sys) (hl : c.context.Legible server) :
    (c.startRequest sys).2.context.Legible server := by
  unfold startRequest
  cases requestKind c.context.method with
  | none => exact hl.setStatusCode _
  | some kind =>
    dsimp only
    cases hcreate : createRequest kind c.context with
    | error fault => exact hl
    | ok h =>
      obtain ⟨-, -, rfl⟩ := createRequest_ok hcreate
      exact Handler.legible_processing hserver sys (hl.setState kind.initState)

theorem legible_resolveARequest (hserver : server.SingleLines) (sys : Sys) (hl : c.context.Legible server) :
    (c.resolveARequest sys).2.context.Legible server := by
  unfold resolveARequest
  dsimp only
  cases hblock : c.context.server.findServerBlock c.connectSocket
      ((c.context.headers.find? headerHost).getD []) with
  | none => exact hl
  | some block =>
    dsimp only
    have hfound : ∀ rule : Option LocationBlock, { c.context with
        serverBlock := some block, ruleBlock := rule }.Legible server := fun _ => { hl with }
    cases hrule : block.findLocationBlock (Path.ofString c.context.target) with
    | none => exact (hfound none).setStatusCode _
    | some loc =>
      have htarget : SingleLine loc.redirection.2 := by
        rw [hl.server_eq] at hblock
        exact hserver.redirections loc (Server.hasLocation_of_find hblock hrule)
      have hname : IsName headerLocation := by decide +kernel
      have hresponse := (hl.response.setStatusCode loc.redirection.1).setHeader hname htarget
      dsimp only
      split_ifs
      all_goals first
        | exact (hfound (some loc)).setStatusCode _
        | exact ((hfound (some loc)).setResponse hresponse).setState RequestState.setWorkComplete
        | exact legible_startRequest hserver sys (c := { c with context := _ }) (hfound (some loc))

theorem legible_parseRequest (hserver : server.SingleLines) (sys : Sys) (hl : c.context.Legible server) :
    (c.parseRequest sys).2.context.Legible server := by
  have hhead := hl.parseHead
  unfold parseRequest
  generalize c.context.parseHead = r at hhead
  obtain ⟨ret, ctx⟩ := r
  cases ret with
  | reqDone =>
    have hresolved := legible_resolveARequest hserver sys (c := { c with context := ctx }) hhead
    dsimp only
    split_ifs
    · generalize resolveARequest { c with context := ctx } sys = r at hresolved
      obtain ⟨ret, c₁⟩ := r
      cases ret with
      | reqContinue => exact hresolved.setState RequestState.setWorkInComplete
      | reqDone | reqError | throws => exact hresolved
    · exact hhead.setState RequestState.setWorkInComplete
  | reqContinue | reqError | throws => exact hhead

theorem legible_handleRead (hserver : server.SingleLines) (sys : Sys) (hl : c.context.Legible server) :
    (c.handleRead sys).2.context.Legible server := by
  have hparsed := legible_parseRequest hserver sys hl
  unfold handleRead
  split_ifs
  · exact legible_handleRequest sys hl
  · generalize c.parseRequest sys = r at hparsed
    obtain ⟨ret, c₁⟩ := r
    cases ret with
    | reqDone => exact legible_handleRequest sys hparsed
    | reqContinue | reqError | throws => exact hparsed

theorem legible_handleSocketIn (hserver : server.SingleLines) (sys : Sys) (hl : c.context.Legible server) :
    (c.handleSocketIn sys).2.context.Legible server := by
  unfold handleSocketIn
  split_ifs
  · exact legible_handleRead hserver sys hl
  · unfold readSocket
    cases sys.recv with
    | closed | error => exact hl
    | data packet =>
      refine legible_handleRead hserver sys ?_
      have hbuffer : { c.context with buffer := c.context.buffer ++ packet.bytes }.Legible server :=
        { hl with }
      split_ifs <;> exact hbuffer

theorem legible_handleSocketOut (sys : Sys) (hl : c.context.Legible server) :
    (c.handleSocketOut sys).2.context.Legible server := by
  have hproduced : (c.produce sys).2.context.Legible server := by
    unfold produce
    split_ifs
    · exact hl
    · unfold readErrorPage
      dsimp only
      split_ifs
      · exact hl.setState RequestState.setWorkOutComplete
      · exact hl.appendResponse _
    · cases c.request with
      | none => exact hl
      | some request =>
        have hwork := Handler.legible_workOut sys (h := ⟨c.context, request⟩) hl
        dsimp only
        generalize Handler.workOut sys ⟨c.context, request⟩ = r at hwork
        obtain ⟨ret, h⟩ := r
        cases ret <;> exact hwork
  have hsent : ∀ {c : Client}, c.context.Legible server → (c.sendResponse sys).2.context.Legible server := by
    intro c hl
    have htaken : ∀ n, (c.takeResponse sys n).context.Legible server := by
      intro n
      unfold takeResponse
      dsimp only
      split_ifs <;> exact { hl with }
    unfold sendResponse
    dsimp only
    split_ifs
    · cases sys.send with
      | error => exact hl
      | accepted n => exact htaken _
    · exact hl
  unfold handleSocketOut
  generalize c.produce sys = r at hproduced
  obtain ⟨ret, c₁⟩ := r
  cases ret with
  | reqContinue => exact hsent hproduced
  | reqDone | reqError | throws => exact hproduced

theorem legible_timeoutCheck (sys : Sys) (hl : c.context.Legible server) :
    (c.timeoutCheck sys).2.context.Legible server := by
  have hrespond : ∀ {c : Client}, c.context.Legible server →
      (c.respondTimeout sys).2.context.Legible server :=
    fun {c} hl => legible_switchToWrite sys (legible_render (legible_loadErrorPage sys
      (c := c.setState fun x => x.setWorkComplete.unsetWorkOutComplete)
      (hl.setState fun x => x.setWorkComplete.unsetWorkOutComplete)))
  unfold timeoutCheck
  split_ifs
  · exact hrespond (c := setState _ _)
      ((hl.setStatusCode statusRequestTimeout).setState RequestState.setReadComplete)
  · exact hrespond (c := setStatusCode _ _) (hl.setStatusCode statusRequestTimeout)
  · exact hl
  · exact hrespond (c := setStatusCode _ _)
      ((hl.setResponse (Response.wellFormed_clear c.context.response)).setStatusCode statusGatewayTimeout)
  · exact hl

/-- **One event** keeps the response of a client legible, and renders legible heads only. -/
theorem legible_step (hserver : server.SingleLines) (hl : c.context.Legible server) (e : Event) :
    (c.step e).context.Legible server := by
  unfold step
  by_cases hclosed : c.closed = true
  · rwa [if_pos hclosed]
  · rw [if_neg hclosed]
    cases e with
    | clientIn sys => exact legible_handleSocketIn hserver sys hl
    | clientOut sys => exact legible_handleSocketOut sys hl
    | cgiIn sys =>
      dsimp only
      split_ifs
      · exact hl
      · unfold handleCGIIn
        cases c.request with
        | none => exact hl
        | some request => exact Handler.legible_CGIIn sys (h := ⟨c.context, request⟩) hl
    | cgiOut sys =>
      dsimp only
      split_ifs
      · exact hl
      · unfold handleCGIOut
        cases c.request with
        | none => exact hl
        | some request => exact Handler.legible_CGIOut sys (h := ⟨c.context, request⟩) hl
    | timeoutCheck sys => exact legible_timeoutCheck sys hl
    | environment fs => exact hl.setFs fs

theorem legible_init (server : Server) (fs : FileSystem) (connectSocket fd : Fd) (now : Int) :
    (init server fs connectSocket fd now).context.Legible server where
  server_eq := rfl
  response := Response.wellFormed_init
  heads _ hr := absurd hr List.not_mem_nil
  target := .nil
  query := .nil

theorem legible_run {server : Server} (hserver : server.SingleLines) (fs : FileSystem) (connectSocket fd : Fd)
    (now : Int) (es : List Event) :
    ((init server fs connectSocket fd now).run es).context.Legible server :=
  Transition.run_invariant (I := fun c : Client => c.context.Legible server) (C := fun _ _ => True)
    (fun _ e hl _ => legible_step hserver hl e) (legible_init server fs connectSocket fd now)
    (Transition.along_of_forall (fun _ _ => trivial) es _)

/-- **Every head is read as it was meant**, by a peer that ends lines at CR LF.  Of a server that `main`
starts, in every run of a client, whatever it and a CGI send: the bytes of each head that is rendered, with
any body behind them, have one reading, whose first line is the status line, whose lines are the headers of
the response, each with its name and its value, and whose rest is the body. -/
theorem reading_run {signal : Bool} {files : Bytes → Except Bytes Bytes} {sys : ListenSys}
    {args : List Bytes} {server : Server} (hserves : boot signal files sys args = .serves server)
    (fs : FileSystem) (connectSocket fd : Fd) (now : Int) (es : List Event) {r : Response}
    (hr : r ∈ ((init server fs connectSocket fd now).run es).context.world.heads) (body : Bytes) :
    (∀ first lines rest, ReadsAs (r.head ++ body) first lines rest ↔
        first = r.status ∧ lines = r.headers.entries.map headerLine ∧ rest = body) ∧
      headerFields (r.headers.entries.map headerLine) = r.headers.entries := by
  have hl := legible_run (singleLines_of_boot hserves) fs connectSocket fd now es
  have hwellFormed := hl.heads r hr
  have hreading := Response.reading_head hwellFormed body
  refine ⟨fun first lines rest => ⟨fun h => h.unique hreading, ?_⟩, Response.headerFields_entries hwellFormed⟩
  rintro ⟨rfl, rfl, rfl⟩
  exact hreading

def directoryConf : Bytes := bytes "server \x7b listen 80; location / \x7b allow GET; root /r; \x7d \x7d"

/-- A directory below the root. -/
def directoryBelow : FileSystem where
  table path := if path = bytes "/r/d" then some { kind := .directory [] } else none

/-- A request for the directory without its slash.  The query has a carriage return and a line feed in it,
and what looks like a header. -/
def splittingRequest : Bytes := bytes "GET /d?\n\rX:\ny HTTP/1.1\r\nHost: h\r\n\r\n"

theorem splittingRequest_ne_nil : splittingRequest ≠ [] := by decide

theorem length_splittingRequest : splittingRequest.length ≤ reqBufferSize := by decide

def asksToSplit : Event :=
  .clientIn (.receiving splittingRequest splittingRequest_ne_nil length_splittingRequest)

set_option maxRecDepth 20000 in
/-- The client is sent to the directory, and the query is repeated. -/
theorem moved_asksToSplit :
    ∃ (server : Server) (r : Response), boot false (fun _ => .ok directoryConf) .quiet [] = .serves server ∧
      ((init server directoryBelow 3 4 0).run [asksToSplit]).context.world.heads.head? = some r ∧
      r.headers.find? headerLocation = some (bytes "/d/?\n\rX:\ny") :=
  ⟨_, _, rfl, rfl, by decide +kernel⟩

/-- What is repeated stays one header for a peer that ends lines at CR LF, although its value holds a bare
LF. -/
theorem reading_run_asksToSplit :
    ∃ (server : Server) (r : Response), boot false (fun _ => .ok directoryConf) .quiet [] = .serves server ∧
      r.headers.find? headerLocation = some (bytes "/d/?\n\rX:\ny") ∧
      ∀ body first lines rest, ReadsAs (r.head ++ body) first lines rest →
        headerFields lines = r.headers.entries ∧ rest = body := by
  obtain ⟨server, r, hserves, hhead, hlocation⟩ := moved_asksToSplit
  refine ⟨server, r, hserves, hlocation, fun body first lines rest hreading => ?_⟩
  obtain ⟨hiff, hfields⟩ := reading_run hserves directoryBelow 3 4 0 [asksToSplit]
    (List.mem_of_mem_head? hhead) body
  obtain ⟨-, rfl, hrest⟩ := (hiff first lines rest).mp hreading
  exact ⟨hfields, hrest⟩

end Client
end Webserv
