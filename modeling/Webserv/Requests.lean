import Webserv.Body
import Webserv.Cgi

/-!
# The requests

The base constructor and the classes `RequestGET`, `RequestPOST`, `RequestDELETE`, `RequestPUT` and
`RequestHEAD`: what a request does when its head has been read (`processing`), and when a socket is ready
after that (`workIn`, `workOut`, `CGIIn`, `CGIOut`).

* `createRequest`: the path of the request in the file system, and the CGI for it.
* `processing`: what is done at once.  It opens a file, a directory, a CGI or an upload, or sets a status.
* `readDir`, `readFile`: a listing in batches, a file in blocks.
* `workIn`, `workOut`, `CGIIn`, `CGIOut`: what the client calls later.

## How the classes are modelled

A virtual call is a match on the kind of the request.  What GET and HEAD have in common, and what POST and
PUT have in common, is one definition each with the differences as arguments, and the classes are
applications of it: `validateLocalFile` takes what is done with a regular file, `processFile` takes the
class's own validation and the way it opens a directory.  Where a class does something else, it has its own
body.  A method that a class does not override is that of the base, which throws `std::logic_error`.

## How a path is made

The target is cut at the length of the location's path and appended to the root; then the result is decoded.
The order matters.  What is decoded last may have separators and dots in it that no check before it has
seen, and the choice of the location was made with the target as it came.  For an upload the same cut is
appended to the upload directory instead, and nothing is decoded.  The length is stored as a `uint32_t`
(`matchLength`), and `substr` throws when it is larger than the target, which is the one exception of a
constructor (`createRequest_error`).

## What a listing is

`_readDir` is called for every batch of entries and adds the rows to the body of the response, which goes
out as a C string: a name with a NUL in it would end the batch there.  The entry `.` is left out and does
not count.  An error of `readdir` ends the request with `REQ_ERROR`, with what was sent before it already
gone.
-/

namespace Webserv

/-! ## Constructors -/

/-- `path().string().size() - 1` as the `uint32_t` it is stored in. -/
def LocationBlock.matchLength (loc : LocationBlock) : Nat := toUInt32 ((loc.path.str.length : Int) - 1)

/-- `target.substr(matchLength)`, which throws beyond the end.  For a target that was matched by the
location it does not. -/
def chopTarget (loc : LocationBlock) (target : Bytes) : Except Fault Bytes :=
  if loc.matchLength > target.length then throw .outOfRange else return target.drop loc.matchLength

/-- `_path` as the base constructor leaves it: the root and the rest of the target, decoded after they were
joined. -/
def localPath (loc : LocationBlock) (chopedTarget : Bytes) : Path :=
  let root := Path.ofString loc.root.str
  let path :=
    if chopedTarget ≠ [] then Path.ofString (root.concat (Path.ofString chopedTarget))
    else Path.ofString (root.str.take (root.str.length - 1))
  Path.ofString (decodeURI path.str)

/-- The flags that the constructor of a class sets. -/
def RequestKind.initState : RequestKind → RequestState → RequestState
  | .get, x => x.setWorkInComplete.setCgiOutComplete.setCgiInComplete
  | .post, x => x.setWorkOutComplete
  | .put, x => x.setWorkOutComplete.setCgiInComplete.setCgiOutComplete
  | .delete, x => x.setWorkComplete
  | .head, x => x.setWorkComplete

/-- `createRequestGET` and so on: `ARequest::ARequest` and the constructor of the class.  The CGI is chosen
by the extension of the decoded path. -/
def createRequest (kind : RequestKind) (ctx : RequestContext) : Except Fault Handler := do
  let chopedTarget ← chopTarget ctx.rule ctx.target
  let path := localPath ctx.rule chopedTarget
  return {
    context := ctx.setState kind.initState
    request := { kind := kind, path := path, cgiPath := ctx.rule.findCGI path.extension } }

/-- What the constructor decides: the path and the CGI, from the location and the target alone. -/
theorem createRequest_ok {kind : RequestKind} {ctx : RequestContext} {h : Handler}
    (hreq : createRequest kind ctx = .ok h) :
    ∃ chopedTarget, chopTarget ctx.rule ctx.target = .ok chopedTarget ∧
      h = { context := ctx.setState kind.initState
            request := {
              kind := kind
              path := localPath ctx.rule chopedTarget
              cgiPath := ctx.rule.findCGI (localPath ctx.rule chopedTarget).extension } } := by
  unfold createRequest at hreq
  cases hchop : chopTarget ctx.rule ctx.target with
  | error fault =>
    rw [hchop] at hreq
    cases hreq
  | ok chopedTarget =>
    rw [hchop] at hreq
    cases hreq
    exact ⟨chopedTarget, rfl, rfl⟩

/-- The constructor throws only when the target is shorter than the path of the location. -/
theorem createRequest_error {kind : RequestKind} {ctx : RequestContext} {fault : Fault}
    (hreq : createRequest kind ctx = .error fault) : fault = .outOfRange := by
  unfold createRequest chopTarget at hreq
  by_cases hshort : ctx.rule.matchLength > ctx.target.length
  · rw [if_pos hshort] at hreq
    cases hreq
    rfl
  · rw [if_neg hshort] at hreq
    cases hreq

namespace Handler

/-- `_path = path`. -/
def setPath (h : Handler) (path : Path) : Handler :=
  { h with request := { h.request with path := path } }

/-- `response.setHeader(key, value)`. -/
def setHeader (h : Handler) (key value : Bytes) : Handler :=
  { h with context := { h.context with response := h.context.response.setHeader key value } }

/-- `response.setBody(body)`. -/
def setBody (h : Handler) (body : Bytes) : Handler :=
  { h with context := { h.context with response := h.context.response.setBody body } }

/-! ## Files and directories -/

/-- The headers of a regular file: its type by the extension, and its size as an `int`. -/
def setFileHeaders (h : Handler) : Handler :=
  let path := h.request.path
  ((h.setStatusCode statusOk).setHeader headerContentType
    (h.context.server.getMimeType path.extension)).setHeader headerContentLength
      (numToStr (toInt32 path.size))

/-- `RequestGET::_openFile`.  The headers are set only when the file could be opened. -/
def openFileGET (sys : Sys) (h : Handler) : Handler :=
  let input := h.request.input.openAt sys h.context.world.fs h.request.path.str
  let h := { h with request := { h.request with input := input } }
  if input.isOpen then h.setFileHeaders else h.setStatusCode statusInternalServerError

/-- `RequestHEAD::_openFile`, which opens nothing: it sets the headers that GET sets for the file. -/
def openFileHEAD (h : Handler) : Handler := h.setFileHeaders

/-- `opendir`: the entries of a directory, when the kernel lets the program see them. -/
def opendir (sys : Sys) (fs : FileSystem) (path : Bytes) : Option (List Bytes) :=
  if sys.opendirFails (cstr path) then none
  else
    match fs.node (cstr path) with
    | some n => match n.kind with | .directory entries => some entries | _ => none
    | none => none

/-- `RequestGET::_openDir`: the head of the page is the first part of the body. -/
def openDirGET (sys : Sys) (h : Handler) : Handler :=
  let directory := opendir sys h.context.world.fs h.request.path.str
  let h := { h with request := { h.request with directory := directory } }
  if directory.isSome then
    ((h.setStatusCode statusOk).setHeader headerContentType (bytes "text/html")).setBody
      (indexof h.context.target)
  else h.setStatusCode statusInternalServerError

/-- `RequestHEAD::_openDir`, which opens nothing either, and sets the status and the type of a listing. -/
def openDirHEAD (h : Handler) : Handler :=
  (h.setStatusCode statusOk).setHeader headerContentType (bytes "text/html")

/-- The `_validateLocalFile` of GET and HEAD: `serve` is what is done with a regular file, and
`finish` what HEAD does before it returns `REQ_DONE`. -/
def validateLocalFile (serve finish : Handler → Handler) (sys : Sys) (h : Handler) :
    Ret × Handler :=
  match h.request.path.stat sys h.context.world.fs with
  | none => (.reqDone, finish (h.setStatusCode statusInternalServerError))
  | some path =>
    let h := h.setPath path
    if ¬ path.access h.context.world.fs .read then
      (.reqDone, finish (h.setStatusCode statusForbidden))
    else if path.isFile then (.reqDone, finish (serve h))
    else (.reqContinue, h)

/-- `RequestGET::_validateLocalFile`: a regular file is given to its CGI, if there is one, and opened
otherwise. -/
def validateLocalFileGET (sys : Sys) : Handler → Ret × Handler :=
  validateLocalFile
    (fun h => match h.request.cgiPath with
      | some _ => openCGI sys h
      | none => openFileGET sys h) id sys

/-- `RequestHEAD::_validateLocalFile`: the same tests; the CGI is not asked for. -/
def validateLocalFileHEAD (sys : Sys) : Handler → Ret × Handler :=
  validateLocalFile openFileHEAD (fun h => h.setState RequestState.setWorkInComplete) sys

/-- The first index that exists: the loop of `_fetchIndexes`.  The later ones are not looked at. -/
def findIndex (fs : FileSystem) (path : Path) (indexes : List Bytes) : Option Bytes :=
  (indexes.map fun index => path.concat (Path.ofString index)).find? fun test =>
    fs.access test .exists

/-- `_fetchIndexes` of GET and HEAD: the path becomes that of the index, which is then validated like any
other. -/
def fetchIndexes (h : Handler) : Option Handler :=
  (findIndex h.context.world.fs h.request.path h.rule.indexes).map fun test =>
    h.setPath (Path.ofString test)

/-- The directory listing, or the refusal: the end of `processing`. -/
def listDirectory (openDir : Handler → Handler) (h : Handler) : Handler :=
  if h.rule.isDirListing then openDir h else h.setStatusCode statusForbidden

/-- `processing` of GET and HEAD: a file, the redirection of a directory without its slash, an index, or a
listing. -/
def processFile (validate : Handler → Ret × Handler) (openDir : Handler → Handler) (h : Handler) :
    Handler :=
  if ¬ h.request.path.access h.context.world.fs .exists then h.setStatusCode statusNotFound
  else
    match validate h with
    | (.reqContinue, h) =>
      if ¬ h.request.path.isDir then h.setStatusCode statusConflict
      else if ¬ h.request.path.isDirFormat then
        (h.setStatusCode statusMovedPermanently).setHeader headerLocation
          (h.context.target ++ [slash] ++ h.context.queries.originalQueryLine)
      else
        match h.fetchIndexes with
        | some h =>
          match validate h with
          | (.reqContinue, h) => listDirectory openDir h
          | (_, h) => h
        | none => listDirectory openDir h
    | (_, h) => h

/-- `RequestGET::processing`, the common walk with what GET does for a file and for a directory. -/
def processingGET (sys : Sys) : Handler → Handler :=
  processFile (validateLocalFileGET sys) (openDirGET sys)

/-- `RequestHEAD::processing`, the same walk with what HEAD does. -/
def processingHEAD (sys : Sys) : Handler → Handler :=
  processFile (validateLocalFileHEAD sys) openDirHEAD

/-- `RequestDELETE::processing`: a directory is not removed, and neither is what the program may not write. -/
def processingDELETE (sys : Sys) (h : Handler) : Handler :=
  let fs := h.context.world.fs
  if ¬ h.request.path.access fs .exists then h.setStatusCode statusNotFound
  else
    match h.request.path.stat sys fs with
    | none => h.setStatusCode statusInternalServerError
    | some path =>
      let h := h.setPath path
      if path.isDir then h.setStatusCode statusConflict
      else if ¬ path.access fs .write then h.setStatusCode statusForbidden
      else
        let removed := sys.remove fs path.str
        let h := { h with context := h.context.setFs removed.2 }
        h.setStatusCode (if removed.1 then statusNoContent else statusInternalServerError)

/-! ## Uploads -/

/-- `_checkHeaders` of POST and PUT.  A `Content-Length` goes before a `Transfer-Encoding`; a length of 0 is
answered at once. -/
def checkHeaders (h : Handler) : Ret × Handler :=
  match h.context.headers.find? headerContentLength with
  | none =>
    match h.context.headers.find? headerTransferEncoding with
    | none => (.reqDone, h.setStatusCode statusLengthRequired)
    | some coding =>
      if coding ≠ headerTransferChunke then (.reqDone, h.setStatusCode statusUnsupportedMediaType)
      else (.reqContinue, { h with request := { h.request with
        chunked := true, contentLength := -1 } })
  | some value =>
    let h := h.setContentLength (sToContentLength value false)
    if h.request.contentLength = contentLengthInvalid then
      (.reqDone, h.setStatusCode statusBadRequest)
    else if h.request.contentLength = contentLengthTooLarge ∨
        h.request.contentLength > h.maxBodySize then
      (.reqDone, h.setStatusCode statusPayloadTooLarge)
    else if h.request.contentLength = 0 then (.reqDone, h.setStatusCode statusNoContent)
    else (.reqContinue, h)

/-- Whether the temporary directory can be used for an upload to `upload`: `rename` works within a device
only. -/
def isTempUsable (sys : Sys) (fs : FileSystem) (upload temp : Path) : Bool :=
  match temp.stat sys fs with
  | none => false
  | some temp => temp.isDir && temp.access fs .write && upload.deviceID = temp.deviceID

/-- The checks of an upload, once its path is known: the directory of the target, the target, the temporary
directory. -/
def checkUpload (sys : Sys) (h : Handler) : Handler :=
  let fs := h.context.world.fs
  let path := h.request.path
  let temp := h.rule.bodyTempPath
  if ¬ path.dir.access fs .exists then h.setStatusCode statusNotFound
  else
    match path.dir.stat sys fs with
    | none => h.setStatusCode statusInternalServerError
    | some upload =>
      let isDirectory :=
        path.access fs .exists && match path.stat sys fs with | some p => p.isDir | none => false
      if isDirectory ∨ ¬ upload.isDir then h.setStatusCode statusConflict
      else if ¬ upload.access fs .write then h.setStatusCode statusForbidden
      else if h.rule.hasClientBodyTempPath ∧ upload.str ≠ temp.str ∧
          ¬ isTempUsable sys fs upload temp then
        h.setStatusCode statusInternalServerError
      else openFile sys h

/-- `clientBodyUploadPath().string() + target.substr(matchLength)`.  The target is appended as it came,
without decoding. -/
def uploadPath (loc : LocationBlock) (target : Bytes) : Path :=
  Path.ofString (loc.clientBodyUploadPath.str ++ target.drop loc.matchLength)

/-- The upload of POST and PUT.  `substr` does not throw: the constructor took the same one. -/
def upload (sys : Sys) (h : Handler) : Handler :=
  if h.request.path.isDirFormat then h.setStatusCode statusConflict
  else if ¬ h.rule.canUpload then h.setStatusCode statusMethodNotAllowed
  else checkUpload sys (h.setPath (uploadPath h.rule h.context.target))

/-- `RequestPOST::processing`: the one class that runs a CGI with a body. -/
def processingPOST (sys : Sys) (h : Handler) : Handler :=
  match checkHeaders h with
  | (.reqContinue, h) =>
    match h.request.cgiPath with
    | some _ => openCGI sys (h.setState RequestState.setWorkInComplete)
    | none => upload sys (h.setState RequestState.setCgiInComplete)
  | (_, h) => h.setState fun x => x.setCgiInComplete.setCgiOutComplete

/-- `RequestPUT::processing`: always an upload, also where the extension is that of a CGI. -/
def processingPUT (sys : Sys) (h : Handler) : Handler :=
  match checkHeaders h with
  | (.reqContinue, h) => upload sys h
  | (_, h) => h

/-- `processing`: what a request does as soon as its head has been read. -/
def processing (sys : Sys) (h : Handler) : Handler :=
  match h.request.kind with
  | .get => processingGET sys h
  | .post => processingPOST sys h
  | .delete => processingDELETE sys h
  | .put => processingPUT sys h
  | .head => processingHEAD sys h

/-! ## Directory listings -/

/-- `bytesToUnit`: the size of a file, cut to a whole number of the largest unit. -/
def bytesToUnit (n : Int) : Bytes :=
  if n ≥ 1073741824 then numToStr (toInt32 (n / 1073741824)) ++ bytes " GB"
  else if n ≥ 1048576 then numToStr (toInt32 (n / 1048576)) ++ bytes " MB"
  else if n ≥ 1024 then numToStr (toInt32 (n / 1024)) ++ bytes " KB"
  else numToStr (toInt32 n) ++ bytes " B"

/-- The name shown for an entry; a long one is cut, while the link has all of it. -/
def entryName (name : Bytes) : Bytes :=
  if name.length > 23 then name.take 20 ++ bytes "..." else name

/-- The row of an entry.  The link is made of the `Host` header and the target. -/
def entryRow (sys : Sys) (h : Handler) (name : Bytes) : Bytes :=
  let path := (h.context.headers.find? headerHost).getD [] ++ h.context.target ++ name
  match (Path.ofString (h.request.path.str ++ name)).stat sys h.context.world.fs with
  | none => htmlWeird path (entryName name)
  | some entry =>
    let time := sys.strftime entry.mTime
    if entry.isDir then htmlDir path (entryName name) time
    else if entry.isFile then
      htmlFile path (entryName name) time (space :: bytesToUnit entry.size)
    else htmlOther path (entryName name) time

/-- How a batch of entries ends: at its size, at the end of the directory, or at an error. -/
inductive Batch where
  | full (entries : List Bytes)
  | last
  | failed

/-- The loop of `_readDir`: `count` entries are in the batch, and `readdir` was called `n` times. -/
def readEntries (row : Bytes → Bytes) (fails : Nat → Bool) :
    List Bytes → Nat → Nat → Bytes → Bytes × Batch
  | entries, count, n, buffer =>
    if count ≥ reqDirBufferSize then (buffer, .full entries)
    else if fails n then (buffer, .failed)
    else
      match entries with
      | [] => (buffer, .last)
      | name :: entries =>
        if name = [dot] then readEntries row fails entries count (n + 1) buffer
        else readEntries row fails entries (count + 1) (n + 1) (buffer ++ row name)

/-- The listing so far goes to the client, as a C string. -/
def sendListing (h : Handler) : Handler :=
  let ctx := h.context.appendResponse (cstr h.context.response.body)
  { h with context := { ctx with response := ctx.response.clearBody } }

/-- `response.addBody(body)`. -/
def addBody (h : Handler) (body : Bytes) : Handler :=
  { h with context := { h.context with response := h.context.response.addBody body } }

/-- `RequestGET::_readDir`: the next batch, and the foot of the page after the last. -/
def readDir (sys : Sys) (h : Handler) : Ret × Handler :=
  match h.request.directory with
  | none => (.throws .nullPointer, h)
  | some entries =>
    match readEntries (entryRow sys h) sys.readdirFails entries 0 0 [] with
    | (_, .failed) => (.reqError, h.setStatusCode statusInternalServerError)
    | (buffer, .full entries) =>
      let h := { h with request := { h.request with directory := some entries } }
      (.reqContinue, (h.addBody buffer).sendListing)
    | (buffer, .last) =>
      let h := { h with request := { h.request with directory := some [] } }
      let h := ((h.addBody buffer).addBody htmlFooter).setState RequestState.setWorkOutComplete
      (.reqContinue, h.sendListing)

/-! ## Work -/

/-- `RequestGET::_readFile`: the next block of the file, or the end of it. -/
def readFile (h : Handler) : Ret × Handler :=
  let r := h.request.input.read reqBufferSize
  let h := { h with request := { h.request with input := r.2 } }
  if r.1 = [] then (.reqContinue, h.setState RequestState.setWorkOutComplete)
  else (.reqContinue, { h with context := h.context.appendResponse r.1 })

/-- `RequestGET::workOut`: the path tells whether a file or a directory is being sent. -/
def workOutGET (sys : Sys) (h : Handler) : Ret × Handler :=
  if h.request.path.isFileFormat then h.readFile
  else if h.request.path.isDirFormat then readDir sys h
  else (.reqError, h)

/-- The readers of POST and PUT, which the head has decided between. -/
def readBody (sys : Sys) (h : Handler) : Ret × Handler :=
  if h.request.chunked then readChunked sys h else readContent sys h

/-- `workIn`: POST and PUT read their body; the base class throws. -/
def workIn (sys : Sys) (h : Handler) : Ret × Handler :=
  match h.request.kind with
  | .post | .put => readBody sys h
  | .get | .delete | .head => (.throws .logicError, h)

/-- POST and PUT read their bodies alike. -/
theorem workIn_eq_readBody (sys : Sys) {h : Handler}
    (hkind : h.request.kind = .put ∨ h.request.kind = .post) : workIn sys h = readBody sys h := by
  unfold workIn
  rcases hkind with hput | hpost
  · rw [hput]
  · rw [hpost]

/-- `workOut`: GET reads its file or directory, POST has nothing to read; the base class throws. -/
def workOut (sys : Sys) (h : Handler) : Ret × Handler :=
  match h.request.kind with
  | .get => workOutGET sys h
  | .post => (.reqDone, h.setState RequestState.setWorkOutComplete)
  | .delete | .put | .head => (.throws .logicError, h)

/-- `CGIIn`: GET and POST read from their CGI; the base class throws. -/
def CGIIn (sys : Sys) (h : Handler) : Ret × Handler :=
  match h.request.kind with
  | .get | .post => readCGI sys h
  | .delete | .put | .head => (.throws .logicError, h)

/-- `CGIOut`: POST sends its body to its CGI; the base class throws, also for a GET. -/
def CGIOut (sys : Sys) (h : Handler) : Ret × Handler :=
  match h.request.kind with
  | .post => readBody sys h
  | .get | .delete | .put | .head => (.throws .logicError, h)

end Handler
end Webserv
