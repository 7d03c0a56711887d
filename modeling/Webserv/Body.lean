import Webserv.Context
import Webserv.BinaryBuffer

/-!
# Reading a request body

`ARequest-body.cpp`: the temporary file of an upload and the two body readers.  Both readers hand the unread
bytes to `writeChunk`, which sends them to the CGI or writes them to the file.

* `generateFilename`, `openFile`: the temporary file, under a random name.
* `publish`, `saveFile`: what happens when the body is complete.
* `writeChunk`: the sink of both readers.
* `readContent`: a body with a `Content-Length`.
* `readChunked`: a chunked body, a round of the loop at a time.

## Why the sink may see more bytes than there are

`_writeChunk` is given a size, and only the half of it that sends to a CGI uses the size.  The half that
writes to a file writes `_contentLength` bytes from the buffer, and the buffer may hold fewer.  What lies
beyond it is not the program's to say, and not the model's: `Sys.readMemory` gives the bytes of the buffer
and then whatever the memory holds, so that a theorem about every `Sys` covers every content of it.  A model
that stopped at the end of the buffer would have lost the error.

## Why there is fuel

The loop of `_readChunked` goes on while the buffer is not empty, and each round takes a byte off it or
returns.  `readChunkedLoop` has the number of rounds as an argument, and `readChunked` starts it with the
length of the buffer.  That this is enough is not assumed: `callWrites_readChunkedLoop` describes what the
loop does at the end of the buffer, and not at the end of the fuel.

## What a round is

A round has the three parts that the source marks with comments.  Each may return from the function, so a
round is an `Except`: an error is the answer of the call with the handler after it, and a value is the
handler for the next part.  The order of the three is that of the source.  A chunk that has been read to its
end leaves `_contentLength` at 0, and the next round begins with its line end; a size line that is not there
yet leaves it at `-1`.
-/

namespace Webserv
namespace Handler

/-! ## The temporary file -/

/-- The loop of `_generateFilename`: the first of `n` random names that no file has yet.  The test and the
use of the name are two calls. -/
def tryNames (sys : Sys) (fs : FileSystem) (basename : Bytes) : Nat → Nat → Option Bytes
  | 0, _ => none
  | n + 1, i =>
    let tmp := basename ++ dot :: sys.random i ++ bytes ".tmp"
    if fs.access tmp .exists then tryNames sys fs basename n (i + 1) else some tmp

/-- `ARequest::_generateFilename`: next to the target, or in the directory for temporary files.  After 100
names the upload is given up. -/
def generateFilename (sys : Sys) (h : Handler) : Ret × Handler :=
  let loc := h.rule
  let basename :=
    if loc.clientBodyUploadPath.str ≠ loc.bodyTempPath.str then
      loc.bodyTempPath.str ++ h.request.path.notdir
    else h.request.path.str
  match tryNames sys h.context.world.fs basename 100 0 with
  | none => (.reqDone, h.setStatusCode statusInternalServerError)
  | some tmp =>
    (.reqContinue, { h with request := { h.request with tmpFilename := Path.ofString tmp } })

/-- `std::ofstream::open` with `out | trunc`: the file system after it, when it succeeds.  A file that is
there loses its content. -/
def createFile (sys : Sys) (fs : FileSystem) (path : Bytes) : Option FileSystem :=
  if sys.createFails (cstr path) then none
  else
    match fs.node (cstr path) with
    | none => some (fs.update path (some { kind := .regular [] }))
    | some n =>
      match n.kind with
      | .regular _ =>
        if n.writable then some (fs.update path (some { n with kind := .regular [] })) else none
      | _ => none

/-- `ARequest::_openFile`.  A failure is answered with 500, and the request goes on without a file. -/
def openFile (sys : Sys) (h : Handler) : Handler :=
  match generateFilename sys h with
  | (.reqContinue, h) =>
    match createFile sys h.context.world.fs h.request.tmpFilename.str with
    | some fs =>
      { context := h.context.setFs fs, request := { h.request with file := { isOpen := true } } }
    | none => h.setStatusCode statusInternalServerError
  | (_, h) => h

/-! ## The end of a body -/

/-- `std::remove` of the target, `std::rename` of the temporary file, and the status they leave.  The
temporary name is removed in any case. -/
def publish (sys : Sys) (h : Handler) : Handler :=
  let path := h.request.path.str
  let tmp := h.request.tmpFilename.str
  let h := h.setStatusCode statusCreated
  let removed := sys.remove h.context.world.fs path
  let h :=
    if h.request.path.access h.context.world.fs .exists then
      let h := { h with context := h.context.setFs removed.2 }
      if removed.1 then h else h.setStatusCode statusInternalServerError
    else h
  let renamed := sys.rename h.context.world.fs tmp path
  let h := { h with context := h.context.setFs renamed.2 }
  let h := if renamed.1 then h else h.setStatusCode statusInternalServerError
  { h with context := h.context.setFs (sys.remove h.context.world.fs tmp).2 }

/-- `epoll_ctl` on the CGI socket, which fails for `-1` whatever the kernel would say. -/
def epollCtl (sys : Sys) (fd : Fd) : Bool := fd ≠ -1 && sys.epollCtl fd

/-- `ARequest::_saveFile`: for a CGI its socket is shut down for writing, for a file it is published. -/
def saveFile (sys : Sys) (h : Handler) : Ret × Handler :=
  match h.request.cgiPath with
  | some _ =>
    let fd := h.context.cgiSocket
    let h := { h with context := h.context.record (.shutdown fd) }
    let h := h.setStatusCode statusOk
    let h := { h with context := h.context.record (.epollCtl fd) }
    if epollCtl sys fd then (.reqContinue, h) else (.throws .runtimeError, h)
  | none =>
    let h := { h with request := { h.request with file := { h.request.file with isOpen := false } } }
    (.reqContinue, publish sys h)

/-! ## The sink -/

/-- `send` on the CGI socket: `-1` fails with `EBADF`.  What `send` did not take is not kept. -/
def sendCGI (sys : Sys) (h : Handler) (size : Nat) : Ret × Handler :=
  let fd := h.context.cgiSocket
  let unread := h.context.buffer
  match if fd = -1 then Send.error else sys.cgiSend h.context.world.calls.length with
  | .error =>
    (.reqError, { h with context := h.context.record (.send fd unread.length size []) })
  | .accepted n =>
    let sent := sys.readMemory unread (min n size)
    (.reqContinue, { h with context := h.context.record (.send fd unread.length size sent) })

/-- `std::ofstream::write` of `n` bytes from the buffer, and past its end when it is shorter. -/
def writeFile (sys : Sys) (h : Handler) (n : Int) : Handler :=
  if h.request.file.isOpen then
    let data := sys.readMemory h.context.buffer n.toNat
    { context := h.context.setFs (h.context.world.fs.append h.request.tmpFilename.str data)
      request := { h.request with
        file := { h.request.file with written := h.request.file.written ++ data } } }
  else h

/-- `ARequest::_writeChunk`.  The size is used for the CGI; the file gets `_contentLength` bytes. -/
def writeChunk (sys : Sys) (h : Handler) (size : Nat) : Ret × Handler :=
  match h.request.cgiPath with
  | some _ => sendCGI sys h size
  | none => (.reqContinue, writeFile sys h h.request.contentLength)

/-! ## The readers -/

/-- `SET_REQ_WORK_IN_COMPLETE` and `SET_REQ_CGI_OUT_COMPLETE`: the body is done with.  Neither flag keeps
the readers from being called again. -/
def endBody (h : Handler) : Handler :=
  h.setState fun x => x.setWorkInComplete.setCgiOutComplete

/-- `_cgiPath ?  REQ_CONTINUE : REQ_DONE`: with a CGI the response is not this call's to give. -/
def bodyRet (h : Handler) : Ret :=
  match h.request.cgiPath with
  | some _ => .reqContinue
  | none => .reqDone

/-- `response.setStatusCode(code)` and the end of the body: the two flags of the input are set, and the
readers return. -/
def refuseBody (h : Handler) (code : Nat) : Handler := (h.setStatusCode code).endBody

/-- `buffer.clear()`. -/
def clearBuffer (h : Handler) : Handler := { h with context := { h.context with buffer := [] } }

/-- `buffer.erase(0, len)`. -/
def eraseBuffer (h : Handler) (len : Nat) : Handler :=
  { h with context := { h.context with buffer := BinaryBuffer.erase h.context.buffer 0 len } }

/-- `_contentLength = n`. -/
def setContentLength (h : Handler) (n : Int) : Handler :=
  { h with request := { h.request with contentLength := n } }

/-- `_contentLength -= buffer.size()` and `buffer.clear()`, the subtraction in 32 bits. -/
def consumeBuffer (h : Handler) : Handler :=
  (h.setContentLength
    (toInt32 (h.request.contentLength - h.context.buffer.length))).clearBuffer

/-- `ARequest::_readContent`: a buffer that is longer than what is left of the body is refused. -/
def readContent (sys : Sys) (h : Handler) : Ret × Handler :=
  if toInt32 (h.request.contentLength - toInt32 h.context.buffer.length) ≥ 0 then
    match writeChunk sys h h.context.buffer.length with
    | (.reqError, h) => (.reqError, h)
    | (_, h) =>
      let h := h.consumeBuffer
      if h.request.contentLength = 0 then
        match saveFile sys h with
        | (.throws f, h) => (.throws f, h)
        | (_, h) => (h.endBody.bodyRet, h.endBody)
      else (.reqContinue, h)
  else (h.bodyRet, h.refuseBody statusBadRequest)

/-- `ARequest::_chunkTerminator`: the end of a chunked body, and the beginnings of it that are waited for. -/
def chunkTerminator : List Bytes :=
  [bytes "0\r\n\r\n", bytes "0\r\n\r", bytes "0\r\n", bytes "0\r", bytes "0"]

/-- `0 == buffer.compare(_chunkTerminator[i])`.  The shorter of the two decides how much is compared. -/
def isTerminator (buffer : Bytes) (i : Nat) : Bool :=
  BinaryBuffer.compare buffer (chunkTerminator.getD i []) = 0

/-- A round of the loop returns from `_readChunked` or goes on with the handler. -/
abbrev Round := Except (Ret × Handler) Handler

/-- `// Read end of chunk`: the line end after the data.  One byte that is no `\r` is refused, and `\r`
alone is waited with. -/
def readEndOfChunk (h : Handler) : Round :=
  let buffer := h.context.buffer
  if h.request.contentLength = 0 then
    if buffer.length ≥ 2 then
      match BinaryBuffer.rfind buffer crlf 0 with
      -- the one refusal that returns REQ_DONE with a CGI as well
      | none => throw (.reqDone, h.refuseBody statusBadRequest)
      | some pos => return (h.eraseBuffer (pos + 2)).setContentLength (-1)
    else if buffer.length = 1 ∧ buffer.head? ≠ some cr then
      throw (h.bodyRet, h.refuseBody statusBadRequest)
    else throw (.reqContinue, h)
  else return h

/-- `// Read end of transfer`: the chunk size is 0.  The buffer still has the size line in it. -/
def readEndOfTransfer (sys : Sys) (h : Handler) : Ret × Handler :=
  if isTerminator h.context.buffer 0 then
    match saveFile sys h.clearBuffer with
    | (.throws f, h) => (.throws f, h)
    | (_, h) => (h.endBody.bodyRet, h.endBody)
  else if (List.range' 1 4).any (isTerminator h.context.buffer) then
    (.reqContinue, h.setContentLength (-1))
  else (h.bodyRet, h.refuseBody statusBadRequest)

/-- `// Read chunk size`.  The limit is checked after the line was taken, against this size and against the
sum. -/
def readChunkSize (sys : Sys) (h : Handler) : Round :=
  if h.request.contentLength = -1 then
    match BinaryBuffer.find h.context.buffer crlf with
    | none => throw (.reqContinue, h)
    | some pos =>
      let line := BinaryBuffer.substr h.context.buffer 0 pos
      if line = [] then throw (h.bodyRet, h.refuseBody statusBadRequest)
      else
        let h := h.setContentLength (sToContentLength line true)
        if h.request.contentLength = contentLengthInvalid then
          throw (h.bodyRet, h.refuseBody statusBadRequest)
        else if h.request.contentLength = 0 then throw (readEndOfTransfer sys h)
        else
          let h := h.eraseBuffer (pos + 2)
          let h := { h with request := { h.request with
            contentTotalLength :=
              toInt32 (h.request.contentTotalLength + h.request.contentLength) } }
          if h.request.contentLength = contentLengthTooLarge ∨
              h.request.contentLength > h.maxBodySize ∨
              h.request.contentTotalLength > h.maxBodySize then
            throw (h.bodyRet, h.refuseBody statusPayloadTooLarge)
          else return h
  else return h

/-- `// Read chunk`: the data that is there, up to the end of the chunk. -/
def readChunk (sys : Sys) (h : Handler) : Round :=
  let size := h.context.buffer.length
  if toInt32 size > h.request.contentLength then
    match writeChunk sys h (toSize h.request.contentLength) with
    | (.reqError, h) => throw (.reqError, h)
    | (_, h) => return (h.eraseBuffer (toSize h.request.contentLength)).setContentLength 0
  else
    match writeChunk sys h size with
    | (.reqError, h) => throw (.reqError, h)
    | (_, h) => return h.consumeBuffer

/-- The body of the loop of `_readChunked`: the end of a chunk, a size line and data, each as far as it is
there. -/
def readRound (sys : Sys) (h : Handler) : Round := do
  let h ← readEndOfChunk h
  let h ← readChunkSize sys h
  readChunk sys h

/-- The loop of `_readChunked`, at most `n` rounds.  A round takes at least one byte, so that the length of
the buffer is enough. -/
def readChunkedLoop (sys : Sys) : Nat → Handler → Ret × Handler
  | 0, h => (.reqContinue, h)
  | n + 1, h =>
    if h.context.buffer = [] then (.reqContinue, h)
    else
      match readRound sys h with
      | .error r => r
      | .ok h => readChunkedLoop sys n h

/-- `ARequest::_readChunked`.  Every round takes a byte at least, so that the length of the buffer is
enough. -/
def readChunked (sys : Sys) (h : Handler) : Ret × Handler :=
  readChunkedLoop sys h.context.buffer.length h

end Handler
end Webserv
