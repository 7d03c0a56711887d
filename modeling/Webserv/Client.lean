import Webserv.Parse
import Webserv.Requests
import Webserv.Lib.Transition

/-!
# A client

`Client.cpp` and `Client-errorPages.cpp`, and what the event loop of the server does with one client: it
calls `handleIn` and `handleOut` on the two sockets and `timeoutCheck`, in whatever order the kernel reports
events, and drops the client after an answer other than `REQ_CONTINUE` on the client socket, or when an
exception ends the server.

* `Client.handleSocketIn`, `Client.handleSocketOut`, `Client.timeoutCheck`: the entry points.
* `Client.parseRequest`, `Client.resolveARequest`: from the head to the request object.
* `Client.prepareError`, `Client.loadErrorPage`: the error pages.
* `Client.sendResponse`: one `send`.
* `Event`, `step`, `run`: the client as a transition system.

## Why one client is a system

What is proved of a client is about every order of events: a byte that comes after the request, an error
that comes while a response is being sent, a timeout in between.  So the client is a state with a step, and
an event is a call that the server may make together with what the kernel answers during it.  Nothing is
assumed about the order, nor about the answers.  An event on the CGI socket does nothing when there is none,
since the server has no such socket in its table; a client that was dropped takes no step.  `environment` is
everything that others do to the file system, other clients of the server included, and it may come between
any two calls.  That the clients of the whole server behave like runs of this system is a theorem (in
`ServerClients`), so what is proved here of one client is proved of the program.

## What a step looks like

An entry point of the source is a chain of stages that may each return.  The definitions follow the chain:
`handleSocketIn` reads, `handleRead` parses, `handleRequest` works, `startResponse` ends it with the error
page, the head and the switch to writing.  A stage gives its answer and the client after it.  Two things
about the chain are easy to miss, and both are in the definitions.  The end of the chain is reached again by
every later event of the socket, because nothing in it asks whether a response is there; and the answer of
`workOut` is dropped by its caller, unless it is an exception.

## What is output

`output` is what was sent on the socket followed by what waits to be sent: the stream that the peer will
have received when nothing is lost.  Most statements about responses are about it.
-/

namespace Webserv

/-- `Client`: the sockets, the timestamps, the request object when there is one, and the context that both
share. -/
structure Client where
  connectSocket : Fd
  fd : Fd
  timestamp : Timeout → Int
  request : Option ARequest := none
  context : RequestContext
  errorPage : IStream := {}
  bytesSent : Nat := 0
  /-- The server has dropped the client. -/
  closed : Bool := false

namespace Client

/-- `Client::Client`, for a connection accepted at `now`.  The timestamps of the body and of the output are
the largest time until they are set. -/
def init (server : Server) (fs : FileSystem) (connectSocket fd : Fd) (now : Int) : Client where
  connectSocket := connectSocket
  fd := fd
  timestamp := fun
    | .clientHeader => now
    | .clientBody => timeMax
    | .send => timeMax
  context := { server := server, world := { fs := fs } }

variable (c : Client)

/-! ## Fields -/

/-- `_timestamp[type] = now`: the clock of one timeout starts anew. -/
def touch (type : Timeout) (now : Int) : Client :=
  { c with timestamp := fun t => if t = type then now else c.timestamp t }

def setStatusCode (code : Nat) : Client := { c with context := c.context.setStatusCode code }

def setState (f : RequestState → RequestState) : Client :=
  { c with context := c.context.setState f }

def setResponse (r : Response) : Client := { c with context := { c.context with response := r } }

/-- The client after a call on its request object.  The object works on the context of its client, by a
reference. -/
def withHandler (h : Handler) : Client := { c with context := h.context, request := some h.request }

/-- Whether the pending status is one that gets an error page, which is a question about its number only. -/
def hasError : Bool := isErrorCode c.context.response.statusCode

/-! ## Error pages -/

/-- The custom error page of the status, when it can be served: `_openErrorPage` up to `open`.  It has to be
a regular file that may be read. -/
def customErrorPage (sys : Sys) : Option Path :=
  match c.context.serverBlock with
  | none => none
  | some block =>
    match block.findErrorPage c.context.response.statusCode with
    | none => none
    | some path =>
      if ¬ path.access c.context.world.fs .exists then none
      else
        match path.stat sys c.context.world.fs with
        | none => none
        | some path =>
          if path.access c.context.world.fs .read ∧ path.isFile then some path else none

/-- `Client::_openErrorPage`: whether it returns `REQ_DONE`.  The size that is announced is that of the
`stat` before. -/
def openErrorPage (sys : Sys) : Bool × Client :=
  match c.customErrorPage sys with
  | none => (false, c)
  | some path =>
    let c := { c with errorPage := c.errorPage.openAt sys c.context.world.fs path.str }
    if c.errorPage.isOpen then
      (true, c.setResponse
        (c.context.response.setHeader headerContentLength (numToStr (toInt32 path.size))))
    else (false, c)

/-- The built-in page, which shows the status and its message. -/
def errorBody (code : Nat) : Bytes := htmlError (numToStr code) (statusCodeToMsg code)

/-- `Client::_loadErrorPage`: the custom page is left to be read later, the built-in one is the body at
once. -/
def loadErrorPage (sys : Sys) : Client :=
  match c.openErrorPage sys with
  | (true, c) => c
  | (false, c) =>
    let body := errorBody c.context.response.statusCode
    (c.setResponse ((c.context.response.setBody body).setHeader headerContentLength
      (numToStr (toInt32 body.length)))).setState RequestState.setWorkComplete

/-- `Client::_readErrorPage`: one block of the custom page, appended to what waits to be sent. -/
def readErrorPage : Client :=
  let r := c.errorPage.read reqBufferSize
  let c := { c with errorPage := r.2 }
  if r.1 = [] then c.setState RequestState.setWorkOutComplete
  else { c with context := c.context.appendResponse r.1 }

/-! ## The response -/

/-- `responseBuffer = response.response()` and `response.clearBody()`: an assignment, whatever was waiting. -/
def render : Client :=
  let ctx := c.context.render
  { c with context := { ctx with response := ctx.response.clearBody } }

/-- `Client::_switchToWrite`: the socket is watched for writing from here on.  A failing `epoll_ctl` throws.
-/
def switchToWrite (sys : Sys) : Ret × Client :=
  if sys.epollCtl c.fd then
    (.reqContinue, (c.setState RequestState.setCanWrite).touch .send sys.now)
  else (.throws .runtimeError, c)

/-- The bytes that one `send` takes off the response buffer.  The clock of the sending starts anew when it
took any. -/
def takeResponse (sys : Sys) (n : Nat) : Client :=
  let c := if n > 0 then c.touch .send sys.now else c
  let ctx := c.context
  { c with
    bytesSent := c.bytesSent + n
    context := { ctx with
      responseBuffer := BinaryBuffer.erase ctx.responseBuffer 0 n
      world := { ctx.world with sent := ctx.world.sent ++ ctx.responseBuffer.take n } } }

/-- `// nothing left`: `REQ_DONE` when the buffer is empty and all work is complete. -/
def sendRet : Ret :=
  if c.context.responseBuffer = [] ∧ c.context.requestState.isWorkComplete then .reqDone
  else .reqContinue

/-- `Client::_sendResponse`: one `send`, of at most a block. -/
def sendResponse (sys : Sys) : Ret × Client :=
  let size := min reqBufferSize c.context.responseBuffer.length
  if size > 0 then
    match sys.send with
    | .error => (.reqError, c)
    | .accepted n =>
      let c := c.takeResponse sys (min n size)
      (c.sendRet, c)
  else (c.sendRet, c)

/-! ## Finding the request -/

/-- The class that `_requestsBuilder` creates; for no method there is none. -/
def requestKind : Method → Option RequestKind
  | .get => some .get
  | .post => some .post
  | .delete => some .delete
  | .put => some .put
  | .head => some .head
  | .invalMethod | .undefined => none

/-- `// add to epoll`, and the answer of `_resolveARequest`: `REQ_DONE` only while no status is set. -/
def registerCGI (sys : Sys) : Ret :=
  if c.context.cgiSocket ≠ -1 ∧ ¬ sys.epollCtl c.context.cgiSocket then .throws .runtimeError
  else if c.context.cgiSocket ≠ -1 ∧ ¬ sys.addCGI then .reqError
  else if c.context.response.statusCode ≠ statusNone then .reqContinue
  else .reqDone

/-- The request object is created and processed: the end of `_resolveARequest`.  An exception of the
constructor is not caught. -/
def startRequest (sys : Sys) : Ret × Client :=
  match requestKind c.context.method with
  | none => (.reqContinue, c.setStatusCode statusInternalServerError)
  | some kind =>
    match createRequest kind c.context with
    | .error fault => (.throws fault, c)
    | .ok h =>
      let c := c.withHandler (h.processing sys)
      (c.registerCGI sys, c)

/-- A redirection: the response is ready, and nothing is left to do. -/
def redirect (redirection : Nat × Bytes) : Client :=
  (c.setResponse ((c.context.response.setStatusCode redirection.1).setHeader headerLocation
    redirection.2)).setState RequestState.setWorkComplete

/-- `Client::_resolveARequest`: the block by the name and the socket, the location by the target, and what
the location allows. -/
def resolveARequest (sys : Sys) : Ret × Client :=
  let host := (c.context.headers.find? headerHost).getD []
  match c.context.server.findServerBlock c.connectSocket host with
  | none => (.throws .outOfRange, c)
  | some block =>
    let rule := block.findLocationBlock (Path.ofString c.context.target)
    let c := { c with context := { c.context with serverBlock := some block, ruleBlock := rule } }
    match rule with
    | none => (.reqContinue, c.setStatusCode statusNotFound)
    | some loc =>
      if loc.root.isEmpty then (.reqContinue, c.setStatusCode statusNotFound)
      else if ¬ loc.isAllowed c.context.method then
        (.reqContinue, c.setStatusCode statusMethodNotAllowed)
      else if loc.redirection.1 ≠ statusNone then (.reqDone, c.redirect loc.redirection)
      else c.startRequest sys

/-- `Client::_parseRequest`: once the head is there, the request is resolved, unless it was refused. -/
def parseRequest (sys : Sys) : Ret × Client :=
  match c.context.parseHead with
  | (.reqDone, ctx) =>
    let c := { c with context := ctx }
    if c.context.response.statusCode = statusNone then
      match c.resolveARequest sys with
      | (.reqContinue, c) => (.reqDone, c.setState RequestState.setWorkInComplete)
      | r => r
    else (.reqDone, c.setState RequestState.setWorkInComplete)
  | (ret, ctx) => (ret, { c with context := ctx })

/-! ## Events on the client socket -/

/-- `Client::_readSocket`.  Bytes that come after the head start the clock of the body anew. -/
def readSocket (sys : Sys) : Ret × Client :=
  match sys.recv with
  | .closed => (.reqDone, c)
  | .error => (.reqError, c)
  | .data packet =>
    let c := { c with context := { c.context with buffer := c.context.buffer ++ packet.bytes } }
    (.reqContinue,
      if c.context.requestState.isClientReadComplete then c.touch .clientBody sys.now else c)

/-- The error page of `_handleSocketIn`, prepared for every status that is an error's. -/
def prepareError (sys : Sys) : Client :=
  if c.hasError then
    (c.setResponse (c.context.response.setHeader headerContentType (bytes "text/html"))).loadErrorPage
      sys
  else c

/-- The end of `_handleSocketIn`: the error page, the head, and the switch to writing.  Every event that
comes so far goes through it again. -/
def startResponse (sys : Sys) : Ret × Client :=
  let c := c.prepareError sys
  let c := if c.context.requestState.isCgiInComplete then c.render else c
  c.switchToWrite sys

/-- `// Handle request`, and the rest of `_handleSocketIn`: the body is read until the work on the socket is
complete. -/
def handleRequest (sys : Sys) : Ret × Client :=
  match c.request with
  | none => c.startResponse sys
  | some request =>
    if c.context.requestState.isWorkInComplete then c.startResponse sys
    else
      let c := c.touch .clientBody sys.now
      match Handler.workIn sys ⟨c.context, request⟩ with
      | (.reqDone, h) => (c.withHandler h).startResponse sys
      | (ret, h) => (ret, c.withHandler h)

/-- `_handleSocketIn` once the socket has been read: the head first, and the rest of the handler when the
head is done with. -/
def handleRead (sys : Sys) : Ret × Client :=
  if c.context.requestState.isClientReadComplete then c.handleRequest sys
  else
    match c.parseRequest sys with
    | (.reqDone, c) => c.handleRequest sys
    | r => r

/-- `Client::_handleSocketIn`: it reads as long as the request may still be read, and goes on in any case. -/
def handleSocketIn (sys : Sys) : Ret × Client :=
  if c.context.requestState.isReadComplete then c.handleRead sys
  else
    match c.readSocket sys with
    | (.reqContinue, c) => c.handleRead sys
    | r => r

/-- The work before `_sendResponse` in `_handleSocketOut`.  Its answer is not looked at. -/
def produce (sys : Sys) : Ret × Client :=
  if c.context.requestState.isWorkOutComplete then (.reqContinue, c)
  else if c.hasError then (.reqContinue, c.readErrorPage)
  else
    match c.request with
    | none => (.reqContinue, c)
    | some request =>
      match Handler.workOut sys ⟨c.context, request⟩ with
      | (.throws fault, h) => (.throws fault, c.withHandler h)
      | (_, h) => (.reqContinue, c.withHandler h)

/-- `Client::_handleSocketOut`: something is produced, and then something is sent. -/
def handleSocketOut (sys : Sys) : Ret × Client :=
  match c.produce sys with
  | (.reqContinue, c) => c.sendResponse sys
  | r => r

/-! ## Events on the CGI socket -/

/-- `Client::_handleCGIIn`.  The socket is in the table of the server only with a request object. -/
def handleCGIIn (sys : Sys) : Ret × Client :=
  match c.request with
  | none => (.throws .nullPointer, c)
  | some request =>
    let r := Handler.CGIIn sys ⟨c.context, request⟩
    (r.1, c.withHandler r.2)

/-- `Client::_handleCGIOut`, which does not ask whether there is a request object. -/
def handleCGIOut (sys : Sys) : Ret × Client :=
  match c.request with
  | none => (.throws .nullPointer, c)
  | some request =>
    let r := Handler.CGIOut sys ⟨c.context, request⟩
    (r.1, c.withHandler r.2)

/-! ## Timeouts -/

/-- `now - _timestamp[type] >= getTimeout(type)`, for a timeout that is on.  A clock that was never started
is far in the future. -/
def timedOut (type : Timeout) (now : Int) : Bool :=
  c.context.server.getTimeout type ≠ 0 &&
    now - c.timestamp type ≥ c.context.server.getTimeout type

/-- The condition of the first branch of `timeoutCheck`. -/
def headerTimeout (now : Int) : Bool :=
  !c.context.requestState.isReadHeadersComplete && c.timedOut .clientHeader now

/-- The condition of the second branch: a part of the input is not complete, and its time is over. -/
def bodyTimeout (now : Int) : Bool :=
  (!c.context.requestState.isWorkInComplete || !c.context.requestState.isCgiOutComplete) &&
    c.timedOut .clientBody now

/-- The condition of the third branch: the output is watched for, and its time is over. -/
def sendTimeout (now : Int) : Bool :=
  c.context.requestState.isCanWrite && c.timedOut .send now

/-- `!_request || !_request->CGISilent()`: a client without a request counts as one that was answered. -/
def hasSpoken : Bool := match c.request with | none => true | some request => !request.cgiSilent

/-- What the three branches of `timeoutCheck` do once the status is set. -/
def respondTimeout (sys : Sys) : Ret × Client :=
  let c := c.setState fun x => x.setWorkComplete.unsetWorkOutComplete
  ((c.loadErrorPage sys).render).switchToWrite sys

/-- `Client::timeoutCheck`: the first timeout that has passed decides; only the last one drops the client
without an answer. -/
def timeoutCheck (sys : Sys) : Ret × Client :=
  if c.headerTimeout sys.now then
    ((c.setStatusCode statusRequestTimeout).setState RequestState.setReadComplete).respondTimeout sys
  else if c.bodyTimeout sys.now then (c.setStatusCode statusRequestTimeout).respondTimeout sys
  else if c.sendTimeout sys.now then
    if c.hasSpoken then (.reqDone, c)
    else
      ((c.setResponse c.context.response.clear).setStatusCode statusGatewayTimeout).respondTimeout sys
  else (.reqContinue, c)

end Client

/-! ## The client as a transition system -/

/-- What can happen to a client.  Each call into it comes with the answers of the kernel. -/
inductive Event where
  | clientIn (sys : Sys)
  | clientOut (sys : Sys)
  | cgiIn (sys : Sys)
  | cgiOut (sys : Sys)
  | timeoutCheck (sys : Sys)
  /-- Another process changes the file system. -/
  | environment (fs : FileSystem)

namespace Client

/-- `Server::routine` and `_checkClientsTimeout` after a call for the client: any answer other than
`REQ_CONTINUE` drops it. -/
def settle (r : Ret × Client) : Client := { r.2 with closed := r.1 ≠ .reqContinue }

/-- The same for the CGI socket: `_removeConnection` refuses it, so that only an exception ends the
client. -/
def settleCGI (r : Ret × Client) : Client :=
  { r.2 with closed := match r.1 with | .throws _ => true | _ => false }

/-- One event.  A client that was dropped stays as it is, and so does one without a CGI on an event of its
socket. -/
def step (c : Client) (e : Event) : Client :=
  if c.closed then c
  else
    match e with
    | .clientIn sys => settle (c.handleSocketIn sys)
    | .clientOut sys => settle (c.handleSocketOut sys)
    | .cgiIn sys => if c.context.cgiSocket = -1 then c else settleCGI (c.handleCGIIn sys)
    | .cgiOut sys => if c.context.cgiSocket = -1 then c else settleCGI (c.handleCGIOut sys)
    | .timeoutCheck sys => settle (c.timeoutCheck sys)
    | .environment fs => { c with context := c.context.setFs fs }

/-- The client after a list of events.  What can be reached by such a list is what the theorems about runs
are about. -/
abbrev run (c : Client) (es : List Event) : Client := Transition.run step c es

/-- The bytes sent on the client socket, and the bytes that wait to be sent. -/
def output (c : Client) : Bytes := c.context.world.sent ++ c.context.responseBuffer

end Client
end Webserv
