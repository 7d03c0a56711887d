import Webserv.Location

/-!
# The state of a request

The request context is what a client and its request object share: the flags of `RequestContext.hpp`, the
unread bytes, the parsed head, the response and the bytes to send.  `Handler` is a request object with the
context it refers to; its operations return the handler after the call and the answer of the call.

* `RequestState`: the flags, one for each bit that the program tests.
* `Ret`: the answers of a call, of which an exception is one.
* `World`: the file system, and the record of what was done.
* `RequestContext`, `ARequest`, `Handler`: the two objects and the pair of them.

## Why the flags are a structure

In the source the state is a word with masks, and a mask of several bits is complete when all of them are
set.  A structure with a field for each bit says the same and needs no bit arithmetic in a proof.  The masks
of several bits are conjunctions: `0x3` for the head that has been read, `0x7` for the request that is not
read any further, `0xF0` for the work that is done.  The bit `0x200`, for a response that has been written,
is left out: nothing sets it.

## Why there is a record

What is proved of this program is mostly about what it did: which bytes went to a socket, how often a CGI
was started, which responses were put together.  The state of a request forgets most of it.  `World`
therefore has, next to the file system, fields that are only written: the bytes that `send` took, the
responses that were put in `responseBuffer`, the calls on the CGI socket, the sockets that `_openCGI` opened
and the child's end that it left open.  Nothing that the program does depends on them.  Two definitions look
at them for the model's own sake: the number of calls made so far picks the answer of the kernel to the next
one, and a child's end that was left open goes into the table of descriptors of the server.

## Why an exception is an answer

The operations throw `std::logic_error`, `std::out_of_range` and `std::runtime_error`, and no caller inside
a client catches them.  So an exception is a fourth value of `Ret`, and every caller passes it on; what
happens to it is decided in the loop of the server.
-/

namespace Webserv

/-! ## Flags -/

/-- `requestState`, a bit each for the masks `0x1`, `0x2`, `0x4`, `0x10`, `0x20`, `0x40`, `0x80`, `0x100`
and `0x400`. -/
structure RequestState where
  requestLine : Bool := false
  headers : Bool := false
  read : Bool := false
  workIn : Bool := false
  workOut : Bool := false
  cgiIn : Bool := false
  cgiOut : Bool := false
  canWrite : Bool := false
  cgiHeaders : Bool := false
  deriving DecidableEq

namespace RequestState

variable (x : RequestState)

def isReadRequestLineComplete : Bool := x.requestLine
def isReadHeadersComplete : Bool := x.headers
/-- Mask `0x3`: the head of the request has been read. -/
def isClientReadComplete : Bool := x.requestLine && x.headers
/-- Mask `0x7`: nothing more is read.  It is set on a refusal and on a timeout only. -/
def isReadComplete : Bool := x.requestLine && x.headers && x.read
def isWorkInComplete : Bool := x.workIn
def isWorkOutComplete : Bool := x.workOut
def isCgiInComplete : Bool := x.cgiIn
def isCgiOutComplete : Bool := x.cgiOut
/-- Mask `0xF0`: nothing is left to do on any of the sockets. -/
def isWorkComplete : Bool := x.workIn && x.workOut && x.cgiIn && x.cgiOut
def isCanWrite : Bool := x.canWrite
def isCgiHeadersComplete : Bool := x.cgiHeaders

def setReadRequestLineComplete : RequestState := { x with requestLine := true }
def setReadHeadersComplete : RequestState := { x with headers := true }
def setReadComplete : RequestState := { x with requestLine := true, headers := true, read := true }
def setWorkInComplete : RequestState := { x with workIn := true }
def setWorkOutComplete : RequestState := { x with workOut := true }
def setCgiInComplete : RequestState := { x with cgiIn := true }
def setCgiOutComplete : RequestState := { x with cgiOut := true }
def setWorkComplete : RequestState :=
  { x with workIn := true, workOut := true, cgiIn := true, cgiOut := true }
def setCanWrite : RequestState := { x with canWrite := true }
def setCgiHeadersComplete : RequestState := { x with cgiHeaders := true }
def unsetWorkOutComplete : RequestState := { x with workOut := false }
def unsetCgiInComplete : RequestState := { x with cgiIn := false }

end RequestState

/-! ## Answers -/

/-- The exceptions, and the undefined behaviour that is not passed over, such as a null pointer that is
followed. -/
inductive Fault where
  | logicError | runtimeError | outOfRange | nullPointer
  deriving DecidableEq

/-- `error_t`: `REQ_CONTINUE`, `REQ_DONE`, `REQ_ERROR`; an exception is a fourth answer, which
every caller passes on. -/
inductive Ret where
  | reqContinue | reqDone | reqError
  | throws (fault : Fault)
  deriving DecidableEq

/-! ## The world -/

/-- A call on `cgiSockets[PARENT_SOCKET]`, as the record keeps it: the descriptor, what was asked for, and
for `send` the bytes that were taken. -/
inductive CgiCall where
  /-- `send` of `len` bytes of a buffer that holds `unread`, and the bytes that went out. -/
  | send (fd : Fd) (unread len : Nat) (sent : Bytes)
  | shutdown (fd : Fd)
  | recv (fd : Fd)
  | epollCtl (fd : Fd)
  deriving DecidableEq

def CgiCall.fd : CgiCall → Fd
  | .send fd _ _ _ => fd
  | .shutdown fd => fd
  | .recv fd => fd
  | .epollCtl fd => fd

/-- What a client acts on, and the record of what it did.  The program reads the file system of it only. -/
structure World where
  fs : FileSystem
  /-- The bytes that `send` took on the client socket. -/
  sent : Bytes := []
  /-- The responses whose head was put in `responseBuffer`, in order. -/
  heads : List Response := []
  /-- The calls on the CGI socket, in order. -/
  calls : List CgiCall := []
  /-- The parent's ends that `_openCGI` opened. -/
  opened : List Fd := []
  /-- `cgiSockets[CHILD_SOCKET]`, while this process has it open. -/
  childEnd : Option Fd := none

/-! ## The context -/

/-- `RequestContext_t`, with the world as one more field: in the source the handlers reach the file system
and the sockets by calls, here they are given and returned. -/
structure RequestContext where
  server : Server
  serverBlock : Option ServerBlock := none
  ruleBlock : Option LocationBlock := none
  /-- `cgiSockets[PARENT_SOCKET]`. -/
  cgiSocket : Fd := -1
  pid : Int := -1
  requestState : RequestState := {}
  buffer : Bytes := []
  method : Method := .undefined
  target : Bytes := []
  protocolVersion : Bytes := []
  queries : Queries := Queries.empty
  headers : StringMap := OrderedMap.empty
  response : Response := Response.init
  responseBuffer : Bytes := []
  world : World

namespace RequestContext

variable (ctx : RequestContext)

/-- `response.setStatusCode(code)`. -/
def setStatusCode (code : Nat) : RequestContext :=
  { ctx with response := ctx.response.setStatusCode code }

/-- An update of `requestState`. -/
def setState (f : RequestState → RequestState) : RequestContext :=
  { ctx with requestState := f ctx.requestState }

/-- `responseBuffer = response.response()`: an assignment, which drops what was waiting to be sent. -/
def render : RequestContext :=
  { ctx with
    responseBuffer := ctx.response.response
    world := { ctx.world with heads := ctx.world.heads ++ [ctx.response] } }

/-- `responseBuffer.append(data)`: the one way that keeps what was waiting. -/
def appendResponse (data : Bytes) : RequestContext :=
  { ctx with responseBuffer := ctx.responseBuffer ++ data }

/-- One more call on the CGI socket, after those that are in the record. -/
def record (call : CgiCall) : RequestContext :=
  { ctx with world := { ctx.world with calls := ctx.world.calls ++ [call] } }

def setFs (fs : FileSystem) : RequestContext := { ctx with world := { ctx.world with fs := fs } }

/-- `*ruleBlock`; a request object exists only when there is one, so that the default is never met. -/
def rule : LocationBlock := ctx.ruleBlock.getD {}

end RequestContext

/-! ## The request object -/

/-- The class of a request object: `RequestGET` and so on.  The virtual functions are matches on it. -/
inductive RequestKind where
  | get | post | delete | put | head
  deriving DecidableEq

/-- `ARequest` and the fields of its classes, which are one structure with the class as a field. -/
structure ARequest where
  kind : RequestKind
  path : Path
  cgiPath : Option Path
  file : OStream := {}
  tmpFilename : Path := {}
  chunked : Bool := false
  contentLength : Int := 0
  contentTotalLength : Int := 0
  readBuffer : Bytes := []
  cgiSilent : Bool := true
  /-- `RequestGET::_file`. -/
  input : IStream := {}
  /-- `RequestGET::_dir`: the entries not read. -/
  directory : Option (List Bytes) := none

/-- A request object and the context it refers to, which the source holds as a reference. -/
structure Handler where
  context : RequestContext
  request : ARequest

namespace Handler

variable (h : Handler)

def setStatusCode (code : Nat) : Handler := { h with context := h.context.setStatusCode code }

def setState (f : RequestState → RequestState) : Handler :=
  { h with context := h.context.setState f }

/-- The location. -/
def rule : LocationBlock := h.context.rule

/-- `getMaxBodySize()` of the location, an `int32_t`. -/
def maxBodySize : Int := h.rule.getMaxBodySize

end Handler
end Webserv
