import Webserv.Context
import Webserv.BinaryBuffer

/-!
# The CGI side of a request

`ARequest-cgi.cpp`, and the two `_openCGI`.  The CGI process itself is not modelled: what it writes is
whatever `recv` returns on its socket.

* `openCGI`: the socket pair and the fork.
* `readCGI`: one read of the output, and what is done with it.
* `parseCGIHeaders`: the lines of the head, until the empty one.
* `cgiStatusToStatus`: the status code in the value of a `Status` header.

## What is opened

`_openCGI` makes a pair of sockets and forks.  The parent keeps its end in the context and the child has the
other.  When `fork` fails, both ends are still open in this process: that of the parent is in the context,
where the destructor of the client finds it, and that of the child is in no variable that anything reads
again.  `childEnd` says that it is there.  What becomes of it is part of what is proved about the
descriptors of the whole server.

## What happens to the head

The CGI writes a head of its own, without a status line.  Its lines are put into the headers of the response
as they come; a line without `": "` makes the whole response a 500 and ends the reading.  At the empty line
the `Status` header, if there is one, is taken out again: three digits of it are the code, and what follows
the fourth character is the reason.  Then the head is rendered.  From there on the output is appended to
what waits to be sent, without any change.

## Why a missing byte is a NUL

`cgiStatusToStatus` looks at characters by their index and does not check the length first.  The characters
of a `std::string` end with a NUL that may be read, and the tests fail at it, so that no byte after it is
looked at.
-/

namespace Webserv
namespace Handler

/-! ## Opening -/

/-- The two ends of the socket pair, that of the parent first.  Only that of the parent is kept for later
use. -/
def attachCGI (h : Handler) (pair : Nat × Nat) : Handler :=
  let world := h.context.world
  { h with context := { h.context with
    cgiSocket := pair.1
    world := { world with opened := world.opened ++ [(pair.1 : Fd)], childEnd := some (pair.2 : Fd) } } }

/-- The child runs: its end of the pair is closed here, and its output is waited for. -/
def startCGI (h : Handler) (pid : Nat) : Handler :=
  let world := { h.context.world with childEnd := none }
  let h := { h with context := { h.context with pid := pid, world := world } }
  h.setState fun x => x.setWorkOutComplete.unsetCgiInComplete

/-- `_openCGI` of `RequestGET` and of `RequestPOST`.  A failed `fork` leaves the parent's end in the
context, and both ends open; nothing closes that of the child later. -/
def openCGI (sys : Sys) (h : Handler) : Handler :=
  let cgi := h.request.cgiPath.getD {}
  if ¬ cgi.access h.context.world.fs .execute then h.setStatusCode statusInternalServerError
  else
    match sys.socketpair with
    | none => h.setStatusCode statusInternalServerError
    | some pair =>
      match sys.fork with
      | none => (h.attachCGI pair).setStatusCode statusInternalServerError
      | some pid => (h.attachCGI pair).startCGI pid

/-- The three ends of `_openCGI`: nothing was opened, the fork failed with both sockets open, or the child
runs. -/
theorem openCGI_cases (sys : Sys) (h : Handler) :
    openCGI sys h = h.setStatusCode statusInternalServerError ∨
      (∃ pair, openCGI sys h = (h.attachCGI pair).setStatusCode statusInternalServerError) ∨
      ∃ pair pid, openCGI sys h = (h.attachCGI pair).startCGI pid := by
  unfold openCGI
  dsimp only
  split_ifs
  · cases sys.socketpair with
    | none => exact Or.inl rfl
    | some pair =>
      cases sys.fork with
      | none => exact Or.inr (Or.inl ⟨pair, rfl⟩)
      | some pid => exact Or.inr (Or.inr ⟨pair, pid, rfl⟩)
  · exact Or.inl rfl

/-- The request object is what it was: starting a CGI concerns the context only. -/
theorem request_openCGI (sys : Sys) (h : Handler) : (openCGI sys h).request = h.request := by
  rcases openCGI_cases sys h with heq | ⟨pair, heq⟩ | ⟨pair, pid, heq⟩ <;> rw [heq] <;> rfl

/-! ## The head of a CGI response -/

/-- `cgiStatusToStatus`: the status code, and the header value after `erase(0, 4)`.  A missing
byte reads as NUL. -/
def cgiStatusToStatus (value : Bytes) : Nat × Bytes :=
  let at' (i : Nat) : Byte := value.getD i 0
  if value.length < 5 ∧ at' 3 = space ∧ isalpha (at' 4) then (statusInternalServerError, value)
  else if ¬ isdigit (at' 0) ∨ ¬ isdigit (at' 1) ∨ ¬ isdigit (at' 2) then
    (statusInternalServerError, value)
  else
    (((at' 0).toNat - 48) * 100 + ((at' 1).toNat - 48) * 10 + ((at' 2).toNat - 48), value.drop 4)

/-- The status line that ends the head: the `Status` header gives the code and the reason.  Without one it
is 200. -/
def setCGIStatus (h : Handler) : Handler :=
  match h.context.response.headers.find? headerStatus with
  | none => h.setStatusCode statusOk
  | some value =>
    let r := cgiStatusToStatus value
    let h := h.setStatusCode r.1
    let response := (h.context.response.setReasonPhrase r.2).deleteHeader headerStatus
    { h with context := { h.context with response := response } }

/-- `responseBuffer = response.response()`: an assignment, so that what was waiting there is gone. -/
def render (h : Handler) : Handler := { h with context := h.context.render }

/-- The response is cleared and becomes a 500.  The headers that the CGI had sent are gone, and so is the
program's own. -/
def renderError (h : Handler) : Handler :=
  let response := h.context.response.clear.setStatusCode statusInternalServerError
  render { h with context := { h.context with response := response } }

/-- The empty line: the head is complete, its `Status` becomes that of the response, and the response is
rendered without a body. -/
def endCGIHeaders (h : Handler) : Handler :=
  let h := h.setCGIStatus.setState RequestState.setCgiHeadersComplete
  render { h with context := { h.context with response := h.context.response.clearBody } }

/-- A line without `": "`: the CGI is not listened to any more. -/
def refuseCGIHeaders (h : Handler) : Handler :=
  (h.setState fun x => x.setCgiHeadersComplete.setCgiInComplete).renderError

/-- `ARequest::_parseCGIHeaders`, at most `n` lines, from the bytes that were read so far. -/
def parseCGIHeadersLoop : Nat → Handler → Handler
  | 0, h => h
  | n + 1, h =>
    match BinaryBuffer.find h.request.readBuffer crlf with
    | none => h
    | some pos =>
      let line := BinaryBuffer.substr h.request.readBuffer 0 pos
      let h := { h with request := { h.request with
        readBuffer := BinaryBuffer.erase h.request.readBuffer 0 (pos + 2) } }
      if line = [] then h.endCGIHeaders
      else
        match Search.findSub (bytes ": ") line with
        | none => h.refuseCGIHeaders
        | some pos =>
          let response := h.context.response.setHeader (line.take pos) (line.drop (pos + 2))
          parseCGIHeadersLoop n { h with context := { h.context with response := response } }

/-- `ARequest::_parseCGIHeaders`.  Every line takes its line end off the buffer, which bounds the rounds. -/
def parseCGIHeaders (h : Handler) : Handler :=
  parseCGIHeadersLoop h.request.readBuffer.length h

/-! ## Reading -/

/-- The bytes that are no part of the head go to the client, and the CGI is no longer silent. -/
def forwardCGI (h : Handler) : Handler :=
  if h.context.requestState.isCgiHeadersComplete ∧ h.request.readBuffer.length > 0 then
    { context := h.context.appendResponse h.request.readBuffer
      request := { h.request with cgiSilent := false, readBuffer := [] } }
  else h

/-- `ARequest::_readCGI`.  The end of the output completes the work; an output that ends within its head is
a 500. -/
def readCGI (sys : Sys) (h : Handler) : Ret × Handler :=
  if h.context.requestState.isCgiInComplete then (.reqContinue, h)
  else
    let h := { h with context := h.context.record (.recv h.context.cgiSocket) }
    match sys.recv with
    | .closed =>
      let h := h.setState RequestState.setWorkComplete
      (.reqContinue, if h.context.requestState.isCgiHeadersComplete then h else h.renderError)
    | .error => (.reqError, h.setState RequestState.setWorkComplete)
    | .data packet =>
      let h := { h with request := { h.request with
        readBuffer := h.request.readBuffer ++ packet.bytes } }
      let h := if h.context.requestState.isCgiHeadersComplete then h else h.parseCGIHeaders
      (.reqContinue, h.forwardCGI)

end Handler
end Webserv
