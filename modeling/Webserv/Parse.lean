import Webserv.Context
import Webserv.BinaryBuffer

/-!
# Parsing the head of a request

The request line and the headers, from `Client-parse.cpp`.  Both parsers work on the context: they take
lines from the buffer, fill in the fields of the head, and on a refusal set the status and `READ_COMPLETE`.

* `RequestContext.parseRequestLine`: the line, with its three parts.
* `RequestContext.parseHeaders`: the lines up to the empty one.
* `RequestContext.parseHead`: the two in turn, from where the last call stopped.
* `RequestContext.refuse`: what a bad line does.

## How the parsers go on

A head may come in any number of reads.  The parsers keep no state of their own: a line without its end is
left in the buffer, a line that was read is erased from it, and the flags say which of the two stages is
done.  A call after another read therefore sees the same line again, and more of it.  That the outcome does
not depend on how the bytes were split is proved from this shape (in `HeadParsing`).

## The order of the checks

`_parseRequestLine` is one function with three parts, which the source marks with a comment each; here each
part is a definition, and it calls the next.  The order is visible in the answers: a bad method is refused
with 405 before the target is looked at, a target that does not begin with a slash is 400 before the version
is, and the limit on the length of the line is checked before any of them, also for a line that is not
complete.  There is no limit on the headers.

## The bound of the loop

Every line that is read takes at least its two bytes off the buffer, so the length of the buffer is more
rounds than the loop can make.  At the bound the loop answers as if there were no line left, which is so.
-/

namespace Webserv

/-- `REQUEST_LINE_LIMIT`, for the bytes before the line end.  A longer line is refused with 400. -/
abbrev requestLineLimit : Nat := 4096

namespace RequestContext

/-- A refusal: the status, and nothing more is read.  The response is put together by the caller. -/
def refuse (ctx : RequestContext) (code : Nat) : RequestContext :=
  (ctx.setStatusCode code).setState RequestState.setReadComplete

/-! ## The request line -/

/-- `// Protocol version`: the rest of the line, which is compared as a whole. -/
def parseVersion (ctx : RequestContext) (line : Bytes) : RequestContext :=
  let ctx := { ctx with protocolVersion := line }
  if line = [] then ctx.refuse statusBadRequest
  else if line ≠ bytes "HTTP/1.1" then ctx.refuse statusHttpVersionNotSupported
  else ctx.setState RequestState.setReadRequestLineComplete

/-- `// Query string`: what follows the first `?` of the target. -/
def splitQuery (ctx : RequestContext) : RequestContext :=
  match Search.findSub [question] ctx.target with
  | none => ctx
  | some pos =>
    { ctx with queries := Queries.ofString (ctx.target.drop (pos + 1)), target := ctx.target.take pos }

/-- `// Target`: the text up to the next blank.  It has to begin with a slash. -/
def parseTarget (ctx : RequestContext) (line : Bytes) : RequestContext :=
  match Search.findSub [space] line with
  | none => ctx.refuse statusBadRequest
  | some pos =>
    let ctx := { ctx with target := line.take pos }
    if ctx.target.head? ≠ some slash then ctx.refuse statusBadRequest
    else parseVersion ctx.splitQuery (line.drop (pos + 1))

/-- `// Method`: the text up to the first blank.  A name that is not known is 405, and not 501. -/
def parseMethod (ctx : RequestContext) (line : Bytes) : RequestContext :=
  match Search.findSub [space] line with
  | none => ctx.refuse statusBadRequest
  | some pos =>
    if line.take pos = [] then ctx.refuse statusBadRequest
    else
      let ctx := { ctx with method := Method.ofString (line.take pos) }
      if ¬ ctx.method.isValid then ctx.refuse statusMethodNotAllowed
      else parseTarget ctx (line.drop (pos + 1))

/-- `Client::_parseRequestLine`: it waits for the line end, up to the limit. -/
def parseRequestLine (ctx : RequestContext) : Ret × RequestContext :=
  match BinaryBuffer.find ctx.buffer crlf with
  | none =>
    if ctx.buffer.length > requestLineLimit then (.reqDone, ctx.refuse statusBadRequest)
    else (.reqContinue, ctx)
  | some pos =>
    if pos > requestLineLimit then (.reqDone, ctx.refuse statusBadRequest)
    else
      let line := BinaryBuffer.substr ctx.buffer 0 pos
      (.reqDone, parseMethod { ctx with buffer := BinaryBuffer.erase ctx.buffer 0 (pos + 2) } line)

/-! ## The headers -/

/-- The loop of `_parseHeaders`, at most `n` lines.  The empty line ends it, and asks for a `Host`. -/
def parseHeadersLoop : Nat → RequestContext → Ret × RequestContext
  | 0, ctx => (.reqContinue, ctx)
  | n + 1, ctx =>
    match BinaryBuffer.find ctx.buffer crlf with
    | none => (.reqContinue, ctx)
    | some pos =>
      let line := BinaryBuffer.substr ctx.buffer 0 pos
      let ctx := { ctx with buffer := BinaryBuffer.erase ctx.buffer 0 (pos + 2) }
      if line = [] then
        if (ctx.headers.find? headerHost).isNone then (.reqDone, ctx.refuse statusBadRequest)
        else (.reqDone, ctx.setState RequestState.setReadHeadersComplete)
      else
        match Search.findSub (bytes ": ") line with
        | none => (.reqDone, ctx.refuse statusBadRequest)
        | some pos =>
          parseHeadersLoop n
            { ctx with headers := ctx.headers.insert (line.take pos) (line.drop (pos + 2)) }

/-- `Client::_parseHeaders`: a header that comes twice keeps its last value. -/
def parseHeaders (ctx : RequestContext) : Ret × RequestContext :=
  parseHeadersLoop ctx.buffer.length ctx

/-- The first two stages of `_parseRequest`, each skipped when its flag is set. -/
def parseHead (ctx : RequestContext) : Ret × RequestContext :=
  let parseHeaders (ctx : RequestContext) : Ret × RequestContext :=
    if ctx.requestState.isReadHeadersComplete then (.reqDone, ctx) else ctx.parseHeaders
  if ctx.requestState.isReadRequestLineComplete then parseHeaders ctx
  else
    match ctx.parseRequestLine with
    | (.reqDone, ctx) => parseHeaders ctx
    | r => r

end RequestContext
end Webserv
