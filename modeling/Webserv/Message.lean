import Webserv.Html
import Webserv.Lib.OrderedMap
import Webserv.Lib.Search

/-!
# Methods, query strings and responses

The values a request line and a response are made of: `Method`, `Queries`, `Response`, and the names of the
headers.  Each follows the class of that name in the source, with its operations under their names.

* `Method`: the five methods of the program, and the two values for none of them.
* `Queries`: the pieces of a query string, in a `std::map`.
* `Response`: the status, the headers and the body that are put into the buffer of the socket.

## What a map is

`headers_t` and `queries_t` are both `std::map<std::string, std::string>`.  Here they are `StringMap`, an
`OrderedMap` from the library: its entries are sorted by the key and no key is there twice, which is a field
of the structure.  That matters for responses, because a head is written in the order of the entries, and
for `Queries`, because a name that comes twice keeps the value that came last.

## How a response is rendered

`Response::response` is the one function that makes bytes of a response: the status line, a line for every
header, an empty line, the body.  Here the part before the body has a name of its own, `Response.head`,
since most of what is proved about a response is about its head, and a body may be sent in several parts
after it.  Nothing of a head is escaped: a reason or a value with a line end in it splits the head, and that
no such thing is there is a theorem about the program and not a check in it.

`Response::clear` deserves a look.  It assigns an empty map, and so the `Server` header that the constructor
has put there is gone.
-/

namespace Webserv

/-! ## Methods -/

/-- `method_t`.  The last two are no methods: a name that the program does not know, and no name yet. -/
inductive Method where
  | get | post | delete | put | head | invalMethod | undefined
  deriving DecidableEq

namespace Method

/-- `Method::methods`, in the order of their indexes, which are the bits of the methods that a location
allows. -/
def methods : List (Bytes × Method) :=
  [(bytes "GET", .get), (bytes "POST", .post), (bytes "DELETE", .delete), (bytes "PUT", .put),
   (bytes "HEAD", .head)]

/-- `Method::Method(const std::string &)`. -/
def ofString (str : Bytes) : Method := (methods.lookup str).getD .invalMethod

def isValid (m : Method) : Bool := m ≠ .invalMethod && m ≠ .undefined

/-- `Method::index`, for a valid method; the request object of another method is never asked for. -/
def index : Method → Nat
  | .get => 0
  | .post => 1
  | .delete => 2
  | .put => 3
  | .head => 4
  | .invalMethod => 5
  | .undefined => 0

end Method

/-! ## Query strings -/

/-- `headers_t`, `queries_t`. -/
abbrev StringMap := OrderedMap Bytes Bytes

/-- `Queries`: the text after the question mark, and the pieces of it by name. -/
structure Queries where
  queryLine : Bytes
  queries : StringMap

namespace Queries

def empty : Queries := ⟨[], OrderedMap.empty⟩

/-- `Queries::_parseQuery`: a piece without `=` is a name with an empty value.  The map keeps the last value
of a name. -/
def parseQuery (queries : StringMap) (query : Bytes) : StringMap :=
  match Search.findSub [61] query with
  | none => queries.insert query []
  | some pos => queries.insert (query.take pos) (query.drop (pos + 1))

/-- `Queries::parse`: the pieces between `&`, at most `n` of them.  Each takes a byte off the line, so that
its length is enough. -/
def parse : Nat → StringMap → Bytes → StringMap
  | 0, queries, _ => queries
  | n + 1, queries, line =>
    if line = [] then queries
    else
      match Search.findSub [38] line with
      | none => parseQuery queries line
      | some stop => parse n (parseQuery queries (line.take stop)) (line.drop (stop + 1))

/-- `Queries::Queries(const std::string &)`. -/
def ofString (line : Bytes) : Queries := ⟨line, parse line.length OrderedMap.empty line⟩

/-- `Queries::originalQueryLine`: the query as it stood in the target, for a redirection and for a CGI. -/
def originalQueryLine (q : Queries) : Bytes :=
  if q.queryLine = [] then [] else question :: q.queryLine

end Queries

/-! ## Responses -/

abbrev headerHost : Bytes := bytes "Host"
abbrev headerContentLength : Bytes := bytes "Content-Length"
abbrev headerContentType : Bytes := bytes "Content-Type"
abbrev headerLocation : Bytes := bytes "Location"
abbrev headerTransferEncoding : Bytes := bytes "Transfer-Encoding"
abbrev headerTransferChunke : Bytes := bytes "chunked"
abbrev headerServer : Bytes := bytes "Server"
abbrev headerStatus : Bytes := bytes "Status"

/-- `Response`: no code, no reason, no headers and no body, unless they are set. -/
structure Response where
  statusCode : Nat := statusNone
  reasonPhrase : Bytes := []
  headers : StringMap := OrderedMap.empty
  body : Bytes := []

namespace Response

/-- `Response::Response`: no status, no body, and the header that names the server. -/
def init : Response := { headers := OrderedMap.empty.insert headerServer (bytes "webserv/0.5") }

/-- `Response::statusLine`.  The reason stands as it is set, whatever characters it has. -/
def statusLine (r : Response) : Bytes :=
  bytes "HTTP/1.1 " ++ numToStr r.statusCode ++ [space] ++ r.reasonPhrase ++ crlf

/-- The response head: status line, headers, empty line.  The headers come in the order of their names. -/
def head (r : Response) : Bytes :=
  r.statusLine ++ r.headers.entries.flatMap (fun h => h.1 ++ bytes ": " ++ h.2 ++ crlf) ++ crlf

/-- `Response::response`: the head and the body, which is all that is ever sent of a response at once. -/
def response (r : Response) : Bytes := r.head ++ r.body

/-- `Response::setStatusCode`: the reason goes with the code, and replaces one that was set. -/
def setStatusCode (r : Response) (code : Nat) : Response :=
  { r with statusCode := code, reasonPhrase := statusCodeToReason code }

/-- `Response::setHeader`: `operator[]` of the map, so that a second value replaces the first. -/
def setHeader (r : Response) (key value : Bytes) : Response :=
  { r with headers := r.headers.insert key value }

/-- `Response::setReasonPhrase`. -/
def setReasonPhrase (r : Response) (reason : Bytes) : Response := { r with reasonPhrase := reason }

/-- `Response::setBody`. -/
def setBody (r : Response) (body : Bytes) : Response := { r with body := body }

/-- `Response::addBody`. -/
def addBody (r : Response) (body : Bytes) : Response := { r with body := r.body ++ body }

/-- `Response::deleteHeader`. -/
def deleteHeader (r : Response) (key : Bytes) : Response :=
  { r with headers := r.headers.erase key }

/-- `Response::clearBody`. -/
def clearBody (r : Response) : Response := { r with body := [] }

/-- `Response::clear`: the default `Server` header goes as well. -/
def clear (_ : Response) : Response := {}

section Fields

variable (r : Response) (code : Nat) (key value body : Bytes)

@[simp] theorem setStatusCode_statusCode : (r.setStatusCode code).statusCode = code := rfl
@[simp] theorem setStatusCode_headers : (r.setStatusCode code).headers = r.headers := rfl
@[simp] theorem setStatusCode_body : (r.setStatusCode code).body = r.body := rfl
@[simp] theorem setHeader_statusCode : (r.setHeader key value).statusCode = r.statusCode := rfl
@[simp] theorem setHeader_body : (r.setHeader key value).body = r.body := rfl
@[simp] theorem setHeader_headers :
    (r.setHeader key value).headers = r.headers.insert key value := rfl
@[simp] theorem setBody_statusCode : (r.setBody body).statusCode = r.statusCode := rfl
@[simp] theorem setBody_headers : (r.setBody body).headers = r.headers := rfl
@[simp] theorem setBody_body : (r.setBody body).body = body := rfl
@[simp] theorem clearBody_statusCode : r.clearBody.statusCode = r.statusCode := rfl
@[simp] theorem clearBody_headers : r.clearBody.headers = r.headers := rfl
@[simp] theorem clearBody_body : r.clearBody.body = [] := rfl

end Fields

theorem response_eq (r : Response) : r.response = r.head ++ r.body := rfl

/-- A head is never empty: a buffer that holds a response is told by that from one that holds nothing. -/
theorem head_ne_nil (r : Response) : r.head ≠ [] := by
  unfold head
  simp

end Response
end Webserv
