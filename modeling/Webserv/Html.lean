import Webserv.Bytes

/-!
# The pages of `webservHTML.hpp` and the texts of the status codes

The macros of the header are functions of the strings that are pasted into them.  A page is a list of lines
of the source, one after the other with no line end between them, as adjacent string literals are.

* `indexof`, `htmlFile`, `htmlDir`, `htmlOther`, `htmlWeird`, `htmlFooter`: the parts of a directory
  listing.
* `htmlError`: the error page that is built in.
* `statusCodeToReason`, `statusCodeToMsg`: what a status code is called, in the head and on the error page.

## Why the pages are here in full

Two properties of the program are about the bytes of a page and not about its looks.  The length of an error
page is announced before the page is written, so the model has to know how long it is; and a listing is a
chain of parts that must each be announced with their own size.  A page that was abbreviated would make
either statement one about another program.  Nothing in the proofs looks into a page, though: they use that
a page is a function of what is pasted in, and the pages are never unfolded.

## What is pasted in is not escaped

The target of a request goes into the title and the heading of a listing as it came, and the name of a file
goes into a link.  The macros do nothing about characters that mean something in HTML.  The model does not
either.

A code without an entry in one of the two tables has the text `Invalid Status Code`, which is the default of
both look-ups.
-/

namespace Webserv

/-- Adjacent string literals, which the compiler joins.  A line of the source is an entry of the list. -/
def page (pieces : List String) : Bytes := pieces.flatMap bytes

/-- The head of a directory listing, up to its first row. -/
def indexof (path : Bytes) : Bytes :=
  page [
    "<!DOCTYPE html>",
    "<html lang=\"en\">",
    "<head>",
    "\t<meta charset=\"UTF-8\">",
    "\t<meta name=\"viewport\" content=\"width=device-width, initial-scale=1.0\">",
    "\t<title>Index of "] ++
  path ++
  page [
    "</title>",
    "\t<style>",
    "\t\tbody \x7b",
    "\t\t\tfont-family: \"Noto Sans Mono\", sans-serif;",
    "\t\t\tmax-width: 100vw;",
    "\t\t\tmargin: 0 auto;",
    "\t\t\tpadding: 20px;",
    "\t\t\x7d",
    "\t\th1 \x7b",
    "\t\t\ttext-align: left;",
    "\t\t\tcolor: #333;",
    "\t\t\tpadding-bottom: 10px;",
    "\t\t\x7d",
    "\t\ttable \x7b",
    "\t\t\tborder-collapse: collapse;",
    "\t\t\x7d",
    "\t\tth \x7b",
    "\t\t\tborder: none;",
    "\t\t\tpadding: 6px;",
    "\t\t\ttext-align: left;",
    "\t\t\twhite-space: nowrap;",
    "\t\t\x7d",
    "\t\ttd \x7b",
    "\t\t\tborder: none;",
    "\t\t\tpadding: 6px;",
    "\t\t\ttext-align: left;",
    "\t\t\tfont-weight: normal;",
    "\t\t\twhite-space: nowrap;",
    "\t\t\x7d",
    "\t\t.file-name \x7b",
    "\t\t\tdisplay: inline-block;",
    "\t\t\t/* width: 200px; */",
    "\t\t\t/* padding-right: 10px; */",
    "\t\t\x7d",
    "\t\t.size-column \x7b",
    "\t\t\ttext-align: right;",
    "\t\t\x7d",
    "\t</style>",
    "</head>",
    "<body>",
    "\t<h1>Index of "] ++
  path ++
  page [
    "</h1>",
    "\t<table>",
    "\t\t<tr>",
    "\t\t\t<th></th> <th><span>Name</span></a></th> <th>Last modified</th> ",
    "<th><span>Size</span></th>",
    "\t\t</tr>",
    "\t\t<tr>",
    "\t\t\t<td colspan=\"5\"><hr></td>",
    "\t\t</tr>"]

/-- The row of a regular file, with the time and the size that `stat` gave. -/
def htmlFile (path name time size : Bytes) : Bytes :=
  bytes "<tr><td>📄</td> <td><a href=\"http://" ++
  path ++
  bytes "\"><span class=\"file-name\">" ++
  name ++
  bytes "</span></a></td> <td>" ++
  time ++
  bytes "</td> <td class=\"size-column\"><span>" ++
  size ++
  bytes "</span></td></tr>"

/-- The row of a directory. -/
def htmlDir (path name time : Bytes) : Bytes :=
  bytes "<tr><td>📁</td> <td><a href=\"http://" ++
  path ++
  bytes "\"><span class=\"file-name\">" ++
  name ++
  bytes "</span></a></td> <td>" ++
  time ++
  bytes "</td> <td class=\"size-column\"><span>-</span></td></tr>"

/-- The row of anything else that `stat` knows: a socket, a device, a pipe. -/
def htmlOther (path name time : Bytes) : Bytes :=
  bytes "<tr><td>❓</td> <td><a href=\"http://" ++
  path ++
  bytes "\"><span class=\"file-name\">" ++
  name ++
  bytes "</span></a></td> <td>" ++
  time ++
  bytes "</td> <td class=\"size-column\"><span>-</span></td></tr>"

/-- The row of an entry that `stat` refuses, which has a name and no more. -/
def htmlWeird (path name : Bytes) : Bytes :=
  bytes "<tr><td>❌</td> <td><a href=\"http://" ++
  path ++
  bytes "\"><span class=\"file-name\">" ++
  name ++
  bytes "</span></a></td> <td></td> <td class=\"size-column\"><span>-</span></td></tr>"

/-- The end of a directory listing. -/
def htmlFooter : Bytes :=
  bytes "</table></body></html>"

/-- The built-in error page: the code as a heading, and the sentence for it. -/
def htmlError (code message : Bytes) : Bytes :=
  page [
    "<!DOCTYPE html>",
    "<html lang=\"en\">",
    "<head>",
    "\t<style>",
    "\t\t* \x7b",
    "\t\t\ttransition: all 0.6s;",
    "\t\t\x7d",
    "\t\thtml \x7b",
    "\t\t\tbackground-color: #242424;",
    "\t\t\theight: 100%;",
    "\t\t\x7d",
    "\t\tbody \x7b",
    "\t\t\tfont-family: 'Lato', sans-serif;",
    "\t\t\tcolor: #888;",
    "\t\t\tmargin: 0;",
    "\t\t\x7d",
    "\t\t#main \x7b",
    "\t\t\tdisplay: table;",
    "\t\t\twidth: 100%;",
    "\t\t\theight: 100vh;",
    "\t\t\ttext-align: center;",
    "\t\t\x7d",
    "\t\t.fof \x7b",
    "\t\t\tdisplay: table-cell;",
    "\t\t\tvertical-align: middle;",
    "\t\t\x7d",
    "\t\t.fof h1 \x7b",
    "\t\t\tfont-size: 50px;",
    "\t\t\tdisplay: inline-block;",
    "\t\t\tpadding-right: 12px;",
    "\t\t\tanimation: type .5s alternate infinite;",
    "\t\t\x7d",
    "\t\t@keyframes type \x7b",
    "\t\t\tfrom \x7b",
    "\t\t\t\tbox-shadow: inset -3px 0px 0px #a8a8a8;",
    "\t\t\t\x7d",
    "\t\t\tto \x7b",
    "\t\t\t\tbox-shadow: inset -3px 0px 0px transparent;",
    "\t\t\t\x7d",
    "\t\t\x7d",
    "\t\t.footer \x7b",
    "\t\t\tposition: fixed;",
    "\t\t\tleft: 0;",
    "\t\t\tbottom: 10px;",
    "\t\t\twidth: 100%;",
    "\t\t\ttext-align: center;",
    "\t\t\tfont-size: 12px;",
    "\t\t\x7d",
    "\t\t.footer a \x7b",
    "\t\t\tcolor: #c2c2c2;",
    "\t\t\ttext-decoration: none;",
    "\t\t\x7d",
    "\t\t.footer a:hover \x7b",
    "\t\t\tcolor: #067dcc;",
    "\t\t\x7d",
    "\t</style>",
    "</head>",
    "<body>",
    "\t<div id=\"main\">",
    "\t\t<div class=\"fof\">",
    "\t\t\t<h1>Error "] ++
  code ++
  bytes "</h1><br>" ++
  message ++
  page [
    "<br>",
    "\t\t</div>",
    "\t</div>",
    "\t<div class=\"footer\">webserv |",
    "\t\t<a href=\"https://profile.intra.42.fr/users/kchillon\">@kchillon</a>",
    "\t\t<a href=\"https://profile.intra.42.fr/users/ibertran\">@ibertran</a>",
    "\t</div>",
    "</body>",
    "</html>"]

/-! ## Status codes -/

abbrev statusNone : Nat := 0
abbrev statusOk : Nat := 200
abbrev statusCreated : Nat := 201
abbrev statusNoContent : Nat := 204
abbrev statusMultipleChoices : Nat := 300
abbrev statusMovedPermanently : Nat := 301
abbrev statusFound : Nat := 302
abbrev statusSeeOther : Nat := 303
abbrev statusNotModified : Nat := 304
abbrev statusTemporaryRedirect : Nat := 307
abbrev statusPermanentRedirect : Nat := 308
abbrev statusBadRequest : Nat := 400
abbrev statusUnauthorized : Nat := 401
abbrev statusForbidden : Nat := 403
abbrev statusNotFound : Nat := 404
abbrev statusMethodNotAllowed : Nat := 405
abbrev statusRequestTimeout : Nat := 408
abbrev statusConflict : Nat := 409
abbrev statusLengthRequired : Nat := 411
abbrev statusPayloadTooLarge : Nat := 413
abbrev statusUriTooLong : Nat := 414
abbrev statusUnsupportedMediaType : Nat := 415
abbrev statusIAmATeapot : Nat := 418
abbrev statusTooManyRequests : Nat := 429
abbrev statusInternalServerError : Nat := 500
abbrev statusNotImplemented : Nat := 501
abbrev statusServiceUnavailable : Nat := 503
abbrev statusGatewayTimeout : Nat := 504
abbrev statusHttpVersionNotSupported : Nat := 505

/-- The reason phrases, by code.  The spelling is that of the source. -/
def reasons : List (Nat × String) :=
  [(statusOk, "OK"),
   (statusCreated, "Created"),
   (statusNoContent, "No content"),
   (statusMultipleChoices, "Multiple Choices"),
   (statusMovedPermanently, "Moved Permanently"),
   (statusFound, "Found"),
   (statusSeeOther, "See Other"),
   (statusNotModified, "Not Modified"),
   (statusTemporaryRedirect, "Temporary Redirect"),
   (statusPermanentRedirect, "Permanent Redirect"),
   (statusBadRequest, "Bad Request"),
   (statusUnauthorized, "Unauthorized"),
   (statusForbidden, "Forbidden"),
   (statusNotFound, "Not Found"),
   (statusMethodNotAllowed, "Method Not Allowed"),
   (statusRequestTimeout, "Request Timeout"),
   (statusConflict, "Conflict"),
   (statusLengthRequired, "Length Required"),
   (statusPayloadTooLarge, "Payload Too Large"),
   (statusUriTooLong, "URI Too Long"),
   (statusUnsupportedMediaType, "Unsupported Media Type"),
   (statusIAmATeapot, "I'm a teapot"),
   (statusTooManyRequests, "Too Many Requests"),
   (statusInternalServerError, "Internal Server Error"),
   (statusNotImplemented, "Not Implemented"),
   (statusServiceUnavailable, "Service Unavailable"),
   (statusGatewayTimeout, "Gateway Timeout"),
   (statusHttpVersionNotSupported, "HTTP Version Not Supported")]

/-- The sentences on the built-in error pages.  Only the codes of errors have one. -/
def messages : List (Nat × String) :=
  [(statusBadRequest, "The server could not understand your request. Please check " ++
    "your input."),
   (statusUnauthorized, "Authentication required. Please log in to access this resource."),
   (statusForbidden, "Access denied. You don't have permission to access this resource."),
   (statusNotFound, "It looks like the page you were looking for doesn't exist."),
   (statusMethodNotAllowed, "The HTTP method you used is not allowed for this resource."),
   (statusRequestTimeout, "The server timed out waiting for your request. Please try again."),
   (statusConflict, "A conflict occurred. Your request could not be processed " ++
    "due to conflicting data."),
   (statusLengthRequired, "The server requires a valid Content-Length header in your request."),
   (statusPayloadTooLarge, "The request payload is too large. Please reduce its size " ++
    "and try again."),
   (statusUriTooLong, "The request URI is too long. Please shorten the URL and try again."),
   (statusUnsupportedMediaType, "The media type in your request is unsupported by the server."),
   (statusIAmATeapot, "I'm a teapot. This server refuses to brew coffee with a teapot."),
   (statusTooManyRequests, "Too many requests. Please slow down and try again later."),
   (statusInternalServerError, "The server encountered an internal error. Please try again later."),
   (statusNotImplemented, "The server does not support the functionality required to " ++
    "fulfill the request."),
   (statusServiceUnavailable, "The service is currently unavailable. Please try again later."),
   (statusGatewayTimeout, "The server timed out waiting for a response from the upstream server."),
   (statusHttpVersionNotSupported, "The HTTP version used in your request is not supported.")]

/-- `statusCodeToReason`. -/
def statusCodeToReason (code : Nat) : Bytes :=
  bytes ((reasons.lookup code).getD "Invalid Status Code")

/-- `statusCodeToMsg`. -/
def statusCodeToMsg (code : Nat) : Bytes :=
  bytes ((messages.lookup code).getD "Invalid Status Code")

/-- `400 <= code < 600`, the test of the error pages: a configured page is looked for under such a code
only. -/
def isErrorCode (code : Nat) : Bool := 400 ≤ code && code < 600

end Webserv
