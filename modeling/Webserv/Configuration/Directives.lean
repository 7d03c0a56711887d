import Webserv.Configuration.Tokens

/-!
# The directives of the configuration

The setters of `LocationBlock` and `ServerBlock`, the handlers of `ConfFile` and the loop of
`ConfFile::parse`.  A handler takes the position of its directive and returns the position it leaves the
cursor on.  Most handlers take one argument (`oneArg`), or treat their arguments one by one (`eachArg`);
each is that function at its own check.

* `locationHandler`, `serverHandler`, `handler`: the three tables.
* `locationDirective`, `serverDirective`, `typesDirective`: the blocks, whose loops run on fuel.
* `parse`: the whole file.

## Why tables of an enumeration

The source looks a directive up in a map from names to pointers to member functions.  The keys of a map are
an inductive type here, with `name` for the string of each and `ofName` for the look-up, and the functions
are a match on it.  A proof about every directive is a case split, and a new directive is a constructor that
the compiler asks about everywhere.

## Why fuel

The loops go on until the cursor stands on a `}` or at the end, and how far a round moves it is up to the
handler.  That it moves on is a theorem about handlers and not visible in the loop.  So the loops take a
number of rounds, one more than there are tokens, and running out of rounds is an outcome of its own; it is
shown not to occur (`parse_cursor`), so that the bound is no part of the meaning.

## Why setters return options

A setter of the source returns -1 or throws, and the handler turns both into an exception with the directive
and the argument.  `none` stands for either; which error is thrown is decided in the handler.
-/

namespace Webserv

/-- `ft::stoi<T>`, with the bounds of the type: `none` where it throws. -/
def stoi (min max : Int) (str : Bytes) : Option Int :=
  let r := strtol (cstr str) 10
  if r.2 ≠ [] ∨ r.1 < min ∨ r.1 > max then none else some r.1

/-- `std::numeric_limits<uint16_t>::max()` and `std::numeric_limits<uint32_t>::max()`. -/
abbrev uint16Max : Int := 2 ^ 16 - 1
abbrev uint32Max : Int := 2 ^ 32 - 1

/-! ## The setters -/

namespace LocationBlock

/-- `LocationBlock::allowMethod`: the bit of the method is set; `none` where it returns -1, for a word that
is no method. -/
def allowMethod (loc : LocationBlock) (str : Bytes) : Option LocationBlock :=
  (Method.methods.findIdx? fun m => m.1 = str).map fun i =>
    { loc with allowed := loc.allowed ||| 1 <<< i }

abbrev dirListingOn : Bytes := bytes "on"
abbrev dirListingOff : Bytes := bytes "off"

/-- `LocationBlock::setDirListing`: "on" or "off"; `none` where it returns -1. -/
def setDirListing (loc : LocationBlock) (str : Bytes) : Option LocationBlock :=
  if str = dirListingOn then some { loc with dirListing := 1 }
  else if str = dirListingOff then some { loc with dirListing := 0 }
  else none

/-- `LocationBlock::setMaxBodySize`: the argument is converted to `int32_t`, and may come out negative. -/
def setMaxBodySize (loc : LocationBlock) (size : Int) : LocationBlock :=
  { loc with maxBodySize := toInt32 size, maxBodySize_le := toInt32_le size }

def setRoot (loc : LocationBlock) (str : Bytes) : LocationBlock :=
  { loc with root := Path.ofString str }

/-- `LocationBlock::setRedirect`: `none` where it throws, for a status that is no redirection. -/
def setRedirect (loc : LocationBlock) (status : Nat) (body : Bytes) : Option LocationBlock :=
  if status ∈ [300, 301, 302, 303, 304, 307, 308] then
    some { loc with redirection := (status, body) }
  else none

def addIndex (loc : LocationBlock) (str : Bytes) : LocationBlock :=
  { loc with indexes := loc.indexes ++ [str] }

def addCGI (loc : LocationBlock) (ext bin : Bytes) : LocationBlock :=
  { loc with gcis := loc.gcis.insert ext (Path.ofString bin) }

def setClientBodyUploadPath (loc : LocationBlock) (str : Bytes) : LocationBlock :=
  { loc with clientBodyUploadPath := Path.ofString str }

def setClientBodyTempPath (loc : LocationBlock) (str : Bytes) : LocationBlock :=
  { loc with clientBodyTempPath := Path.ofString str }

abbrev defaultMaxBodySize : Int := 1048576

abbrev defaultIndex : Bytes := bytes "index.html"

/-- `LocationBlock::setDefaults`: two of the defaults; `DEFAULT_DIRLISTING` is "off". -/
def setDefaults (loc : LocationBlock) : LocationBlock :=
  { loc with dirListing := 0, maxBodySize := defaultMaxBodySize, maxBodySize_le := by decide }

/-- `LocationBlock::fill`: what is not set in the location is taken from the other one, field by field. -/
def fill (loc other : LocationBlock) : LocationBlock where
  path := loc.path
  dirListing := if loc.dirListing = -1 then other.dirListing else loc.dirListing
  maxBodySize := if loc.maxBodySize = -1 then other.maxBodySize else loc.maxBodySize
  root := if loc.root.isEmpty then other.root else loc.root
  allowed := if loc.allowed = 0 then other.allowed else loc.allowed
  redirection := if loc.redirection.1 = 0 then other.redirection else loc.redirection
  indexes :=
    if loc.indexes = [] then
      if other.indexes ≠ [] then other.indexes else [defaultIndex]
    else loc.indexes
  gcis := if loc.gcis.entries = [] then other.gcis else loc.gcis
  clientBodyUploadPath :=
    if loc.clientBodyUploadPath.isEmpty then other.clientBodyUploadPath
    else loc.clientBodyUploadPath
  clientBodyTempPath :=
    if loc.clientBodyTempPath.isEmpty then other.clientBodyTempPath else loc.clientBodyTempPath
  maxBodySize_le := by
    split
    · exact other.maxBodySize_le
    · exact loc.maxBodySize_le

end LocationBlock

namespace ServerBlock

def addHost (server : ServerBlock) (host : SockAddr) : ServerBlock :=
  { server with hosts := server.hosts ++ [host] }

def addName (server : ServerBlock) (name : Bytes) : ServerBlock :=
  { server with names := server.names ++ [name] }

def addLocation (server : ServerBlock) (location : LocationBlock) : ServerBlock :=
  { server with locations := server.locations ++ [location] }

def addErrorPage (server : ServerBlock) (code : Nat) (file : Path) : ServerBlock :=
  { server with errorPages := server.errorPages.insert code file }

def fillLocations (server : ServerBlock) (location : LocationBlock) : ServerBlock :=
  { server with locations := server.locations.map fun loc => loc.fill location }

end ServerBlock

/-- A number of `inet_pton`: up to 255, in decimal, without leading zeros. -/
def octet (s : Bytes) : Option Nat :=
  if s ≠ [] ∧ s.all isdigit ∧ (s.head? = some 48 → s.length = 1) ∧ digitsValue 10 s ≤ 255 then
    some (digitsValue 10 s)
  else none

/-- `inet_pton(AF_INET, …)`: four numbers with dots between them; `none` where it returns 0. -/
def inetPton (str : Bytes) : Option Nat :=
  match LexicalPath.segments dot (cstr str) with
  | [a, b, c, d] => do
    let a ← octet a
    let b ← octet b
    let c ← octet c
    let d ← octet d
    return ((a * 256 + b) * 256 + c) * 256 + d
  | _ => none

/-! ## The names of the directives -/

/-- The keys of `_locationDirectives`: the directives of a location, and at server level those of all its
locations. -/
inductive LocationDirective where
  | root | allow | clientMaxBodySize | autoindex | redirect | index | cgi | clientBodyUploadPath
  | clientBodyTempPath
  deriving DecidableEq

namespace LocationDirective

def all : List LocationDirective :=
  [root, allow, clientMaxBodySize, autoindex, redirect, index, cgi, clientBodyUploadPath,
    clientBodyTempPath]

def name : LocationDirective → Bytes
  | root => bytes "root"
  | allow => bytes "allow"
  | clientMaxBodySize => bytes "client_max_body_size"
  | autoindex => bytes "autoindex"
  | redirect => bytes "redirect"
  | index => bytes "index"
  | cgi => bytes "cgi"
  | clientBodyUploadPath => bytes "client_body_upload_path"
  | clientBodyTempPath => bytes "client_body_temp_path"

/-- `_locationDirectives.find(str)`. -/
def ofName (str : Bytes) : Option LocationDirective := all.find? fun dir => dir.name = str

end LocationDirective

/-- The keys of `_serverDirectives`: what only a `server` block knows. -/
inductive ServerDirective where
  | listen | serverName | location | errorPage
  deriving DecidableEq

namespace ServerDirective

def all : List ServerDirective := [listen, serverName, location, errorPage]

def name : ServerDirective → Bytes
  | listen => bytes "listen"
  | serverName => bytes "server_name"
  | location => bytes "location"
  | errorPage => bytes "error_page"

/-- `_serverDirectives.find(str)`. -/
def ofName (str : Bytes) : Option ServerDirective := all.find? fun dir => dir.name = str

end ServerDirective

/-- The keys of `_directives`: what may stand outside of every block. -/
inductive Directive where
  | server | clientHeaderTimeout | clientBodyTimeout | sendTimeout | types
  deriving DecidableEq

namespace Directive

def all : List Directive := [server, clientHeaderTimeout, clientBodyTimeout, sendTimeout, types]

def name : Directive → Bytes
  | server => bytes "server"
  | clientHeaderTimeout => bytes "client_header_timeout"
  | clientBodyTimeout => bytes "client_body_timeout"
  | sendTimeout => bytes "send_timeout"
  | types => bytes "types"

/-- `_directives.find(str)`. -/
def ofName (str : Bytes) : Option Directive := all.find? fun dir => dir.name = str

end Directive

/-- `ConfFile`, without the tokens, which the directives only read, and without the path of the file,
which only the texts of the errors name. -/
structure ConfFile where
  root : Path := {}
  blocks : List ServerBlock := []
  mimetypes : StringMap := OrderedMap.empty
  /-- The timeouts are non-negative values of an `int32_t`. -/
  timeouts : Timeout → Nat

namespace ConfFile

open TokenCursor

/-- `ConfFile::ConfFile`. -/
def init : ConfFile where
  timeouts
    | .clientHeader => 10
    | .clientBody => 60
    | .send => 60

variable {α : Type}

/-! ## How handlers take their arguments -/

/-- How a handler begins: the arguments are counted and their number is checked. -/
def enter (tokens : List ConfToken) (token : Nat) (valid : Nat → Bool) :
    Except Halt (ConfToken × Nat) := do
  let args ← countArgs tokens token
  let directive ← deref tokens token
  if valid args then return (directive, args)
  else throw (.exception (.invalidArgumentNumber directive))

/-- A handler of one argument, with what it does to the argument. -/
def oneArg (set : ConfToken → ConfToken → α → Except ConfError α) (tokens : List ConfToken)
    (token : Nat) (s : α) : Except Halt (Nat × α) := do
  let (directive, _) ← enter tokens token (· = 1)
  let value ← deref tokens (token + 1)
  let s ← lift (set directive value s)
  return (token + 2, s)

/-- A handler of at least one argument, with what it does to each. -/
def eachArg (set : α → ConfToken → Except ConfError α) (tokens : List ConfToken) (token : Nat)
    (s : α) : Except Halt (Nat × α) := do
  let (_, args) ← enter tokens token (· ≠ 0)
  forEach tokens (fun s t => lift (set s t)) args (token + 1) s

/-! ## The directives of a location -/

section Location

/-- What `_rootDirective` does with its argument: a slash is appended, so that the root is in directory
form. -/
def takeRoot (_ value : ConfToken) (location : LocationBlock) : Except ConfError LocationBlock :=
  .ok (location.setRoot (value.str ++ [slash]))

def rootDirective : List ConfToken → Nat → LocationBlock → Except Halt (Nat × LocationBlock) :=
  oneArg takeRoot

/-- The loop of `_allowDirective`: each word must be a method. -/
def allowMethods (location : LocationBlock) (method : ConfToken) : Except ConfError LocationBlock :=
  match location.allowMethod method.str with
  | some location => .ok location
  | none => .error (.invalidMethod method)

def allowDirective : List ConfToken → Nat → LocationBlock → Except Halt (Nat × LocationBlock) :=
  eachArg allowMethods

/-- What `_clientMaxBodySizeDirective` does with its argument: the range of a `uint32_t` is checked, and the
setter narrows it. -/
def takeMaxBodySize (directive value : ConfToken) (location : LocationBlock) :
    Except ConfError LocationBlock :=
  match stoi 0 uint32Max value.str with
  | some size => .ok (location.setMaxBodySize size)
  | none => .error (.invalidValue directive value)

def clientMaxBodySizeDirective :
    List ConfToken → Nat → LocationBlock → Except Halt (Nat × LocationBlock) :=
  oneArg takeMaxBodySize

/-- What `_autoindexDirective` does with its argument: "on" or "off", and the error says so. -/
def takeDirListing (directive value : ConfToken) (location : LocationBlock) :
    Except ConfError LocationBlock :=
  match location.setDirListing value.str with
  | some location => .ok location
  | none => .error (.invalidValueExpected directive value LocationBlock.dirListingOn
      LocationBlock.dirListingOff)

def autoindexDirective : List ConfToken → Nat → LocationBlock → Except Halt (Nat × LocationBlock) :=
  oneArg takeDirListing

def redirectionDirective (tokens : List ConfToken) (token : Nat) (location : LocationBlock) :
    Except Halt (Nat × LocationBlock) := do
  let (directive, _) ← enter tokens token (· = 2)
  let code ← deref tokens (token + 1)
  match stoi 0 uint16Max code.str with
  | none => throw (.exception (.invalidValue directive code))
  | some status =>
    let body ← deref tokens (token + 2)
    match location.setRedirect status.toNat body.str with
    | none => throw (.exception (.invalidValue directive body))
    | some location => return (token + 3, location)

/-- The loop of `_indexDirective`, which accepts every word. -/
def addIndexes (location : LocationBlock) (index : ConfToken) : Except ConfError LocationBlock :=
  .ok (location.addIndex index.str)

def indexDirective : List ConfToken → Nat → LocationBlock → Except Halt (Nat × LocationBlock) :=
  eachArg addIndexes

/-- The loop of `_cgiDirective`: the last word is the binary, and the others are extensions. -/
def addCGIs (binary : ConfToken) (location : LocationBlock) (ext : ConfToken) :
    Except ConfError LocationBlock :=
  .ok (location.addCGI ext.str binary.str)

def cgiDirective (tokens : List ConfToken) (token : Nat) (location : LocationBlock) :
    Except Halt (Nat × LocationBlock) := do
  let (_, args) ← enter tokens token (2 ≤ ·)
  let binary ← deref tokens (token + 1 + args - 1)
  let (token, location) ← forEach tokens (fun location ext => lift (addCGIs binary location ext))
    (args - 1) (token + 1) location
  return (token + 1, location)

/-- What `_clientBodyUploadPathDirective` does with its argument: a slash is appended. -/
def takeUploadPath (_ value : ConfToken) (location : LocationBlock) :
    Except ConfError LocationBlock :=
  .ok (location.setClientBodyUploadPath (value.str ++ [slash]))

def clientBodyUploadPathDirective :
    List ConfToken → Nat → LocationBlock → Except Halt (Nat × LocationBlock) :=
  oneArg takeUploadPath

/-- What `_clientBodyTempPathDirective` does with its argument: a slash is appended. -/
def takeTempPath (_ value : ConfToken) (location : LocationBlock) : Except ConfError LocationBlock :=
  .ok (location.setClientBodyTempPath (value.str ++ [slash]))

def clientBodyTempPathDirective :
    List ConfToken → Nat → LocationBlock → Except Halt (Nat × LocationBlock) :=
  oneArg takeTempPath

end Location

/-- The handlers of `_locationDirectives`. -/
def locationHandler :
    LocationDirective → List ConfToken → Nat → LocationBlock → Except Halt (Nat × LocationBlock)
  | .root => rootDirective
  | .allow => allowDirective
  | .clientMaxBodySize => clientMaxBodySizeDirective
  | .autoindex => autoindexDirective
  | .redirect => redirectionDirective
  | .index => indexDirective
  | .cgi => cgiDirective
  | .clientBodyUploadPath => clientBodyUploadPathDirective
  | .clientBodyTempPath => clientBodyTempPathDirective

/-! ## The directives of a server -/

section Server

/-- `ConfFile::_defaultHost`: any address, port 80. -/
def defaultHost : SockAddr where
  addr := 0
  port := 80

/-- `_listenDirective`'s host: `none` where an exception is thrown.  `htons` takes 16 bits. -/
def listenHost (str : Bytes) : Option SockAddr :=
  match Search.findSub [58] str with
  | some sep =>
    match inetPton (str.take sep) with
    | none => none
    | some addr =>
      (stoi 0 uint32Max (str.drop (sep + 1))).map fun port =>
        { addr := addr, port := port.toNat % 2 ^ 16 }
  | none =>
    match inetPton str with
    | some addr => some { defaultHost with addr := addr }
    | none =>
      (stoi 0 uint32Max str).map fun port => { defaultHost with port := port.toNat % 2 ^ 16 }

/-- What `_listenDirective` does with its argument: an address and a port, or one of the two. -/
def takeHost (directive value : ConfToken) (server : ServerBlock) : Except ConfError ServerBlock :=
  match listenHost value.str with
  | some host => .ok (server.addHost host)
  | none => .error (.hostNotFound directive value)

def listenDirective : List ConfToken → Nat → ServerBlock → Except Halt (Nat × ServerBlock) :=
  oneArg takeHost

/-- The loop of `_serverNameDirective`, which accepts every word. -/
def addNames (server : ServerBlock) (name : ConfToken) : Except ConfError ServerBlock :=
  .ok (server.addName name.str)

def serverNameDirective : List ConfToken → Nat → ServerBlock → Except Halt (Nat × ServerBlock) :=
  eachArg addNames

/-- `ft::stoi<status_code_t>` and the check of its range. -/
def errorStatus (str : Bytes) : Option Nat :=
  match stoi 0 uint16Max str with
  | some code => if code < 400 ∨ code > 599 then none else some code.toNat
  | none => none

/-- The loop of `_errorPageDirective`: the last word is the file, and the others are status codes. -/
def addErrorPages (directive : ConfToken) (file : Path) (server : ServerBlock) (code : ConfToken) :
    Except ConfError ServerBlock :=
  match errorStatus code.str with
  | some status => .ok (server.addErrorPage status file)
  | none => .error (.invalidValue directive code)

/-- `ConfFile::_errorPageDirective`.  Before a root is known the arguments are skipped. -/
def errorPageDirective (root : Path) (tokens : List ConfToken) (token : Nat) (server : ServerBlock) :
    Except Halt (Nat × ServerBlock) := do
  let (directive, args) ← enter tokens token (2 ≤ ·)
  if root.isEmpty then return (token + 1 + args, server)
  else
    let last ← deref tokens (token + 1 + args - 1)
    let file := Path.ofString (root.str ++ last.str)
    let (token, server) ← forEach tokens
      (fun server code => lift (addErrorPages directive file server code)) (args - 1) (token + 1)
      server
    return (token + 1, server)

/-- The body of the loop of `_locationDirective`: a directive of the table, which is not the last token of
the file. -/
def locationBody (tokens : List ConfToken) (t : ConfToken) (token : Nat) (location : LocationBlock) :
    Except Halt (Nat × LocationBlock) :=
  match LocationDirective.ofName t.str with
  | some dir =>
    if token + 1 = tokens.length then
      throw (.exception (.unexpectedEOFEither t semicolon blockClose))
    else locationHandler dir tokens token location
  | none => throw (.exception (.unkwownDirective t))

/-- `ConfFile::_locationDirective`.  Every round of the loop moves the cursor on, so that one round
more than there are tokens is enough. -/
def locationDirective (tokens : List ConfToken) (token : Nat) (server : ServerBlock) :
    Except Halt (Nat × ServerBlock) := do
  let args ← countBlockArgs tokens token
  let directive ← deref tokens token
  if args ≠ 1 then throw (.exception (.invalidArgumentNumber directive))
  else
    let target ← deref tokens (token + 1)
    let path := Path.ofString (target.str ++ [slash])
    if !path.isOriginForm then throw (.exception (.invalidPath directive target))
    else
      let (token, location) ← loop tokens ConfToken.isMetatoken (locationBody tokens)
        (tokens.length + 1) (token + 3) { path := path }
      if token = tokens.length then
        let last ← deref tokens (token - 1)
        throw (.exception (.unexpectedEOF last blockClose))
      else
        let t ← deref tokens token
        if !t.is blockClose then throw (.exception (.unexpectedToken t))
        else return (token, server.addLocation location)

/-- The handlers of `_serverDirectives`, with the `_root` that `_errorPageDirective` reads. -/
def serverHandler (root : Path) :
    ServerDirective → List ConfToken → Nat → ServerBlock → Except Halt (Nat × ServerBlock)
  | .listen => listenDirective
  | .serverName => serverNameDirective
  | .location => locationDirective
  | .errorPage => errorPageDirective root

end Server

/-! ## The blocks and the file -/

/-- What the loop of `_serverDirective` works on: `_root`, and its two local variables. -/
structure ServerScope where
  root : Path := {}
  server : ServerBlock := {}
  globalLocation : LocationBlock := ({} : LocationBlock).setDefaults

/-- The body of the loop of `_serverDirective`: the table of the server is tried first, and then that of the
locations. -/
def serverBody (tokens : List ConfToken) (t : ConfToken) (token : Nat) (scope : ServerScope) :
    Except Halt (Nat × ServerScope) := do
  if token + 1 = tokens.length then
    throw (.exception (.unexpectedEOFEither t semicolon blockClose))
  else
    match ServerDirective.ofName t.str with
    | some dir =>
      let (token, server) ← serverHandler scope.root dir tokens token scope.server
      return (token, { scope with server := server })
    | none =>
      match LocationDirective.ofName t.str with
      | some dir =>
        let (token, location) ← locationHandler dir tokens token scope.globalLocation
        return (token, { scope with globalLocation := location, root := location.root })
      | none => throw (.exception (.unkwownDirective t))

/-- What `_serverDirective` makes of the scope at the end of the block. -/
def ServerScope.finish (scope : ServerScope) : ServerBlock :=
  let server := scope.server
  let server := if server.hosts.length = 0 then server.addHost defaultHost else server
  server.fillLocations scope.globalLocation

/-- What `_serverDirective` and `_typesDirective` have in common: a block without arguments, the loop
over what it holds, and the `}`. -/
def readBlock (body : ConfToken → Nat → α → Except Halt (Nat × α)) (tokens : List ConfToken)
    (token : Nat) (s : α) : Except Halt (Nat × α) := do
  let args ← countBlockArgs tokens token
  let directive ← deref tokens token
  if args ≠ 0 then throw (.exception (.invalidArgumentNumber directive))
  else
    let (token, s) ← loop tokens (ConfToken.is · blockClose) body (tokens.length + 1) (token + 2) s
    if token = tokens.length then
      let last ← deref tokens (token - 1)
      throw (.exception (.unexpectedEOF last blockClose))
    else return (token, s)

/-- `ConfFile::_serverDirective`: a block is read, and its server is added to those before it. -/
def serverDirective (tokens : List ConfToken) (token : Nat) (conf : ConfFile) :
    Except Halt (Nat × ConfFile) := do
  let (token, scope) ← readBlock (serverBody tokens) tokens token {}
  return (token, { conf with root := scope.root, blocks := conf.blocks ++ [scope.finish] })

/-- What `timeoutDirective` does with its argument: an `int32_t` that is not negative. -/
def takeTimeout (type : Timeout) (directive value : ConfToken) (conf : ConfFile) :
    Except ConfError ConfFile :=
  match stoi (-2 ^ 31) int32Max value.str with
  | some duration =>
    if duration < 0 then .error (.invalidValue directive value)
    else .ok { conf with timeouts := Function.update conf.timeouts type duration.toNat }
  | none => .error (.invalidValue directive value)

/-- `_clientHeaderTimeoutDirective`, `_clientBodyTimeoutDirective` and `_sendTimeoutDirective`, which
differ in the timeout they set. -/
def timeoutDirective (type : Timeout) : List ConfToken → Nat → ConfFile → Except Halt (Nat × ConfFile) :=
  oneArg (takeTimeout type)

def clientHeaderTimeoutDirective : List ConfToken → Nat → ConfFile → Except Halt (Nat × ConfFile) :=
  timeoutDirective .clientHeader

def clientBodyTimeoutDirective : List ConfToken → Nat → ConfFile → Except Halt (Nat × ConfFile) :=
  timeoutDirective .clientBody

def sendTimeoutDirective : List ConfToken → Nat → ConfFile → Except Halt (Nat × ConfFile) :=
  timeoutDirective .send

/-- The loop of `_loadType`: each extension gets the type, also one that had another. -/
def addTypes (type : ConfToken) (mimetypes : StringMap) (ext : ConfToken) :
    Except ConfError StringMap :=
  .ok (mimetypes.insert ext.str type.str)

/-- `ConfFile::_loadType`.  The first token is the type, whatever it is. -/
def loadType (tokens : List ConfToken) (token : Nat) (mimetypes : StringMap) :
    Except Halt (Nat × StringMap) := do
  let args ← countArgs tokens token
  let type ← deref tokens token
  forEach tokens (fun mimetypes ext => lift (addTypes type mimetypes ext)) args (token + 1) mimetypes

/-- The body of the loop of `_typesDirective`, which looks nothing up: a line of the block is read as it is.
-/
def typesBody (tokens : List ConfToken) (t : ConfToken) (token : Nat) (mimetypes : StringMap) :
    Except Halt (Nat × StringMap) :=
  if token + 1 = tokens.length then
    throw (.exception (.unexpectedEOFEither t semicolon blockClose))
  else loadType tokens token mimetypes

/-- `ConfFile::_typesDirective`: a block is read into the map of the types. -/
def typesDirective (tokens : List ConfToken) (token : Nat) (conf : ConfFile) :
    Except Halt (Nat × ConfFile) := do
  let (token, mimetypes) ← readBlock (typesBody tokens) tokens token conf.mimetypes
  return (token, { conf with mimetypes := mimetypes })

/-- The handlers of `_directives`. -/
def handler : Directive → List ConfToken → Nat → ConfFile → Except Halt (Nat × ConfFile)
  | .server => serverDirective
  | .clientHeaderTimeout => clientHeaderTimeoutDirective
  | .clientBodyTimeout => clientBodyTimeoutDirective
  | .sendTimeout => sendTimeoutDirective
  | .types => typesDirective

/-- The body of the loop of `parse`: a directive of the outermost table, or an error. -/
def parseBody (tokens : List ConfToken) (t : ConfToken) (token : Nat) (conf : ConfFile) :
    Except Halt (Nat × ConfFile) :=
  match Directive.ofName t.str with
  | some dir => handler dir tokens token conf
  | none => throw (.exception (.unkwownDirective t))

/-- `ConfFile::parse` once the tokens are there: the end of the cursor and the configuration. -/
def parseTokens (tokens : List ConfToken) (conf : ConfFile) : Except Halt (Nat × ConfFile) :=
  loop tokens (fun _ => false) (parseBody tokens) (tokens.length + 1) 0 conf

/-- `ConfFile::parse`, on the content of the file or on the error of opening it. -/
def parse (conf : ConfFile) (file : Except Bytes Bytes) : Except Halt (Nat × ConfFile) :=
  match file with
  | .error strerror => throw (.exception (.cannotOpen strerror))
  | .ok content => parseTokens (tokenizeFile content) conf

end ConfFile
end Webserv
