import Webserv.Path
import Webserv.Message

/-!
# Locations, server blocks and the configured server

What the configuration parser leaves behind, and the look-ups that a request makes in it.  A client reads
the server only: its blocks for the listening socket, its timeouts and its MIME types.

* `LocationBlock`, `ServerBlock`, `Server`: the three levels of the configuration.
* `ServerBlock.findLocationBlock`: which location a target is in.
* `Server.findServerBlock`: which block answers for a name, on a socket.
* `Server.hasLocation_of_find`: what the two find is in the configuration.

## What a block does not say

A value of `-1` in `dirListing` and in `maxBodySize` stands for "not set", and the parser fills both in
before the server runs, from the server block or from the defaults.  The model keeps the `-1`, because some
parts of the program run before that.  The set of the allowed methods is a bit set in the source and here a
natural number that is tested with `Nat.testBit`, so that a block that names no method has none.

## Why the limit carries a bound

`maxBodySize` is an `int32_t`, and everything that is proved about the sizes of bodies needs that no limit
is above 2^31 - 1.  The bound is a field of the structure.  No block without it can be built, and no theorem
has to assume it.

## Why the loop of `findLocationBlock` keeps its two variables

The source walks over the locations with the best match so far and its length, and returns at once when a
location matches the whole target.  The model has the same two variables as arguments.  That the loop finds
the longest match, and the first of several that are equally long, is a theorem about it (in
`LocationMatching`) and not its definition.
-/

namespace Webserv

/-! ## Locations -/

theorem notSet_le_int32Max : (-1 : Int) ≤ int32Max := by decide

theorem hundred_le_int32Max : (100 : Int) ≤ int32Max := by decide

/-- `LocationBlock`.  `-1` in `dirListing` and `maxBodySize` is "not set"; `allowed` is the bit
set of the allowed methods, bit `i` for the method of index `i`.  The body limit is an
`int32_t`. -/
structure LocationBlock where
  path : Path := {}
  dirListing : Int := -1
  maxBodySize : Int := -1
  root : Path := {}
  allowed : Nat := 0
  redirection : Nat × Bytes := (0, [])
  indexes : List Bytes := []
  gcis : OrderedMap Bytes Path := OrderedMap.empty
  clientBodyUploadPath : Path := {}
  clientBodyTempPath : Path := {}
  maxBodySize_le : maxBodySize ≤ int32Max := by first | exact Webserv.notSet_le_int32Max | decide

namespace LocationBlock

/-- `LocationBlock::match`: the components of the location are the first of the target. -/
def isMatch (loc : LocationBlock) (target : Path) : Bool := loc.path.prefixMatch target

def isDirListing (loc : LocationBlock) : Bool := loc.dirListing = 1

def canUpload (loc : LocationBlock) : Bool := !loc.clientBodyUploadPath.isEmpty

def getMaxBodySize (loc : LocationBlock) : Int := loc.maxBodySize

def isAllowed (loc : LocationBlock) (m : Method) : Bool := loc.allowed.testBit m.index

/-- `LocationBlock::findCGI`: the interpreter for an extension, which is compared letter by letter. -/
def findCGI (loc : LocationBlock) (extension : Bytes) : Option Path := loc.gcis.find? extension

/-- `LocationBlock::clientBodyTempPath`: the upload path unless one was given. -/
def bodyTempPath (loc : LocationBlock) : Path :=
  if loc.clientBodyTempPath.isEmpty then loc.clientBodyUploadPath else loc.clientBodyTempPath

def hasClientBodyTempPath (loc : LocationBlock) : Bool := !loc.clientBodyTempPath.isEmpty

end LocationBlock

/-! ## Server blocks -/

/-- `struct sockaddr_in`. -/
structure SockAddr where
  addr : Nat
  port : Nat
  deriving DecidableEq

/-- `ServerBlock`: the addresses, the names, the locations in the order of the file, and the error pages. -/
structure ServerBlock where
  hosts : List SockAddr := []
  names : List Bytes := []
  locations : List LocationBlock := []
  errorPages : OrderedMap Nat Path := OrderedMap.empty

namespace ServerBlock

/-- The loop of `findLocationBlock`, with its `selected` and `bestMatch`. -/
def findLocationLoop (target : Path) :
    List LocationBlock → Option LocationBlock → Nat → Option LocationBlock
  | [], selected, _ => selected
  | loc :: locations, selected, bestMatch =>
    if loc.path.length > target.length then findLocationLoop target locations selected bestMatch
    else if loc.isMatch target then
      if loc.path.prefixLength = target.length then some loc
      else if loc.path.prefixLength > bestMatch ∨ selected.isNone then
        findLocationLoop target locations (some loc) loc.path.prefixLength
      else findLocationLoop target locations selected bestMatch
    else findLocationLoop target locations selected bestMatch

/-- `ServerBlock::findLocationBlock`: the loop over the locations, with none selected at its start. -/
def findLocationBlock (block : ServerBlock) (target : Path) : Option LocationBlock :=
  findLocationLoop target block.locations none 0

/-- `ServerBlock::findErrorPage`: the page that the map has for a status, if it has one. -/
def findErrorPage (block : ServerBlock) (code : Nat) : Option Path := block.errorPages.find? code

end ServerBlock

/-! ## The server, as a client sees it -/

/-- `enum timeout`. -/
inductive Timeout where
  | clientHeader | clientBody | send
  deriving DecidableEq

/-- `Server`.  The parser refuses negative timeouts; 0 switches a timeout off. -/
structure Server where
  serverBlocks : OrderedMap Int (List ServerBlock)
  timeouts : Timeout → Nat
  mimetypes : StringMap

namespace Server

/-- `Server::findServerBlock`: the first block with that name, else the first of the socket; `none` where
`at` throws or the list has no front. -/
def findServerBlock (server : Server) (socket : Fd) (host : Bytes) : Option ServerBlock :=
  match server.serverBlocks.find? socket with
  | none => none
  | some blocks =>
    match blocks.find? fun block => block.names.contains host with
    | some block => some block
    | none => blocks.head?

/-- `Server::getTimeout`. -/
def getTimeout (server : Server) (type : Timeout) : Nat := server.timeouts type

/-- `Server::getMimeType`: what the configuration says of the extension, and bytes of no type otherwise. -/
def getMimeType (server : Server) (ext : Bytes) : Bytes :=
  (server.mimetypes.find? ext).getD (bytes "application/octet-stream")

/-- The location is one of the configuration: what is proved of every location of a server is true of it. -/
def HasLocation (server : Server) (loc : LocationBlock) : Prop :=
  ∃ socket blocks block, server.serverBlocks.find? socket = some blocks ∧ block ∈ blocks ∧
    loc ∈ block.locations

/-- A server with one block, which listens on one socket. -/
def single (socket : Fd) (block : ServerBlock) (timeouts : Timeout → Nat) : Server where
  serverBlocks := OrderedMap.empty.insert socket [block]
  timeouts := timeouts
  mimetypes := OrderedMap.empty

/-- The loop returns a location of the list, or the one it was called with. -/
theorem mem_of_findLocationLoop {target : Path} {loc : LocationBlock} :
    ∀ {locations : List LocationBlock} {selected : Option LocationBlock} {bestMatch : Nat},
      ServerBlock.findLocationLoop target locations selected bestMatch = some loc →
        loc ∈ locations ∨ selected = some loc
  | [], _, _, h => Or.inr h
  | first :: locations, selected, bestMatch, h => by
    have hrest : ∀ {selected bestMatch},
        ServerBlock.findLocationLoop target locations selected bestMatch = some loc →
          loc ∈ first :: locations ∨ selected = some loc := fun h =>
      (mem_of_findLocationLoop h).imp_left (List.mem_cons_of_mem first)
    rw [ServerBlock.findLocationLoop] at h
    split_ifs at h
    · exact hrest h
    · exact Or.inl (Option.some.inj h ▸ List.mem_cons_self)
    · exact (hrest h).elim Or.inl fun heq => Or.inl (Option.some.inj heq ▸ List.mem_cons_self)
    · exact hrest h
    · exact hrest h

/-- What the look-ups of a request find is a location of the server that was configured. -/
theorem hasLocation_of_find {server : Server} {socket : Fd} {host : Bytes} {block : ServerBlock}
    {target : Path} {loc : LocationBlock} (hblock : server.findServerBlock socket host = some block)
    (hloc : block.findLocationBlock target = some loc) : server.HasLocation loc := by
  unfold findServerBlock at hblock
  cases hfind : server.serverBlocks.find? socket with
  | none =>
    rw [hfind] at hblock
    cases hblock
  | some blocks =>
    rw [hfind] at hblock
    refine ⟨socket, blocks, block, hfind, ?_,
      (mem_of_findLocationLoop hloc).resolve_right fun heq => nomatch heq⟩
    dsimp only at hblock
    cases hnamed : blocks.find? fun block => block.names.contains host with
    | none =>
      rw [hnamed] at hblock
      exact List.mem_of_mem_head? hblock
    | some named =>
      rw [hnamed] at hblock
      exact Option.some.inj hblock ▸ List.mem_of_find?_eq_some hnamed

end Server
end Webserv
