import Webserv.Client

/-!
# The event loop

`Server.cpp` after the configuration: the list of clients, the map from descriptors to clients, and the loop
over a batch of events.  The kernel is in the state as the descriptors that are open and the ones that epoll
watches; every other answer of it is free.

* `EventLoop`: the state of the server.
* `addConnection`, `removeConnection`, `call`, `checkClientsTimeout`: the operations on it.
* `handleEvents`, `routine`: the loop.
* `Operation`, `step`: the operations in any order.

## Why the descriptors are in the state

The kernel may hand out any number that is not open, and a number that was closed may come back at once.  A
model with fresh numbers for ever would not have the error of which every event loop has to be afraid, an
event for a descriptor that has become another client's.  So `opened` is part of the state; the answer of
`accept` and of `socketpair` is any number, and an answer that names an open descriptor counts as a failure,
which is no loss of generality.  `interest` is what epoll watches, and is tied to the events of a batch by
hypotheses and not by the definition.

## What stands for the iterators

`_fdClientMap` holds iterators of a `std::list`.  An iterator is the number of a node here, and no number
comes twice.  Following an iterator to a node that is gone would be undefined; in the model it is a fault,
so a theorem that no fault happens says that no such iterator is followed.

## What a failed fork leaves

When `fork` fails in `_openCGI`, the child's end of the socket pair stays open, and nothing that the server
keeps knows its number.  Such sockets are `orphans`.  They are among the open descriptors, so that the
kernel cannot hand out their numbers again, and nothing ever takes them out.

## What the record is for

`log` says which clients a batch called and which it removed.  The program has nothing of the kind, and no
definition reads it.
-/

namespace Webserv

/-! ## The state -/

/-- `struct epoll_event`, with the bits that the loop tests; `hangup` is `EPOLLERR | EPOLLHUP`, which epoll
reports unasked. -/
structure EpollEvent where
  fd : Fd
  hangup : Bool
  input : Bool
  output : Bool

/-- A node of `_clients`.  The iterators in `_fdClientMap` are the numbers of the nodes. -/
structure ClientNode where
  id : Nat
  client : Client

/-- A call into a client, or its removal: what the log of the loop keeps, so that statements about runs can
be read off it. -/
inductive Action where
  | handleIn (fd : Fd) (id : Nat)
  | handleOut (fd : Fd) (id : Nat)
  | remove (id : Nat)
  deriving DecidableEq

/-- `Server` after `configure`, with what the kernel knows of its descriptors: which are open, and which it
watches for what. -/
structure EventLoop where
  server : Server
  fs : FileSystem
  clients : List ClientNode := []
  fdClientMap : OrderedMap Fd Nat := OrderedMap.empty
  /-- `_events`: what is left of the batch. -/
  events : List EpollEvent := []
  /-- The sockets that the kernel has open. -/
  opened : List Fd
  /-- The sockets that epoll watches. -/
  interest : List Fd
  /-- The child's ends that `_openCGI` left open when `fork` failed: they are among the open sockets, and no
  other part of the server has their numbers. -/
  orphans : List Fd := []
  /-- The number of the next node.  A number never comes twice. -/
  nextId : Nat := 0
  /-- What was done in the batch: a record that the program does not read. -/
  log : List Action := []
  /-- An exception ended the server. -/
  down : Option Fault := none

namespace EventLoop

variable (s : EventLoop)

/-- After `configure`: the listening sockets are open and watched, and nobody has come yet. -/
def start (server : Server) (fs : FileSystem) : EventLoop where
  server := server
  fs := fs
  opened := server.serverBlocks.entries.map Prod.fst
  interest := server.serverBlocks.entries.map Prod.fst

/-- Whether a client may come in on the socket: it has server blocks. -/
def isListening (fd : Fd) : Bool := (s.server.serverBlocks.find? fd).isSome

/-! ## The kernel -/

/-- A descriptor that the kernel hands out: any number that is not open. -/
def fresh (answer : Option Nat) : Option Fd :=
  match answer with
  | none => none
  | some n => if (n : Fd) ∈ s.opened then none else some n

/-- The kernel has one more descriptor open.  The program keeps no such list; it is what the books are
compared with. -/
def openFd (fd : Fd) : EventLoop := { s with opened := fd :: s.opened }

/-- `close`: the number is free to be handed out again. -/
def closeFd (fd : Fd) : EventLoop := { s with opened := s.opened.filter (· ≠ fd) }

/-- `EPOLL_CTL_ADD`, when it succeeds. -/
def watch (fd : Fd) : EventLoop := { s with interest := fd :: s.interest }

/-- `EPOLL_CTL_DEL`, when it succeeds. -/
def unwatch (fd : Fd) : EventLoop := { s with interest := s.interest.filter (· ≠ fd) }

/-! ## The list of clients -/

/-- `*it`: the client of a node, as long as the node is in the list. -/
def client? (id : Nat) : Option Client := (s.clients.find? fun n => n.id = id).map ClientNode.client

/-- `std::find(_clients.begin(), _clients.end(), client)`: clients are compared by their sockets, and not by
their nodes. -/
def findClient (c : Client) : Option ClientNode := s.clients.find? fun n => n.client.fd = c.fd

/-- The client of a node after a call into it. -/
def setClient (id : Nat) (c : Client) : EventLoop :=
  { s with clients := s.clients.map fun n => if n.id = id then { n with client := c } else n }

/-- `_fdClientMap[fd] = it`. -/
def mapFd (fd : Fd) (id : Nat) : EventLoop := { s with fdClientMap := s.fdClientMap.insert fd id }

/-! ## New connections -/

/-- The answers of the kernel to `_addConnection`: the new descriptor, if there is one, and whether it can
be watched. -/
structure AcceptSys where
  accept : Option Nat
  /-- Whether the client can be constructed and put in the list. -/
  construct : Bool
  /-- `epoll_ctl` in `Client::init`. -/
  epollCtl : Bool
  now : Int

/-- `Server::_addConnection`.  Its answer is only reported, and a client whose `init` failed stays in the
list. -/
def addConnection (sys : AcceptSys) (socket : Fd) : EventLoop :=
  match s.fresh sys.accept with
  | none => s
  | some fd =>
    let s := s.openFd fd
    if ¬ sys.construct then s.closeFd fd
    else
      let id := s.nextId
      let s := { s with
        clients := ⟨id, Client.init s.server s.fs socket fd sys.now⟩ :: s.clients
        nextId := id + 1 }
      -- `init` closes the socket when it fails; the client stays in the list
      if ¬ sys.epollCtl then s.closeFd fd
      else (s.watch fd).mapFd fd id

/-- `Server::addCGIToClientMap`, for a client that is found.  The map has an entry for the CGI next to that
of the client. -/
def addCGIToClientMap (socket : Fd) (c : Client) : EventLoop :=
  match s.findClient c with
  | none => s
  | some n => s.mapFd socket n.id

/-! ## Calls into a client -/

/-- The numbers of a socket pair that the kernel hands out: two that are not open. -/
def freshPair (pair : Nat × Nat) : Bool :=
  (pair.1 : Fd) ∉ s.opened ∧ (pair.2 : Fd) ∉ s.opened ∧ pair.1 ≠ pair.2

/-- The answers of the kernel and of `addCGIToClientMap` to a call into a client: a socket pair is of new
numbers. -/
def answers (sys : Sys) (c : Client) : Sys :=
  { sys with
    socketpair := sys.socketpair.filter s.freshPair
    addCGI := (s.findClient c).isSome }

/-- The child's end of a socket pair, if the call has left it open. -/
def leaveOpen (childEnd : Option Fd) : EventLoop :=
  { s with opened := childEnd.toList ++ s.opened, orphans := childEnd.toList ++ s.orphans }

/-- The sockets of the CGI that a call opened: that of the parent is added to epoll and to the map. -/
def attachCGI (sys : Sys) (before after : Client) : EventLoop :=
  let fd := after.context.cgiSocket
  if fd = before.context.cgiSocket then s
  else
    let s := (s.leaveOpen after.context.world.childEnd).openFd fd
    if sys.epollCtl fd then (s.watch fd).addCGIToClientMap fd after else s

/-- A call into a client through an iterator.  An exception leaves the loop, with whatever the call had done
before it. -/
def call (id : Nat) (sys : Sys) (f : Sys → Client → Ret × Client) : Ret × EventLoop :=
  match s.client? id with
  | none => (.throws .nullPointer, { s with down := some .nullPointer })
  | some c =>
    let sys := s.answers sys c
    let r := f sys { c with context := c.context.setFs s.fs }
    let s := ({ s.setClient id r.2 with fs := r.2.context.world.fs } : EventLoop).attachCGI sys c r.2
    match r.1 with
    | .throws fault => (.throws fault, { s with down := some fault })
    | ret => (ret, s)

end EventLoop

/-- `Client::handleIn`: the descriptor tells whether the client socket is meant or that of the CGI. -/
def Client.handleIn (fd : Fd) (sys : Sys) (c : Client) : Ret × Client :=
  if fd = c.fd then c.handleSocketIn sys else c.handleCGIIn sys

/-- `Client::handleOut`, with the same distinction. -/
def Client.handleOut (fd : Fd) (sys : Sys) (c : Client) : Ret × Client :=
  if fd = c.fd then c.handleSocketOut sys else c.handleCGIOut sys

namespace EventLoop

variable (s : EventLoop)

/-! ## Removal -/

/-- One of the two sockets of a client is taken out of epoll and of the map, and closed.  When epoll
refuses, it is none of the three. -/
def dropFd (epollDel : Fd → Bool) (fd : Fd) : Except Fault EventLoop :=
  if fd = -1 then return s
  else if ¬ epollDel fd then throw .runtimeError
  else
    let s := s.unwatch fd
    return ({ s with fdClientMap := s.fdClientMap.erase fd } : EventLoop).closeFd fd

/-- The rest of the batch without the events of a descriptor: they stay in their places, for a descriptor
that is nobody's. -/
def neutralise (fd : Fd) (ev : EpollEvent) : EpollEvent :=
  if ev.fd = fd then ⟨-1, false, false, false⟩ else ev

/-- The body of `_removeConnection` for a client that is dropped: its sockets, its events, its node. -/
def dropClient (epollDel : Fd → Bool) (id : Nat) (c : Client) : Except Fault EventLoop := do
  let s ← s.dropFd epollDel c.fd
  let s ← s.dropFd epollDel c.context.cgiSocket
  return { s with
    events := s.events.map fun ev => neutralise c.context.cgiSocket (neutralise c.fd ev)
    clients := s.clients.filter fun n => n.id ≠ id
    log := s.log ++ [.remove id] }

/-- `Server::_removeConnection`: whether the client was removed.  For a descriptor that is not in the
map `operator[]` makes an iterator that leads nowhere. -/
def removeConnection (epollDel : Fd → Bool) (fd : Fd) : Bool × EventLoop :=
  match (s.fdClientMap.find? fd).bind fun id => (s.client? id).map fun c => (id, c) with
  | none => (false, { s with down := some .nullPointer })
  | some (id, c) =>
    if fd = c.context.cgiSocket then (false, s)
    else
      match s.dropClient epollDel id c with
      | .error fault => (false, { s with down := some fault })
      | .ok s => (true, s)

/-! ## The loop over a batch -/

/-- The answers of the kernel while one event is handled.  Which of them are asked for depends on the event.
-/
structure EventSys where
  accept : AcceptSys
  input : Sys
  output : Sys
  epollDel : Fd → Bool

/-- A part of the body of the loop goes on to the next part, or leaves the body: with `continue`, or
with `break`. -/
abbrev Stage := Except (Bool × EventLoop) EventLoop

/-- `// Error events`: the client is removed.  On the socket of a CGI that is refused, and the event goes
on. -/
def handleHangup (sys : EventSys) (ev : EpollEvent) : Stage :=
  if ev.hangup then
    match s.removeConnection sys.epollDel ev.fd with
    | (removed, s) => if removed ∨ s.down.isSome then throw (s.down.isNone, s) else return s
  else return s

/-- `// Read events`, `// Write events`: the client is looked up again, called, and removed unless it wants
to go on. -/
def handleReady (epollDel : Fd → Bool) (fd : Fd) (ready : Bool) (action : Nat → Action) (sys : Sys)
    (f : Sys → Client → Ret × Client) : Stage :=
  match s.fdClientMap.find? fd with
  | none => throw (true, s)
  | some id =>
    if ready then
      match ({ s with log := s.log ++ [action id] } : EventLoop).call id sys f with
      | (.reqContinue, s) => return s
      | (.throws _, s) => throw (false, s)
      | (_, s) => throw (false, (s.removeConnection epollDel fd).2)
    else return s

/-- The parts of the body for an event of a client, in this order. -/
def handleClient (sys : EventSys) (ev : EpollEvent) : Stage := do
  let s ← s.handleHangup sys ev
  let s ← s.handleReady sys.epollDel ev.fd ev.input (.handleIn ev.fd) sys.input (Client.handleIn ev.fd)
  s.handleReady sys.epollDel ev.fd ev.output (.handleOut ev.fd) sys.output (Client.handleOut ev.fd)

/-- The body of the loop, and whether the loop goes on. -/
def handleEvent (sys : EventSys) (ev : EpollEvent) : Bool × EventLoop :=
  if s.isListening ev.fd then (true, s.addConnection sys.accept ev.fd)
  else if (s.fdClientMap.find? ev.fd).isNone then (true, s)
  else
    match s.handleClient sys ev with
    | .ok s => (true, s)
    | .error r => r

/-- `// Handle events`.  The loop also ends when a signal has come: with the list of answers. -/
def handleEvents : List EventSys → EventLoop → EventLoop
  | [], s => s
  | sys :: answers, s =>
    match s.events with
    | [] => s
    | ev :: events =>
      match handleEvent { s with events := events } sys ev with
      | (true, s) => handleEvents answers s
      | (false, s) => s

/-! ## Timeouts -/

/-- The body of the loop of `_checkClientsTimeout`.  The iterator is advanced before the client may be
removed. -/
def checkClient (sys : Sys) (epollDel : Fd → Bool) (id : Nat) : EventLoop :=
  if s.down.isSome then s
  else
    match s.call id sys fun sys c => c.timeoutCheck sys with
    | (.reqContinue, s) => s
    | (.throws _, s) => s
    | (_, s) =>
      match s.client? id with
      | none => { s with down := some .nullPointer }
      | some c => (s.removeConnection epollDel c.fd).2

/-- `Server::_checkClientsTimeout`, over the clients that were in the list when it began. -/
def checkClientsTimeout (answers : Nat → Sys) (epollDel : Fd → Bool) : EventLoop :=
  (s.clients.map ClientNode.id).foldl (fun s id => s.checkClient (answers id) epollDel id) s

/-- `while (_clients.size())` after a signal, for `n` clients; each removal takes one client from the list. -/
def removeAll (epollDel : Fd → Bool) : Nat → EventLoop → EventLoop
  | 0, s => s
  | n + 1, s =>
    match s.clients with
    | [] => s
    | node :: _ =>
      let s := (s.removeConnection epollDel node.client.fd).2
      if s.down.isSome then s else removeAll epollDel n s

/-- `Server::routine`, for the events that `epoll_wait` returned: the batch, and then the sweep, or the end
after a signal. -/
def routine (events : List EpollEvent) (answers : List EventSys) (signal : Bool)
    (timeouts : Nat → Sys) (epollDel : Fd → Bool) : EventLoop :=
  let s := handleEvents answers { s with events := events }
  if s.down.isSome then s
  else if signal then removeAll epollDel s.clients.length s
  else s.checkClientsTimeout timeouts epollDel

/-! ## The operations in any order -/

/-- An operation of the server, with the answers of the kernel to it. -/
inductive Operation where
  | addConnection (sys : AcceptSys) (socket : Fd)
  /-- `it->second->handleIn(fd)`, which may register a CGI. -/
  | handleIn (sys : Sys) (fd : Fd)
  | handleOut (sys : Sys) (fd : Fd)
  | removeConnection (epollDel : Fd → Bool) (fd : Fd)
  | checkClientsTimeout (answers : Nat → Sys) (epollDel : Fd → Bool)

/-- A call into the client that a descriptor is mapped to. -/
def callFd (fd : Fd) (sys : Sys) (f : Sys → Client → Ret × Client) : EventLoop :=
  match s.fdClientMap.find? fd with
  | none => s
  | some id => (s.call id sys f).2

/-- One operation.  A server that an exception has ended takes none. -/
def step (op : Operation) : EventLoop :=
  if s.down.isSome then s
  else
    match op with
    | .addConnection sys socket => s.addConnection sys socket
    | .handleIn sys fd => s.callFd fd sys (Client.handleIn fd)
    | .handleOut sys fd => s.callFd fd sys (Client.handleOut fd)
    | .removeConnection epollDel fd => (s.removeConnection epollDel fd).2
    | .checkClientsTimeout answers epollDel => s.checkClientsTimeout answers epollDel

/-- The server after a list of operations, in any order; `routine` makes some of these lists and no others. -/
abbrev run (ops : List Operation) : EventLoop := Transition.run step s ops

end EventLoop
end Webserv
