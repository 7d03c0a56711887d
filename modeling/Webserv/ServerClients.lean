import Webserv.ServerLoop
import Webserv.Phases
import Webserv.Idle

/-!
# The clients of a server

The clients of a server share its file system, and nothing else: a client that is in the list of a server is
in a state that it could be in on its own, after calls on its own two sockets, checks of its timeouts and
changes of the file system by others.  What is proved of the runs of one client holds for every client of a
server.

* `SameConnection`: what no call into a client writes.
* `Client.Reached`: a client that is open after a run of its own.
* `exists_event_of_handles`: a call through the map is an event of the client.
* `reached_serve`: the clients of a server are such.

## Why this is needed

A property of a request is a property of one client, and it is proved of `Client.run`, where the events come
in any order and with any answers.  The program never runs one client.  `reached_serve` is the bridge: it
takes a state of the whole server, after any number of calls of `routine`, and gives for each of its clients
a list of events of that client alone which leads to the same state.  `Reached.of_run` then carries over any
statement about the runs of a client.

## What the events are

A call on a descriptor of the map is a call on one of the two sockets of its client.  The server looks at
the answer differently for the two: on the client's own socket anything but `REQ_CONTINUE` removes the
client, on that of the CGI only an exception does, because `_removeConnection` refuses such a descriptor.
The step of the client has the same two rules, `settle` and `settleCGI`, so a call that leaves the client in
the list is a step that leaves it open.  What the other clients do to the files in the meantime is an event
`environment` in between, before the next call.

## What is assumed

Every accepted socket can be added to epoll.  Without it a client may be in the list whose socket is closed
and given out again, and of such a client no run of its own is known.
-/

namespace Webserv
namespace Client

/-! ## What no call writes -/

/-- The sockets that a client was accepted on and with are the same, and it is as open as before: what only
the server itself decides. -/
structure SameConnection (c c' : Client) : Prop where
  connectSocket : c'.connectSocket = c.connectSocket
  fd : c'.fd = c.fd
  closed : c'.closed = c.closed

namespace SameConnection

theorem refl (c : Client) : SameConnection c c := ⟨rfl, rfl, rfl⟩

theorem trans {c₁ c₂ c₃ : Client} (h₁₂ : SameConnection c₁ c₂) (h₂₃ : SameConnection c₂ c₃) :
    SameConnection c₁ c₃ :=
  ⟨h₂₃.connectSocket.trans h₁₂.connectSocket, h₂₃.fd.trans h₁₂.fd, h₂₃.closed.trans h₁₂.closed⟩

/-- A call after an update that writes none of the three. -/
theorem after {c₁ c₂ c₃ : Client} (h₂₃ : SameConnection c₂ c₃) (h₁₂ : SameConnection c₁ c₂) :
    SameConnection c₁ c₃ := h₁₂.trans h₂₃

end SameConnection

section SameConnection

variable (c : Client) (sys : Sys)

theorem sameConnection_switchToWrite : SameConnection c (c.switchToWrite sys).2 := by
  rcases switchToWrite_cases c sys with heq | heq <;> rw [heq] <;> exact ⟨rfl, rfl, rfl⟩

theorem sameConnection_startResponse : SameConnection c (c.startResponse sys).2 := by
  obtain ⟨f, heq, -⟩ := prepareError_cases c sys
  unfold startResponse
  dsimp only
  rw [heq]
  refine (sameConnection_switchToWrite _ sys).after ?_
  split_ifs <;> exact ⟨rfl, rfl, rfl⟩

theorem sameConnection_respondTimeout : SameConnection c (c.respondTimeout sys).2 := by
  unfold respondTimeout
  extract_lets c₁
  obtain ⟨f, heq, -⟩ := loadErrorPage_cases c₁ sys
  rw [heq]
  exact (sameConnection_switchToWrite _ sys).after ⟨rfl, rfl, rfl⟩

theorem sameConnection_timeoutCheck : SameConnection c (c.timeoutCheck sys).2 := by
  unfold timeoutCheck
  split_ifs
  · exact (sameConnection_respondTimeout _ sys).after ⟨rfl, rfl, rfl⟩
  · exact (sameConnection_respondTimeout _ sys).after ⟨rfl, rfl, rfl⟩
  · exact .refl c
  · exact (sameConnection_respondTimeout _ sys).after ⟨rfl, rfl, rfl⟩
  · exact .refl c

theorem sameConnection_parseRequest : SameConnection c (c.parseRequest sys).2 := by
  unfold parseRequest
  obtain ⟨ret, ctx⟩ := c.context.parseHead
  cases ret with
  | reqContinue | reqError | throws => exact ⟨rfl, rfl, rfl⟩
  | reqDone =>
    dsimp only
    split_ifs
    · have hresolves := resolves_resolveARequest { c with context := ctx } sys
      have hsame : SameConnection c (resolveARequest { c with context := ctx } sys).2 := by
        generalize resolveARequest { c with context := ctx } sys = r at hresolves
        cases hresolves <;> exact ⟨rfl, rfl, rfl⟩
      generalize resolveARequest { c with context := ctx } sys = r at hsame ⊢
      obtain ⟨ret, c'⟩ := r
      cases ret with
      | reqContinue => exact hsame.trans ⟨rfl, rfl, rfl⟩
      | reqDone | reqError | throws => exact hsame
    · exact ⟨rfl, rfl, rfl⟩

theorem sameConnection_handleRequest : SameConnection c (c.handleRequest sys).2 := by
  unfold handleRequest
  cases c.request with
  | none => exact sameConnection_startResponse c sys
  | some request =>
    dsimp only
    split_ifs
    · exact sameConnection_startResponse c sys
    · generalize Handler.workIn sys _ = r
      obtain ⟨ret, h⟩ := r
      cases ret with
      | reqDone => exact (sameConnection_startResponse _ sys).after ⟨rfl, rfl, rfl⟩
      | reqContinue | reqError | throws => exact ⟨rfl, rfl, rfl⟩

theorem sameConnection_handleSocketIn : SameConnection c (c.handleSocketIn sys).2 := by
  rcases handleSocketIn_cases c sys with ⟨-, heq, -⟩ | ⟨-, buffer, timestamp, -, heq, -⟩
  · rw [heq]
    exact .refl c
  · rw [heq]
    have hread : SameConnection c (c.withRead buffer timestamp) := ⟨rfl, rfl, rfl⟩
    refine hread.trans ?_
    unfold handleRead
    split_ifs
    · exact sameConnection_handleRequest _ sys
    · have hparse := sameConnection_parseRequest (c.withRead buffer timestamp) sys
      generalize (c.withRead buffer timestamp).parseRequest sys = r at hparse ⊢
      obtain ⟨ret, c'⟩ := r
      cases ret with
      | reqDone => exact hparse.trans (sameConnection_handleRequest c' sys)
      | reqContinue | reqError | throws => exact hparse

theorem sameConnection_handleSocketOut : SameConnection c (c.handleSocketOut sys).2 := by
  have hproduce : SameConnection c (c.produce sys).2 := by
    unfold produce
    split_ifs
    · exact .refl c
    · unfold readErrorPage
      dsimp only
      split_ifs <;> exact ⟨rfl, rfl, rfl⟩
    · cases c.request with
      | none => exact .refl c
      | some request =>
        dsimp only
        generalize Handler.workOut sys ⟨c.context, request⟩ = r
        obtain ⟨ret, h⟩ := r
        cases ret <;> exact ⟨rfl, rfl, rfl⟩
  unfold handleSocketOut
  generalize c.produce sys = r at hproduce ⊢
  obtain ⟨ret, c'⟩ := r
  cases ret with
  | reqContinue =>
    refine SameConnection.after ?_ hproduce
    show SameConnection c' (c'.sendResponse sys).2
    rcases sendResponse_cases c' sys with heq | ⟨n, heq⟩ <;> rw [heq]
    · exact .refl c'
    · unfold takeResponse
      split_ifs <;> exact ⟨rfl, rfl, rfl⟩
  | reqDone | reqError | throws => exact hproduce

theorem sameConnection_handleCGIIn : SameConnection c (c.handleCGIIn sys).2 := by
  unfold handleCGIIn
  cases c.request <;> exact ⟨rfl, rfl, rfl⟩

theorem sameConnection_handleCGIOut : SameConnection c (c.handleCGIOut sys).2 := by
  unfold handleCGIOut
  cases c.request <;> exact ⟨rfl, rfl, rfl⟩

end SameConnection

/-- No step changes the sockets of a client. -/
theorem sockets_step (c : Client) (e : Event) :
    (c.step e).connectSocket = c.connectSocket ∧ (c.step e).fd = c.fd := by
  have hsettle : ∀ r : Ret × Client, SameConnection c r.2 →
      (settle r).connectSocket = c.connectSocket ∧ (settle r).fd = c.fd :=
    fun _ h => ⟨h.connectSocket, h.fd⟩
  have hsettleCGI : ∀ r : Ret × Client, SameConnection c r.2 →
      (settleCGI r).connectSocket = c.connectSocket ∧ (settleCGI r).fd = c.fd :=
    fun _ h => ⟨h.connectSocket, h.fd⟩
  unfold step
  by_cases hclosed : c.closed = true
  · rw [if_pos hclosed]
    exact ⟨rfl, rfl⟩
  · rw [if_neg hclosed]
    cases e with
    | clientIn sys => exact hsettle _ (sameConnection_handleSocketIn c sys)
    | clientOut sys => exact hsettle _ (sameConnection_handleSocketOut c sys)
    | cgiIn sys =>
      dsimp only
      split_ifs
      · exact ⟨rfl, rfl⟩
      · exact hsettleCGI _ (sameConnection_handleCGIIn c sys)
    | cgiOut sys =>
      dsimp only
      split_ifs
      · exact ⟨rfl, rfl⟩
      · exact hsettleCGI _ (sameConnection_handleCGIOut c sys)
    | timeoutCheck sys => exact hsettle _ (sameConnection_timeoutCheck c sys)
    | environment fs => exact ⟨rfl, rfl⟩

/-! ## A client on its own -/

/-- The client is open after some run of its own, from a connection that came in on a listening socket
of the server. -/
structure Reached (server : Server) (c : Client) : Prop where
  isOpen : c.closed = false
  run : ∃ (fs : FileSystem) (connectSocket : Fd) (now : Int) (es : List Event),
    (server.serverBlocks.find? connectSocket).isSome = true ∧
      c = (init server fs connectSocket c.fd now).run es

theorem reached_init (server : Server) (fs : FileSystem) {connectSocket : Fd}
    (hlistening : (server.serverBlocks.find? connectSocket).isSome = true) (fd : Fd) (now : Int) :
    Reached server (init server fs connectSocket fd now) :=
  ⟨rfl, fs, connectSocket, now, [], hlistening, rfl⟩

/-- One more event that does not close the client. -/
theorem Reached.step {server : Server} {c : Client} (h : Reached server c) {e : Event}
    (hopen : (c.step e).closed = false) : Reached server (c.step e) := by
  obtain ⟨-, fs, connectSocket, now, es, hlistening, heq⟩ := h
  refine ⟨hopen, fs, connectSocket, now, es ++ [e], hlistening, ?_⟩
  rw [(sockets_step c e).2, Client.run, Transition.run_append]
  exact congrArg (fun c' => Client.step c' e) heq

/-- What holds of every run from a new connection holds of the client. -/
theorem Reached.of_run {server : Server} {c : Client} (h : Reached server c) {I : Client → Prop}
    (hI : ∀ (fs : FileSystem) (connectSocket fd : Fd) (now : Int) (es : List Event),
      I ((init server fs connectSocket fd now).run es)) : I c := by
  obtain ⟨-, fs, connectSocket, now, es, -, heq⟩ := h
  rw [heq]
  exact hI _ _ _ _ _

section Calls

variable {server : Server} {c : Client}

/-- Another client has changed the file system.  To this one it is a change by somebody else, which may
happen before any of its events. -/
theorem Reached.setFs (h : Reached server c) (fs : FileSystem) :
    Reached server { c with context := c.context.setFs fs } := by
  have hstep : c.step (.environment fs) = { c with context := c.context.setFs fs } := by
    unfold Client.step
    rw [if_neg (by rw [h.isOpen]; exact Bool.false_ne_true)]
  rw [← hstep]
  refine h.step ?_
  rw [hstep]
  exact h.isOpen

/-- A call on the client's own socket that does not end it. -/
theorem Reached.settle (h : Reached server c) {e : Event} {r : Ret × Client}
    (hstep : c.step e = Client.settle r) (hsame : SameConnection c r.2) (hret : r.1 = .reqContinue) :
    Reached server r.2 := by
  have hopen : r.2.closed = false := hsame.closed.trans h.isOpen
  have heq : c.step e = r.2 := by
    rw [hstep, ← settle_continue hopen, ← hret]
  rw [← heq]
  refine h.step ?_
  rw [heq]
  exact hopen

/-- A call on the socket of the CGI that throws no exception. -/
theorem Reached.settleCGI (h : Reached server c) {e : Event} {r : Ret × Client}
    (hstep : c.step e = Client.settleCGI r) (hsame : SameConnection c r.2)
    (hret : ∀ fault, r.1 ≠ .throws fault) : Reached server r.2 := by
  have hopen : r.2.closed = false := hsame.closed.trans h.isOpen
  have heq : c.step e = r.2 := by
    rw [hstep, Client.settleCGI]
    obtain ⟨ret, c'⟩ := r
    cases ret with
    | throws fault => exact absurd rfl (hret fault)
    | reqContinue | reqDone | reqError =>
      cases c'
      cases hopen
      rfl
  rw [← heq]
  refine h.step ?_
  rw [heq]
  exact hopen

/-- An open client takes its step.  The handler of the event is called, and its answer decides whether the
client is closed. -/
theorem Reached.step_eq (h : Reached server c) (e : Event) : c.step e = match e with
    | .clientIn sys => Client.settle (c.handleSocketIn sys)
    | .clientOut sys => Client.settle (c.handleSocketOut sys)
    | .cgiIn sys =>
      if c.context.cgiSocket = -1 then c else Client.settleCGI (c.handleCGIIn sys)
    | .cgiOut sys =>
      if c.context.cgiSocket = -1 then c else Client.settleCGI (c.handleCGIOut sys)
    | .timeoutCheck sys => Client.settle (c.timeoutCheck sys)
    | .environment fs => { c with context := c.context.setFs fs } :=
  if_neg (by rw [h.isOpen]; exact Bool.false_ne_true)

theorem Reached.timeoutCheck (h : Reached server c) {sys : Sys}
    (hret : (c.timeoutCheck sys).1 = .reqContinue) : Reached server (c.timeoutCheck sys).2 :=
  h.settle (h.step_eq (.timeoutCheck sys)) (sameConnection_timeoutCheck c sys) hret

end Calls

end Client

/-! ## The clients of a server -/

namespace EventLoop

/-- Every accepted socket can be added to epoll. -/
def Iteration.Admits (it : Iteration) : Prop := ∀ sys ∈ it.answers, sys.accept.epollCtl = true

/-- The table is sound, and every client in it is one that could be on its own. -/
structure Lives (s : EventLoop) : Prop extends Sound s where
  reached : ∀ n ∈ s.clients, n.client.Reached s.server

section Lives

variable {s s' : EventLoop} {id : Nat} {c : Client}

theorem Lives.congr (h : Lives s) (hserver : s'.server = s.server) (hclients : s'.clients = s.clients)
    (hmap : s'.fdClientMap = s.fdClientMap) (hopened : s'.opened = s.opened)
    (hinterest : s'.interest = s.interest) (hid : s'.nextId = s.nextId) : Lives s' where
  toSound := h.toSound.congr hserver hclients hmap hopened hinterest hid
  reached := by
    rw [hclients, hserver]
    exact h.reached

theorem lives_start (server : Server) (fs : FileSystem) : Lives (start server fs) where
  toSound := sound_start server fs
  reached := fun _ hn => absurd hn List.not_mem_nil

theorem Lives.addConnection (h : Lives s) {sys : AcceptSys} {socket : Fd}
    (hctl : sys.epollCtl = true) (hlistening : s.isListening socket = true) :
    Lives (s.addConnection sys socket) := by
  have hinit : ¬ s.FailsInit sys := by
    rintro ⟨-, -, hfails⟩
    rw [hctl] at hfails
    cases hfails
  refine ⟨h.toSound.addConnection hinit socket, ?_⟩
  rw [server_addConnection]
  unfold EventLoop.addConnection
  cases s.fresh sys.accept with
  | none => exact h.reached
  | some fd =>
    dsimp only
    intro n hn
    split_ifs at hn
    · rcases List.mem_cons.mp hn with rfl | hn
      · exact Client.reached_init s.server s.fs hlistening fd sys.now
      · exact h.reached n hn
    · exact h.reached n hn

/-- The answer of a call is that of the client. -/
theorem call_fst (hclient : s.client? id = some c) (sys : Sys) (f : Sys → Client → Ret × Client) :
    (s.call id sys f).1 = (f (s.answers sys c) { c with context := c.context.setFs s.fs }).1 := by
  unfold EventLoop.call
  rw [hclient]
  dsimp only
  generalize f (s.answers sys c) { c with context := c.context.setFs s.fs } = r
  obtain ⟨ret, c'⟩ := r
  cases ret <;> rfl

theorem down_of_call_fst {sys : Sys} {f : Sys → Client → Ret × Client} {fault : Fault}
    (h : (s.call id sys f).1 = .throws fault) : (s.call id sys f).2.down.isSome = true := by
  unfold EventLoop.call at h ⊢
  cases hclient : s.client? id with
  | none => rfl
  | some c =>
    rw [hclient] at h
    dsimp only at h ⊢
    generalize f (s.answers sys c) { c with context := c.context.setFs s.fs } = r at h ⊢
    obtain ⟨ret, c'⟩ := r
    cases ret with
    | throws fault => rfl
    | reqContinue | reqDone | reqError => cases h

/-- The clients after a call: the one that was called, as the call left it, and the others as they were. -/
theorem mem_call (hclient : s.client? id = some c) {sys : Sys} {f : Sys → Client → Ret × Client}
    {n : ClientNode} (hn : n ∈ (s.call id sys f).2.clients) :
    n = ⟨id, (f (s.answers sys c) { c with context := c.context.setFs s.fs }).2⟩ ∨
      n ∈ s.clients ∧ n.id ≠ id := by
  unfold EventLoop.call at hn
  rw [hclient] at hn
  dsimp only at hn
  generalize f (s.answers sys c) { c with context := c.context.setFs s.fs } = r at hn ⊢
  obtain ⟨opened, interest, orphans, map, hattach⟩ := attachCGI_eq
    ({ s.setClient id r.2 with fs := r.2.context.world.fs } : EventLoop) (s.answers sys c) c r.2
  rw [hattach] at hn
  have hmem : n ∈ (s.setClient id r.2).clients := by
    obtain ⟨ret, c'⟩ := r
    cases ret <;> exact hn
  exact (mem_setClient (client?_eq_some hclient)).mp hmem

/-- A client that is called, and what it is afterwards. -/
theorem Lives.call (h : Lives s) (hclient : s.client? id = some c) {sys : Sys}
    {f : Sys → Client → Ret × Client} (hf : Admissible f { c with context := c.context.setFs s.fs })
    (hret : ∀ fault, (s.call id sys f).1 ≠ .throws fault)
    (hreached : Client.Reached s.server
      (f (s.answers sys c) { c with context := c.context.setFs s.fs }).2) :
    Lives (s.call id sys f).2 := by
  refine ⟨h.toSound.call_of_returns hclient hf hret, fun n hn => ?_⟩
  rw [server_call]
  rcases mem_call hclient hn with rfl | ⟨hn, -⟩
  · exact hreached
  · exact h.reached n hn

/-- The clients after a removal through a descriptor of the map. -/
theorem Sound.clients_removeConnection (h : Sound s) {n : ClientNode} (hn : n ∈ s.clients) {fd : Fd}
    (hfind : s.fdClientMap.find? fd = some n.id) (epollDel : Fd → Bool)
    (hdown : (s.removeConnection epollDel fd).2.down = none) :
    fd = n.client.context.cgiSocket ∧ (s.removeConnection epollDel fd).2 = s ∨
      (s.removeConnection epollDel fd).2.clients = s.clients.filter (·.id ≠ n.id) := by
  obtain ⟨c, hclient, howns⟩ := h.client? hfind
  have hmem := client?_eq_some hclient
  obtain rfl : n.client = c := congrArg ClientNode.client (h.eq_of_id hn hmem rfl)
  have hfd := (h.mapped _ _ (h.own n hn)).2.1
  unfold EventLoop.removeConnection at hdown ⊢
  rw [hfind, Option.bind_some, hclient, Option.map_some] at hdown ⊢
  dsimp only at hdown ⊢
  split_ifs at hdown ⊢ with hcgi
  · exact Or.inl ⟨hcgi, rfl⟩
  · cases hdrop : s.dropClient epollDel n.id n.client with
    | error fault =>
      rw [hdrop] at hdown
      cases hdown
    | ok s' => exact Or.inr (dropped_dropClient hfd hdrop).clients

theorem Lives.removeConnection (h : Lives s) (epollDel : Fd → Bool) (fd : Fd)
    (hdown : (s.removeConnection epollDel fd).2.down = none) :
    Lives (s.removeConnection epollDel fd).2 := by
  refine ⟨h.toSound.removeConnection epollDel fd hdown, fun n hn => ?_⟩
  rw [server_removeConnection]
  cases hfind : s.fdClientMap.find? fd with
  | none =>
    unfold EventLoop.removeConnection at hdown
    rw [hfind] at hdown
    cases hdown
  | some id =>
    obtain ⟨m, hm, rfl, -⟩ := h.owned fd id hfind
    rcases h.toSound.clients_removeConnection hm hfind epollDel hdown with ⟨-, heq⟩ | hclients
    · rw [heq] at hn
      exact h.reached n hn
    · rw [hclients] at hn
      exact h.reached n (List.mem_filter.mp hn).1

/-- A call through the map of the server is an event of the client on its own: on the client's own socket
an event of that socket, and on every other descriptor one of the socket of the CGI.  The two differ in
what the return value ends, which is `Client.settle` and `Client.settleCGI`. -/
theorem exists_event_of_handles {server : Server} {fd : Fd} {f : Sys → Client → Ret × Client}
    (h : c.Reached server) (hf : Handles fd f) (sys : Sys) (hcgi : fd ≠ c.fd → c.context.cgiSocket ≠ -1) :
    ∃ e, (∀ fs, e ≠ Event.environment fs) ∧ Client.SameConnection c (f sys c).2 ∧
      c.step e = if fd = c.fd then Client.settle (f sys c) else Client.settleCGI (f sys c) := by
  by_cases hfd : fd = c.fd
  · rw [if_pos hfd]
    cases hf with
    | handleIn =>
      rw [Client.handleIn, if_pos hfd]
      exact ⟨.clientIn sys, fun _ heq => Event.noConfusion heq, Client.sameConnection_handleSocketIn c sys,
        h.step_eq _⟩
    | handleOut =>
      rw [Client.handleOut, if_pos hfd]
      exact ⟨.clientOut sys, fun _ heq => Event.noConfusion heq,
        Client.sameConnection_handleSocketOut c sys, h.step_eq _⟩
  · rw [if_neg hfd]
    cases hf with
    | handleIn =>
      rw [Client.handleIn, if_neg hfd]
      exact ⟨.cgiIn sys, fun _ heq => Event.noConfusion heq, Client.sameConnection_handleCGIIn c sys,
        (h.step_eq _).trans (if_neg (hcgi hfd))⟩
    | handleOut =>
      rw [Client.handleOut, if_neg hfd]
      exact ⟨.cgiOut sys, fun _ heq => Event.noConfusion heq, Client.sameConnection_handleCGIOut c sys,
        (h.step_eq _).trans (if_neg (hcgi hfd))⟩

/-- A client that was called stays as it could be on its own: when the call on its own socket does not end
it, and when the call on the socket of its CGI throws nothing. -/
theorem reached_handles {server : Server} {fd : Fd} {f : Sys → Client → Ret × Client}
    (h : c.Reached server) (hf : Handles fd f) (sys : Sys)
    (hcgi : fd ≠ c.fd → c.context.cgiSocket ≠ -1)
    (hret : if fd = c.fd then (f sys c).1 = .reqContinue else ∀ fault, (f sys c).1 ≠ .throws fault) :
    (f sys c).2.Reached server := by
  obtain ⟨e, -, hsame, hstep⟩ := exists_event_of_handles h hf sys hcgi
  by_cases hfd : fd = c.fd
  · rw [if_pos hfd] at hstep hret
    exact h.settle hstep hsame hret
  · rw [if_neg hfd] at hstep hret
    exact h.settleCGI hstep hsame hret

/-- The removal of the client that was called.  It is refused on the socket of the CGI. -/
theorem Lives.removes (h : Lives s) (hclient : s.client? id = some c) {sys : Sys}
    {f : Sys → Client → Ret × Client} (hf : Admissible f { c with context := c.context.setFs s.fs })
    (hret : ∀ fault, (s.call id sys f).1 ≠ .throws fault) {fd : Fd}
    (hfind : (s.call id sys f).2.fdClientMap.find? fd = some id)
    (hreached : fd = (f (s.answers sys c)
        { c with context := c.context.setFs s.fs }).2.context.cgiSocket →
      Client.Reached s.server (f (s.answers sys c) { c with context := c.context.setFs s.fs }).2)
    {epollDel : Fd → Bool}
    (hdown : ((s.call id sys f).2.removeConnection epollDel fd).2.down = none) :
    Lives ((s.call id sys f).2.removeConnection epollDel fd).2 := by
  have hsound := h.toSound.call_of_returns hclient hf hret
  have hserver := server_call (s := s) id sys f
  have hother : ∀ n ∈ (s.call id sys f).2.clients, n.id ≠ id → n.client.Reached s.server :=
    fun n hn hne => (mem_call hclient hn).elim (fun heq => absurd (congrArg ClientNode.id heq) hne)
      fun hold => h.reached n hold.1
  obtain ⟨m, hm, hid, -⟩ := hsound.owned fd id hfind
  refine ⟨hsound.removeConnection epollDel fd hdown, fun n hn => ?_⟩
  rw [server_removeConnection, hserver]
  rcases hsound.clients_removeConnection hm (hid ▸ hfind) epollDel hdown with ⟨hcgi, heq⟩ | hfiltered
  · rw [heq] at hn
    by_cases hne : n.id = id
    · obtain rfl := hsound.eq_of_id hn hm (hne.trans hid.symm)
      rcases mem_call hclient hn with rfl | ⟨-, hnot⟩
      · exact hreached hcgi
      · exact absurd hne hnot
    · exact hother n hn hne
  · rw [hfiltered, List.mem_filter, hid] at hn
    exact hother n hn.1 (of_decide_eq_true hn.2)

/-- A call into the client of a descriptor, and its removal unless it answers `REQ_CONTINUE`. -/
theorem Lives.serveFd (h : Lives s) {epollDel : Fd → Bool} {fd : Fd} {sys : Sys}
    {f : Sys → Client → Ret × Client} (hf : Handles fd f)
    (hdown : (s.serveFd epollDel fd sys f).down = none) : Lives (s.serveFd epollDel fd sys f) := by
  cases hfind : s.fdClientMap.find? fd with
  | none =>
    unfold EventLoop.serveFd
    rw [hfind]
    exact h
  | some id =>
    obtain ⟨c, hclient, howns⟩ := h.client? hfind
    have hmem := client?_eq_some hclient
    have hadmissible := h.toSound.admissible hfind hclient hf
    have hfst := call_fst hclient sys f
    have hreached := reached_handles ((h.reached _ hmem).setFs s.fs) hf (s.answers sys c)
      fun hne heq => (h.mapped fd id hfind).2.1 ((howns.resolve_left hne).trans heq)
    rcases serveFd_cases epollDel sys f hfind with
      ⟨hret | ⟨fault, hthrows⟩, heq⟩ | ⟨hret, heq⟩
    · rw [heq]
      have hreturns : ∀ fault, (s.call id sys f).1 ≠ .throws fault := by
        intro fault hthrows
        rw [hret] at hthrows
        cases hthrows
      refine h.call hclient hadmissible hreturns (hreached ?_)
      split_ifs
      · exact hfst.symm.trans hret
      · exact hfst ▸ hreturns
    · have hsome := down_of_call_fst hthrows
      rw [← heq, hdown] at hsome
      cases hsome
    · rw [heq] at hdown ⊢
      have hfind' := (h.toSound.keeps_call hclient hadmissible hret).map fd id hfind
      refine h.removes hclient hadmissible hret hfind' (fun hcgi => hreached ?_) hdown
      -- the client's own socket is not that of its CGI
      have hne : fd ≠ c.fd := by
        intro hfd
        have hsockets := sockets_of_admissible hadmissible (hfst ▸ hret)
        have hsound := h.toSound.call_of_returns hclient hadmissible hret
        obtain ⟨m, hm, hid, -⟩ := hsound.owned fd id hfind'
        rcases mem_call hclient hm with rfl | ⟨-, hne⟩
        · exact hsound.ne_cgi _ hm ((hsockets.fd.trans hfd.symm).trans hcgi)
        · exact hne hid
      rw [if_neg hne]
      exact hfst ▸ hret

theorem Lives.checkClient (h : Lives s) {sys : Sys} {epollDel : Fd → Bool} (id : Nat)
    (hdown : (s.checkClient sys epollDel id).down = none) (hup : s.down = none) :
    Lives (s.checkClient sys epollDel id) := by
  cases hclient : s.client? id with
  | none =>
    unfold EventLoop.checkClient EventLoop.call at hdown
    rw [if_neg (by rw [hup]; exact Bool.false_ne_true), hclient] at hdown
    cases hdown
  | some c =>
    have hmem := client?_eq_some hclient
    have hadmissible := admissible_timeoutCheck (orderly_setFs (h.orderly ⟨id, c⟩ hmem) s.fs)
    have hfst := call_fst hclient sys fun sys c => c.timeoutCheck sys
    rcases checkClient_cases epollDel sys id hup with
      ⟨hret | ⟨fault, hthrows⟩, heq⟩ | ⟨hret, heq⟩
    · rw [heq]
      refine h.call hclient hadmissible (fun fault hthrows => ?_)
        (((h.reached _ hmem).setFs s.fs).timeoutCheck (hfst ▸ hret))
      rw [hret] at hthrows
      cases hthrows
    · have hsome := down_of_call_fst hthrows
      rw [← heq, hdown] at hsome
      cases hsome
    · cases hclient' : (s.call id sys fun sys c => c.timeoutCheck sys).2.client? id with
      | none =>
        rw [heq, hclient'] at hdown
        cases hdown
      | some c' =>
        rw [hclient'] at heq
        rw [heq] at hdown ⊢
        have hsound := h.toSound.call_of_returns hclient hadmissible hret
        have hmem' := client?_eq_some hclient'
        refine h.removes hclient hadmissible hret (hsound.own _ hmem') (fun hcgi => ?_) hdown
        rcases mem_call hclient hmem' with heq' | ⟨-, hne⟩
        · cases heq'
          exact absurd hcgi (hsound.ne_cgi _ hmem')
        · exact absurd rfl hne

/-- An exception that ended the server is not taken back. -/
theorem down_of_checkClient {sys : Sys} {epollDel : Fd → Bool} {id : Nat}
    (hdown : (s.checkClient sys epollDel id).down = none) : s.down = none := by
  cases hup : s.down with
  | none => rfl
  | some fault =>
    unfold EventLoop.checkClient at hdown
    rw [hup] at hdown
    exact absurd (hup.symm.trans hdown) (Option.some_ne_none fault)

theorem down_of_turn {t : Turn} (hdown : (s.turn t).down = none) : s.down = none := by
  cases hup : s.down with
  | none => rfl
  | some fault =>
    unfold EventLoop.turn at hdown
    rw [hup] at hdown
    exact absurd (hup.symm.trans hdown) (Option.some_ne_none fault)

theorem Lives.checkClientsTimeout (h : Lives s) (timeouts : Nat → Sys) (epollDel : Fd → Bool)
    (hdown : (s.checkClientsTimeout timeouts epollDel).down = none) :
    Lives (s.checkClientsTimeout timeouts epollDel) := by
  unfold EventLoop.checkClientsTimeout at hdown ⊢
  generalize s.clients.map ClientNode.id = ids at hdown ⊢
  have hfold : ∀ (ids : List Nat) {s : EventLoop}, (s.down = none → Lives s) →
      (ids.foldl (fun s id => s.checkClient (timeouts id) epollDel id) s).down = none →
        Lives (ids.foldl (fun s id => s.checkClient (timeouts id) epollDel id) s) := by
    intro ids
    induction ids with
    | nil => exact fun hlives hnone => hlives hnone
    | cons id ids ih =>
      intro s hlives hnone
      refine ih (fun hnone' => ?_) hnone
      have hup := down_of_checkClient hnone'
      exact (hlives hup).checkClient id hnone' hup
  exact hfold ids (fun _ => h) hdown

/-- One turn that throws no exception.  The client whose handler was called has taken a step of its own run,
and the others have taken none. -/
theorem Lives.turn (h : Lives s) {it : Iteration} (hadmits : it.Admits) {t : Turn}
    (hoffers : it.Offers s t) (hdown : (s.turn t).down = none) : Lives (s.turn t) := by
  have hup := down_of_turn hdown
  rw [turn_of_up hup] at hdown ⊢
  cases hoffers with
  | accept hsys hlistening => exact h.addConnection (hadmits _ hsys) hlistening
  | input => exact h.serveFd .handleIn hdown
  | output => exact h.serveFd .handleOut hdown
  | hangup => exact h.removeConnection _ _ hdown
  | shutdown => exact h.removeConnection _ _ hdown
  | sweep => exact h.checkClientsTimeout _ _ hdown

theorem Lives.turns {it : Iteration} (hadmits : it.Admits) {ts : List Turn}
    (h : s.down = none → Lives s) (hoffers : Transition.Along EventLoop.turn it.Offers s ts)
    (hdown : (s.turns ts).down = none) : Lives (s.turns ts) := by
  refine Transition.run_invariant (I := fun s => s.down = none → Lives s) ?_ h hoffers hdown
  exact fun s t hs ht hnone => (hs (down_of_turn hnone)).turn hadmits ht hnone

theorem Lives.reaches {it : Iteration} (hadmits : it.Admits) (h : s.down = none → Lives s)
    (hreaches : Reaches it s s') (hdown : s'.down = none) : Lives s' := by
  obtain ⟨ts, hall, heq⟩ := hreaches
  rw [exists_relabel_of_bare heq] at hdown ⊢
  exact (Lives.turns hadmits h hall hdown).congr rfl rfl rfl rfl rfl rfl

theorem Lives.serve {its : List Iteration} (hadmits : ∀ it ∈ its, it.Admits) (h : Lives s)
    (hup : (s.serve its).down = none) : Lives (s.serve its) := by
  refine Transition.run_invariant (I := fun s => s.down = none → Lives s) ?_ (fun _ => h)
    (Transition.along_of_mem hadmits s) hup
  exact fun s it hs hit => Lives.reaches hit hs (iterate_turns s it)

theorem server_iterate (s : EventLoop) (it : Iteration) : (s.iterate it).server = s.server := by
  obtain ⟨ts, -, heq⟩ := iterate_turns s it
  rw [exists_relabel_of_bare heq]
  exact server_turns ts

theorem server_serve (s : EventLoop) (its : List Iteration) : (s.serve its).server = s.server :=
  Transition.run_invariant (I := fun s' => s'.server = s.server) (C := fun _ _ => True)
    (fun _ it h _ => (server_iterate _ it).trans h) rfl
    (Transition.along_of_forall (fun _ _ => trivial) its s)

end Lives

/-- **Every client is one on its own.**  In every state that the loop of the server reaches, whatever
`epoll_wait` reports, as long as every accepted socket can be added to epoll and no exception has ended
the server: each client in the list is open, and is in a state that a single client reaches from a new
connection on a listening socket, by calls on its own two sockets, checks of its timeouts, and changes of
the file system by others. -/
theorem reached_serve (server : Server) (fs : FileSystem) (its : List Iteration)
    (hadmits : ∀ it ∈ its, it.Admits) (hup : ((start server fs).serve its).down = none)
    (n : ClientNode) (hn : n ∈ ((start server fs).serve its).clients) : n.client.Reached server := by
  have hreached := ((lives_start server fs).serve hadmits hup).reached n hn
  rwa [server_serve] at hreached

set_option maxRecDepth 10000 in
/-- The client of the request is the only one. -/
theorem reached_serve_asks :
    (oneServer.serve comesAndAsks).clients.map ClientNode.id = [0] ∧
      ∀ n ∈ (oneServer.serve comesAndAsks).clients, n.client.Reached oneServer.server := by
  refine ⟨by decide, reached_serve _ _ comesAndAsks ?_ (by decide)⟩
  rw [comesAndAsks, List.forall_mem_cons, List.forall_mem_cons]
  refine ⟨?_, ?_, fun it hit => absurd hit List.not_mem_nil⟩
  all_goals
    intro sys hsys
    obtain ⟨ev, -, rfl⟩ := List.mem_map.mp hsys
    rfl

end EventLoop
end Webserv
