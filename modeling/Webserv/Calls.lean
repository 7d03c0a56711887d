import Webserv.Phases

/-!
# What a call into a client changes of what the server sees

The server keeps a client under its own socket and under the socket of its CGI.  A call into the client
changes neither, except that the request of a client that had none may open a CGI.

* `Steady`: what every other call keeps.
* `Attaches`: what the call that reads a head may do.
* `Client.Orderly`: a client awaits its head, or has read it: the calls keep it, so that a client never
  opens a second CGI.
* `mute_run`: without a CGI the request object is silent.

## Why the server needs so little

The table of the server, its descriptors and its batch depend on a client through four fields: its socket,
that of its CGI, the child's end that a failed fork left open, and the configuration.  `Steady` says that
they are the same.  It has two more clauses, which the server does not look at but which the next call
needs: a head that was read stays read, and a silent request object stays silent.  With them the relation is
enough to go on with, and transitive.

## How a CGI comes

There is one call in the life of a client that may open a CGI, the one that completes its head.  `Attaches`
describes it: the socket is the old one or the parent's end of the pair that the kernel gave (`OpensPair`),
and a socket that is there was added to epoll, unless the call threw.  After it the head has been read, so
that no later call is of this kind.  That is all the server has to know, to keep its map right.

## What silence is for

`CGISilent()` is asked of a request object that has run out of time to send.  An object without a CGI never
read anything from one, so that it is silent; that decides between dropping a client and answering it.
-/

namespace Webserv
namespace Handler

/-! ## The socket of the CGI -/

/-- The context has the parent's end of the pair that the kernel gave.  The child's end is open as well if
`fork` failed, and no other socket is. -/
def OpensPair (sys : Sys) (ctx : RequestContext) : Prop :=
  ∃ pair, sys.socketpair = some pair ∧ ctx.cgiSocket = pair.1 ∧
    ∀ fd ∈ ctx.world.childEnd, fd = (pair.2 : Fd) ∧ sys.fork = none

/-- What `processing` does to a handler, and the sockets it may open. -/
structure Opens (sys : Sys) (h h' : Handler) : Prop where
  processes : Processes h h'
  socket : h'.context.cgiSocket = h.context.cgiSocket ∨ OpensPair sys h'.context

/-- A part of `processing` that opens nothing. -/
theorem Quiet.opens {h h' : Handler} (hquiet : Quiet h h') (sys : Sys) : Opens sys h h' :=
  ⟨hquiet.processes, Or.inl hquiet.cgiSocket⟩

/-- `_openCGI` opens the pair that the kernel gave, or nothing. -/
theorem opens_openCGI (sys : Sys) (h : Handler) : Opens sys h (openCGI sys h) := by
  refine ⟨(processes_openCGI sys h).1, ?_⟩
  unfold openCGI
  dsimp only
  split_ifs
  · cases hpair : sys.socketpair with
    | none => exact Or.inl rfl
    | some pair =>
      cases hfork : sys.fork with
      | none => exact Or.inr ⟨pair, hpair, rfl, fun fd hfd => ⟨(Option.some.inj hfd).symm, hfork⟩⟩
      | some pid => exact Or.inr ⟨pair, hpair, rfl, fun fd hfd => absurd hfd (Option.not_mem_none fd)⟩
  · exact Or.inl rfl

theorem Opens.of_socket {sys : Sys} {h h₁ h' : Handler} (hopens : Opens sys h₁ h')
    (hprocesses : Processes h h₁) (hsocket : h₁.context.cgiSocket = h.context.cgiSocket) :
    Opens sys h h' where
  processes := hprocesses.trans hopens.processes
  socket := by
    rw [← hsocket]
    exact hopens.socket

/-- `processing`, for each of the five classes.  The only sockets that it opens are the pair of a CGI. -/
theorem opens_processing (sys : Sys) {h : Handler}
    (hhead : h.request.kind = .head → h.context.requestState.workIn = true) :
    Opens sys h (processing sys h) := by
  unfold processing
  cases hkind : h.request.kind with
  | get =>
    rcases quiet_processingGET sys h with hquiet | ⟨h₁, hquiet, heq⟩
    · exact hquiet.opens sys
    · show Opens sys h (processingGET sys h)
      rw [heq]
      exact (opens_openCGI sys h₁).of_socket hquiet.processes hquiet.cgiSocket
  | post =>
    show Opens sys h (processingPOST sys h)
    rcases processes_processingPOST sys h with
      ⟨h₁, hquiet, -, heq⟩ | ⟨-, h₁, hquiet, heq⟩ | ⟨-, h₁, hquiet, hquiet'⟩
    · rw [heq]
      exact ⟨hquiet.processes.trans (processes_setState h₁ _), Or.inl hquiet.cgiSocket⟩
    · rw [heq]
      exact (opens_openCGI sys _).of_socket (hquiet.processes.trans (processes_setState h₁ _))
        hquiet.cgiSocket
    · exact (hquiet'.opens sys).of_socket (hquiet.processes.trans (processes_setState h₁ _))
        hquiet.cgiSocket
  | delete => exact (quiet_processingDELETE sys h).opens sys
  | put => exact (quiet_processingPUT sys h).opens sys
  | head => exact (quiet_processingHEAD sys (hhead hkind)).opens sys

end Handler

namespace Client

/-! ## Steady calls -/

/-- Without a CGI the request object is silent: `CGISilent()`, by which a timeout of the output chooses
between a 504 and dropping the client. -/
def Silent (c : Client) : Prop :=
  c.context.cgiSocket = -1 → ∀ request, c.request = some request → request.cgiSilent = true

/-- What the server looks at is the same. -/
structure Steady (c c' : Client) : Prop where
  fd : c'.fd = c.fd
  server : c'.context.server = c.context.server
  cgiSocket : c'.context.cgiSocket = c.context.cgiSocket
  childEnd : c'.context.world.childEnd = c.context.world.childEnd
  clientRead : c.context.requestState.isClientReadComplete = true →
    c'.context.requestState.isClientReadComplete = true
  silent : c.Silent → c'.Silent

theorem Steady.refl (c : Client) : Steady c c := ⟨rfl, rfl, rfl, rfl, id, id⟩

/-- Two calls that keep what the server looks at. -/
theorem Steady.trans {c₁ c₂ c₃ : Client} (h₁₂ : Steady c₁ c₂) (h₂₃ : Steady c₂ c₃) :
    Steady c₁ c₃ where
  fd := h₂₃.fd.trans h₁₂.fd
  server := h₂₃.server.trans h₁₂.server
  cgiSocket := h₂₃.cgiSocket.trans h₁₂.cgiSocket
  childEnd := h₂₃.childEnd.trans h₁₂.childEnd
  clientRead := h₂₃.clientRead ∘ h₁₂.clientRead
  silent := h₂₃.silent ∘ h₁₂.silent

/-- A call on the request object whose effects are known. -/
theorem Steady.withHandler {c : Client} {request : ARequest} {h : Handler}
    (hrequest : c.request = some request) (hserver : h.context.server = c.context.server)
    (hsocket : h.context.cgiSocket = c.context.cgiSocket)
    (hchild : h.context.world.childEnd = c.context.world.childEnd)
    (hread : c.context.requestState.isClientReadComplete = true →
      h.context.requestState.isClientReadComplete = true)
    (hsilent : c.context.cgiSocket = -1 → h.request.cgiSilent = request.cgiSilent) :
    Steady c (c.withHandler h) where
  fd := rfl
  server := hserver
  cgiSocket := hsocket
  childEnd := hchild
  clientRead := hread
  silent := fun hc hnone request' hrequest' => by
    have hnone' : c.context.cgiSocket = -1 := hsocket.symm.trans hnone
    cases hrequest'
    rw [hsilent hnone']
    exact hc hnone' request hrequest

theorem steady_switchToWrite (c : Client) (sys : Sys) : Steady c (c.switchToWrite sys).2 := by
  rcases switchToWrite_cases c sys with heq | heq <;> rw [heq]
  · exact .refl c
  · exact ⟨rfl, rfl, rfl, rfl, id, id⟩

/-- The response is made of the context and the error pages, and no socket is touched. -/
theorem steady_startResponse (c : Client) (sys : Sys) : Steady c (c.startResponse sys).2 := by
  obtain ⟨f, heq, -, hstate, -⟩ := prepareError_cases c sys
  have hread : c.context.requestState.isClientReadComplete = true →
      f.requestState.isClientReadComplete = true := by
    rcases hstate with hstate | hstate <;> rw [hstate]
    · exact id
    · exact isClientReadComplete_of_le (RequestState.le_setWorkComplete _)
  unfold startResponse
  rw [heq]
  dsimp only
  split_ifs
  · have hrender : Steady c (c.withPage f).render := ⟨rfl, rfl, rfl, rfl, hread, id⟩
    exact hrender.trans (steady_switchToWrite _ sys)
  · have hpage : Steady c (c.withPage f) := ⟨rfl, rfl, rfl, rfl, hread, id⟩
    exact hpage.trans (steady_switchToWrite _ sys)

theorem steady_respondTimeout (c : Client) (sys : Sys) : Steady c (c.respondTimeout sys).2 := by
  unfold respondTimeout
  extract_lets c₁
  obtain ⟨f, heq, -, hstate⟩ := loadErrorPage_cases c₁ sys
  have hread : c.context.requestState.isClientReadComplete = true →
      f.requestState.isClientReadComplete = true := by
    rcases hstate with ⟨-, hstate⟩ | ⟨-, hstate⟩ <;> rw [hstate] <;> exact id
  rw [heq]
  have hrender : Steady c (c₁.withPage f).render := ⟨rfl, rfl, rfl, rfl, hread, id⟩
  exact hrender.trans (steady_switchToWrite _ sys)

theorem steady_timeoutCheck (c : Client) (sys : Sys) : Steady c (c.timeoutCheck sys).2 := by
  have hstatus : ∀ code, Steady c (c.setStatusCode code) := fun _ => ⟨rfl, rfl, rfl, rfl, id, id⟩
  have hread : ∀ c₁ : Client, Steady c₁ (c₁.setState RequestState.setReadComplete) := fun _ =>
    ⟨rfl, rfl, rfl, rfl, fun _ => rfl, id⟩
  have hclear : ∀ code, Steady c
      ((c.setResponse c.context.response.clear).setStatusCode code) := fun _ =>
    ⟨rfl, rfl, rfl, rfl, id, id⟩
  unfold timeoutCheck
  split_ifs
  · exact ((hstatus _).trans (hread _)).trans (steady_respondTimeout _ sys)
  · exact (hstatus _).trans (steady_respondTimeout _ sys)
  · exact .refl c
  · exact (hclear _).trans (steady_respondTimeout _ sys)
  · exact .refl c

theorem steady_produce (c : Client) (sys : Sys) : Steady c (c.produce sys).2 := by
  unfold produce
  split_ifs
  · exact .refl c
  · unfold readErrorPage
    dsimp only
    split_ifs <;> exact ⟨rfl, rfl, rfl, rfl, id, id⟩
  · cases hrequest : c.request with
    | none => exact .refl c
    | some request =>
      obtain ⟨⟨f, hf⟩, -⟩ := Handler.produces_workOut sys ⟨c.context, request⟩
      dsimp only
      generalize Handler.workOut sys ⟨c.context, request⟩ = r at hf ⊢
      obtain ⟨ret, h'⟩ := r
      have hsteady : Steady c (c.withHandler h') := by
        rw [show h' = _ from hf]
        exact .withHandler hrequest rfl rfl rfl id fun _ => rfl
      cases ret <;> exact hsteady

theorem steady_sendResponse (c : Client) (sys : Sys) : Steady c (c.sendResponse sys).2 := by
  rcases sendResponse_cases c sys with heq | ⟨n, heq⟩ <;> rw [heq]
  · exact .refl c
  · unfold takeResponse
    split_ifs <;> exact ⟨rfl, rfl, rfl, rfl, id, id⟩

theorem steady_handleSocketOut (c : Client) (sys : Sys) : Steady c (c.handleSocketOut sys).2 := by
  have hproduce := steady_produce c sys
  unfold handleSocketOut
  generalize c.produce sys = r at hproduce ⊢
  obtain ⟨ret, c'⟩ := r
  cases ret with
  | reqContinue => exact hproduce.trans (steady_sendResponse c' sys)
  | _ => exact hproduce

/-- Output of a CGI is read, from a socket that stays what it is. -/
theorem steady_handleCGIIn {c : Client} (sys : Sys) (hcgi : c.context.cgiSocket ≠ -1) :
    Steady c (c.handleCGIIn sys).2 := by
  unfold handleCGIIn
  cases hrequest : c.request with
  | none => exact .refl c
  | some request =>
    dsimp only
    unfold Handler.CGIIn
    obtain ⟨⟨f, hf⟩, hle, -⟩ := Handler.readsCGI_readCGI sys ⟨c.context, request⟩
    have hread := @isClientReadComplete_of_le _ _ hle
    have hreads : Steady c (c.withHandler (Handler.readCGI sys ⟨c.context, request⟩).2) := by
      rw [hf] at hread ⊢
      exact .withHandler hrequest rfl rfl rfl hread fun hnone => absurd hnone hcgi
    have hsame : Steady c (c.withHandler ⟨c.context, request⟩) :=
      .withHandler hrequest rfl rfl rfl id fun _ => rfl
    cases hkind : request.kind <;> dsimp only <;> assumption

/-- A body reader sends or writes, and may shut the socket down, but does not close it. -/
theorem steady_readBody {c : Client} {request : ARequest} (sys : Sys)
    (hrequest : c.request = some request) :
    Steady c (c.withHandler (Handler.readBody sys ⟨c.context, request⟩).2) := by
  have hreads := Handler.reads_readBody sys ⟨c.context, request⟩
  have hread := @isClientReadComplete_of_le _ _ hreads.le
  obtain ⟨f, hf⟩ := hreads.fields
  rw [hf] at hread ⊢
  exact .withHandler hrequest rfl rfl rfl hread fun _ => rfl

theorem steady_handleCGIOut (c : Client) (sys : Sys) : Steady c (c.handleCGIOut sys).2 := by
  unfold handleCGIOut
  cases hrequest : c.request with
  | none => exact .refl c
  | some request =>
    dsimp only
    unfold Handler.CGIOut
    have hreads := steady_readBody sys hrequest
    have hsame : Steady c (c.withHandler ⟨c.context, request⟩) :=
      .withHandler hrequest rfl rfl rfl id fun _ => rfl
    cases hkind : request.kind <;> dsimp only <;> assumption

theorem steady_handleRequest (c : Client) (sys : Sys) : Steady c (c.handleRequest sys).2 := by
  unfold handleRequest
  cases hrequest : c.request with
  | none => exact steady_startResponse c sys
  | some request =>
    dsimp only
    split_ifs
    · exact steady_startResponse c sys
    · let c₁ := c.touch .clientBody sys.now
      have htouch : Steady c c₁ := ⟨rfl, rfl, rfl, rfl, id, id⟩
      have hbody : Steady c₁ (c₁.withHandler (Handler.workIn sys ⟨c₁.context, request⟩).2) := by
        have hreads : Steady c₁ _ := steady_readBody sys hrequest
        have hsame : Steady c₁ (c₁.withHandler ⟨c₁.context, request⟩) :=
          .withHandler hrequest rfl rfl rfl id fun _ => rfl
        unfold Handler.workIn
        cases hkind : request.kind <;> dsimp only <;> assumption
      generalize Handler.workIn sys ⟨c₁.context, request⟩ = r at hbody ⊢
      obtain ⟨ret, h⟩ := r
      cases ret with
      | reqDone => exact (htouch.trans hbody).trans (steady_startResponse _ sys)
      | _ => exact htouch.trans hbody

/-! ## The call that reads the head -/

/-- What the call that reads the head may do: it creates a request object, which may open a CGI.  A CGI
whose socket cannot be added to epoll ends the server. -/
structure Attaches (sys : Sys) (c : Client) (r : Ret × Client) : Prop where
  fd : r.2.fd = c.fd
  server : r.2.context.server = c.context.server
  socket : r.2.context.cgiSocket = c.context.cgiSocket ∨ Handler.OpensPair sys r.2.context
  registered : (∃ fault, r.1 = .throws fault) ∨ r.2.context.cgiSocket = -1 ∨
    sys.epollCtl r.2.context.cgiSocket = true
  clientRead : r.2.context.requestState.isClientReadComplete = true
  silent : r.2.Silent

theorem Attaches.trans {sys : Sys} {c₁ c₃ : Client} {r : Ret × Client} (h : Attaches sys c₁ r)
    (hret : ∀ fault, r.1 ≠ .throws fault) (hsteady : Steady r.2 c₃) (ret : Ret) :
    Attaches sys c₁ (ret, c₃) where
  fd := hsteady.fd.trans h.fd
  server := hsteady.server.trans h.server
  socket := by
    rw [Handler.OpensPair, hsteady.cgiSocket, hsteady.childEnd]
    exact h.socket
  registered := by
    rw [hsteady.cgiSocket]
    exact Or.inr (h.registered.resolve_left fun ⟨fault, heq⟩ => hret fault heq)
  clientRead := hsteady.clientRead h.clientRead
  silent := hsteady.silent h.silent

/-- Without a request object there is nothing to be silent. -/
theorem silent_of_none {c : Client} (h : c.request = none) : c.Silent := by
  intro _ request hrequest
  rw [h] at hrequest
  cases hrequest

theorem HeadAccepted.clientRead {c : Client} (h : HeadAccepted c) :
    c.context.requestState.isClientReadComplete = true := by
  rw [h.requestState]
  rfl

/-- A call that keeps what the server looks at, for a client without a request object. -/
theorem HeadAccepted.attaches {c : Client} (h : HeadAccepted c) {sys : Sys} {r : Ret × Client}
    (hsteady : Steady c r.2) : Attaches sys c r where
  fd := hsteady.fd
  server := hsteady.server
  socket := Or.inl hsteady.cgiSocket
  registered := Or.inr (Or.inl (hsteady.cgiSocket.trans h.cgiSocket))
  clientRead := hsteady.clientRead h.clientRead
  silent := hsteady.silent (silent_of_none h.request)

/-- A request object is created, and its CGI, if it has one, is the only thing that the server attaches. -/
theorem HeadAccepted.attaches_creates {c : Client} (h : HeadAccepted c) {kind : RequestKind} {h₀ : Handler}
    (hcreate : createRequest kind c.context = .ok h₀) (sys : Sys) :
    Attaches sys c ((c.withHandler (h₀.processing sys)).registerCGI sys,
      c.withHandler (h₀.processing sys)) := by
  have hflags := (Handler.started_processing sys hcreate).flags
  obtain ⟨chopedTarget, -, hh⟩ := createRequest_ok hcreate
  have hcontext : h₀.context = c.context.setState kind.initState := by rw [hh]
  have hhead : h₀.request.kind = .head → h₀.context.requestState.workIn = true := by
    rw [hh]
    rintro (rfl : kind = .head)
    rfl
  obtain ⟨⟨f, hf⟩, hsocket⟩ := Handler.opens_processing sys hhead
  generalize h₀.processing sys = h' at hflags hf hsocket ⊢
  refine ⟨rfl, ?_, ?_, ?_, ?_, ?_⟩
  · show h'.context.server = c.context.server
    rw [hf, show (h₀.withProcessing f).context.server = h₀.context.server from rfl, hcontext]
    rfl
  · rw [hcontext] at hsocket
    exact hsocket
  · unfold registerCGI
    split_ifs with hfails
    · exact Or.inl ⟨_, rfl⟩
    all_goals
      right
      by_contra hnot
      obtain ⟨hne, hctl⟩ := not_or.mp hnot
      exact hfails ⟨hne, hctl⟩
  · show h'.context.requestState.isClientReadComplete = true
    rw [RequestState.isClientReadComplete, hflags.requestLine, hflags.headers]
    exact h.clientRead
  · rintro - request ⟨⟩
    rw [hf, hh]
    rfl

theorem HeadAccepted.attaches_resolves {c : Client} (h : HeadAccepted c) {sys : Sys} {r : Ret × Client}
    (hresolves : Resolves c sys r) : Attaches sys c r := by
  cases hresolves with
  | noServer => exact h.attaches (.refl c)
  | noTarget | answers | redirects => exact h.attaches ⟨rfl, rfl, rfl, rfl, id, id⟩
  | @creates block loc kind h₀ hfinds hkind hcreate =>
    have haccepted : HeadAccepted (c.withBlocks block (some loc)) := { h with }
    exact { haccepted.attaches_creates hcreate sys with }

/-- The head is parsed: it is still awaited, or it was read. -/
theorem AwaitsHead.attaches_parseRequest {c : Client} (h : AwaitsHead c) (sys : Sys) :
    (c.parseRequest sys).1 = .reqContinue ∧ AwaitsHead (c.parseRequest sys).2 ∧
        Steady c (c.parseRequest sys).2 ∨
      Attaches sys c (c.parseRequest sys) := by
  have hends := h.headEnds sys
  generalize c.parseRequest sys = r at hends ⊢
  cases hends with
  | waits f requestLine hhead =>
    exact Or.inl ⟨rfl, { h with requestState := ⟨requestLine, rfl⟩ }, rfl, rfl, rfl, rfl,
      fun hread => absurd hread h.not_clientRead, id⟩
  | refused f hcode =>
    exact Or.inr ⟨rfl, rfl, Or.inl rfl, Or.inr (Or.inl h.cgiSocket), rfl, silent_of_none h.request⟩
  | resolved f hhead hresolves hret =>
    exact Or.inr { (h.headAccepted f).attaches_resolves hresolves with }
  | answered f hhead hresolves =>
    have hattaches := (h.headAccepted f).attaches_resolves hresolves
    exact Or.inr { hattaches.trans (fun _ hret => nomatch hret) ⟨rfl, rfl, rfl, rfl, id, id⟩ .reqDone with }

/-! ## Every call -/

/-- A client awaits its head, or has read it.  A request object is created at the change from the one to the
other, and only there. -/
def Orderly (c : Client) : Prop :=
  AwaitsHead c ∨ c.context.requestState.isClientReadComplete = true

theorem Steady.orderly {c c' : Client} (h : Steady c c')
    (hread : c.context.requestState.isClientReadComplete = true) : Orderly c' :=
  Or.inr (h.clientRead hread)

/-- A call on the client socket keeps what the server looks at, or it reads the head. -/
theorem Orderly.handleSocketIn {c : Client} (h : Orderly c) (sys : Sys) :
    Orderly (c.handleSocketIn sys).2 ∧ (Steady c (c.handleSocketIn sys).2 ∨
      AwaitsHead c ∧ Attaches sys c (c.handleSocketIn sys)) := by
  rcases handleSocketIn_cases c sys with ⟨-, heq, -⟩ | ⟨-, buffer, timestamp, -, heq, htime⟩
  · rw [heq]
    exact ⟨h, Or.inl (.refl c)⟩
  · rw [heq]
    have hread : Steady c (c.withRead buffer timestamp) := ⟨rfl, rfl, rfl, rfl, id, id⟩
    unfold handleRead
    rcases h with hawaits | hdone
    · have hfalse := hawaits.not_clientRead
      have hawaits₁ : AwaitsHead (c.withRead buffer timestamp) := {
        hawaits with
        timestamp := by
          rw [show (c.withRead buffer timestamp).timestamp = timestamp from rfl,
            htime (Bool.eq_false_iff.mpr hfalse)]
          exact hawaits.timestamp }
      rw [if_neg hawaits₁.not_clientRead]
      have hparsed := hawaits₁.attaches_parseRequest sys
      generalize (c.withRead buffer timestamp).parseRequest sys = r at hparsed ⊢
      obtain ⟨ret, c₁⟩ := r
      rcases hparsed with ⟨hret, hawaits₂, hsteady⟩ | hattaches
      · cases hret
        exact ⟨Or.inl hawaits₂, Or.inl (hread.trans hsteady)⟩
      · have hattaches₁ : Attaches sys c (ret, c₁) := { hattaches with }
        cases ret with
        | reqDone =>
          have hall := hattaches₁.trans (fun _ hret => nomatch hret) (steady_handleRequest c₁ sys)
            (c₁.handleRequest sys).1
          exact ⟨Or.inr hall.clientRead, Or.inr ⟨hawaits, hall⟩⟩
        | _ => exact ⟨Or.inr hattaches₁.clientRead, Or.inr ⟨hawaits, hattaches₁⟩⟩
    · rw [if_pos (show (c.withRead buffer timestamp).context.requestState.isClientReadComplete = true
        from hdone)]
      have hsteady := hread.trans (steady_handleRequest (c.withRead buffer timestamp) sys)
      exact ⟨hsteady.orderly hdone, Or.inl hsteady⟩

/-- A writing event leaves the head as it is, read or not. -/
theorem Orderly.handleSocketOut {c : Client} (h : Orderly c) (sys : Sys) :
    Orderly (c.handleSocketOut sys).2 := by
  rcases h with hawaits | hread
  · rw [hawaits.handleSocketOut sys]
    exact Or.inl hawaits
  · exact (steady_handleSocketOut c sys).orderly hread

theorem Orderly.timeoutCheck {c : Client} (h : Orderly c) (sys : Sys) :
    Orderly (c.timeoutCheck sys).2 := by
  rcases h with hawaits | hread
  · unfold Client.timeoutCheck
    rw [if_neg (hawaits.not_bodyTimeout sys), if_neg (hawaits.not_sendTimeout sys.now)]
    split_ifs
    · exact Or.inr ((steady_respondTimeout
        ((c.setStatusCode statusRequestTimeout).setState RequestState.setReadComplete) sys).clientRead
          rfl)
    · exact Or.inl hawaits
  · exact (steady_timeoutCheck c sys).orderly hread

theorem Orderly.handleCGIIn {c : Client} (h : Orderly c) (sys : Sys)
    (hcgi : c.context.cgiSocket ≠ -1) : Orderly (c.handleCGIIn sys).2 :=
  (steady_handleCGIIn sys hcgi).orderly (h.resolve_left fun hawaits => hcgi hawaits.cgiSocket)

theorem Orderly.handleCGIOut {c : Client} (h : Orderly c) (sys : Sys)
    (hcgi : c.context.cgiSocket ≠ -1) : Orderly (c.handleCGIOut sys).2 :=
  (steady_handleCGIOut c sys).orderly (h.resolve_left fun hawaits => hcgi hawaits.cgiSocket)

/-! ## Silence -/

/-- An orderly client whose request object is silent as long as there is no CGI. -/
structure Mute (c : Client) : Prop where
  orderly : Orderly c
  silent : c.Silent

theorem Mute.settle {r : Ret × Client} (h : Mute r.2) : Mute (settle r) :=
  ⟨h.orderly.imp (fun hawaits => { hawaits with }) id, h.silent⟩

theorem Mute.settleCGI {r : Ret × Client} (h : Mute r.2) : Mute (settleCGI r) :=
  ⟨h.orderly.imp (fun hawaits => { hawaits with }) id, h.silent⟩

/-- One event keeps a client orderly and its object silent. -/
theorem Mute.step {c : Client} (h : Mute c) (e : Event) : Mute (c.step e) := by
  unfold Client.step
  by_cases hclosed : c.closed = true
  · rwa [if_pos hclosed]
  · rw [if_neg hclosed]
    cases e with
    | clientIn sys =>
      obtain ⟨horderly, hsteady | ⟨-, hattaches⟩⟩ := h.orderly.handleSocketIn sys
      · exact Mute.settle ⟨horderly, hsteady.silent h.silent⟩
      · exact Mute.settle ⟨horderly, hattaches.silent⟩
    | clientOut sys =>
      exact Mute.settle
        ⟨h.orderly.handleSocketOut sys, (steady_handleSocketOut c sys).silent h.silent⟩
    | cgiIn sys =>
      dsimp only
      split_ifs with hcgi
      · exact h
      · exact Mute.settleCGI
          ⟨h.orderly.handleCGIIn sys hcgi, (steady_handleCGIIn sys hcgi).silent h.silent⟩
    | cgiOut sys =>
      dsimp only
      split_ifs with hcgi
      · exact h
      · exact Mute.settleCGI
          ⟨h.orderly.handleCGIOut sys hcgi, (steady_handleCGIOut c sys).silent h.silent⟩
    | timeoutCheck sys =>
      exact Mute.settle ⟨h.orderly.timeoutCheck sys, (steady_timeoutCheck c sys).silent h.silent⟩
    | environment fs => exact ⟨h.orderly.imp (fun hawaits => { hawaits with }) id, h.silent⟩

/-- **Silence.**  Whatever happens to a client, its request object is silent as long as no CGI is attached,
because only output of a CGI unsets the flag. -/
theorem mute_run (server : Server) (fs : FileSystem) (connectSocket fd : Fd) (now : Int)
    (es : List Event) : Mute ((init server fs connectSocket fd now).run es) :=
  Transition.run_invariant (C := fun _ _ => True) (fun _ e h _ => h.step e)
    ⟨Or.inl (awaitsHead_init server fs connectSocket fd now), silent_of_none rfl⟩
    (Transition.along_of_forall (fun _ _ => trivial) _ _)

end Client
end Webserv
