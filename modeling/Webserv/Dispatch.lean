import Webserv.Steps

/-!
# Virtual calls

`workIn`, `workOut`, `CGIIn` and `CGIOut` are virtual, and the ones of `ARequest` throw `std::logic_error`,
which nothing catches before the main loop.  Which of them is called is decided by the flags, by the status
and by the events that the sockets are registered for.

* `RequestKind.overrides`: the virtual functions that a class has of its own.
* `Client.virtualCall`: the virtual call of an event.
* `Client.Registered`: the events that epoll may report.
* `Client.overrides_run`: every virtual call of a run is one that its class overrides.

## Why this needs an argument

No class checks what it is asked, and no caller checks whom it asks.  PUT has no output of its own, and is
kept from being asked for it by a flag that its constructor sets; but a timeout takes that flag back, so
that its error page can be sent.  HEAD and DELETE have neither an input nor an output.  A CGI that is
registered for writing belongs to a POST, since GET registers for reading only.  So the theorem is about the
flags, the status and the registrations together.

## What the invariant is

`OutputSafe` says of a request object without output of its own that the output is complete, or that an
error page is being sent: the two tests that are made before `workOut` is called.  A timeout takes the flag
back and sets an error in one call.  The other three functions need no invariant of their own.  `workIn` is
called only while a body is read, and then the object is a POST or a PUT (`Phase`); the two of the CGI are
called for a CGI that was opened, and then it is a GET or a POST.

## Why the registrations matter

Without the events that the sockets are registered for the statement is false: an event for writing on the
CGI socket of a GET would be an unanswered call.  `Registered` follows the calls of `epoll_ctl`, the option
of the class and the change that `_saveFile` makes, and a run is one whose events meet it.
-/

namespace Webserv

/-- The virtual functions of a request object, `processing` apart, which is called once and by another
function. -/
inductive VirtualCall where
  | workIn | workOut | cgiIn | cgiOut
  deriving DecidableEq

/-- The functions that the classes declare: the headers of the five classes. -/
def RequestKind.overrides : RequestKind → VirtualCall → Bool
  | .get, .workOut | .get, .cgiIn => true
  | .post, _ => true
  | .put, .workIn => true
  | _, _ => false

/-- The events that a socket is registered for.  Epoll reports no others, apart from errors and hang-ups. -/
structure Interest where
  epollIn : Bool := false
  epollOut : Bool := false
  deriving DecidableEq

/-- `_context.option` as `_openCGI` of the class sets it; the other classes have no CGI. -/
def RequestKind.option : RequestKind → Interest
  | .get => { epollIn := true }
  | .post => { epollIn := true, epollOut := true }
  | .delete | .put | .head => {}

namespace Handler

/-! ## Overridden functions -/

theorem readerRule_not_logicError (sys : Sys) :
    ReaderRule sys (fun _ => True) fun r => r.1 ≠ .throws .logicError where
  waits _ := nofun
  buffer _ _ := trivial
  counters _ _ _ := trivial
  refuses := by
    rintro h ret code (rfl | rfl) -
    · nofun
    · show h.bodyRet ≠ _
      unfold bodyRet
      cases h.request.cgiPath <;> nofun
  writes _ _ _ _ := trivial
  writeFails _ _ := nofun
  saves := by
    intro h h' ret _ _ _
    show h'.endBody.bodyRet ≠ _
    unfold bodyRet
    cases h'.endBody.request.cgiPath <;> nofun
  saveFails := by
    intro h h' fault _ hsave
    unfold saveFile at hsave
    cases hcgi : h.request.cgiPath with
    | none =>
      rw [hcgi] at hsave
      cases hsave
    | some path =>
      rw [hcgi] at hsave
      dsimp only at hsave
      split_ifs at hsave
      · exact nomatch congrArg Prod.fst hsave
      · obtain rfl : Fault.runtimeError = fault := Ret.throws.inj (congrArg Prod.fst hsave)
        nofun

/-- The body readers are the overriding functions, and throw no such exception themselves. -/
theorem readBody_ne_logicError (sys : Sys) (h : Handler) : (readBody sys h).1 ≠ .throws .logicError :=
  (readerRule_not_logicError sys).readBody trivial

theorem readCGI_ne_logicError (sys : Sys) (h : Handler) : (readCGI sys h).1 ≠ .throws .logicError := by
  unfold readCGI
  split_ifs
  · nofun
  · dsimp only
    cases sys.recv <;> nofun

/-- `workIn` throws `std::logic_error` exactly when the class does not override it; and so for the other
three. -/
theorem workIn_eq_logicError (sys : Sys) (h : Handler) :
    (workIn sys h).1 = .throws .logicError ↔ h.request.kind.overrides .workIn = false := by
  have hread := readBody_ne_logicError sys h
  unfold workIn
  cases h.request.kind <;> simp [RequestKind.overrides, hread]

/-- The same for `workOut`, which PUT, HEAD and DELETE leave to the base class. -/
theorem workOut_eq_logicError (sys : Sys) (h : Handler) :
    (workOut sys h).1 = .throws .logicError ↔ h.request.kind.overrides .workOut = false := by
  have hget : (workOutGET sys h).1 ≠ .throws .logicError := by
    unfold workOutGET readFile readDir
    dsimp only
    split_ifs
    · nofun
    · nofun
    · cases h.request.directory with
      | none => nofun
      | some entries =>
        dsimp only
        split <;> nofun
    · nofun
  unfold workOut
  cases h.request.kind <;> simp [RequestKind.overrides, hget]

/-- The same for `CGIIn`: the two classes that run a CGI have one. -/
theorem CGIIn_eq_logicError (sys : Sys) (h : Handler) :
    (CGIIn sys h).1 = .throws .logicError ↔ h.request.kind.overrides .cgiIn = false := by
  have hread := readCGI_ne_logicError sys h
  unfold CGIIn
  cases h.request.kind <;> simp [RequestKind.overrides, hread]

/-- The same for `CGIOut`, which POST alone has. -/
theorem CGIOut_eq_logicError (sys : Sys) (h : Handler) :
    (CGIOut sys h).1 = .throws .logicError ↔ h.request.kind.overrides .cgiOut = false := by
  have hread := readBody_ne_logicError sys h
  unfold CGIOut
  cases h.request.kind <;> simp [RequestKind.overrides, hread]

end Handler

namespace Client

/-! ## Calls -/

/-- The virtual call of an event, and the object that it is made on. -/
def virtualCall (c : Client) : Event → Option (VirtualCall × ARequest)
  | .clientIn sys => (c.bodyReader (.clientIn sys)).map fun h => (.workIn, h.request)
  | .clientOut _ =>
    if c.context.requestState.isWorkOutComplete ∨ c.hasError then none
    else c.request.map fun r => (.workOut, r)
  | .cgiIn _ => if c.context.cgiSocket = -1 then none else c.request.map fun r => (.cgiIn, r)
  | .cgiOut _ => if c.context.cgiSocket = -1 then none else c.request.map fun r => (.cgiOut, r)
  | .timeoutCheck _ | .environment _ => none

/-- The answer of the call for an event, as the loop of the server gets it. -/
def callAnswer (c : Client) : Event → Ret
  | .clientIn sys => (c.handleSocketIn sys).1
  | .clientOut sys => (c.handleSocketOut sys).1
  | .cgiIn sys => if c.context.cgiSocket = -1 then .reqContinue else (c.handleCGIIn sys).1
  | .cgiOut sys => if c.context.cgiSocket = -1 then .reqContinue else (c.handleCGIOut sys).1
  | .timeoutCheck sys => (c.timeoutCheck sys).1
  | .environment _ => .reqContinue

/-! ## Events -/

/-- What the client socket is registered for: `init`, and `_switchToWrite`. -/
def clientInterest (c : Client) : Interest where
  epollIn := true
  epollOut := c.context.requestState.canWrite

/-- What the socket of the CGI is registered for: the option of the class, or `EPOLLIN` once
`_saveFile` has modified it. -/
def cgiInterest (c : Client) : Interest :=
  match c.request with
  | none => {}
  | some r =>
    if .epollCtl c.context.cgiSocket ∈ c.context.world.calls then { epollIn := true } else r.kind.option

/-- An event that epoll may report: the descriptor is watched for it at this moment. -/
def Registered (c : Client) : Event → Prop
  | .clientIn _ => c.clientInterest.epollIn = true
  | .clientOut _ => c.clientInterest.epollOut = true
  | .cgiIn _ => c.cgiInterest.epollIn = true
  | .cgiOut _ => c.cgiInterest.epollOut = true
  | .timeoutCheck _ | .environment _ => True

/-- The virtual call of an event is one that its class overrides, and `std::logic_error` is not thrown. -/
structure Overrides (c : Client) (e : Event) : Prop where
  overrides : ∀ call r, c.virtualCall e = some (call, r) → r.kind.overrides call = true
  answer : c.callAnswer e ≠ .throws .logicError

/-! ## Where `std::logic_error` comes from -/

/-- The end of `_handleSocketIn` makes no virtual call. -/
theorem startResponse_ne_logicError (c : Client) (sys : Sys) :
    (c.startResponse sys).1 ≠ .throws .logicError := by
  unfold startResponse switchToWrite
  dsimp only
  split_ifs <;> nofun

theorem handleRequest_ne_logicError {c : Client} {sys : Sys}
    (hoverrides : ∀ h, c.bodyHandler = some h → h.request.kind.overrides .workIn = true) :
    (c.handleRequest sys).1 ≠ .throws .logicError := by
  unfold bodyHandler at hoverrides
  unfold handleRequest
  cases hrequest : c.request with
  | none => exact startResponse_ne_logicError c sys
  | some r =>
    rw [hrequest] at hoverrides
    dsimp only at hoverrides ⊢
    split_ifs at hoverrides ⊢ with hworkIn
    · exact startResponse_ne_logicError c sys
    · have hworkIn := Handler.workIn_eq_logicError sys ⟨(c.touch .clientBody sys.now).context, r⟩
      rw [hoverrides _ rfl] at hworkIn
      generalize Handler.workIn sys ⟨(c.touch .clientBody sys.now).context, r⟩ = answer at hworkIn ⊢
      obtain ⟨ret, h⟩ := answer
      cases ret with
      | reqDone => exact startResponse_ne_logicError _ sys
      | reqContinue => nofun
      | reqError => nofun
      | throws fault => exact fun hthrows => nomatch hworkIn.mp hthrows

/-- The parts of `_parseRequest` before `_resolveARequest` do not throw. -/
theorem parseHeadersLoop_fst (n : Nat) (ctx : RequestContext) :
    (ctx.parseHeadersLoop n).1 = .reqContinue ∨ (ctx.parseHeadersLoop n).1 = .reqDone := by
  induction n generalizing ctx with
  | zero => exact Or.inl rfl
  | succ n ih =>
    rw [RequestContext.parseHeadersLoop]
    cases BinaryBuffer.find ctx.buffer crlf with
    | none => exact Or.inl rfl
    | some pos =>
      dsimp only
      split_ifs
      · exact Or.inr rfl
      · exact Or.inr rfl
      · split
        · exact Or.inr rfl
        · exact ih _

theorem parseHead_fst (ctx : RequestContext) :
    ctx.parseHead.1 = .reqContinue ∨ ctx.parseHead.1 = .reqDone := by
  have hheaders : ∀ ctx : RequestContext,
      (if ctx.requestState.isReadHeadersComplete then (Ret.reqDone, ctx) else ctx.parseHeaders).1 =
          .reqContinue ∨
        (if ctx.requestState.isReadHeadersComplete then (Ret.reqDone, ctx) else ctx.parseHeaders).1 =
          .reqDone := by
    intro ctx
    split_ifs
    · exact Or.inr rfl
    · exact parseHeadersLoop_fst _ ctx
  have hline : ctx.parseRequestLine.1 = .reqContinue ∨ ctx.parseRequestLine.1 = .reqDone := by
    unfold RequestContext.parseRequestLine
    split
    · split_ifs
      · exact Or.inr rfl
      · exact Or.inl rfl
    · split_ifs <;> exact Or.inr rfl
  unfold RequestContext.parseHead
  dsimp only
  split_ifs with hread hdone
  · exact Or.inr rfl
  · exact parseHeadersLoop_fst _ ctx
  · generalize ctx.parseRequestLine = r at hline ⊢
    obtain ⟨ret, ctx'⟩ := r
    rcases hline with rfl | rfl
    · exact Or.inl rfl
    · exact hheaders ctx'

/-- Resolving a request creates an object and processes it, and throws other exceptions at most. -/
theorem Resolves.ne_logicError {c : Client} {sys : Sys} {r : Ret × Client} (h : Resolves c sys r) :
    r.1 ≠ .throws .logicError := by
  cases h with
  | noServer | noTarget | answers | redirects => nofun
  | creates =>
    unfold registerCGI
    dsimp only
    split_ifs <;> nofun

theorem parseRequest_ne_logicError (c : Client) (sys : Sys) :
    (c.parseRequest sys).1 ≠ .throws .logicError := by
  have hhead := parseHead_fst c.context
  unfold parseRequest
  generalize c.context.parseHead = r at hhead ⊢
  obtain ⟨ret, ctx⟩ := r
  rcases hhead with rfl | rfl
  · nofun
  · dsimp only
    split_ifs
    · have hresolve := (resolves_resolveARequest { c with context := ctx } sys).ne_logicError
      generalize resolveARequest { c with context := ctx } sys = r at hresolve ⊢
      obtain ⟨ret, c'⟩ := r
      cases ret <;> first | exact hresolve | nofun
    · nofun

theorem handleRead_ne_logicError {c : Client} {sys : Sys}
    (hoverrides : ∀ h, (c.parsed sys).bind bodyHandler = some h →
      h.request.kind.overrides .workIn = true) : (c.handleRead sys).1 ≠ .throws .logicError := by
  unfold parsed at hoverrides
  unfold handleRead
  split_ifs at hoverrides ⊢
  · exact handleRequest_ne_logicError hoverrides
  · have hparse := parseRequest_ne_logicError c sys
    generalize c.parseRequest sys = r at hoverrides hparse ⊢
    obtain ⟨ret, c'⟩ := r
    cases ret with
    | reqDone => exact handleRequest_ne_logicError hoverrides
    | _ => exact hparse

/-- A check of the timeouts makes no virtual call, and hence none that a class does not override. -/
theorem timeoutCheck_ne_logicError (c : Client) (sys : Sys) :
    (c.timeoutCheck sys).1 ≠ .throws .logicError := by
  unfold timeoutCheck respondTimeout switchToWrite
  dsimp only
  split_ifs <;> nofun

theorem sendResponse_ne_logicError (c : Client) (sys : Sys) :
    (c.sendResponse sys).1 ≠ .throws .logicError := by
  have hret : ∀ c : Client, c.sendRet ≠ .throws .logicError := by
    intro c
    unfold sendRet
    split_ifs <;> nofun
  unfold sendResponse
  dsimp only
  split_ifs
  · cases sys.send with
    | error => nofun
    | accepted n => exact hret _
  · exact hret c

/-- **Where `std::logic_error` comes from**: a virtual call that its class does not override.  A step that
makes none throws no such exception. -/
theorem Overrides.of_virtualCall {c : Client} {e : Event}
    (hoverrides : ∀ call r, c.virtualCall e = some (call, r) → r.kind.overrides call = true) :
    Overrides c e := by
  refine ⟨hoverrides, ?_⟩
  cases e with
  | clientIn sys =>
    have hreader : ∀ h, c.bodyReader (.clientIn sys) = some h → h.request.kind.overrides .workIn = true := by
      intro h hh
      refine hoverrides .workIn h.request ?_
      show (c.bodyReader (.clientIn sys)).map _ = _
      rw [hh]
      rfl
    show (c.handleSocketIn sys).1 ≠ _
    unfold bodyReader received at hreader
    dsimp only at hreader
    unfold handleSocketIn
    split_ifs at hreader ⊢
    · exact handleRead_ne_logicError hreader
    · have hread : (c.readSocket sys).1 ≠ .throws .logicError := by
        unfold readSocket
        cases sys.recv <;> nofun
      generalize c.readSocket sys = r at hreader hread ⊢
      obtain ⟨ret, c'⟩ := r
      cases ret with
      | reqContinue => exact handleRead_ne_logicError hreader
      | _ => exact hread
  | clientOut sys =>
    unfold virtualCall at hoverrides
    show (c.handleSocketOut sys).1 ≠ _
    unfold handleSocketOut produce
    by_cases hworkOut : c.context.requestState.isWorkOutComplete = true
    · rw [if_pos hworkOut]
      exact sendResponse_ne_logicError c sys
    · by_cases herror : c.hasError = true
      · rw [if_neg hworkOut, if_pos herror]
        exact sendResponse_ne_logicError _ sys
      · rw [if_neg (not_or.mpr ⟨hworkOut, herror⟩)] at hoverrides
        rw [if_neg hworkOut, if_neg herror]
        cases hrequest : c.request with
        | none => exact sendResponse_ne_logicError c sys
        | some r =>
          rw [hrequest] at hoverrides
          have hcall := Handler.workOut_eq_logicError sys ⟨c.context, r⟩
          rw [hoverrides .workOut r rfl] at hcall
          dsimp only
          generalize Handler.workOut sys ⟨c.context, r⟩ = answer at hcall ⊢
          obtain ⟨ret, h⟩ := answer
          cases ret with
          | throws fault => exact fun hthrows => nomatch hcall.mp hthrows
          | _ => exact sendResponse_ne_logicError _ sys
  | cgiIn sys =>
    unfold virtualCall at hoverrides
    unfold Client.callAnswer
    dsimp only at hoverrides ⊢
    split_ifs at hoverrides ⊢
    · nofun
    · unfold handleCGIIn
      cases hrequest : c.request with
      | none => nofun
      | some r =>
        rw [hrequest] at hoverrides
        have hcall := Handler.CGIIn_eq_logicError sys ⟨c.context, r⟩
        rw [hoverrides .cgiIn r rfl] at hcall
        exact fun hthrows => nomatch hcall.mp hthrows
  | cgiOut sys =>
    unfold virtualCall at hoverrides
    unfold Client.callAnswer
    dsimp only at hoverrides ⊢
    split_ifs at hoverrides ⊢
    · nofun
    · unfold handleCGIOut
      cases hrequest : c.request with
      | none => nofun
      | some r =>
        rw [hrequest] at hoverrides
        have hcall := Handler.CGIOut_eq_logicError sys ⟨c.context, r⟩
        rw [hoverrides .cgiOut r rfl] at hcall
        exact fun hthrows => nomatch hcall.mp hthrows
  | timeoutCheck sys => exact timeoutCheck_ne_logicError c sys
  | environment fs => nofun

/-! ## The invariant -/

/-- A request object without output of its own is not asked for it: the output is complete, or an error
page is sent. -/
def OutputSafe (c : Client) : Prop :=
  ∀ r, c.request = some r → r.kind.overrides .workOut = false →
    c.context.requestState.workOut = true ∨ c.hasError = true

/-- Where there is no request object, none is asked for its output. -/
theorem OutputSafe.of_request_none {c : Client} (hnone : c.request = none) : OutputSafe c := by
  intro r hr
  rw [hnone] at hr
  cases hr

/-- A call after which the output is still complete, or the status an error. -/
theorem OutputSafe.of_idles {c c' : Client} (h : OutputSafe c) (hidles : Idles c c')
    (hworkOut : c.context.requestState.workOut = true → c'.context.requestState.workOut = true)
    (hstatus : c.hasError = true → c'.hasError = true) : OutputSafe c' := by
  intro r hr hnot
  obtain ⟨r₀, hr₀, hcore⟩ := hidles.exists_request hr
  have hkind : r.core.kind = r₀.core.kind := by rw [hcore]
  rw [show r.kind = r₀.kind from hkind] at hnot
  exact (h r₀ hr₀ hnot).imp hworkOut hstatus

/-- The client has an error to report. -/
theorem OutputSafe.of_hasError {c : Client} (herror : c.hasError = true) : OutputSafe c :=
  fun _ _ _ => Or.inr herror

/-! ## The start of a response -/

/-- The flag survives the end of `_handleSocketIn`. -/
theorem workOut_startResponse {c : Client} (sys : Sys) (hworkOut : c.context.requestState.workOut = true) :
    (c.startResponse sys).2.context.requestState.workOut = true := by
  obtain ⟨f, heq, -, hstate, -⟩ := prepareError_cases c sys
  have hflag : f.requestState.workOut = true := by
    rcases hstate with hstate | hstate <;> rw [hstate]
    · exact hworkOut
    · rfl
  have hswitch : ∀ c' : Client, c'.context.requestState.workOut = true →
      (c'.switchToWrite sys).2.context.requestState.workOut = true := by
    intro c' hflag'
    rcases switchToWrite_cases c' sys with heq | heq <;> rw [heq]
    · exact hflag'
    · exact hflag'
  unfold startResponse
  rw [heq]
  dsimp only
  split_ifs
  · exact hswitch _ hflag
  · exact hswitch _ hflag

theorem hasError_of_statusCode {c c' : Client}
    (hstatus : c'.context.response.statusCode = c.context.response.statusCode) :
    c'.hasError = c.hasError := by rw [hasError, hasError, hstatus]

theorem OutputSafe.startResponse {c : Client} (h : OutputSafe c) (sys : Sys) :
    OutputSafe (c.startResponse sys).2 :=
  h.of_idles (idles_startResponse c sys) (workOut_startResponse sys) fun herror => by
    rw [hasError_of_statusCode (statusCode_startResponse c sys), herror]

/-- The constructors of DELETE, PUT and HEAD complete the output, and `processing` leaves it so. -/
theorem workOut_processing {sys : Sys} {kind : RequestKind} {ctx : RequestContext} {h : Handler}
    (hcreate : createRequest kind ctx = .ok h) (hnot : kind.overrides .workOut = false) :
    (h.processing sys).context.requestState.workOut = true := by
  obtain ⟨chopedTarget, -, rfl⟩ := createRequest_ok hcreate
  cases kind with
  | get => cases hnot
  | post => cases hnot
  | delete => exact congrArg RequestState.workOut (Handler.quiet_processingDELETE sys _).requestState
  | put => exact congrArg RequestState.workOut (Handler.quiet_processingPUT sys _).requestState
  | head => exact congrArg RequestState.workOut (Handler.quiet_processingHEAD sys rfl).requestState

/-! ## Steps -/

theorem Resolves.outputSafe {c : Client} (hnone : c.request = none) {sys : Sys} {r : Ret × Client}
    (h : Resolves c sys r) : OutputSafe r.2 := by
  cases h with
  | noServer | noTarget | answers | redirects => exact .of_request_none hnone
  | @creates block loc kind h₀ hfinds hkind hcreate =>
    intro r hr hnot
    obtain rfl : (h₀.processing sys).request = r := Option.some.inj hr
    rw [(Handler.started_processing sys hcreate).kind_eq] at hnot
    exact Or.inl (workOut_processing hcreate hnot)

theorem AwaitsHead.outputSafe_parseRequest {c : Client} (h : AwaitsHead c) (sys : Sys) :
    OutputSafe (c.parseRequest sys).2 := by
  have hends := h.headEnds sys
  generalize c.parseRequest sys = r at hends ⊢
  cases hends with
  | waits | refused => exact .of_request_none h.request
  | resolved f hhead hresolves hret => exact hresolves.outputSafe (h.headAccepted f).request
  | answered f hhead hresolves => exact hresolves.outputSafe (h.headAccepted f).request

/-- An upload has no output while its body is read. -/
theorem AwaitsBody.silent_handleRequest {c : Client} (h : AwaitsBody c) (sys : Sys) :
    OutputSafe (c.handleRequest sys).2 := by
  obtain ⟨request, -, -, heq⟩ := h.handleRequest_eq sys
  have hworkOut : ∀ c' : Client, c'.context.requestState.workOut = true → OutputSafe c' :=
    fun c' hset _ _ _ => Or.inl hset
  have hset := (Handler.reads_readBody sys ⟨c.context, request⟩).le.workOut h.workOut
  rw [heq]
  generalize Handler.readBody sys ⟨c.context, request⟩ = r at hset ⊢
  obtain ⟨ret, h'⟩ := r
  cases ret with
  | reqDone => exact hworkOut _ (workOut_startResponse sys hset)
  | _ => exact hworkOut _ hset

/-- A reading event, in each of the phases of a client. -/
theorem OutputSafe.handleSocketIn {c : Client} (h : OutputSafe c) (hclosed : c.closed = false)
    (hphase : Phase c) (sys : Sys) : OutputSafe (c.handleSocketIn sys).2 := by
  rcases handleSocketIn_cases c sys with ⟨-, heq, -⟩ | ⟨-, buffer, timestamp, -, heq, htime⟩
  · rw [heq]
    exact h
  · rw [heq]
    rcases hphase with hclosed' | hhead | hbody | hresponds
    · rw [hclosed] at hclosed'
      cases hclosed'
    · have hunread : c.context.requestState.isClientReadComplete = false :=
        Bool.eq_false_iff.mpr hhead.not_clientRead
      have hread : AwaitsHead (c.withRead buffer timestamp) :=
        { hhead with timestamp := by rw [htime hunread]; exact hhead.timestamp }
      unfold handleRead
      rw [if_neg hread.not_clientRead]
      have hsafe := hread.outputSafe_parseRequest sys
      obtain ⟨-, -, -, hgoesOn⟩ := hread.parseRequest sys
      generalize (c.withRead buffer timestamp).parseRequest sys = r at hsafe hgoesOn ⊢
      obtain ⟨ret, c₁⟩ := r
      cases ret with
      | reqDone =>
        rcases hgoesOn rfl with hready | hawaits
        · dsimp only
          rw [handleRequest_of_workIn sys hready.workIn]
          exact hsafe.startResponse sys
        · exact hawaits.silent_handleRequest sys
      | _ => exact hsafe
    · have hread : AwaitsBody (c.withRead buffer timestamp) := { hbody with }
      have hhandle : (c.withRead buffer timestamp).handleRead sys =
          (c.withRead buffer timestamp).handleRequest sys := if_pos hbody.clientRead
      rw [hhandle]
      exact hread.silent_handleRequest sys
    · have hread : OutputSafe (c.withRead buffer timestamp) := h
      have hhandle : (c.withRead buffer timestamp).handleRead sys =
          (c.withRead buffer timestamp).startResponse sys :=
        (if_pos hresponds.clientRead).trans (handleRequest_of_workIn sys hresponds.workIn)
      rw [hhandle]
      exact hread.startResponse sys

theorem OutputSafe.sendResponse {c : Client} (h : OutputSafe c) (sys : Sys) :
    OutputSafe (c.sendResponse sys).2 := by
  rcases sendResponse_cases c sys with heq | ⟨n, heq⟩ <;> rw [heq]
  · exact h
  · unfold takeResponse
    split_ifs <;> exact h

/-- A writing event sets flags and takes none back, and the two that count here are the complete output and
the error. -/
theorem OutputSafe.handleSocketOut {c : Client} (h : OutputSafe c) (sys : Sys) :
    OutputSafe (c.handleSocketOut sys).2 := by
  have hproduce : OutputSafe (c.produce sys).2 := by
    by_cases hworkOut : c.context.requestState.workOut = true
    · have heq : c.produce sys = (.reqContinue, c) := if_pos hworkOut
      rw [heq]
      exact h
    · by_cases herror : c.hasError = true
      · have heq : c.produce sys = (.reqContinue, c.readErrorPage) := (if_neg hworkOut).trans (if_pos herror)
        rw [heq]
        refine .of_hasError ?_
        unfold readErrorPage
        dsimp only
        split_ifs <;> exact herror
      · intro r hr hnot
        obtain ⟨r₀, hr₀, hcore⟩ := (idles_produce c sys).exists_request hr
        have hkind : r.core.kind = r₀.core.kind := by rw [hcore]
        rw [show r.kind = r₀.kind from hkind] at hnot
        exact ((h r₀ hr₀ hnot).elim hworkOut herror).elim
  unfold Client.handleSocketOut
  generalize c.produce sys = r at hproduce ⊢
  obtain ⟨ret, c'⟩ := r
  cases ret with
  | reqContinue => exact hproduce.sendResponse sys
  | _ => exact hproduce

theorem hasError_respondTimeout {c : Client} (herror : c.hasError = true) (sys : Sys) :
    (c.respondTimeout sys).2.hasError = true := by
  unfold respondTimeout
  extract_lets c₁
  obtain ⟨f, heq, hstatus, -⟩ := loadErrorPage_cases c₁ sys
  rw [heq]
  have hpage : (c₁.withPage f).render.hasError = true :=
    (hasError_of_statusCode (c := c) hstatus).trans herror
  rcases switchToWrite_cases (c₁.withPage f).render sys with heq | heq <;> rw [heq]
  · exact hpage
  · exact hpage

/-- A timeout takes the flag back, with an error in its place. -/
theorem OutputSafe.timeoutCheck {c : Client} (h : OutputSafe c) (sys : Sys) :
    OutputSafe (c.timeoutCheck sys).2 := by
  unfold Client.timeoutCheck
  split_ifs
  · exact .of_hasError (hasError_respondTimeout rfl sys)
  · exact .of_hasError (hasError_respondTimeout rfl sys)
  · exact h
  · exact .of_hasError (hasError_respondTimeout rfl sys)
  · exact h

/-- The class of a request object with a CGI overrides `workOut` and `CGIIn`. -/
theorem Phase.owner {c : Client} (h : Phase c) (hclosed : c.closed = false)
    (hsocket : c.context.cgiSocket ≠ -1) :
    ∃ r, c.request = some r ∧ (r.kind = .get ∨ r.kind = .post) := by
  rcases h with hclosed' | hhead | hbody | hresponds
  · rw [hclosed] at hclosed'
    cases hclosed'
  · exact absurd hhead.cgiSocket hsocket
  · exact absurd hbody.cgiSocket hsocket
  · exact (hresponds.socket hsocket).2

theorem OutputSafe.of_kind {c : Client} (hkind : ∀ r, c.request = some r → r.kind = .get ∨ r.kind = .post) :
    OutputSafe c := by
  intro r hr hnot
  rcases hkind r hr with heq | heq <;> rw [heq] at hnot <;> cases hnot

theorem silent_handleCGIIn {c : Client} {r : ARequest} (hr : c.request = some r)
    (hkind : r.kind = .get ∨ r.kind = .post) (sys : Sys) : OutputSafe (c.handleCGIIn sys).2 := by
  refine .of_kind fun r' hr' => ?_
  obtain ⟨r₀, hr₀, hcore⟩ := (idles_handleCGIIn c sys).exists_request hr'
  obtain rfl : r = r₀ := Option.some.inj (hr.symm.trans hr₀)
  have hsame : r'.core.kind = r.core.kind := by rw [hcore]
  rw [show r'.kind = r.kind from hsame]
  exact hkind

theorem silent_handleCGIOut {c : Client} {r : ARequest} (hr : c.request = some r)
    (hkind : r.kind = .get ∨ r.kind = .post) (sys : Sys) : OutputSafe (c.handleCGIOut sys).2 := by
  refine .of_kind fun r' hr' => ?_
  unfold handleCGIOut at hr'
  rw [hr] at hr'
  obtain rfl : (Handler.CGIOut sys ⟨c.context, r⟩).2.request = r' := Option.some.inj hr'
  unfold Handler.CGIOut
  rcases hkind with hget | hpost
  · rw [hget]
    exact Or.inl hget
  · rw [hpost]
    dsimp only
    obtain ⟨f, hf⟩ := (Handler.reads_readBody sys ⟨c.context, r⟩).fields
    rw [hf]
    exact Or.inr hpost

/-- One event keeps the invariant, whatever it is.  By cases on the event, with a lemma for each handler of
the client. -/
theorem OutputSafe.step {c : Client} (h : OutputSafe c) (hphase : Phase c) (e : Event) :
    OutputSafe (c.step e) := by
  cases hclosed : c.closed with
  | true =>
    have hstep : c.step e = c := if_pos hclosed
    rw [hstep]
    exact h
  | false =>
    unfold Client.step
    rw [if_neg (by rw [hclosed]; exact Bool.false_ne_true)]
    cases e with
    | clientIn sys => exact h.handleSocketIn hclosed hphase sys
    | clientOut sys => exact h.handleSocketOut sys
    | cgiIn sys =>
      dsimp only
      split_ifs with hsocket
      · exact h
      · obtain ⟨r, hr, hkind⟩ := hphase.owner hclosed hsocket
        exact silent_handleCGIIn hr hkind sys
    | cgiOut sys =>
      dsimp only
      split_ifs with hsocket
      · exact h
      · obtain ⟨r, hr, hkind⟩ := hphase.owner hclosed hsocket
        exact silent_handleCGIOut hr hkind sys
    | timeoutCheck sys => exact h.timeoutCheck sys
    | environment fs => exact h

/-! ## Runs -/

/-- The virtual call of an event that epoll may report. -/
theorem overrides_step {c : Client} {e : Event} (hphase : Phase c) (hsafe : OutputSafe c)
    (hclosed : c.closed = false) (hregistered : c.Registered e) : Overrides c e := by
  refine .of_virtualCall fun call r hcall => ?_
  cases e with
  | clientIn sys =>
    obtain ⟨h, hh, hcall'⟩ := Option.map_eq_some_iff.mp hcall
    obtain ⟨rfl, rfl⟩ := Prod.mk.inj hcall'
    have hreader : c.readerCall (.clientIn sys) = some (sys, h) := by
      unfold readerCall
      dsimp only
      rw [if_neg (by rw [hclosed]; exact Bool.false_ne_true), hh]
      rfl
    -- only POST and PUT have a body to read
    have heffect := effect_step hphase (.clientIn sys)
    generalize c.step (.clientIn sys) = c' at heffect
    cases heffect with
    | environment he => cases he
    | headOnly _ hnone =>
      rw [hreader] at hnone
      cases hnone
    | request _ hread =>
      cases hread with
      | same hnone =>
        rw [hreader] at hnone
        cases hnone
      | called c₂ hsome hkind =>
        rw [hreader] at hsome
        cases hsome
        rcases hkind with hpost | hput
        · rw [hpost]
          rfl
        · rw [hput]
          rfl
  | clientOut sys =>
    unfold virtualCall at hcall
    dsimp only at hcall
    split_ifs at hcall with hdone
    obtain ⟨r', hr', hcall'⟩ := Option.map_eq_some_iff.mp hcall
    obtain ⟨rfl, rfl⟩ := Prod.mk.inj hcall'
    by_contra hnot
    exact hdone (hsafe r' hr' (by simpa using hnot))
  | cgiIn sys =>
    unfold virtualCall at hcall
    dsimp only at hcall
    split_ifs at hcall with hsocket
    obtain ⟨r', hr', hcall'⟩ := Option.map_eq_some_iff.mp hcall
    obtain ⟨rfl, rfl⟩ := Prod.mk.inj hcall'
    obtain ⟨r₀, hr₀, hkind⟩ := hphase.owner hclosed hsocket
    obtain rfl : r' = r₀ := Option.some.inj (hr'.symm.trans hr₀)
    rcases hkind with hget | hpost
    · rw [hget]
      rfl
    · rw [hpost]
      rfl
  | cgiOut sys =>
    unfold virtualCall at hcall
    dsimp only at hcall
    split_ifs at hcall with hsocket
    obtain ⟨r', hr', hcall'⟩ := Option.map_eq_some_iff.mp hcall
    obtain ⟨rfl, rfl⟩ := Prod.mk.inj hcall'
    -- a GET is not registered for EPOLLOUT
    have hinterest : c.cgiInterest.epollOut = true := hregistered
    unfold cgiInterest at hinterest
    rw [hr'] at hinterest
    dsimp only at hinterest
    split_ifs at hinterest
    cases hkind : r'.kind <;> rw [hkind] at hinterest <;> first | rfl | cases hinterest
  | timeoutCheck sys => cases hcall
  | environment fs => cases hcall

/-- **Virtual calls.**  In a run of events that epoll may report, every virtual call is one that the class
of the request object overrides. -/
theorem overrides_run (server : Server) (fs : FileSystem) (connectSocket fd : Fd) (now : Int)
    (es : List Event)
    (hregistered : Transition.Along step Registered (init server fs connectSocket fd now) es) :
    Transition.Along step (fun c e => c.closed = false → Overrides c e)
      (init server fs connectSocket fd now) es := by
  have hphase : Phase (init server fs connectSocket fd now) :=
    Or.inr (Or.inl (awaitsHead_init server fs connectSocket fd now))
  have hsafe : OutputSafe (init server fs connectSocket fd now) := .of_request_none rfl
  refine Transition.along_iff.mpr fun before e after heq hclosed => ?_
  rw [heq] at hregistered
  obtain ⟨hbefore, hevent, -⟩ := Transition.along_append.mp hregistered
  have hinv : Phase _ ∧ OutputSafe _ := Transition.run_invariant (I := fun c => Phase c ∧ OutputSafe c)
    (fun c e h _ => ⟨(phase_step h.1 e).1, h.2.step h.1 e⟩) ⟨hphase, hsafe⟩ hbefore
  exact overrides_step hinv.1 hinv.2 hclosed hevent

/-- A PUT whose body comes after its head, and the events of its answer. -/
def putEvents : List Event :=
  [.clientIn (.receiving (bytes "PUT /x HTTP/1.1\r\nHost: h\r\nContent-Length: 1\r\n\r\n")),
    .clientIn (.receiving [97]), .clientOut (.quiet 1), .timeoutCheck (.quiet 2)]

set_option maxRecDepth 10000 in
/-- The events of a PUT: none of them asks for an output that there is not. -/
theorem overrides_run_put :
    Transition.Along step (fun c e => c.closed = false → Overrides c e) uploadClient putEvents := by
  have hwrite : (uploadClient.run (putEvents.take 2)).clientInterest.epollOut = true := by
    decide +kernel
  exact overrides_run _ _ 3 4 0 putEvents ⟨rfl, rfl, hwrite, trivial, trivial⟩

end Client
end Webserv
