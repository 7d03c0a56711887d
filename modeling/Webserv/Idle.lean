import Webserv.Phases

/-!
# What a call leaves alone that reads nothing of the request

Most calls into a client work on the response: they render, send, read an error page, read from the CGI,
look at a clock.  Such a call touches neither the file system nor the location nor the socket of the CGI,
and what a request object knows about its body stays as it is.

* `Idles`: what such a call keeps.
* `idles_startResponse`, `idles_handleSocketOut`, `idles_handleCGIIn`, `idles_timeoutCheck`: the calls.

## Why it is one relation

The invariants about bodies, uploads and files have one thing in common: each has to be shown for every
event, and most events have nothing to do with it.  Without a frame rule each of them would unfold the whole
of `handleSocketOut` and `timeoutCheck` to find that nothing has happened.  `Idles` is that rule.  It lists
the fields that may change, so that every other field is the same by definition, and three facts about the
fields that may: the request object keeps its `core`, which is all of it but the streams it puts out; no
flag is taken back, except that of the output, which a timeout does take back; and whatever was called on
the socket of the CGI, nothing was sent to it.

## How it is used

An invariant of this kind has a lemma that says it is kept by `Idles`, in two or three lines, and then one
case for the calls that do read: the head, the body.  The relation is transitive, so a call that is made of
idle parts is idle, and the proofs below follow the parts of each call in the order of its definition.
-/

namespace Webserv

/-- A request object without what it puts out: the part that the readers of the body work on. -/
def ARequest.core (r : ARequest) : ARequest :=
  { r with input := {}, directory := none, readBuffer := [], cgiSilent := true }

/-- The flags of the head and of the work stay set, except `WORK_OUT`, which a timeout unsets so that its
error page is read. -/
structure RequestState.Keeps (x y : RequestState) : Prop where
  requestLine : x.requestLine = true → y.requestLine = true
  headers : x.headers = true → y.headers = true
  workIn : x.workIn = true → y.workIn = true
  cgiIn : x.cgiIn = true → y.cgiIn = true
  cgiOut : x.cgiOut = true → y.cgiOut = true

/-- Where flags are only set, all of them stay set. -/
theorem RequestState.Le.keeps {x y : RequestState} (h : x.Le y) : x.Keeps y :=
  ⟨h.requestLine, h.headers, h.workIn, h.cgiIn, h.cgiOut⟩

theorem RequestState.Keeps.trans {x y z : RequestState} (h₁ : x.Keeps y) (h₂ : y.Keeps z) :
    x.Keeps z where
  requestLine := h₂.requestLine ∘ h₁.requestLine
  headers := h₂.headers ∘ h₁.headers
  workIn := h₂.workIn ∘ h₁.workIn
  cgiIn := h₂.cgiIn ∘ h₁.cgiIn
  cgiOut := h₂.cgiOut ∘ h₁.cgiOut

namespace Client

/-- The fields that a call may change that reads neither a head nor a body. -/
structure IdleFields where
  timestamp : Timeout → Int
  errorPage : IStream
  bytesSent : Nat
  closed : Bool
  request : Option ARequest
  requestState : RequestState
  buffer : Bytes
  response : Response
  responseBuffer : Bytes
  sent : Bytes
  heads : List Response
  calls : List CgiCall

def withIdle (c : Client) (f : IdleFields) : Client :=
  { c with
    timestamp := f.timestamp
    errorPage := f.errorPage
    bytesSent := f.bytesSent
    closed := f.closed
    request := f.request
    context := { c.context with
      requestState := f.requestState
      buffer := f.buffer
      response := f.response
      responseBuffer := f.responseBuffer
      world := { c.context.world with sent := f.sent, heads := f.heads, calls := f.calls } } }

/-- What a call keeps that reads neither a head nor a body. -/
structure Idles (c c' : Client) : Prop where
  fields : ∃ f, c' = c.withIdle f
  request : c'.request.map ARequest.core = c.request.map ARequest.core
  flags : c.context.requestState.Keeps c'.context.requestState
  sends : ∃ calls, c'.context.world.calls = c.context.world.calls ++ calls ∧
    ∀ call ∈ calls, ∀ fd unread len sent, call ≠ .send fd unread len sent

namespace Idles

theorem refl (c : Client) : Idles c c :=
  ⟨⟨⟨_, _, _, _, _, _, _, _, _, _, _, _⟩, rfl⟩, rfl, (RequestState.Le.refl _).keeps, [],
    (List.append_nil _).symm, fun _ hcall => nomatch hcall⟩

/-- No call was made, and the request object is the same. -/
theorem of_fields {c : Client} (f : IdleFields) (hrequest : f.request = c.request)
    (hflags : c.context.requestState.Keeps f.requestState)
    (hcalls : f.calls = c.context.world.calls) : Idles c (c.withIdle f) where
  fields := ⟨f, rfl⟩
  request := congrArg (Option.map ARequest.core) hrequest
  flags := hflags
  sends := ⟨[], by rw [List.append_nil]; exact hcalls, fun _ hcall => nomatch hcall⟩

theorem trans {c₁ c₂ c₃ : Client} (h₁₂ : Idles c₁ c₂) (h₂₃ : Idles c₂ c₃) : Idles c₁ c₃ := by
  obtain ⟨⟨f, rfl⟩, hrequest, hflags, calls, hcalls, hmem⟩ := h₁₂
  obtain ⟨⟨g, rfl⟩, hrequest', hflags', calls', hcalls', hmem'⟩ := h₂₃
  refine ⟨⟨g, rfl⟩, hrequest'.trans hrequest, hflags.trans hflags', calls ++ calls', ?_, ?_⟩
  · rw [hcalls', hcalls, List.append_assoc]
  · intro call hcall
    exact (List.mem_append.mp hcall).elim (hmem call) (hmem' call)

end Idles

/-! ## The start of a response -/

/-- The fields of a client that such a call may change. -/
def idleFields (c : Client) : IdleFields where
  timestamp := c.timestamp
  errorPage := c.errorPage
  bytesSent := c.bytesSent
  closed := c.closed
  request := c.request
  requestState := c.context.requestState
  buffer := c.context.buffer
  response := c.context.response
  responseBuffer := c.context.responseBuffer
  sent := c.context.world.sent
  heads := c.context.world.heads
  calls := c.context.world.calls

/-- The server drops a client without touching anything else of it. -/
theorem idles_closed (c : Client) (closed : Bool) : Idles c { c with closed := closed } :=
  .of_fields { c.idleFields with closed := closed } rfl (RequestState.Le.refl _).keeps rfl

theorem idles_touch (c : Client) (type : Timeout) (now : Int) : Idles c (c.touch type now) :=
  .of_fields { c.idleFields with timestamp := _ } rfl (RequestState.Le.refl _).keeps rfl

/-- Bytes that arrive are unread bytes, whatever they are.  Nothing is decided about them before a parser or
a reader is called. -/
theorem idles_withRead (c : Client) (buffer : Bytes) (timestamp : Timeout → Int) :
    Idles c (c.withRead buffer timestamp) :=
  .of_fields { c.idleFields with buffer := buffer, timestamp := timestamp } rfl
    (RequestState.Le.refl _).keeps rfl

theorem idles_setResponse (c : Client) (r : Response) : Idles c (c.setResponse r) :=
  .of_fields { c.idleFields with response := r } rfl (RequestState.Le.refl _).keeps rfl

theorem idles_setStatusCode (c : Client) (code : Nat) : Idles c (c.setStatusCode code) :=
  idles_setResponse c _

theorem idles_render (c : Client) : Idles c c.render :=
  .of_fields { c.idleFields with response := _, responseBuffer := _, heads := _ } rfl
    (RequestState.Le.refl _).keeps rfl

theorem idles_setState (c : Client) {f : RequestState → RequestState}
    (hf : c.context.requestState.Keeps (f c.context.requestState)) : Idles c (c.setState f) :=
  .of_fields { c.idleFields with requestState := _ } rfl hf rfl

theorem idles_withPage (c : Client) {f : PageFields}
    (hf : c.context.requestState.Keeps f.requestState) : Idles c (c.withPage f) :=
  .of_fields { c.idleFields with
    requestState := f.requestState, response := f.response, errorPage := f.errorPage } rfl hf rfl

/-- The switch to writing sets a flag and a clock, or throws. -/
theorem idles_switchToWrite (c : Client) (sys : Sys) : Idles c (c.switchToWrite sys).2 := by
  rcases switchToWrite_cases c sys with heq | heq <;> rw [heq]
  · exact .refl c
  · refine (idles_setState c ?_).trans (idles_touch _ _ _)
    exact ⟨id, id, id, id, id⟩

/-- The end of `_handleSocketIn` works on the response alone, error page included. -/
theorem idles_startResponse (c : Client) (sys : Sys) : Idles c (c.startResponse sys).2 := by
  obtain ⟨f, heq, -, hstate, -⟩ := prepareError_cases c sys
  have hflags : c.context.requestState.Keeps f.requestState := by
    rcases hstate with hstate | hstate <;> rw [hstate]
    · exact (RequestState.Le.refl _).keeps
    · exact (RequestState.le_setWorkComplete _).keeps
  have hpage := idles_withPage c hflags
  unfold startResponse
  rw [heq]
  dsimp only
  split_ifs
  · exact hpage.trans ((idles_render _).trans (idles_switchToWrite _ sys))
  · exact hpage.trans (idles_switchToWrite _ sys)

/-! ## Timeouts -/

theorem idles_respondTimeout (c : Client) (sys : Sys) : Idles c (c.respondTimeout sys).2 := by
  unfold respondTimeout
  extract_lets c₁
  have hset : Idles c c₁ := by
    refine idles_setState c ⟨?_, ?_, ?_, ?_, ?_⟩ <;>
      simp +contextual [RequestState.setWorkComplete, RequestState.unsetWorkOutComplete]
  obtain ⟨f, heq, -, hstate⟩ := loadErrorPage_cases c₁ sys
  have hflags : c₁.context.requestState.Keeps f.requestState := by
    rcases hstate with ⟨-, hstate⟩ | ⟨-, hstate⟩ <;> rw [hstate]
    · exact (RequestState.Le.refl _).keeps
    · exact (RequestState.le_setWorkComplete _).keeps
  rw [heq]
  exact hset.trans ((idles_withPage c₁ hflags).trans
    ((idles_render _).trans (idles_switchToWrite _ sys)))

/-- A sweep of the timeouts leaves the body of a request as it stands. -/
theorem idles_timeoutCheck (c : Client) (sys : Sys) : Idles c (c.timeoutCheck sys).2 := by
  unfold timeoutCheck
  split_ifs
  · have hread : Idles (c.setStatusCode statusRequestTimeout)
        ((c.setStatusCode statusRequestTimeout).setState RequestState.setReadComplete) :=
      idles_setState _ ⟨fun _ => rfl, fun _ => rfl, id, id, id⟩
    exact (idles_setStatusCode c _).trans (hread.trans (idles_respondTimeout _ sys))
  · exact (idles_setStatusCode c _).trans (idles_respondTimeout _ sys)
  · exact .refl c
  · exact (idles_setResponse c _).trans
      ((idles_setStatusCode _ _).trans (idles_respondTimeout _ sys))
  · exact .refl c

/-! ## Output -/

/-- A call on the request object that keeps what it knows about its body. -/
theorem Idles.withHandler {c : Client} {request : ARequest} {h : Handler}
    (hrequest : c.request = some request) (hcore : h.request.core = request.core)
    (hfields : ∃ f, c.withHandler h = c.withIdle f)
    (hflags : c.context.requestState.Keeps h.context.requestState)
    (hsends : ∃ calls, h.context.world.calls = c.context.world.calls ++ calls ∧
      ∀ call ∈ calls, ∀ fd unread len sent, call ≠ .send fd unread len sent) :
    Idles c (c.withHandler h) where
  fields := hfields
  request := by
    rw [hrequest]
    exact congrArg some hcore
  flags := hflags
  sends := hsends

theorem idles_produce (c : Client) (sys : Sys) : Idles c (c.produce sys).2 := by
  unfold produce
  split_ifs
  · exact .refl c
  · unfold readErrorPage
    dsimp only
    split_ifs
    · exact .of_fields { c.idleFields with errorPage := _, requestState := _ } rfl
        ⟨id, id, id, id, id⟩ rfl
    · exact .of_fields { c.idleFields with errorPage := _, responseBuffer := _ } rfl
        (RequestState.Le.refl _).keeps rfl
  · cases hrequest : c.request with
    | none => exact .refl c
    | some request =>
      obtain ⟨⟨f, hf⟩, -⟩ := Handler.produces_workOut sys ⟨c.context, request⟩
      dsimp only
      generalize Handler.workOut sys ⟨c.context, request⟩ = r at hf ⊢
      obtain ⟨ret, h'⟩ := r
      have hidles : Idles c (c.withHandler h') := by
        rw [show h' = _ from hf]
        exact .withHandler hrequest rfl
          ⟨{ c.idleFields with request := _, requestState := _, response := _, responseBuffer := _ },
            rfl⟩ ⟨id, id, id, id, id⟩ ⟨[], (List.append_nil _).symm, fun _ hcall => nomatch hcall⟩
      cases ret <;> exact hidles

theorem idles_sendResponse (c : Client) (sys : Sys) : Idles c (c.sendResponse sys).2 := by
  rcases sendResponse_cases c sys with heq | ⟨n, heq⟩ <;> rw [heq]
  · exact .refl c
  · unfold takeResponse
    split_ifs
    · exact .of_fields { c.idleFields with
        timestamp := _, bytesSent := _, responseBuffer := _, sent := _ } rfl
          (RequestState.Le.refl _).keeps rfl
    · exact .of_fields { c.idleFields with bytesSent := _, responseBuffer := _, sent := _ } rfl
        (RequestState.Le.refl _).keeps rfl

/-- Nothing is read of a request when its response is sent. -/
theorem idles_handleSocketOut (c : Client) (sys : Sys) : Idles c (c.handleSocketOut sys).2 := by
  have hproduce := idles_produce c sys
  unfold handleSocketOut
  generalize c.produce sys = r at hproduce ⊢
  obtain ⟨ret, c'⟩ := r
  cases ret with
  | reqContinue => exact hproduce.trans (idles_sendResponse c' sys)
  | _ => exact hproduce

/-! ## The CGI -/

/-- A call that leaves the request object alone. -/
theorem idles_withHandler_self {c : Client} {request : ARequest} (hrequest : c.request = some request) :
    Idles c (c.withHandler ⟨c.context, request⟩) :=
  .withHandler hrequest rfl ⟨{ c.idleFields with request := _ }, rfl⟩ (RequestState.Le.refl _).keeps
    ⟨[], (List.append_nil _).symm, fun _ hcall => nomatch hcall⟩

/-- What a CGI puts out is appended to the response, and its input is not touched. -/
theorem idles_handleCGIIn (c : Client) (sys : Sys) : Idles c (c.handleCGIIn sys).2 := by
  unfold handleCGIIn
  cases hrequest : c.request with
  | none => exact .refl c
  | some request =>
    obtain ⟨⟨f, hf⟩, hle, ⟨calls, hcalls, hmem⟩, -⟩ :=
      Handler.readsCGI_readCGI sys ⟨c.context, request⟩
    have hread : Idles c (c.withHandler (Handler.readCGI sys ⟨c.context, request⟩).2) := by
      refine .withHandler hrequest ?_ ?_ hle.keeps ⟨calls, hcalls, fun call hcall => (hmem call hcall).2⟩
      · rw [hf]
        rfl
      · rw [hf]
        exact ⟨{ c.idleFields with
          request := _, requestState := _, response := _, responseBuffer := _, heads := _,
          calls := _ }, rfl⟩
    have hsame := idles_withHandler_self hrequest
    dsimp only
    unfold Handler.CGIIn
    cases hkind : request.kind <;> dsimp only <;> assumption

end Client
end Webserv
