import Webserv.Client
import Webserv.Effects.Output
import Webserv.Effects.Processing
import Webserv.HeadParsing

/-!
# The phases of a client

A client waits for the head of a request, may wait for its body, and then responds.  The response stream,
the bytes sent and the bytes that wait to be sent, is empty until it responds.

* `AwaitsHead`, `AwaitsBody`, `Responds`: what holds in each phase.
* `Client.Streams`: what a step can do to the response stream.
* `Client.Resolves`, `Client.HeadEnds`: what the end of a head can do.
* `phase_step`, `phase_run`: every step goes from phase to phase, and what it does to the stream.

## Why phases

The flags of a request are nine bits, and most of their combinations never come up.  Which do is decided by
where the request is: nothing is set but the request line while the head is awaited, the output of an upload
is complete while its body is read, and a response has its work on the socket behind it.  A phase says all
of it at once, together with what the request object and the sockets are then.  An invariant about a client
is proved by phases, and a phase rules out most of what a step could do.

## Why the stream is in it

The properties of responses ask whether bytes are lost or put before their head.  Both are questions about
one step: it appends to the stream, or it puts a response in the place of what waits to be sent.  `Streams`
has these two cases, with a condition for each.  `phase_step` proves that there is no third, and says when
each may happen.  Bytes without a head come from the error page of a client without a request object, in
`BodyBeforeHead`; a response is replaced when a step goes through the end of `_handleSocketIn` again, or
answers a timeout (`Overwrites`).  Neither is assumed away: a theorem that needs it to be absent says so in a
hypothesis.

## How a head ends

`_parseRequest` goes on waiting, refuses, or accepts and resolves, and a request that is resolved throws, is
answered at once, or has an object.  `HeadEnds` and `Resolves` are these cases as inductive types, with what
is known in each.  Every later argument about the first call of a request starts from them, and never from
the definition of `_resolveARequest`.
-/

namespace Webserv
namespace Client

/-! ## The response stream -/

/-- The stream got more bytes at its end, and no head was rendered: what was in it is still there. -/
structure Extends (c c' : Client) (data : Bytes) : Prop where
  output : c'.output = c.output ++ data
  sent : c.context.world.sent <+: c'.context.world.sent
  heads : c'.context.world.heads = c.context.world.heads

/-- The bytes that waited to be sent were replaced by a response and what follows it. -/
structure Replaces (c c' : Client) : Prop where
  sent : c'.context.world.sent = c.context.world.sent
  heads : ∃ r data, c'.context.responseBuffer = Response.response r ++ data ∧
    c'.context.world.heads = c.context.world.heads ++ [r]

/-- The stream is extended, by no byte unless `p` holds, or replaced, only when `q` holds. -/
def Streams (c c' : Client) (p q : Prop) : Prop :=
  (∃ data, c.Extends c' data ∧ (data ≠ [] → p)) ∨ c.Replaces c' ∧ q

theorem Extends.of_context {c c' : Client} {data : Bytes} (h : c.context.Extends c'.context data) :
    c.Extends c' data where
  output := by rw [Client.output, Client.output, h.responseBuffer, h.sent, List.append_assoc]
  sent := by rw [h.sent]
  heads := h.heads

theorem Extends.refl (c : Client) : c.Extends c [] := .of_context (.refl _)

/-- More bytes, and more after them. -/
theorem Extends.trans {c₁ c₂ c₃ : Client} {x y : Bytes} (h₁ : c₁.Extends c₂ x)
    (h₂ : c₂.Extends c₃ y) : c₁.Extends c₃ (x ++ y) where
  output := by rw [h₂.output, h₁.output, List.append_assoc]
  sent := h₁.sent.trans h₂.sent
  heads := h₂.heads.trans h₁.heads

theorem Streams.of_silent {c c' : Client} {p q : Prop} (h : c.Extends c' []) : Streams c c' p q :=
  Or.inl ⟨[], h, fun hne => absurd rfl hne⟩

/-- Weaker conditions say less about the step. -/
theorem Streams.mono {c c' : Client} {p p' q q' : Prop} (h : Streams c c' p q) (hp : p → p')
    (hq : q → q') : Streams c c' p' q' := by
  rcases h with ⟨data, hextends, hdata⟩ | ⟨hreplaces, hcond⟩
  · exact Or.inl ⟨data, hextends, hp ∘ hdata⟩
  · exact Or.inr ⟨hreplaces, hq hcond⟩

/-! ## Phases -/

/-- No head has been accepted or refused.  Nothing but the request line can be complete. -/
structure AwaitsHead (c : Client) : Prop where
  request : c.request = none
  response : c.context.response = Response.init
  requestState : ∃ requestLine, c.context.requestState = { requestLine := requestLine }
  serverBlock : c.context.serverBlock = none
  cgiSocket : c.context.cgiSocket = -1
  errorPage : c.errorPage = {}
  timestamp : c.timestamp .clientBody = timeMax
  output : c.output = []
  heads : c.context.world.heads = []

/-- The request is an upload, and its body is being read.  Nothing has been put out, and no CGI is attached.
-/
structure AwaitsBody (c : Client) : Prop where
  request : ∃ r, c.request = some r ∧ (r.kind = .put ∨ r.kind = .post ∧ r.cgiPath = none)
  clientRead : c.context.requestState.isClientReadComplete = true
  read : c.context.requestState.read = false
  workIn : c.context.requestState.workIn = false
  workOut : c.context.requestState.workOut = true
  cgiIn : c.context.requestState.cgiIn = true
  canWrite : c.context.requestState.canWrite = false
  cgiHeaders : c.context.requestState.cgiHeaders = false
  cgiSocket : c.context.cgiSocket = -1
  errorPage : c.errorPage = {}
  output : c.output = []
  heads : c.context.world.heads = []

/-- The socket of the CGI belongs to a GET or a POST that opened it. -/
def OwnsSocket (c : Client) : Prop :=
  c.context.cgiSocket ≠ -1 → c.context.cgiSocket ∈ c.context.world.opened ∧
    ∃ r, c.request = some r ∧ (r.kind = .get ∨ r.kind = .post)

/-- The body, if any, is done with, and the response can be started. -/
structure Ready (c : Client) : Prop where
  clientRead : c.context.requestState.isClientReadComplete = true
  workIn : c.context.requestState.workIn = true
  socket : c.OwnsSocket
  /-- A CGI that may still answer is the only source of output. -/
  cgi : c.context.cgiSocket ≠ -1 →
    c.context.requestState.cgiIn = true ∨ c.context.requestState.workOut = true
  /-- A CGI that may still answer has given its head, when there is output. -/
  pending : c.output ≠ [] → c.context.cgiSocket ≠ -1 →
    c.context.requestState.cgiIn = true ∨ c.context.requestState.cgiHeaders = true
  /-- A request with output of its own has a head, or gets one from `startResponse`. -/
  produced : c.request.isSome = true → c.context.requestState.workOut = false →
    c.context.requestState.cgiIn = true ∨ c.context.world.heads ≠ []
  cgiHeaders : c.context.requestState.cgiHeaders = true → c.context.world.heads ≠ []

/-- The response has been started.  A request object that still has output to read has had its head
rendered. -/
structure Responds (c : Client) : Prop extends Ready c where
  headed : c.request.isSome = true → c.context.requestState.workOut = false →
    c.context.world.heads ≠ []

/-- What holds between two events, as long as the client is not dropped: one of the three, and no order
between them. -/
def Phase (c : Client) : Prop :=
  c.closed = true ∨ c.AwaitsHead ∨ c.AwaitsBody ∨ c.Responds

/-- A new client awaits its head. -/
theorem awaitsHead_init (server : Server) (fs : FileSystem) (connectSocket fd : Fd) (now : Int) :
    AwaitsHead (init server fs connectSocket fd now) :=
  ⟨rfl, rfl, ⟨false, rfl⟩, rfl, rfl, rfl, rfl, rfl, rfl⟩

/-! ## The start of a response -/

/-- The fields that the preparation of an error page may change: the response, the flags and the stream of
the page. -/
structure PageFields where
  requestState : RequestState
  response : Response
  errorPage : IStream

def withPage (c : Client) (f : PageFields) : Client :=
  { c with
    context := { c.context with requestState := f.requestState, response := f.response }
    errorPage := f.errorPage }

/-- What `_loadErrorPage` does: it opens a custom page, or it makes the built-in page the body and
completes all work. -/
theorem loadErrorPage_cases (c : Client) (sys : Sys) :
    ∃ f : PageFields, c.loadErrorPage sys = c.withPage f ∧
      f.response.statusCode = c.context.response.statusCode ∧
      ((c.openErrorPage sys).1 = true ∧ f.requestState = c.context.requestState ∨
        (c.openErrorPage sys).1 = false ∧
          f.requestState = c.context.requestState.setWorkComplete) := by
  unfold loadErrorPage openErrorPage
  cases c.customErrorPage sys with
  | none => exact ⟨⟨_, _, c.errorPage⟩, rfl, rfl, Or.inr ⟨rfl, rfl⟩⟩
  | some path =>
    dsimp only
    split_ifs
    · exact ⟨⟨c.context.requestState, _, _⟩, rfl, rfl, Or.inl ⟨rfl, rfl⟩⟩
    · exact ⟨⟨_, _, _⟩, rfl, rfl, Or.inr ⟨rfl, rfl⟩⟩

/-- Whether the error page of the status is a custom one. -/
theorem openErrorPage_fst (c : Client) (sys : Sys) :
    (c.openErrorPage sys).1 =
      match c.customErrorPage sys with
      | none => false
      | some path => (c.errorPage.openAt sys c.context.world.fs path.str).isOpen := by
  unfold openErrorPage
  cases c.customErrorPage sys with
  | none => rfl
  | some path =>
    dsimp only
    split_ifs with hopen
    · exact hopen.symm
    · exact (Bool.eq_false_iff.mpr hopen).symm

/-- Whether the end of `_handleSocketIn` renders a head.  For a CGI that runs, its own head comes later. -/
def rendersHead (c : Client) (sys : Sys) : Bool :=
  c.context.requestState.cgiIn || c.hasError && !(c.openErrorPage sys).1

/-- What the error page of `_handleSocketIn` changes. -/
theorem prepareError_cases (c : Client) (sys : Sys) :
    ∃ f : PageFields, c.prepareError sys = c.withPage f ∧
      f.response.statusCode = c.context.response.statusCode ∧
      (f.requestState = c.context.requestState ∨
        f.requestState = c.context.requestState.setWorkComplete) ∧
      f.requestState.cgiIn = c.rendersHead sys := by
  unfold prepareError rendersHead
  cases herror : c.hasError with
  | false =>
    rw [if_neg Bool.false_ne_true, Bool.false_and, Bool.or_false]
    exact ⟨⟨c.context.requestState, c.context.response, c.errorPage⟩, rfl, rfl, Or.inl rfl, rfl⟩
  | true =>
    rw [if_pos rfl, Bool.true_and]
    have hopen : ((c.setResponse (c.context.response.setHeader headerContentType
        (bytes "text/html"))).openErrorPage sys).1 = (c.openErrorPage sys).1 := by
      rw [openErrorPage_fst, openErrorPage_fst]
      rfl
    obtain ⟨f, heq, hstatus, hcases⟩ := loadErrorPage_cases
      (c.setResponse (c.context.response.setHeader headerContentType (bytes "text/html"))) sys
    rw [hopen] at hcases
    refine ⟨f, heq, hstatus, ?_⟩
    rcases hcases with ⟨hpage, hstate⟩ | ⟨hpage, hstate⟩ <;> rw [hpage, hstate]
    · exact ⟨Or.inl rfl, (Bool.or_false _).symm⟩
    · exact ⟨Or.inr rfl, (Bool.or_true _).symm⟩

theorem isClientReadComplete_of_le {x y : RequestState} (hle : x.Le y)
    (hx : x.isClientReadComplete = true) : y.isClientReadComplete = true := by
  rw [RequestState.isClientReadComplete, Bool.and_eq_true] at hx ⊢
  exact ⟨hle.requestLine hx.1, hle.headers hx.2⟩

/-- The switch to writing sets one flag and one clock, or throws and changes nothing. -/
theorem switchToWrite_cases (c : Client) (sys : Sys) :
    (c.switchToWrite sys).2 = c ∨
      (c.switchToWrite sys).2 = (c.setState RequestState.setCanWrite).touch .send sys.now := by
  unfold switchToWrite
  split_ifs
  · exact Or.inr rfl
  · exact Or.inl rfl

theorem Responds.switchToWrite {c : Client} (h : Responds c) (sys : Sys) :
    Responds (c.switchToWrite sys).2 := by
  rcases switchToWrite_cases c sys with heq | heq <;> rw [heq]
  · exact h
  · exact { h with }

theorem Extends.switchToWrite {c c' : Client} {data : Bytes} (h : c.Extends c' data) (sys : Sys) :
    c.Extends (c'.switchToWrite sys).2 data := by
  rcases switchToWrite_cases c' sys with heq | heq <;> rw [heq]
  · exact h
  · exact { h with }

theorem Replaces.switchToWrite {c c' : Client} (h : c.Replaces c') (sys : Sys) :
    c.Replaces (c'.switchToWrite sys).2 := by
  rcases switchToWrite_cases c' sys with heq | heq <;> rw [heq]
  · exact h
  · exact { h with }

/-- A head is rendered, in the place of what waits to be sent. -/
theorem replaces_render {c c' : Client} (hsent : c'.context.world.sent = c.context.world.sent)
    (hheads : c'.context.world.heads = c.context.world.heads) : c.Replaces c'.render where
  sent := hsent
  heads := ⟨c'.context.response, [], (List.append_nil _).symm, by rw [← hheads]; rfl⟩

/-- The start of a response.  It renders a head, or there is a CGI to wait for. -/
theorem Ready.startResponse {c : Client} (h : Ready c) (sys : Sys) :
    Responds (c.startResponse sys).2 ∧
      (c.rendersHead sys = true ∧ c.Replaces (c.startResponse sys).2 ∨
        c.rendersHead sys = false ∧ c.Extends (c.startResponse sys).2 []) := by
  obtain ⟨f, heq, -, hstate, hcgi⟩ := prepareError_cases c sys
  unfold Client.startResponse
  rw [heq]
  dsimp only
  have hle : c.context.requestState.Le f.requestState := by
    rcases hstate with hstate | hstate <;> rw [hstate]
    · exact .refl _
    · exact RequestState.le_setWorkComplete _
  cases hrenders : c.rendersHead sys with
  | true =>
    have hset : (c.withPage f).context.requestState.isCgiInComplete = true := hcgi.trans hrenders
    rw [if_pos hset]
    have hresponds : Responds (c.withPage f).render := {
      clientRead := isClientReadComplete_of_le hle h.clientRead
      workIn := hle.workIn h.workIn
      socket := h.socket
      cgi := fun _ => Or.inl hset
      pending := fun _ _ => Or.inl hset
      produced := fun _ _ => Or.inl hset
      cgiHeaders := fun _ => List.append_ne_nil_of_right_ne_nil _ (List.cons_ne_nil _ _)
      headed := fun _ _ => List.append_ne_nil_of_right_ne_nil _ (List.cons_ne_nil _ _) }
    have hreplaces : c.Replaces (c.withPage f).render := replaces_render rfl rfl
    exact ⟨hresponds.switchToWrite sys, Or.inl ⟨rfl, hreplaces.switchToWrite sys⟩⟩
  | false =>
    have hset : f.requestState.cgiIn = false := hcgi.trans hrenders
    have hsame : f.requestState = c.context.requestState := by
      rcases hstate with hstate | hstate
      · exact hstate
      · rw [hstate] at hset
        cases hset
    have hnot : ¬ (c.withPage f).context.requestState.isCgiInComplete = true := by
      rw [show (c.withPage f).context.requestState.isCgiInComplete = false from hset]
      exact Bool.false_ne_true
    rw [if_neg hnot]
    have hresponds : Responds (c.withPage f) := by
      constructor
      · constructor <;> simp only [withPage, hsame]
        · exact h.clientRead
        · exact h.workIn
        · exact h.socket
        · exact h.cgi
        · exact h.pending
        · exact h.produced
        · exact h.cgiHeaders
      · show c.request.isSome = true → f.requestState.workOut = false → _
        intro hrequest hworkOut
        rw [hsame] at hworkOut hset
        exact (h.produced hrequest hworkOut).resolve_left (by rw [hset]; exact Bool.false_ne_true)
    have hextends : c.Extends (c.withPage f) [] :=
      .of_context ⟨(List.append_nil _).symm, rfl, rfl⟩
    exact ⟨hresponds.switchToWrite sys, Or.inr ⟨rfl, hextends.switchToWrite sys⟩⟩

theorem Ready.streams {c : Client} (h : Ready c) (sys : Sys) :
    Streams c (c.startResponse sys).2 False (c.rendersHead sys = true) := by
  rcases (h.startResponse sys).2 with ⟨hhead, hreplaces⟩ | ⟨-, hextends⟩
  · exact Or.inr ⟨hreplaces, hhead⟩
  · exact .of_silent hextends

/-- What the branches of `timeoutCheck` do: they put a response in the place of what waits to be
sent, from whatever phase. -/
theorem responds_respondTimeout {c : Client} (sys : Sys)
    (hread : c.context.requestState.isClientReadComplete = true) (hsocket : c.OwnsSocket) :
    Responds (c.respondTimeout sys).2 ∧ c.Replaces (c.respondTimeout sys).2 := by
  unfold respondTimeout
  extract_lets c₁
  obtain ⟨f, heq, -, hstate⟩ := loadErrorPage_cases c₁ sys
  rw [heq]
  have hcomplete : f.requestState.isClientReadComplete = true ∧ f.requestState.workIn = true ∧
      f.requestState.cgiIn = true := by
    rcases hstate with ⟨-, hstate⟩ | ⟨-, hstate⟩ <;> rw [hstate] <;> exact ⟨hread, rfl, rfl⟩
  have hheads : c.context.world.heads ++ [f.response] ≠ [] :=
    List.append_ne_nil_of_right_ne_nil _ (List.cons_ne_nil _ _)
  have hresponds : Responds (c₁.withPage f).render := {
    clientRead := hcomplete.1
    workIn := hcomplete.2.1
    socket := hsocket
    cgi := fun _ => Or.inl hcomplete.2.2
    pending := fun _ _ => Or.inl hcomplete.2.2
    produced := fun _ _ => Or.inl hcomplete.2.2
    cgiHeaders := fun _ => hheads
    headed := fun _ _ => hheads }
  have hreplaces : c.Replaces (c₁.withPage f).render := replaces_render rfl rfl
  exact ⟨hresponds.switchToWrite sys, hreplaces.switchToWrite sys⟩

/-! ## Output -/

/-- The bytes that one `send` takes move from the buffer to what was sent. -/
theorem extends_takeResponse (c : Client) (sys : Sys) (n : Nat) :
    c.Extends (c.takeResponse sys n) [] := by
  have hbuffer : (c.takeResponse sys n).context.responseBuffer = c.context.responseBuffer.drop n := by
    unfold takeResponse
    split_ifs <;> exact BinaryBuffer.erase_zero _ _
  have hsent : (c.takeResponse sys n).context.world.sent =
      c.context.world.sent ++ c.context.responseBuffer.take n := by
    unfold takeResponse
    split_ifs <;> rfl
  refine ⟨?_, ?_, ?_⟩
  · rw [output, output, hbuffer, hsent, List.append_assoc, List.take_append_drop, List.append_nil]
  · rw [hsent]
    exact List.prefix_append _ _
  · unfold takeResponse
    split_ifs <;> rfl

/-- One `send` takes some bytes off the front, or none. -/
theorem sendResponse_cases (c : Client) (sys : Sys) :
    (c.sendResponse sys).2 = c ∨ ∃ n, (c.sendResponse sys).2 = c.takeResponse sys n := by
  unfold sendResponse
  dsimp only
  split_ifs
  · cases sys.send with
    | accepted n => exact Or.inr ⟨_, rfl⟩
    | error => exact Or.inl rfl
  · exact Or.inl rfl

theorem Responds.takeResponse {c : Client} (h : Responds c) (sys : Sys) (n : Nat) :
    Responds (c.takeResponse sys n) := by
  have houtput := (extends_takeResponse c sys n).output
  have hheads := (extends_takeResponse c sys n).heads
  rw [List.append_nil] at houtput
  have hpending : (c.takeResponse sys n).output ≠ [] → c.context.cgiSocket ≠ -1 →
      c.context.requestState.cgiIn = true ∨ c.context.requestState.cgiHeaders = true := by
    rw [houtput]
    exact h.pending
  unfold Client.takeResponse at hpending hheads ⊢
  split_ifs at hpending hheads ⊢ <;> exact { h with pending := hpending }

theorem Responds.sendResponse {c : Client} (h : Responds c) (sys : Sys) :
    Responds (c.sendResponse sys).2 ∧ c.Extends (c.sendResponse sys).2 [] := by
  rcases sendResponse_cases c sys with heq | ⟨n, heq⟩ <;> rw [heq]
  · exact ⟨h, .refl c⟩
  · exact ⟨h.takeResponse sys n, extends_takeResponse c sys n⟩

/-- A body byte is about to enter the stream without a head: an error page is read for a client
that has no request object. -/
def BodyBeforeHead (c : Client) : Prop :=
  c.context.world.heads = [] ∧ c.context.requestState.workOut = false ∧ c.hasError = true ∧
    c.request = none ∧ (c.errorPage.read reqBufferSize).1 ≠ []

/-- More output of a request, or of an error page, while `WORK_OUT` is not complete. -/
theorem Responds.extend {c c' : Client} {data : Bytes} (h : Responds c)
    (hnot : c.context.requestState.workOut = false)
    (hextends : c.context.Extends c'.context data) (hrequest : c'.request = c.request ∨
      ∃ r r', c.request = some r ∧ c'.request = some r' ∧ r'.kind = r.kind)
    (hsocket : c'.context.cgiSocket = c.context.cgiSocket)
    (hopened : c'.context.world.opened = c.context.world.opened)
    (hstate : ∃ workOut, c'.context.requestState =
      { c.context.requestState with workOut := workOut }) : Responds c' := by
  obtain ⟨workOut, hstate⟩ := hstate
  have hsome : c'.request.isSome = c.request.isSome := by
    rcases hrequest with heq | ⟨r, r', hr, hr', -⟩
    · rw [heq]
    · rw [hr, hr']
      rfl
  have hcgi : c.context.cgiSocket ≠ -1 → c.context.requestState.cgiIn = true := by
    intro hne
    rcases h.cgi hne with hin | hout
    · exact hin
    · rw [hnot] at hout
      cases hout
  have hheaded : c'.request.isSome = true → c'.context.world.heads ≠ [] := by
    rw [hsome, hextends.heads]
    exact fun hsome => h.headed hsome hnot
  refine ⟨⟨?_, ?_, ?_, ?_, ?_, ?_, ?_⟩, fun hsome _ => hheaded hsome⟩
  · rw [hstate]
    exact h.clientRead
  · rw [hstate]
    exact h.workIn
  · rw [OwnsSocket, hsocket, hopened]
    intro hne
    obtain ⟨hmem, r, hr, hkind⟩ := h.socket hne
    refine ⟨hmem, ?_⟩
    rcases hrequest with heq | ⟨r₀, r', hr₀, hr', hsame⟩
    · exact ⟨r, heq.trans hr, hkind⟩
    · rw [hr] at hr₀
      cases hr₀
      exact ⟨r', hr', by rw [hsame]; exact hkind⟩
  · rw [hstate, hsocket]
    exact fun hne => Or.inl (hcgi hne)
  · rw [hstate, hsocket]
    exact fun _ hne => Or.inl (hcgi hne)
  · exact fun hsome _ => Or.inr (hheaded hsome)
  · rw [hstate, hextends.heads]
    exact h.cgiHeaders

/-- The work before `_sendResponse`: a part of the body is appended to what is waiting, and nothing of that
is overwritten. -/
theorem Responds.produce {c : Client} (h : Responds c) (sys : Sys) :
    Responds (c.produce sys).2 ∧
      Streams c (c.produce sys).2 (c.context.world.heads ≠ [] ∨ c.BodyBeforeHead) False := by
  unfold Client.produce
  split_ifs with hwork herror
  · exact ⟨h, .of_silent (.refl c)⟩
  · have hnot : c.context.requestState.workOut = false := Bool.eq_false_iff.mpr hwork
    unfold readErrorPage
    dsimp only
    split_ifs with hread
    · have hextends : c.context.Extends (c.context.setState RequestState.setWorkOutComplete) [] :=
        ⟨(List.append_nil _).symm, rfl, rfl⟩
      exact ⟨h.extend hnot hextends (Or.inl rfl) rfl rfl ⟨true, rfl⟩, .of_silent (.of_context hextends)⟩
    · have hextends : c.context.Extends
          (c.context.appendResponse (c.errorPage.read reqBufferSize).1) _ := ⟨rfl, rfl, rfl⟩
      refine ⟨h.extend hnot hextends (Or.inl rfl) rfl rfl ⟨_, rfl⟩,
        Or.inl ⟨_, .of_context hextends, fun _ => ?_⟩⟩
      by_cases hheads : c.context.world.heads = []
      · refine Or.inr ⟨hheads, hnot, herror, ?_, hread⟩
        cases hrequest : c.request with
        | none => rfl
        | some r => exact absurd hheads (h.headed (by rw [hrequest]; rfl) hnot)
      · exact Or.inl hheads
  · have hnot : c.context.requestState.workOut = false := Bool.eq_false_iff.mpr hwork
    cases hrequest : c.request with
    | none => exact ⟨h, .of_silent (.refl c)⟩
    | some request =>
      obtain ⟨⟨f, hf⟩, -, data, hextends, -⟩ :=
        Handler.produces_workOut sys ⟨c.context, request⟩
      have hheads : c.context.world.heads ≠ [] := h.headed (by rw [hrequest]; rfl) hnot
      dsimp only
      generalize Handler.workOut sys ⟨c.context, request⟩ = r at hf hextends ⊢
      obtain ⟨ret, h'⟩ := r
      have hresponds : Responds (c.withHandler h') := by
        refine h.extend hnot hextends (Or.inr ⟨request, h'.request, hrequest, rfl, ?_⟩) ?_ ?_ ?_ <;>
          rw [show h' = _ from hf]
        · rfl
        · rfl
        · rfl
        · exact ⟨f.workOut, rfl⟩
      have hstreams : Streams c (c.withHandler h')
          (c.context.world.heads ≠ [] ∨ c.BodyBeforeHead) False :=
        Or.inl ⟨data, .of_context hextends, fun _ => Or.inl hheads⟩
      cases ret <;> exact ⟨hresponds, hstreams⟩

/-- A writing event appends to the stream, and stays in the phase: the response is only sent from here on. -/
theorem Responds.handleSocketOut {c : Client} (h : Responds c) (sys : Sys) :
    Responds (c.handleSocketOut sys).2 ∧
      Streams c (c.handleSocketOut sys).2 (c.context.world.heads ≠ [] ∨ c.BodyBeforeHead) False := by
  obtain ⟨hresponds, hstreams⟩ := h.produce sys
  unfold Client.handleSocketOut
  generalize c.produce sys = r at hresponds hstreams ⊢
  obtain ⟨ret, c'⟩ := r
  cases ret with
  | reqContinue =>
    obtain ⟨hsent, hextends⟩ := hresponds.sendResponse sys
    refine ⟨hsent, ?_⟩
    rcases hstreams with ⟨data, hdata, hne⟩ | ⟨-, hfalse⟩
    · exact Or.inl ⟨data, by simpa using hdata.trans hextends, hne⟩
    · exact hfalse.elim
  | _ => exact ⟨hresponds, hstreams⟩

/-! ## The CGI -/

/-- More output of the CGI, or its head, which is rendered into the buffer and takes the place of what is
waiting there. -/
theorem Responds.handleCGIIn {c : Client} (h : Responds c) (sys : Sys)
    (hsocket : c.context.cgiSocket ≠ -1) :
    Responds (c.handleCGIIn sys).2 ∧
      Streams c (c.handleCGIIn sys).2 (c.context.world.heads ≠ []) (c.output = []) := by
  obtain ⟨-, request, hrequest, hkind⟩ := h.socket hsocket
  unfold Client.handleCGIIn
  rw [hrequest]
  dsimp only
  rw [Handler.CGIIn_eq sys hkind]
  obtain ⟨⟨f, hf⟩, hle, -, hstream⟩ := Handler.readsCGI_readCGI sys ⟨c.context, request⟩
  generalize Handler.readCGI sys ⟨c.context, request⟩ = r at hf hle hstream ⊢
  obtain ⟨ret, h'⟩ := r
  dsimp only at hf hle hstream ⊢
  have hcontext : (c.withHandler h').context = h'.context := rfl
  have hgrow : h'.context.world.heads ≠ [] ∨ c.context.world.heads = [] := by
    rcases hstream with ⟨data, hextends, -⟩ | ⟨-, -, -, r, data, hreplaces⟩
    · rw [hextends.heads]
      exact (em _).symm
    · rw [hreplaces.heads]
      exact Or.inl (List.append_ne_nil_of_right_ne_nil _ (List.cons_ne_nil _ _))
  have hheads : c.context.world.heads ≠ [] → h'.context.world.heads ≠ [] := fun hne =>
    hgrow.resolve_right hne
  have hheaded : h'.context.requestState.workOut = false → h'.context.world.heads ≠ [] := by
    intro hworkOut
    refine hheads (h.headed (by rw [hrequest]; rfl) ?_)
    by_contra hset
    rw [hle.workOut ((Bool.not_eq_false _).mp hset)] at hworkOut
    cases hworkOut
  refine ⟨⟨⟨isClientReadComplete_of_le hle h.clientRead, hle.workIn h.workIn, ?_, ?_, ?_, ?_, ?_⟩,
    ?_⟩, ?_⟩
  · intro _
    obtain ⟨hmem, -⟩ := h.socket hsocket
    refine ⟨?_, h'.request, rfl, ?_⟩
    · show h'.context.cgiSocket ∈ h'.context.world.opened
      rw [hf]
      exact hmem
    · rw [hf]
      exact hkind
  · intro _
    exact (h.cgi hsocket).imp hle.cgiIn hle.workOut
  · intro hne _
    rcases hstream with ⟨data, hextends, hdata, -, -⟩ | ⟨-, -, hset, -⟩
    · by_cases houtput : c.output = []
      · by_cases hempty : data = []
        · refine absurd ?_ hne
          have := (Extends.of_context hextends : c.Extends (c.withHandler h') data).output
          rw [this, houtput, hempty]
          rfl
        · exact Or.inr (hle.cgiHeaders (hdata hempty))
      · exact (h.pending houtput hsocket).imp hle.cgiIn hle.cgiHeaders
    · exact hset
  · exact fun _ hworkOut => Or.inr (hheaded hworkOut)
  · rcases hstream with ⟨data, hextends, -, hsame, -⟩ | ⟨-, -, -, r, data, hreplaces⟩
    · intro hset
      rw [hcontext, hsame] at hset
      exact hheads (h.cgiHeaders hset)
    · intro _
      rw [hcontext, hreplaces.heads]
      exact List.append_ne_nil_of_right_ne_nil _ (List.cons_ne_nil _ _)
  · exact fun _ hworkOut => hheaded hworkOut
  · rcases hstream with ⟨data, hextends, hdata, -, -⟩ | ⟨hin, hheaders, -, r, data, hreplaces⟩
    · exact Or.inl ⟨data, .of_context hextends, fun hne => h.cgiHeaders (hdata hne)⟩
    · refine Or.inr ⟨⟨hreplaces.sent, r, data, hreplaces.responseBuffer, hreplaces.heads⟩, ?_⟩
      by_contra hne
      rcases h.pending hne hsocket with hset | hset
      · rw [show c.context.requestState.cgiIn = false from hin] at hset
        cases hset
      · rw [show c.context.requestState.cgiHeaders = false from hheaders] at hset
        cases hset

/-- More of the body goes to the CGI.  The stream to the client does not change, since the body has another
socket. -/
theorem Responds.handleCGIOut {c : Client} (h : Responds c) (sys : Sys)
    (hsocket : c.context.cgiSocket ≠ -1) :
    Responds (c.handleCGIOut sys).2 ∧ c.Extends (c.handleCGIOut sys).2 [] := by
  obtain ⟨hmem, request, hrequest, hkind⟩ := h.socket hsocket
  unfold Client.handleCGIOut
  rw [hrequest]
  dsimp only
  have hreads : Handler.Reads ⟨c.context, request⟩ (Handler.CGIOut sys ⟨c.context, request⟩).2 := by
    unfold Handler.CGIOut
    rcases hkind with hget | hpost
    · rw [hget]
      exact .refl _
    · rw [hpost]
      exact Handler.reads_readBody sys _
  have hle := hreads.le
  obtain ⟨⟨f, hf⟩, hstate, -⟩ := hreads
  generalize (Handler.CGIOut sys ⟨c.context, request⟩).2 = h' at hle hf hstate ⊢
  have hsame : h'.context.requestState.workOut = c.context.requestState.workOut ∧
      h'.context.requestState.cgiIn = c.context.requestState.cgiIn ∧
      h'.context.requestState.cgiHeaders = c.context.requestState.cgiHeaders := by
    rcases hstate with hstate | hstate <;> rw [hstate] <;> exact ⟨rfl, rfl, rfl⟩
  have hheads : h'.context.world.heads = c.context.world.heads := by rw [hf]; rfl
  have hextends : c.Extends (c.withHandler h') [] := by
    refine .of_context ⟨?_, ?_, hheads⟩
    · show h'.context.responseBuffer = _
      rw [hf]
      exact (List.append_nil _).symm
    · show h'.context.world.sent = _
      rw [hf]
      rfl
  refine ⟨⟨⟨isClientReadComplete_of_le hle h.clientRead, hle.workIn h.workIn, ?_, ?_, ?_, ?_, ?_⟩,
    ?_⟩, hextends⟩
  · intro _
    refine ⟨?_, h'.request, rfl, ?_⟩
    · show h'.context.cgiSocket ∈ h'.context.world.opened
      rw [hf]
      exact hmem
    · rw [hf]
      exact hkind
  · intro _
    exact (h.cgi hsocket).imp hle.cgiIn hle.workOut
  · rw [hextends.output, List.append_nil]
    exact fun hne _ => (h.pending hne hsocket).imp hle.cgiIn hle.cgiHeaders
  · intro _ hworkOut
    refine Or.inr ?_
    rw [hextends.heads]
    exact h.headed (by rw [hrequest]; rfl) (hsame.1.symm.trans hworkOut)
  · intro hset
    rw [hextends.heads]
    exact h.cgiHeaders (hsame.2.2.symm.trans hset)
  · intro _ hworkOut
    rw [hextends.heads]
    exact h.headed (by rw [hrequest]; rfl) (hsame.1.symm.trans hworkOut)

/-! ## The request -/

/-- The stream and its heads are the same: neither what was sent nor what waits has changed. -/
structure SameStream (c c' : Client) : Prop where
  responseBuffer : c'.context.responseBuffer = c.context.responseBuffer
  sent : c'.context.world.sent = c.context.world.sent
  heads : c'.context.world.heads = c.context.world.heads

theorem SameStream.extends {c c' : Client} (h : SameStream c c') : c.Extends c' [] :=
  .of_context ⟨by rw [List.append_nil]; exact h.responseBuffer, h.sent, h.heads⟩

theorem SameStream.streams {c c₁ c₂ : Client} {p q : Prop} (h : SameStream c c₁)
    (hstreams : Streams c₁ c₂ p q) : Streams c c₂ p q := by
  rcases hstreams with ⟨data, hextends, hdata⟩ | ⟨⟨hsent, r, data, hbuffer, hheads⟩, hcond⟩
  · exact Or.inl ⟨data, by simpa using h.extends.trans hextends, hdata⟩
  · exact Or.inr ⟨⟨hsent.trans h.sent, r, data, hbuffer, by rw [hheads, h.heads]⟩, hcond⟩

theorem SameStream.output {c c' : Client} (h : SameStream c c') : c'.output = c.output := by
  rw [Client.output, Client.output, h.sent, h.responseBuffer]

theorem handleRequest_of_workIn {c : Client} (sys : Sys)
    (h : c.context.requestState.workIn = true) : c.handleRequest sys = c.startResponse sys := by
  unfold handleRequest
  cases c.request with
  | none => rfl
  | some request => exact if_pos h

/-- The phases do not look at `closed`. -/
theorem Responds.settle {r : Ret × Client} (h : Responds r.2) : Responds (settle r) := { h with }

theorem Responds.phase {c : Client} (h : Responds c) : Phase c := Or.inr (Or.inr (Or.inr h))

/-- The reader of an upload is called, and when the body is done with the response is started. -/
theorem AwaitsBody.handleRequest_eq {c : Client} (h : AwaitsBody c) (sys : Sys) :
    ∃ r, c.request = some r ∧ (r.kind = .put ∨ r.kind = .post ∧ r.cgiPath = none) ∧
      c.handleRequest sys = match Handler.readBody sys ⟨c.context, r⟩ with
        | (.reqDone, h') => ((c.touch .clientBody sys.now).withHandler h').startResponse sys
        | (ret, h') => (ret, (c.touch .clientBody sys.now).withHandler h') := by
  obtain ⟨r, hr, hkind⟩ := h.request
  have hwork : ¬ c.context.requestState.isWorkInComplete = true := by
    rw [RequestState.isWorkInComplete, h.workIn]
    exact Bool.false_ne_true
  have hbody : Handler.workIn sys ⟨(c.touch .clientBody sys.now).context, r⟩ =
      Handler.readBody sys ⟨c.context, r⟩ :=
    Handler.workIn_eq_readBody sys (hkind.imp_right And.left)
  refine ⟨r, hr, hkind, ?_⟩
  unfold Client.handleRequest
  rw [hr]
  dsimp only
  refine (if_neg hwork).trans ?_
  generalize Handler.workIn sys ⟨(c.touch .clientBody sys.now).context, r⟩ = x at hbody
  subst hbody
  generalize Handler.readBody sys ⟨c.context, r⟩ = x
  obtain ⟨ret, h'⟩ := x
  cases ret <;> rfl

/-- More of a body is read: it is not complete, or the response is started, or the client is
dropped. -/
theorem AwaitsBody.handleRequest {c : Client} (h : AwaitsBody c) (sys : Sys) :
    Phase (settle (c.handleRequest sys)) ∧ Streams c (c.handleRequest sys).2 False True := by
  obtain ⟨request, -, hkind, heq⟩ := h.handleRequest_eq sys
  rw [heq]
  have hended := Handler.ended_readBody sys ⟨c.context, request⟩
  have hreads := Handler.reads_readBody sys ⟨c.context, request⟩
  generalize Handler.readBody sys ⟨c.context, request⟩ = r at hended hreads ⊢
  obtain ⟨ret, h'⟩ := r
  have hle := hreads.le
  obtain ⟨⟨f, hf⟩, hstate, -⟩ := hreads
  dsimp only at hf hle hstate ⊢
  generalize hc' : (c.touch .clientBody sys.now).withHandler h' = c'
  have hcontext : c'.context = h'.context := by rw [← hc']; rfl
  have hrequest' : c'.request = some h'.request := by rw [← hc']; rfl
  have hpage : c'.errorPage = {} := by rw [← hc']; exact h.errorPage
  have hstream : SameStream c c' := by
    constructor <;> rw [hcontext, hf] <;> rfl
  have houtput : c'.output = [] := hstream.output.trans h.output
  have hheads : c'.context.world.heads = [] := hstream.heads.trans h.heads
  have hclient : c'.context.requestState.isClientReadComplete = true := by
    rw [hcontext]
    exact isClientReadComplete_of_le hle h.clientRead
  have hsocket : c'.context.cgiSocket = -1 := by
    rw [hcontext, hf]
    exact h.cgiSocket
  have hflags : c'.context.requestState.workOut = true ∧ c'.context.requestState.cgiIn = true ∧
      c'.context.requestState.read = false ∧ c'.context.requestState.canWrite = false ∧
      c'.context.requestState.cgiHeaders = false := by
    rw [hcontext]
    rcases hstate with hstate | hstate <;> rw [hstate] <;>
      exact ⟨h.workOut, h.cgiIn, h.read, h.canWrite, h.cgiHeaders⟩
  have hready : c'.context.requestState.workIn = true → Ready c' := fun hworkIn =>
    { clientRead := hclient
      workIn := hworkIn
      socket := fun hne => absurd hsocket hne
      cgi := fun hne => absurd hsocket hne
      pending := fun hne => absurd houtput hne
      produced := fun _ _ => Or.inl hflags.2.1
      cgiHeaders := fun hset => by
        rw [hflags.2.2.2.2] at hset
        cases hset }
  cases ret with
  | reqDone =>
    dsimp only
    rw [hc']
    have hworkIn : c'.context.requestState.workIn = true := by
      rw [hcontext]
      exact hended rfl
    have hstreams := (hready hworkIn).streams sys
    exact ⟨((hready hworkIn).startResponse sys).1.settle.phase,
      hstream.streams (hstreams.mono id fun _ => trivial)⟩
  | reqContinue =>
    dsimp only
    rw [hc']
    refine ⟨?_, .of_silent hstream.extends⟩
    cases hworkIn : c'.context.requestState.workIn with
    | true =>
      -- a refused upload to the name of a CGI waits for one more event
      have hresponds : Responds c' := { hready hworkIn with
        headed := fun _ hworkOut => by
          rw [hflags.1] at hworkOut
          cases hworkOut }
      exact (@Responds.settle (.reqContinue, c') hresponds).phase
    | false =>
      refine Or.inr (Or.inr (Or.inl ?_))
      exact {
        request := ⟨h'.request, hrequest', by rw [hf]; exact hkind⟩
        clientRead := hclient
        read := hflags.2.2.1
        workIn := hworkIn
        workOut := hflags.1
        cgiIn := hflags.2.1
        canWrite := hflags.2.2.2.1
        cgiHeaders := hflags.2.2.2.2
        cgiSocket := hsocket
        errorPage := hpage
        output := houtput
        heads := hheads }
  | _ =>
    dsimp only
    rw [hc']
    exact ⟨Or.inl rfl, .of_silent hstream.extends⟩

/-- A head was accepted, and nothing was done about it yet.  This is the state in which `_resolveARequest`
is entered. -/
structure HeadAccepted (c : Client) : Prop where
  request : c.request = none
  requestState : c.context.requestState = { requestLine := true, headers := true }
  statusCode : c.context.response.statusCode = statusNone
  cgiSocket : c.context.cgiSocket = -1
  errorPage : c.errorPage = {}
  output : c.output = []
  heads : c.context.world.heads = []

/-- A client without a request object, when it can answer. -/
theorem ready_of_none {c : Client} (hrequest : c.request = none)
    (hread : c.context.requestState.isClientReadComplete = true)
    (hworkIn : c.context.requestState.workIn = true)
    (hheaders : c.context.requestState.cgiHeaders = false) (hsocket : c.context.cgiSocket = -1)
    (houtput : c.output = []) : Ready c where
  clientRead := hread
  workIn := hworkIn
  socket := fun hne => absurd hsocket hne
  cgi := fun hne => absurd hsocket hne
  pending := fun hne => absurd houtput hne
  produced := fun hsome => by
    rw [hrequest] at hsome
    cases hsome
  cgiHeaders := fun hset => by
    rw [hheaders] at hset
    cases hset

/-- The client with the blocks that were found for its request. -/
def withBlocks (c : Client) (block : ServerBlock) (rule : Option LocationBlock) : Client :=
  { c with context := { c.context with serverBlock := some block, ruleBlock := rule } }

/-- The blocks that `_resolveARequest` finds: the server of the `Host`, and in it the location of the
target. -/
structure Finds (c : Client) (block : ServerBlock) (rule : Option LocationBlock) : Prop where
  serverBlock : c.context.server.findServerBlock c.connectSocket
    ((c.context.headers.find? headerHost).getD []) = some block
  ruleBlock : block.findLocationBlock (Path.ofString c.context.target) = rule

/-- What `_resolveARequest` does: it throws, it answers with an error or a redirection, or it creates a
request object and processes it. -/
inductive Resolves (c : Client) (sys : Sys) : Ret × Client → Prop where
  | noServer : Resolves c sys (.throws .outOfRange, c)
  | noTarget {block : ServerBlock} {rule : Option LocationBlock} :
      Resolves c sys (.throws .outOfRange, c.withBlocks block rule)
  | answers {block : ServerBlock} {rule : Option LocationBlock} {code : Nat}
      (hcode : isErrorCode code = true) :
      Resolves c sys (.reqContinue, (c.withBlocks block rule).setStatusCode code)
  | redirects {block : ServerBlock} {rule : Option LocationBlock} (redirection : Nat × Bytes) :
      Resolves c sys (.reqDone, (c.withBlocks block rule).redirect redirection)
  | creates {block : ServerBlock} {loc : LocationBlock} {kind : RequestKind} {h : Handler}
      (hfinds : Finds c block (some loc)) (hkind : requestKind c.context.method = some kind)
      (hcreate : createRequest kind (c.withBlocks block (some loc)).context = .ok h) :
      Resolves c sys (((c.withBlocks block (some loc)).withHandler (h.processing sys)).registerCGI sys,
        (c.withBlocks block (some loc)).withHandler (h.processing sys))

/-- `_resolveARequest` does one of these.  Later proofs go by cases on `Resolves` and do not open the
function again. -/
theorem resolves_resolveARequest (c : Client) (sys : Sys) : Resolves c sys (c.resolveARequest sys) := by
  unfold resolveARequest
  dsimp only
  cases hblock : c.context.server.findServerBlock c.connectSocket
    ((c.context.headers.find? headerHost).getD []) with
  | none => exact .noServer
  | some block =>
    dsimp only
    cases hrule : block.findLocationBlock (Path.ofString c.context.target) with
    | none => exact @Resolves.answers c sys block none _ rfl
    | some loc =>
      dsimp only
      split_ifs
      · exact @Resolves.answers c sys block (some loc) _ rfl
      · exact @Resolves.redirects c sys block (some loc) loc.redirection
      · unfold startRequest
        dsimp only
        cases hkind : requestKind c.context.method with
        | none => exact @Resolves.answers c sys block (some loc) _ rfl
        | some kind =>
          dsimp only
          cases hcreate : createRequest kind (c.withBlocks block (some loc)).context with
          | error fault =>
            obtain rfl := createRequest_error hcreate
            unfold withBlocks at hcreate
            rw [hcreate]
            exact @Resolves.noTarget c sys block (some loc)
          | ok h =>
            have hcreate' := hcreate
            unfold withBlocks at hcreate'
            rw [hcreate']
            exact .creates ⟨hblock, hrule⟩ hkind hcreate
      · exact @Resolves.answers c sys block (some loc) _ rfl

/-- The client whose head was accepted. -/
def acceptHead (c : Client) (f : RequestContext.HeadFields) : Client :=
  { c with context := c.context.withHeadState f { requestLine := true, headers := true } }

/-- A head that was accepted, of a client that awaited one. -/
theorem AwaitsHead.headAccepted {c : Client} (h : AwaitsHead c) (f : RequestContext.HeadFields) :
    HeadAccepted (c.acceptHead f) where
  request := h.request
  requestState := rfl
  statusCode := by
    show c.context.response.statusCode = statusNone
    rw [h.response]
    rfl
  cgiSocket := h.cgiSocket
  errorPage := h.errorPage
  output := h.output
  heads := h.heads

/-- What `_parseRequest` does while the head is awaited: it goes on waiting, or the head is refused, or
it is accepted and the request resolved. -/
inductive HeadEnds (c : Client) (sys : Sys) : Ret × Client → Prop where
  | waits (f : RequestContext.HeadFields) (requestLine : Bool)
      (hhead : c.context.parseHead =
        (.reqContinue, c.context.withHeadState f { requestLine := requestLine })) :
      HeadEnds c sys (.reqContinue,
        { c with context := c.context.withHeadState f { requestLine := requestLine } })
  | refused (f : RequestContext.HeadFields) {code : Nat} (hcode : isErrorCode code = true) :
      HeadEnds c sys (.reqDone, { c with context := (c.context.withHeadState f
        { requestLine := true, headers := true, read := true, workIn := true }).setStatusCode code })
  | resolved (f : RequestContext.HeadFields) {r : Ret × Client}
      (hhead : c.context.parseHead = (.reqDone, (c.acceptHead f).context))
      (hresolves : Resolves (c.acceptHead f) sys r) (hret : r.1 ≠ .reqContinue) : HeadEnds c sys r
  | answered (f : RequestContext.HeadFields) {c' : Client}
      (hhead : c.context.parseHead = (.reqDone, (c.acceptHead f).context))
      (hresolves : Resolves (c.acceptHead f) sys (.reqContinue, c')) :
      HeadEnds c sys (.reqDone, c'.setState RequestState.setWorkInComplete)

/-- **The head** of a client that awaits it: the parser waits, refuses it, or accepts it and the request is
resolved. -/
theorem AwaitsHead.headEnds {c : Client} (h : AwaitsHead c) (sys : Sys) :
    HeadEnds c sys (c.parseRequest sys) := by
  obtain ⟨requestLine, hstate⟩ := h.requestState
  have hparsed := RequestContext.headParsed_parseHead hstate
  generalize hhead : c.context.parseHead = r at hparsed
  cases hparsed with
  | waiting f requestLine =>
    unfold Client.parseRequest
    rw [hhead]
    exact .waits f requestLine hhead
  | refused f code hcode =>
    have hstatus : code ≠ statusNone := by
      rintro rfl
      cases hcode
    rw [parseRequest_refused hhead hstatus]
    exact .refused f hcode
  | accepted f =>
    rw [parseRequest_accepted hhead (h.headAccepted f).statusCode]
    have hresolves := resolves_resolveARequest (c.acceptHead f) sys
    unfold acceptHead at hresolves
    generalize resolveARequest _ sys = r at hresolves ⊢
    obtain ⟨ret, c'⟩ := r
    cases ret with
    | reqContinue => exact .answered f hhead hresolves
    | reqDone | reqError | throws => exact .resolved f hhead hresolves nofun

/-- What `_resolveARequest` leaves: a response to start, now or after `SET_REQ_WORK_IN_COMPLETE`, or
a body to read. -/
structure Resolved (c : Client) (r : Ret × Client) : Prop where
  stream : SameStream c r.2
  calls : r.2.context.world.calls = c.context.world.calls
  answers : r.1 = .reqContinue → Ready (r.2.setState RequestState.setWorkInComplete)
  goesOn : r.1 = .reqDone → Ready r.2 ∨ AwaitsBody r.2

/-- A request object is created. -/
theorem HeadAccepted.creates {c : Client} (h : HeadAccepted c) {kind : RequestKind} {h₀ : Handler}
    (hcreate : createRequest kind c.context = .ok h₀) (sys : Sys) :
    Resolved c ((c.withHandler (h₀.processing sys)).registerCGI sys,
      c.withHandler (h₀.processing sys)) := by
  have hstarted := Handler.started_processing sys hcreate
  generalize h₀.processing sys = h' at hstarted ⊢
  obtain ⟨⟨h₁, hctx, f, hf⟩, hkind', hflags, hsocket, hworkOut, hbody⟩ := hstarted
  have hstream : SameStream c (c.withHandler h') := by
    constructor <;>
      rw [← hctx, show (c.withHandler h').context = h'.context from rfl, hf] <;> rfl
  have hclient : h'.context.requestState.isClientReadComplete = true := by
    rw [RequestState.isClientReadComplete, hflags.requestLine, hflags.headers, h.requestState]
    rfl
  have hheaders : h'.context.requestState.cgiHeaders = false := by
    rw [hflags.cgiHeaders, h.requestState]
  have howns : (c.withHandler h').OwnsSocket := by
    intro hne
    obtain ⟨hmem, hgetpost⟩ := hsocket (by rw [h.cgiSocket]; exact hne)
    exact ⟨hmem, h'.request, rfl, by rw [hkind']; exact hgetpost⟩
  have hready : Ready ((c.withHandler h').setState RequestState.setWorkInComplete) := {
    clientRead := hclient
    workIn := rfl
    socket := howns
    cgi := fun _ => by
      cases hset : h'.context.requestState.workOut with
      | true => exact Or.inr hset
      | false => exact Or.inl (hworkOut hset)
    pending := fun hne => absurd (hstream.output.trans h.output) hne
    produced := fun _ hset => Or.inl (hworkOut hset)
    cgiHeaders := fun hset => by
      rw [show h'.context.requestState.cgiHeaders = true from hset] at hheaders
      cases hheaders }
  have hcalls : h'.context.world.calls = c.context.world.calls := by
    rw [← hctx, hf]
    rfl
  refine ⟨hstream, hcalls, fun _ => hready, fun hdone => ?_⟩
  have hnone : h'.context.response.statusCode = statusNone := by
    unfold registerCGI at hdone
    split_ifs at hdone with _ _ hstatus
    exact not_not.mp hstatus
  cases hworkIn : h'.context.requestState.workIn with
  | true =>
    left
    have hsame : (c.withHandler h').setState RequestState.setWorkInComplete =
        c.withHandler h' := by
      have hset : h'.context.requestState.setWorkInComplete = h'.context.requestState := by
        rw [RequestState.setWorkInComplete, ← hworkIn]
      rw [setState, RequestContext.setState, show (c.withHandler h').context = h'.context from rfl,
        hset]
      rfl
    rw [← hsame]
    exact hready
  | false =>
    right
    obtain ⟨hupload, hfd, hout, hin⟩ := hbody hnone hworkIn
    exact {
      request := ⟨h'.request, rfl, by rw [hkind']; exact hupload⟩
      clientRead := hclient
      read := by
        show h'.context.requestState.read = false
        rw [hflags.read, h.requestState]
      workIn := hworkIn
      workOut := hout
      cgiIn := hin
      canWrite := by
        show h'.context.requestState.canWrite = false
        rw [hflags.canWrite, h.requestState]
      cgiHeaders := hheaders
      cgiSocket := hfd.trans h.cgiSocket
      errorPage := h.errorPage
      output := hstream.output.trans h.output
      heads := hstream.heads.trans h.heads }


/-- What the resolved request goes on with. -/
theorem HeadAccepted.resolved {c : Client} (h : HeadAccepted c) {sys : Sys} {r : Ret × Client}
    (hresolves : Resolves c sys r) : Resolved c r := by
  have hclient : c.context.requestState.isClientReadComplete = true := by
    rw [h.requestState]
    rfl
  have hheaders : c.context.requestState.cgiHeaders = false := by rw [h.requestState]
  cases hresolves with
  | noServer | noTarget =>
    exact ⟨⟨rfl, rfl, rfl⟩, rfl, fun hret => (nomatch hret), fun hret => nomatch hret⟩
  | answers hcode =>
    exact ⟨⟨rfl, rfl, rfl⟩, rfl, fun _ => ready_of_none h.request hclient rfl hheaders h.cgiSocket h.output,
      fun hret => nomatch hret⟩
  | redirects redirection =>
    exact ⟨⟨rfl, rfl, rfl⟩, rfl, fun hret => (nomatch hret),
      fun _ => Or.inl (ready_of_none h.request hclient rfl hheaders h.cgiSocket h.output)⟩
  | @creates block loc kind h₀ hfinds hkind hcreate =>
    have haccepted : HeadAccepted (c.withBlocks block (some loc)) := { h with }
    obtain ⟨hsame, hcalls, hanswers, hgoesOn⟩ := haccepted.creates hcreate sys
    exact ⟨{ hsame with }, hcalls, hanswers, hgoesOn⟩

theorem Ready.handleRequest {c : Client} (h : Ready c) (sys : Sys) :
    Responds (c.handleRequest sys).2 ∧
      Streams c (c.handleRequest sys).2 False (c.rendersHead sys = true) := by
  rw [handleRequest_of_workIn sys h.workIn]
  exact ⟨(h.startResponse sys).1, h.streams sys⟩

/-- What the call of `_parseRequest` leaves: the head is still awaited, or the request can be answered
or goes on to its body, or the client is dropped. -/
structure Parsed (c : Client) (r : Ret × Client) : Prop where
  stream : SameStream c r.2
  calls : r.2.context.world.calls = c.context.world.calls
  waits : r.1 = .reqContinue → AwaitsHead r.2
  goesOn : r.1 = .reqDone → Ready r.2 ∨ AwaitsBody r.2

/-- The call of `_parseRequest`, from the first phase: the head is incomplete, refused, or accepted and
resolved. -/
theorem AwaitsHead.parseRequest {c : Client} (h : AwaitsHead c) (sys : Sys) :
    Parsed c (c.parseRequest sys) := by
  have hends := h.headEnds sys
  generalize c.parseRequest sys = r at hends ⊢
  cases hends with
  | waits f requestLine hhead =>
    exact ⟨⟨rfl, rfl, rfl⟩, rfl, fun _ => { h with requestState := ⟨requestLine, rfl⟩ },
      fun hdone => nomatch hdone⟩
  | refused f hcode =>
    exact ⟨⟨rfl, rfl, rfl⟩, rfl, fun hcontinue => (nomatch hcontinue),
      fun _ => Or.inl (ready_of_none h.request rfl rfl rfl h.cgiSocket h.output)⟩
  | resolved f hhead hresolves hret =>
    obtain ⟨hsame, hcalls, -, hgoesOn⟩ := (h.headAccepted f).resolved hresolves
    exact ⟨{ hsame with }, hcalls, fun hcontinue => absurd hcontinue hret, hgoesOn⟩
  | answered f hhead hresolves =>
    obtain ⟨hsame, hcalls, hanswers, -⟩ := (h.headAccepted f).resolved hresolves
    exact ⟨{ hsame with }, hcalls, fun hcontinue => (nomatch hcontinue), fun _ => Or.inl (hanswers rfl)⟩

theorem AwaitsHead.not_clientRead {c : Client} (h : AwaitsHead c) :
    ¬ c.context.requestState.isClientReadComplete = true := by
  obtain ⟨requestLine, hstate⟩ := h.requestState
  rw [hstate, RequestState.isClientReadComplete, Bool.and_false]
  exact Bool.false_ne_true

/-- The head is read: it is not complete, or the request is answered or goes on to its body, or the
client is dropped. -/
theorem AwaitsHead.handleRead {c : Client} (h : AwaitsHead c) (sys : Sys) :
    Phase (settle (c.handleRead sys)) ∧ Streams c (c.handleRead sys).2 False True := by
  unfold Client.handleRead
  rw [if_neg h.not_clientRead]
  obtain ⟨hstream, -, hwaits, hgoesOn⟩ := h.parseRequest sys
  generalize c.parseRequest sys = r at hstream hwaits hgoesOn ⊢
  obtain ⟨ret, c₁⟩ := r
  cases ret with
  | reqContinue => exact ⟨Or.inr (Or.inl { hwaits rfl with }), .of_silent hstream.extends⟩
  | reqDone =>
    rcases hgoesOn rfl with hready | hbody
    · obtain ⟨hresponds, hstreams⟩ := hready.handleRequest sys
      exact ⟨hresponds.settle.phase, hstream.streams (hstreams.mono id fun _ => trivial)⟩
    · obtain ⟨hphase, hstreams⟩ := hbody.handleRequest sys
      exact ⟨hphase, hstream.streams hstreams⟩
  | _ => exact ⟨Or.inl rfl, .of_silent hstream.extends⟩

/-! ## Steps -/

/-- A step puts a response in the place of what waits to be sent: a head is rendered again for more
bytes of the client, or for a timeout. -/
def Overwrites (c : Client) : Event → Prop
  | .clientIn sys => (c.context.requestState.isReadComplete = true ∨ ∃ p, sys.recv = .data p) ∧
      c.rendersHead sys = true
  | .timeoutCheck sys => c.bodyTimeout sys.now = true ∨
      c.sendTimeout sys.now = true ∧ c.hasSpoken = false
  | _ => False

/-- A step sends a body byte for which no head was rendered. -/
def SendsBodyBeforeHead (c : Client) : Event → Prop
  | .clientOut _ => c.BodyBeforeHead
  | _ => False

/-- The client after a read from its socket: more unread bytes, and a new time for the timeouts. -/
def withRead (c : Client) (buffer : Bytes) (timestamp : Timeout → Int) : Client :=
  { c with context := { c.context with buffer := buffer }, timestamp := timestamp }

theorem rendersHead_withRead (c : Client) (buffer : Bytes) (timestamp : Timeout → Int) (sys : Sys) :
    (c.withRead buffer timestamp).rendersHead sys = c.rendersHead sys := by
  rw [rendersHead, rendersHead, openErrorPage_fst, openErrorPage_fst]
  rfl

/-- The client after a successful read, or with everything read before. -/
def received (c : Client) (sys : Sys) : Option Client :=
  if c.context.requestState.isReadComplete then some c
  else match c.readSocket sys with | (.reqContinue, c) => some c | _ => none

/-- A client goes on with what it has read, or the peer is gone. -/
theorem handleSocketIn_cases (c : Client) (sys : Sys) :
    (c.received sys = none ∧ (c.handleSocketIn sys).2 = c ∧
        (c.handleSocketIn sys).1 ≠ .reqContinue ∧
        ¬ (c.context.requestState.isReadComplete = true ∨ ∃ p, sys.recv = .data p)) ∨
      (c.context.requestState.isReadComplete = true ∨ ∃ p, sys.recv = .data p) ∧
        ∃ buffer timestamp, c.received sys = some (c.withRead buffer timestamp) ∧
          c.handleSocketIn sys = (c.withRead buffer timestamp).handleRead sys ∧
          (c.context.requestState.isClientReadComplete = false → timestamp = c.timestamp) := by
  unfold received handleSocketIn
  split_ifs with hread
  · exact Or.inr ⟨Or.inl hread, c.context.buffer, c.timestamp, rfl, rfl, fun _ => rfl⟩
  · unfold readSocket
    cases sys.recv with
    | closed => exact Or.inl ⟨rfl, rfl, by simp, by simp [hread]⟩
    | error => exact Or.inl ⟨rfl, rfl, by simp, by simp [hread]⟩
    | data packet =>
      refine Or.inr ⟨Or.inr ⟨packet, rfl⟩, ?_⟩
      dsimp only
      split_ifs with hclient
      · exact ⟨c.context.buffer ++ packet.bytes, _, rfl, rfl, fun hnot => by
          rw [show c.context.requestState.isClientReadComplete = true from hclient] at hnot
          cases hnot⟩
      · exact ⟨c.context.buffer ++ packet.bytes, c.timestamp, rfl, rfl, fun _ => rfl⟩

theorem Streams.settle {c : Client} {r : Ret × Client} {p q : Prop} (h : Streams c r.2 p q) :
    Streams c (settle r) p q := by
  rcases h with ⟨data, hextends, hdata⟩ | ⟨hreplaces, hcond⟩
  · exact Or.inl ⟨data, { hextends with }, hdata⟩
  · exact Or.inr ⟨{ hreplaces with }, hcond⟩

theorem settle_continue {c : Client} (h : c.closed = false) : settle (.reqContinue, c) = c := by
  cases c
  cases h
  rfl

/-- A client with nothing to send goes on waiting. -/
theorem sendResponse_of_nil {c : Client} (sys : Sys) (hbuffer : c.context.responseBuffer = [])
    (hwork : c.context.requestState.workIn = false) : c.sendResponse sys = (.reqContinue, c) := by
  have hincomplete : c.context.requestState.isWorkComplete = false := by
    rw [RequestState.isWorkComplete, hwork]
    rfl
  unfold sendResponse
  dsimp only
  rw [hbuffer, if_neg (by simp), sendRet, hincomplete, if_neg (by simp)]

theorem responseBuffer_of_output {c : Client} (h : c.output = []) : c.context.responseBuffer = [] :=
  (List.append_eq_nil_iff.mp h).2

/-- Nothing is sent to a client whose head is awaited. -/
theorem AwaitsHead.handleSocketOut {c : Client} (h : AwaitsHead c) (sys : Sys) :
    c.handleSocketOut sys = (.reqContinue, c) := by
  obtain ⟨requestLine, hstate⟩ := h.requestState
  have hworkOut : ¬ c.context.requestState.isWorkOutComplete = true := by
    rw [hstate]
    exact Bool.false_ne_true
  have herror : ¬ c.hasError = true := by
    rw [hasError, h.response]
    exact Bool.false_ne_true
  have hproduce : c.produce sys = (.reqContinue, c) := by
    unfold produce
    rw [if_neg hworkOut, if_neg herror, h.request]
  unfold Client.handleSocketOut
  rw [hproduce]
  exact sendResponse_of_nil sys (responseBuffer_of_output h.output) (by rw [hstate])

/-- The timeout of the body is not armed yet. -/
theorem AwaitsHead.not_bodyTimeout {c : Client} (h : AwaitsHead c) (sys : Sys) :
    ¬ c.bodyTimeout sys.now = true := by
  have hle := sys.now_le
  rw [bodyTimeout, timedOut, h.timestamp]
  simp only [Bool.and_eq_true, decide_eq_true_eq]
  omega

theorem AwaitsHead.not_sendTimeout {c : Client} (h : AwaitsHead c) (now : Int) :
    ¬ c.sendTimeout now = true := by
  obtain ⟨requestLine, hstate⟩ := h.requestState
  rw [sendTimeout, hstate]
  exact Bool.false_ne_true

/-- What a step does while the head or the body is awaited: it reads the client socket, or answers a
timeout, or nothing happens to the client. -/
inductive Waits (c : Client) (f : RequestState → RequestState) : Event → Client → Prop where
  | reads (sys : Sys) : Waits c f (.clientIn sys) (settle (c.handleSocketIn sys))
  | same {e : Event} (hne : ∀ sys, e ≠ .clientIn sys) : Waits c f e c
  | timesOut (sys : Sys) : Waits c f (.timeoutCheck sys)
      (settle (((c.setStatusCode statusRequestTimeout).setState f).respondTimeout sys))
  | environment (fs : FileSystem) :
      Waits c f (.environment fs) { c with context := c.context.setFs fs }

theorem Waits.of_eq {c c' : Client} {f : RequestState → RequestState} {e : Event}
    (hne : ∀ sys, e ≠ .clientIn sys) (heq : c' = c) : Waits c f e c' := by
  rw [heq]
  exact .same hne

/-- What a step does while the head is awaited: it reads more of it, or ends the reading with an error. -/
theorem AwaitsHead.waits {c : Client} (h : AwaitsHead c) (hclosed : c.closed = false) (e : Event) :
    Waits c RequestState.setReadComplete e (c.step e) := by
  have hsettle : settle (.reqContinue, c) = c := settle_continue hclosed
  unfold Client.step
  rw [if_neg (by rw [hclosed]; exact Bool.false_ne_true)]
  cases e with
  | clientIn sys => exact .reads sys
  | clientOut sys => exact .of_eq nofun ((congrArg settle (h.handleSocketOut sys)).trans hsettle)
  | cgiIn sys => exact .of_eq nofun (if_pos h.cgiSocket)
  | cgiOut sys => exact .of_eq nofun (if_pos h.cgiSocket)
  | timeoutCheck sys =>
    have hbody := h.not_bodyTimeout sys
    have hsend := h.not_sendTimeout sys.now
    dsimp only
    unfold timeoutCheck
    split_ifs
    · exact .timesOut sys
    · exact .of_eq nofun hsettle
  | environment fs => exact .environment fs

/-- A step from the first phase.  It stays there or goes on to one of the others, and only then may a head
be rendered. -/
theorem AwaitsHead.step {c : Client} (h : AwaitsHead c) (hclosed : c.closed = false) (e : Event) :
    Phase (c.step e) ∧ Streams c (c.step e) False True := by
  have hwaits := h.waits hclosed e
  generalize c.step e = c' at hwaits ⊢
  cases hwaits with
  | reads sys =>
    rcases handleSocketIn_cases c sys with ⟨-, hc, hret, -⟩ | ⟨-, buffer, timestamp, -, heq, htime⟩
    · refine ⟨Or.inl (decide_eq_true hret), Streams.settle ?_⟩
      rw [hc]
      exact .of_silent (.refl c)
    · have hunread : c.context.requestState.isClientReadComplete = false :=
        Bool.eq_false_iff.mpr h.not_clientRead
      have hread : AwaitsHead (c.withRead buffer timestamp) :=
        { h with timestamp := by rw [htime hunread]; exact h.timestamp }
      obtain ⟨hphase, hstreams⟩ := hread.handleRead sys
      rw [← heq] at hphase hstreams
      have hstream : SameStream c (c.withRead buffer timestamp) := ⟨rfl, rfl, rfl⟩
      exact ⟨hphase, (hstream.streams hstreams).settle⟩
  | same => exact ⟨Or.inr (Or.inl h), .of_silent (.refl _)⟩
  | timesOut sys =>
    obtain ⟨hresponds, hreplaces⟩ := @responds_respondTimeout
      ((c.setStatusCode statusRequestTimeout).setState RequestState.setReadComplete) sys rfl
      fun hne => absurd h.cgiSocket hne
    exact ⟨hresponds.settle.phase, Streams.settle (Or.inr ⟨{ hreplaces with }, trivial⟩)⟩
  | environment fs =>
    exact ⟨Or.inr (Or.inl { h with }), .of_silent (SameStream.extends ⟨rfl, rfl, rfl⟩)⟩

/-- The head is complete, so its timeout is over. -/
theorem not_headerTimeout {c : Client} (h : c.context.requestState.isClientReadComplete = true)
    (now : Int) : ¬ c.headerTimeout now = true := by
  rw [RequestState.isClientReadComplete, Bool.and_eq_true] at h
  rw [headerTimeout, RequestState.isReadHeadersComplete, h.2]
  exact Bool.false_ne_true

/-- Nothing is sent to a client whose body is being read. -/
theorem AwaitsBody.handleSocketOut {c : Client} (h : AwaitsBody c) (sys : Sys) :
    c.handleSocketOut sys = (.reqContinue, c) := by
  have hproduce : c.produce sys = (.reqContinue, c) := if_pos h.workOut
  unfold Client.handleSocketOut
  rw [hproduce]
  exact sendResponse_of_nil sys (responseBuffer_of_output h.output) h.workIn

/-- What a step does while the body is awaited: the reader is called, or a timeout ends the reading. -/
theorem AwaitsBody.waits {c : Client} (h : AwaitsBody c) (hclosed : c.closed = false) (e : Event) :
    Waits c id e (c.step e) := by
  have hsettle : settle (.reqContinue, c) = c := settle_continue hclosed
  unfold Client.step
  rw [if_neg (by rw [hclosed]; exact Bool.false_ne_true)]
  cases e with
  | clientIn sys => exact .reads sys
  | clientOut sys => exact .of_eq nofun ((congrArg settle (h.handleSocketOut sys)).trans hsettle)
  | cgiIn sys => exact .of_eq nofun (if_pos h.cgiSocket)
  | cgiOut sys => exact .of_eq nofun (if_pos h.cgiSocket)
  | timeoutCheck sys =>
    have hsend : ¬ c.sendTimeout sys.now = true := by
      rw [sendTimeout, RequestState.isCanWrite, h.canWrite]
      exact Bool.false_ne_true
    dsimp only
    unfold timeoutCheck
    rw [if_neg (not_headerTimeout h.clientRead _)]
    split_ifs
    · exact .timesOut sys
    · exact .of_eq nofun hsettle
  | environment fs => exact .environment fs

/-- A step from the second phase.  It stays there until the body is complete or refused, and then the
response is started. -/
theorem AwaitsBody.step {c : Client} (h : AwaitsBody c) (hclosed : c.closed = false) (e : Event) :
    Phase (c.step e) ∧ Streams c (c.step e) False True := by
  have hwaits := h.waits hclosed e
  generalize c.step e = c' at hwaits ⊢
  cases hwaits with
  | reads sys =>
    rcases handleSocketIn_cases c sys with ⟨-, hc, hret, -⟩ | ⟨-, buffer, timestamp, -, heq, -⟩
    · refine ⟨Or.inl (decide_eq_true hret), Streams.settle ?_⟩
      rw [hc]
      exact .of_silent (.refl c)
    · have hread : AwaitsBody (c.withRead buffer timestamp) := { h with }
      have hhandle : (c.withRead buffer timestamp).handleRead sys =
          (c.withRead buffer timestamp).handleRequest sys :=
        if_pos h.clientRead
      obtain ⟨hphase, hstreams⟩ := hread.handleRequest sys
      rw [← hhandle, ← heq] at hphase hstreams
      have hstream : SameStream c (c.withRead buffer timestamp) := ⟨rfl, rfl, rfl⟩
      exact ⟨hphase, (hstream.streams hstreams).settle⟩
  | same => exact ⟨Or.inr (Or.inr (Or.inl h)), .of_silent (.refl _)⟩
  | timesOut sys =>
    obtain ⟨hresponds, hreplaces⟩ := @responds_respondTimeout
      (c.setStatusCode statusRequestTimeout) sys h.clientRead fun hne => absurd h.cgiSocket hne
    exact ⟨hresponds.settle.phase, Streams.settle (Or.inr ⟨{ hreplaces with }, trivial⟩)⟩
  | environment fs =>
    exact ⟨Or.inr (Or.inr (Or.inl { h with })), .of_silent (SameStream.extends ⟨rfl, rfl, rfl⟩)⟩

theorem Responds.settleCGI {r : Ret × Client} (h : Responds r.2) : Responds (settleCGI r) := { h with }

theorem Streams.settleCGI {c : Client} {r : Ret × Client} {p q : Prop} (h : Streams c r.2 p q) :
    Streams c (settleCGI r) p q := by
  rcases h with ⟨data, hextends, hdata⟩ | ⟨hreplaces, hcond⟩
  · exact Or.inl ⟨data, { hextends with }, hdata⟩
  · exact Or.inr ⟨{ hreplaces with }, hcond⟩

/-- A step from the last phase.  There is no way back, so that the client responds until it is closed. -/
theorem Responds.step {c : Client} (h : Responds c) (hclosed : c.closed = false) (e : Event) :
    ((c.step e).closed = true ∨ Responds (c.step e)) ∧
      Streams c (c.step e) (c.context.world.heads ≠ [] ∨ c.SendsBodyBeforeHead e)
        (c.output = [] ∨ c.Overwrites e) := by
  have hsame : ∀ c' : Client, c' = c → (c'.closed = true ∨ Responds c') ∧ Streams c c'
      (c.context.world.heads ≠ [] ∨ c.SendsBodyBeforeHead e) (c.output = [] ∨ c.Overwrites e) := by
    rintro c' rfl
    exact ⟨Or.inr h, .of_silent (.refl _)⟩
  unfold Client.step
  rw [if_neg (by rw [hclosed]; exact Bool.false_ne_true)]
  cases e with
  | clientIn sys =>
    rcases handleSocketIn_cases c sys with ⟨-, hc, hret, -⟩ | ⟨hread, buffer, timestamp, -, heq, -⟩
    · refine ⟨Or.inl (decide_eq_true hret), Streams.settle ?_⟩
      rw [hc]
      exact .of_silent (.refl c)
    · have hready : Ready (c.withRead buffer timestamp) :=
        { h.toReady with }
      have hhandle : (c.withRead buffer timestamp).handleRead sys =
          (c.withRead buffer timestamp).handleRequest sys :=
        if_pos h.clientRead
      obtain ⟨hresponds, hstreams⟩ := hready.handleRequest sys
      rw [← hhandle, ← heq] at hresponds hstreams
      have hstream : SameStream c (c.withRead buffer timestamp) := ⟨rfl, rfl, rfl⟩
      refine ⟨Or.inr hresponds.settle, ((hstream.streams hstreams).mono False.elim ?_).settle⟩
      intro hhead
      rw [rendersHead_withRead] at hhead
      exact Or.inr ⟨hread, hhead⟩
  | clientOut sys =>
    obtain ⟨hresponds, hstreams⟩ := h.handleSocketOut sys
    exact ⟨Or.inr hresponds.settle, (hstreams.mono id False.elim).settle⟩
  | cgiIn sys =>
    by_cases hsocket : c.context.cgiSocket = -1
    · exact hsame _ (if_pos hsocket)
    · obtain ⟨hresponds, hstreams⟩ := h.handleCGIIn sys hsocket
      dsimp only
      rw [if_neg hsocket]
      exact ⟨Or.inr hresponds.settleCGI, (hstreams.mono Or.inl Or.inl).settleCGI⟩
  | cgiOut sys =>
    by_cases hsocket : c.context.cgiSocket = -1
    · exact hsame _ (if_pos hsocket)
    · obtain ⟨hresponds, hextends⟩ := h.handleCGIOut sys hsocket
      dsimp only
      rw [if_neg hsocket]
      exact ⟨Or.inr hresponds.settleCGI, (Streams.of_silent hextends).settleCGI⟩
  | timeoutCheck sys =>
    dsimp only
    unfold timeoutCheck
    rw [if_neg (not_headerTimeout h.clientRead _)]
    split_ifs with hbody hsend hspoken
    · obtain ⟨hresponds, hreplaces⟩ := @responds_respondTimeout
        (c.setStatusCode statusRequestTimeout) sys h.clientRead h.socket
      exact ⟨Or.inr hresponds.settle,
        Streams.settle (Or.inr ⟨{ hreplaces with }, Or.inr (Or.inl hbody)⟩)⟩
    · exact ⟨Or.inl rfl, Streams.settle (.of_silent (.refl c))⟩
    · obtain ⟨hresponds, hreplaces⟩ := @responds_respondTimeout
        ((c.setResponse c.context.response.clear).setStatusCode statusGatewayTimeout) sys h.clientRead
        h.socket
      exact ⟨Or.inr hresponds.settle, Streams.settle
        (Or.inr ⟨{ hreplaces with }, Or.inr (Or.inr ⟨hsend, Bool.eq_false_iff.mpr hspoken⟩)⟩)⟩
    · refine hsame _ ?_
      rw [settle_continue hclosed]
  | environment fs =>
    exact ⟨Or.inr { h with }, .of_silent (SameStream.extends ⟨rfl, rfl, rfl⟩)⟩

/-- **Steps go from phase to phase**, and a step appends to the response stream or puts a response
in the place of what waits to be sent. -/
theorem phase_step {c : Client} (h : Phase c) (e : Event) :
    Phase (c.step e) ∧ Streams c (c.step e) (c.context.world.heads ≠ [] ∨ c.SendsBodyBeforeHead e)
      (c.output = [] ∨ c.Overwrites e) := by
  cases hclosed : c.closed with
  | true =>
    have hstep : c.step e = c := if_pos hclosed
    rw [hstep]
    exact ⟨h, .of_silent (.refl c)⟩
  | false =>
    rcases h with hc | hhead | hbody | hresponds
    · rw [hclosed] at hc
      cases hc
    · obtain ⟨hphase, hstreams⟩ := hhead.step hclosed e
      exact ⟨hphase, hstreams.mono False.elim fun _ => Or.inl hhead.output⟩
    · obtain ⟨hphase, hstreams⟩ := hbody.step hclosed e
      exact ⟨hphase, hstreams.mono False.elim fun _ => Or.inl hbody.output⟩
    · obtain ⟨hphase, hstreams⟩ := hresponds.step hclosed e
      exact ⟨hphase.elim Or.inl Responds.phase, hstreams⟩

/-- The phase of a client after any events: `phase_step` and the induction over runs. -/
theorem phase_run {c : Client} (h : Phase c) (es : List Event) : Phase (c.run es) :=
  @Transition.run_invariant _ _ step (fun _ _ => True) Phase (fun _ e hc _ => (phase_step hc e).1) es c
    h (Transition.along_of_forall (fun _ _ => trivial) es c)

/-- A step that overwrites does put a response in the place of what waits to be sent. -/
theorem replaces_of_overwrites {c : Client} (h : Responds c) (hclosed : c.closed = false) {e : Event}
    (ho : c.Overwrites e) : c.Replaces (c.step e) := by
  unfold Client.step
  rw [if_neg (by rw [hclosed]; exact Bool.false_ne_true)]
  cases e with
  | clientIn sys =>
    obtain ⟨hread, hhead⟩ := ho
    rcases handleSocketIn_cases c sys with ⟨-, -, -, hnot⟩ | ⟨-, buffer, timestamp, -, heq, -⟩
    · exact absurd hread hnot
    · have hready : Ready (c.withRead buffer timestamp) :=
        { h.toReady with }
      have hhandle : c.handleSocketIn sys = (c.withRead buffer timestamp).startResponse sys :=
        heq.trans ((if_pos h.clientRead).trans (handleRequest_of_workIn sys hready.workIn))
      have hreplaces := (hready.startResponse sys).2.resolve_right fun hnot => by
        rw [rendersHead_withRead, hhead] at hnot
        cases hnot.1
      rw [← hhandle] at hreplaces
      exact { hreplaces.2 with }
  | timeoutCheck sys =>
    dsimp only
    unfold timeoutCheck
    rw [if_neg (not_headerTimeout h.clientRead _)]
    split_ifs with hbody hsend hspoken
    · exact { (@responds_respondTimeout
        (c.setStatusCode statusRequestTimeout) sys h.clientRead h.socket).2 with }
    · rcases ho with ho | ⟨-, ho⟩
      · exact absurd ho hbody
      · rw [hspoken] at ho
        cases ho
    · exact { (@responds_respondTimeout
        ((c.setResponse c.context.response.clear).setStatusCode statusGatewayTimeout) sys h.clientRead
        h.socket).2 with }
    · rcases ho with ho | ⟨ho, -⟩
      · exact absurd ho hbody
      · exact absurd ho hsend
  | _ => exact ho.elim

end Client
end Webserv
