import Webserv.Phases

/-!
# Refused bodies

A body reader that refuses the body of a request for a CGI sets 400 or 413 and completes `CGI_OUT`.  But the
socket of the CGI stays armed for writing, and `CGIOut` does not test the flag: the next event calls the
reader again, with the counters that the refusal left.  The output of the CGI, too, may still give the
response another head.

* `BodyRefused`: what holds after the refusal.
* `KeepsRefusal`: what the later events must keep away from.
* `bodyErrors_stick`: then nothing more is sent to the CGI, and every head has the status.
* `not_bodyErrors_stick`: after a bad chunk size, the next event sends 2^64 - 2 bytes.

## What can undo a refusal

Two things.  A reader that is called again may come to its sink, because the refusal has left unread bytes
and a counter that is now a size; or it may refuse with the other status.  `bodyVerdict` says from the state
before the call which it will be.  And the CGI is still running.  It has the status of its own head, which
replaces the pending one when its output gets as far as the empty line; a CGI that says nothing, or whose
head has the same status, does no harm.  `KeepsCGIStatus` follows the lines that the CGI writes, with the
same look-ups as the parser, up to where its head would end.

## Why every head and not the last one

The start of a response is gone through again by every byte of the client, so that several heads may be
rendered after a refusal.  The statement is about all of them: each has the status of the refusal.  That
there is only one is another question.

A run is made of steps that each keep the refusal.  The condition is on the state before an event and on
what the CGI writes, and never on what the step does.
-/

namespace Webserv
namespace Handler

/-! ## The head of the CGI -/

/-- The status of a CGI response with these headers: that of `Status`, or 200 without one. -/
def cgiHeadStatus (headers : StringMap) : Nat :=
  match headers.find? headerStatus with
  | none => statusOk
  | some value => (cgiStatusToStatus value).1

/-- The lines of a CGI response do not complete its head, or give it the status `code`. -/
inductive KeepsStatus (code : Nat) : StringMap → Bytes → Prop where
  | waits {headers : StringMap} {buffer : Bytes} (hfind : BinaryBuffer.find buffer crlf = none) :
      KeepsStatus code headers buffer
  | ends {headers : StringMap} {buffer : Bytes} {pos : Nat}
      (hfind : BinaryBuffer.find buffer crlf = some pos)
      (hline : BinaryBuffer.substr buffer 0 pos = []) (hstatus : cgiHeadStatus headers = code) :
      KeepsStatus code headers buffer
  | line {headers : StringMap} {buffer : Bytes} {pos colon : Nat}
      (hfind : BinaryBuffer.find buffer crlf = some pos)
      (hline : BinaryBuffer.substr buffer 0 pos ≠ [])
      (hcolon : Search.findSub (bytes ": ") (BinaryBuffer.substr buffer 0 pos) = some colon)
      (hrest : KeepsStatus code
        (headers.insert ((BinaryBuffer.substr buffer 0 pos).take colon)
          ((BinaryBuffer.substr buffer 0 pos).drop (colon + 2)))
        (BinaryBuffer.erase buffer 0 (pos + 2))) :
      KeepsStatus code headers buffer

/-- More heads were rendered, all of them with the status `code`, which is the pending one. -/
structure HeadsWith (code : Nat) (ctx ctx' : RequestContext) : Prop where
  statusCode : ctx'.response.statusCode = code
  heads : ∃ rs, ctx'.world.heads = ctx.world.heads ++ rs ∧ ∀ r ∈ rs, r.statusCode = code

theorem HeadsWith.of_same {code : Nat} {ctx ctx' : RequestContext}
    (hstatus : ctx'.response.statusCode = code) (hheads : ctx'.world.heads = ctx.world.heads) :
    HeadsWith code ctx ctx' :=
  ⟨hstatus, [], by rw [hheads, List.append_nil], fun _ hr => nomatch hr⟩

theorem statusCode_setCGIStatus (h : Handler) :
    h.setCGIStatus.context.response.statusCode = cgiHeadStatus h.context.response.headers := by
  unfold setCGIStatus cgiHeadStatus
  cases h.context.response.headers.find? headerStatus <;> rfl

theorem heads_setCGIStatus (h : Handler) :
    h.setCGIStatus.context.world.heads = h.context.world.heads := by
  unfold setCGIStatus
  cases h.context.response.headers.find? headerStatus <;> rfl

/-- A head that is complete and gives the status. -/
theorem headsWith_endCGIHeaders {code : Nat} {h : Handler}
    (hhead : cgiHeadStatus h.context.response.headers = code) :
    HeadsWith code h.context h.endCGIHeaders.context := by
  have hstatus : h.setCGIStatus.context.response.statusCode = code :=
    (statusCode_setCGIStatus h).trans hhead
  refine ⟨hstatus, [h.setCGIStatus.context.response.clearBody], ?_, ?_⟩
  · rw [← heads_setCGIStatus h]
    rfl
  · intro r hr
    rw [List.mem_singleton.mp hr]
    exact hstatus

/-- The lines that keep the status, by induction on the lines that are left.  Only the end of the head and a
bad line set one. -/
theorem headsWith_parseCGIHeadersLoop {code : Nat} (n : Nat) {h : Handler}
    (hstatus : h.context.response.statusCode = code)
    (hkeeps : KeepsStatus code h.context.response.headers h.request.readBuffer) :
    HeadsWith code h.context (parseCGIHeadersLoop n h).context := by
  induction n generalizing h with
  | zero => exact .of_same hstatus rfl
  | succ n ih =>
    rw [parseCGIHeadersLoop]
    cases hkeeps with
    | waits hfind =>
      rw [hfind]
      exact .of_same hstatus rfl
    | @ends _ _ pos hfind hline hhead =>
      rw [hfind]
      dsimp only
      rw [if_pos hline]
      have hended := @headsWith_endCGIHeaders code { h with
        request := { h.request with readBuffer := BinaryBuffer.erase h.request.readBuffer 0 (pos + 2) } }
        hhead
      exact hended
    | line hfind hline hcolon hrest =>
      rw [hfind]
      dsimp only
      rw [if_neg hline, hcolon]
      refine { @ih _ ?_ ?_ with }
      · exact hstatus
      · exact hrest

theorem headsWith_parseCGIHeaders {code : Nat} {h : Handler}
    (hstatus : h.context.response.statusCode = code)
    (hkeeps : KeepsStatus code h.context.response.headers h.request.readBuffer) :
    HeadsWith code h.context (parseCGIHeaders h).context :=
  headsWith_parseCGIHeadersLoop _ hstatus hkeeps

/-- What the CGI writes gives no head, or one with the status `code`. -/
def KeepsCGIStatus (code : Nat) (h : Handler) (recv : Recv) : Prop :=
  h.context.requestState.cgiIn = true ∨ h.context.requestState.cgiHeaders = true ∨
    match recv with
    | .closed => False
    | .error => True
    | .data packet =>
      KeepsStatus code h.context.response.headers (h.request.readBuffer ++ packet.bytes)

theorem headsWith_readCGI {code : Nat} {sys : Sys} {h : Handler}
    (hstatus : h.context.response.statusCode = code) (hkeeps : KeepsCGIStatus code h sys.recv) :
    HeadsWith code h.context (readCGI sys h).2.context := by
  rcases (readsCGI_readCGI sys h).stream with ⟨data, hextends, -, -, hsame⟩ | ⟨hin, hheaders, -⟩
  · exact .of_same (hsame.trans hstatus) hextends.heads
  · unfold KeepsCGIStatus at hkeeps
    rw [hin, hheaders] at hkeeps
    unfold readCGI
    have hin' : ¬ h.context.requestState.isCgiInComplete = true := by
      rw [RequestState.isCgiInComplete, hin]
      exact Bool.false_ne_true
    rw [if_neg hin']
    cases hrecv : sys.recv with
    | closed => simp [hrecv] at hkeeps
    | error => exact .of_same hstatus rfl
    | data packet =>
      dsimp only
      have hheaders' : ¬ (h.context.record (.recv h.context.cgiSocket)).requestState.cgiHeaders = true := by
        rw [RequestContext.record, hheaders]
        exact Bool.false_ne_true
      rw [RequestState.isCgiHeadersComplete, if_neg hheaders']
      have hlines : KeepsStatus code h.context.response.headers
          (h.request.readBuffer ++ packet.bytes) := by
        simpa [hrecv] using hkeeps
      have hparsed : HeadsWith code _ (parseCGIHeaders _).context := @headsWith_parseCGIHeaders code
        { h with
          context := h.context.record (.recv h.context.cgiSocket)
          request := { h.request with readBuffer := h.request.readBuffer ++ packet.bytes } }
        hstatus hlines
      generalize parseCGIHeaders _ = h' at hparsed ⊢
      unfold forwardCGI
      split_ifs
      · exact { hparsed with }
      · exact { hparsed with }

/-- A body that is refused for its unread bytes. -/
theorem exists_refuseBody (sys : Sys) {h : Handler} {code : Nat}
    (hverdict : h.bodyVerdict = .refuses code) :
    ∃ h' : Handler, (readBody sys h).2 = h'.refuseBody code := by
  have hsettled := @settled_readBody sys h (by rw [hverdict]; nofun)
  rw [hverdict] at hsettled
  generalize readBody sys h = r at hsettled ⊢
  cases hsettled with
  | refuses _ _ buffer n m => exact ⟨_, rfl⟩

end Handler

namespace Client

open Handler (HeadsWith)

/-! ## Refused requests -/

/-- The socket of the CGI is ready for a request for a CGI, and the body reader sets the status 400
or 413. -/
def RefusesBody (c : Client) (code : Nat) (sys : Sys) : Prop :=
  c.closed = false ∧ c.context.cgiSocket ≠ -1 ∧
    (code = statusBadRequest ∨ code = statusPayloadTooLarge) ∧
    ∃ r, c.request = some r ∧ r.kind = .post ∧ r.cgiPath.isSome = true ∧
      ∃ h : Handler, (Handler.readBody sys ⟨c.context, r⟩).2 = h.refuseBody code

/-- The body of a POST was refused with the status `code`: its request object is there, and the flags say
that the body is done with. -/
structure BodyRefused (code : Nat) (c : Client) : Prop where
  request : ∃ r, c.request = some r ∧ r.kind = .post
  clientRead : c.context.requestState.isClientReadComplete = true
  workIn : c.context.requestState.workIn = true
  statusCode : c.context.response.statusCode = code
  isError : isErrorCode code = true

/-- Nothing more was sent to the CGI, and every head that was rendered has the status `code`. -/
structure Sticks (code : Nat) (c c' : Client) : Prop where
  sends : ∃ calls, c'.context.world.calls = c.context.world.calls ++ calls ∧
    ∀ call ∈ calls, ∀ fd unread len sent, call ≠ .send fd unread len sent
  heads : ∃ rs, c'.context.world.heads = c.context.world.heads ++ rs ∧
    ∀ r ∈ rs, r.statusCode = code

theorem Sticks.refl (code : Nat) (c : Client) : Sticks code c c :=
  ⟨⟨[], (List.append_nil _).symm, fun _ hcall => nomatch hcall⟩,
    [], (List.append_nil _).symm, fun _ hr => nomatch hr⟩

theorem Sticks.trans {code : Nat} {c₁ c₂ c₃ : Client} (h₁₂ : Sticks code c₁ c₂)
    (h₂₃ : Sticks code c₂ c₃) : Sticks code c₁ c₃ := by
  obtain ⟨⟨calls, hcalls, hsends⟩, rs, hheads, hstatus⟩ := h₁₂
  obtain ⟨⟨calls', hcalls', hsends'⟩, rs', hheads', hstatus'⟩ := h₂₃
  refine ⟨⟨calls ++ calls', ?_, ?_⟩, rs ++ rs', ?_, ?_⟩
  · rw [hcalls', hcalls, List.append_assoc]
  · intro call hcall
    exact (List.mem_append.mp hcall).elim (hsends call) (hsends' call)
  · rw [hheads', hheads, List.append_assoc]
  · intro r hr
    exact (List.mem_append.mp hr).elim (hstatus r) (hstatus' r)

/-- No call was made, and heads were rendered with the pending status. -/
theorem Sticks.of_headsWith {code : Nat} {c c' : Client} (h : HeadsWith code c.context c'.context)
    (hcalls : c'.context.world.calls = c.context.world.calls) : Sticks code c c' :=
  ⟨⟨[], by rw [hcalls, List.append_nil], fun _ hcall => nomatch hcall⟩, h.heads⟩

namespace BodyRefused

variable {code : Nat} {c : Client} (h : BodyRefused code c)

include h

theorem hasError : c.hasError = true := by
  rw [Client.hasError, h.statusCode]
  exact h.isError

/-- The start of a response renders the head, if any, with the status. -/
theorem startResponse (sys : Sys) :
    BodyRefused code (c.startResponse sys).2 ∧ Sticks code c (c.startResponse sys).2 := by
  obtain ⟨f, heq, hstatus, hstate, -⟩ := prepareError_cases c sys
  have hle : c.context.requestState.Le f.requestState := by
    rcases hstate with hstate | hstate <;> rw [hstate]
    · exact .refl _
    · exact RequestState.le_setWorkComplete _
  have hpage : BodyRefused code (c.withPage f) :=
    { h with
      clientRead := isClientReadComplete_of_le hle h.clientRead
      workIn := hle.workIn h.workIn
      statusCode := hstatus.trans h.statusCode }
  have hswitch : ∀ c' : Client, BodyRefused code c' → Sticks code c c' →
      BodyRefused code (c'.switchToWrite sys).2 ∧ Sticks code c (c'.switchToWrite sys).2 := by
    intro c' hrefused hsticks
    rcases switchToWrite_cases c' sys with heq | heq <;> rw [heq]
    · exact ⟨hrefused, hsticks⟩
    · exact ⟨{ hrefused with }, { hsticks with }⟩
  unfold Client.startResponse
  rw [heq]
  dsimp only
  split_ifs
  · refine hswitch _ { hpage with } (.of_headsWith ⟨hpage.statusCode, [f.response], rfl, ?_⟩ rfl)
    intro r hr
    rw [List.mem_singleton.mp hr]
    exact hpage.statusCode
  · exact hswitch _ hpage (.of_headsWith (.of_same hpage.statusCode rfl) rfl)

/-- More bytes of the client start the response again.  Its status stays that of the refusal. -/
theorem handleSocketIn (sys : Sys) :
    BodyRefused code (c.handleSocketIn sys).2 ∧ Sticks code c (c.handleSocketIn sys).2 := by
  rcases handleSocketIn_cases c sys with ⟨-, heq, -⟩ | ⟨-, buffer, timestamp, -, heq, -⟩
  · rw [heq]
    exact ⟨h, .refl code c⟩
  · have hread : BodyRefused code (c.withRead buffer timestamp) := { h with }
    have hhandle : (c.withRead buffer timestamp).handleRead sys =
        (c.withRead buffer timestamp).startResponse sys :=
      (if_pos h.clientRead).trans (handleRequest_of_workIn sys h.workIn)
    obtain ⟨hrefused, hsticks⟩ := hread.startResponse sys
    rw [heq, hhandle]
    exact ⟨hrefused, { hsticks with }⟩

/-- An error page is sent, if there is something to send. -/
theorem handleSocketOut (sys : Sys) :
    BodyRefused code (c.handleSocketOut sys).2 ∧ Sticks code c (c.handleSocketOut sys).2 := by
  have hproduce : ∃ c', c.produce sys = (.reqContinue, c') ∧ BodyRefused code c' ∧
      Sticks code c c' := by
    unfold Client.produce
    rw [if_pos h.hasError]
    split_ifs
    · exact ⟨c, rfl, h, .refl code c⟩
    · refine ⟨c.readErrorPage, rfl, ?_⟩
      unfold readErrorPage
      dsimp only
      split_ifs
      · exact ⟨{ h with }, .of_headsWith (.of_same h.statusCode rfl) rfl⟩
      · exact ⟨{ h with }, .of_headsWith (.of_same h.statusCode rfl) rfl⟩
  obtain ⟨c', heq, hrefused, hsticks⟩ := hproduce
  unfold Client.handleSocketOut
  rw [heq]
  dsimp only
  rcases sendResponse_cases c' sys with heq | ⟨n, heq⟩ <;> rw [heq]
  · exact ⟨hrefused, hsticks⟩
  · unfold takeResponse
    split_ifs <;> exact ⟨{ hrefused with }, { hsticks with }⟩

/-- The CGI is listened to.  Its head would set a status of its own, and the condition is that it sets the
same one. -/
theorem handleCGIIn {sys : Sys}
    (hkeeps : ∀ r, c.request = some r → Handler.KeepsCGIStatus code ⟨c.context, r⟩ sys.recv) :
    BodyRefused code (c.handleCGIIn sys).2 ∧ Sticks code c (c.handleCGIIn sys).2 := by
  obtain ⟨r, hr, hpost⟩ := h.request
  unfold Client.handleCGIIn
  rw [hr]
  dsimp only
  rw [@Handler.CGIIn_eq sys ⟨c.context, r⟩ (Or.inr hpost)]
  obtain ⟨⟨f, hf⟩, hle, ⟨calls, hcalls, hmem⟩, -⟩ := Handler.readsCGI_readCGI sys ⟨c.context, r⟩
  have hheads := @Handler.headsWith_readCGI code sys ⟨c.context, r⟩ h.statusCode (hkeeps r hr)
  generalize (Handler.readCGI sys ⟨c.context, r⟩).2 = h' at hf hle hcalls hheads ⊢
  refine ⟨{
    request := ⟨h'.request, rfl, by rw [hf]; exact hpost⟩
    clientRead := isClientReadComplete_of_le hle h.clientRead
    workIn := hle.workIn h.workIn
    statusCode := hheads.statusCode
    isError := h.isError }, ⟨calls, hcalls, fun call hcall => (hmem call hcall).2⟩, hheads.heads⟩

/-- The body reader is called again, with the bytes that it refused.  It refuses them with the same status
or waits for more. -/
theorem handleCGIOut {sys : Sys} (hkeeps : ∀ r, c.request = some r →
      Handler.bodyVerdict ⟨c.context, r⟩ = .waits ∨
        Handler.bodyVerdict ⟨c.context, r⟩ = .refuses code) :
    BodyRefused code (c.handleCGIOut sys).2 ∧ Sticks code c (c.handleCGIOut sys).2 := by
  obtain ⟨r, hr, hpost⟩ := h.request
  have hverdict := hkeeps r hr
  have hsettled : Handler.Settled ⟨c.context, r⟩ (Handler.bodyVerdict ⟨c.context, r⟩)
      (Handler.readBody sys ⟨c.context, r⟩) := by
    refine Handler.settled_readBody sys ?_
    rcases hverdict with hverdict | hverdict <;> rw [hverdict] <;> nofun
  have hreader : Handler.CGIOut sys ⟨c.context, r⟩ = Handler.readBody sys ⟨c.context, r⟩ := by
    unfold Handler.CGIOut
    rw [hpost]
  unfold Client.handleCGIOut
  rw [hr]
  dsimp only
  rw [hreader]
  generalize Handler.readBody sys ⟨c.context, r⟩ = result at hsettled ⊢
  rcases hverdict with hverdict | hverdict <;> rw [hverdict] at hsettled
  · cases hsettled with
    | waits buffer n m =>
      exact ⟨{ h with request := ⟨_, rfl, hpost⟩ }, .of_headsWith (.of_same h.statusCode rfl) rfl⟩
  · cases hsettled with
    | refuses _ _ buffer n m =>
      exact ⟨{ h with
        request := ⟨_, rfl, hpost⟩
        clientRead := h.clientRead
        workIn := rfl
        statusCode := rfl }, .of_headsWith (.of_same rfl rfl) rfl⟩

end BodyRefused

/-! ## Runs -/

/-- The step keeps the refusal: a reader that is called again waits or refuses with the same status,
and the CGI gives no head with another status. -/
def KeepsRefusal (code : Nat) (c : Client) (e : Event) : Prop :=
  c.closed = false → c.context.cgiSocket ≠ -1 → ∀ r, c.request = some r →
    match e with
    | .cgiIn sys => Handler.KeepsCGIStatus code ⟨c.context, r⟩ sys.recv
    | .cgiOut _ => Handler.bodyVerdict ⟨c.context, r⟩ = .waits ∨
        Handler.bodyVerdict ⟨c.context, r⟩ = .refuses code
    | _ => True

/-- A step that keeps the refusal.  By cases on the event, each of which is one of the three lemmas above or
sends only. -/
theorem BodyRefused.step {code : Nat} {c : Client} (h : BodyRefused code c) {e : Event}
    (hevent : ∀ sys, e ≠ .timeoutCheck sys) (hkeeps : c.KeepsRefusal code e) :
    BodyRefused code (c.step e) ∧ Sticks code c (c.step e) := by
  cases hclosed : c.closed with
  | true =>
    have hstep : c.step e = c := if_pos hclosed
    rw [hstep]
    exact ⟨h, .refl code c⟩
  | false =>
    unfold Client.step
    rw [if_neg (by rw [hclosed]; exact Bool.false_ne_true)]
    cases e with
    | clientIn sys =>
      obtain ⟨hrefused, hsticks⟩ := h.handleSocketIn sys
      exact ⟨{ hrefused with }, { hsticks with }⟩
    | clientOut sys =>
      obtain ⟨hrefused, hsticks⟩ := h.handleSocketOut sys
      exact ⟨{ hrefused with }, { hsticks with }⟩
    | cgiIn sys =>
      dsimp only
      split_ifs with hsocket
      · exact ⟨h, .refl code c⟩
      · obtain ⟨hrefused, hsticks⟩ := h.handleCGIIn (hkeeps hclosed hsocket)
        exact ⟨{ hrefused with }, { hsticks with }⟩
    | cgiOut sys =>
      dsimp only
      split_ifs with hsocket
      · exact ⟨h, .refl code c⟩
      · obtain ⟨hrefused, hsticks⟩ := @BodyRefused.handleCGIOut code c h sys (hkeeps hclosed hsocket)
        exact ⟨{ hrefused with }, { hsticks with }⟩
    | timeoutCheck sys => exact absurd rfl (hevent sys)
    | environment fs => exact ⟨{ h with }, .of_headsWith (.of_same h.statusCode rfl) rfl⟩

/-- The refusal over any number of events, each of which keeps it. -/
theorem BodyRefused.run {code : Nat} {es : List Event} (hevents : ∀ sys, .timeoutCheck sys ∉ es)
    {c : Client} (h : BodyRefused code c) (hkeeps : Transition.Along Client.step (KeepsRefusal code) c es) :
    BodyRefused code (c.run es) ∧ Sticks code c (c.run es) := by
  induction es generalizing c with
  | nil => exact ⟨h, .refl code c⟩
  | cons e es ih =>
    obtain ⟨hrefused, hsticks⟩ := h.step
      (fun sys heq => hevents sys (heq ▸ List.mem_cons_self)) hkeeps.1
    obtain ⟨hrefused', hsticks'⟩ := ih (fun sys hmem => hevents sys (List.mem_cons_of_mem e hmem))
      hrefused hkeeps.2
    exact ⟨hrefused', hsticks.trans hsticks'⟩

/-- The event that refuses the body: the socket of the CGI is ready, and the reader finds that the body is
malformed or too large. -/
theorem bodyRefused_of_refuses {c : Client} (h : Phase c) {code : Nat} {sys : Sys}
    (hrefuses : c.RefusesBody code sys) : BodyRefused code (c.step (.cgiOut sys)) := by
  obtain ⟨hclosed, hsocket, hcode, r, hr, hpost, -, h₁, hread⟩ := hrefuses
  have hresponds : Responds c := by
    rcases h with hc | hhead | hbody | hresponds
    · rw [hclosed] at hc
      cases hc
    · exact absurd hhead.cgiSocket hsocket
    · exact absurd hbody.cgiSocket hsocket
    · exact hresponds
  have hreads := Handler.reads_readBody sys ⟨c.context, r⟩
  have hle := hreads.le
  obtain ⟨f, hf⟩ := hreads.fields
  have hstep : c.step (.cgiOut sys) = settleCGI (c.handleCGIOut sys) :=
    (if_neg (by rw [hclosed]; exact Bool.false_ne_true)).trans (if_neg hsocket)
  have hreader : Handler.CGIOut sys ⟨c.context, r⟩ = Handler.readBody sys ⟨c.context, r⟩ := by
    unfold Handler.CGIOut
    rw [hpost]
  have hhandle : (c.handleCGIOut sys).2 =
      c.withHandler (Handler.readBody sys ⟨c.context, r⟩).2 := by
    unfold Client.handleCGIOut
    rw [hr]
    dsimp only
    rw [hreader]
  have hrefused : BodyRefused code (c.handleCGIOut sys).2 := by
    rw [hhandle]
    refine ⟨⟨_, rfl, by rw [hf]; exact hpost⟩, isClientReadComplete_of_le hle hresponds.clientRead,
      hle.workIn hresponds.workIn, ?_, ?_⟩
    · show (Handler.readBody sys ⟨c.context, r⟩).2.context.response.statusCode = code
      rw [hread]
      rfl
    · rcases hcode with rfl | rfl <;> rfl
  rw [hstep]
  exact { hrefused with }

/-- **Errors of the body are sticky**, as long as no later event gets the reader to its sink, and the
CGI gives no head of its own: nothing more is sent to the CGI, so no length exceeds the unread bytes,
and every response head has the status of the error. -/
theorem bodyErrors_stick (server : Server) (fs : FileSystem) (connectSocket fd : Fd) (now : Int)
    (before after : List Event) (code : Nat) (sys : Sys)
    (hrefuses : ((init server fs connectSocket fd now).run before).RefusesBody code sys)
    (hevents : ∀ sys', .timeoutCheck sys' ∉ after)
    (hkeeps : Transition.Along step (KeepsRefusal code)
      (((init server fs connectSocket fd now).run before).step (.cgiOut sys)) after) :
    let c := ((init server fs connectSocket fd now).run before).step (.cgiOut sys)
    Sticks code c (c.run after) ∧ (c.run after).context.response.statusCode = code := by
  have hphase : Phase ((init server fs connectSocket fd now).run before) :=
    phase_run (Or.inr (Or.inl (awaitsHead_init server fs connectSocket fd now))) before
  obtain ⟨hrefused, hsticks⟩ := (bodyRefused_of_refuses hphase hrefuses).run hevents hkeeps
  exact ⟨hsticks, hrefused.statusCode⟩

/-! ## A chunk size that is refused -/

/-- A location that runs `.php` files, for POST. -/
def scriptLocation : LocationBlock where
  path := Path.ofString (bytes "/")
  root := Path.ofString (bytes "/r/")
  maxBodySize := 100
  maxBodySize_le := hundred_le_int32Max
  allowed := 2
  gcis := OrderedMap.empty.insert (bytes "php") (Path.ofString (bytes "/php"))

def scriptClient : Client :=
  init (.single 3 { locations := [scriptLocation] } fun _ => 0)
    { table := fun p => if p = bytes "/php" then some { kind := .regular [] } else none } 3 4 0

/-- The head of a chunked POST to a script. -/
def chunkedPost : Bytes :=
  bytes "POST /x.php HTTP/1.1\r\nHost: h\r\nTransfer-Encoding: chunked\r\n\r\n"

/-- The kernel takes one byte of every `send`. -/
def oneByte : Sys := { Sys.quiet 0 with cgiSend := fun _ => .accepted 1 }

set_option maxRecDepth 10000 in
/-- An empty size line is refused, and refused again. -/
theorem bodyErrors_stick_empty :
    let c := (scriptClient.run [.clientIn (.receiving (chunkedPost ++ crlf))]).step (.cgiOut oneByte)
    Sticks statusBadRequest c (c.run [.cgiOut oneByte]) ∧
      (c.run [.cgiOut oneByte]).context.response.statusCode = statusBadRequest := by
  have hsome : (scriptClient.run
      [.clientIn (.receiving (chunkedPost ++ crlf))]).request.isSome = true := by
    decide
  have hverdict : ∀ r ∈ (scriptClient.run [.clientIn (.receiving (chunkedPost ++ crlf))]).request,
      r.kind = .post ∧ r.cgiPath.isSome = true ∧
        Handler.bodyVerdict ⟨(scriptClient.run
          [.clientIn (.receiving (chunkedPost ++ crlf))]).context, r⟩ =
          .refuses statusBadRequest := by
    decide
  have hagain : ∀ r ∈ ((scriptClient.run
        [.clientIn (.receiving (chunkedPost ++ crlf))]).step (.cgiOut oneByte)).request,
      Handler.bodyVerdict ⟨((scriptClient.run
        [.clientIn (.receiving (chunkedPost ++ crlf))]).step (.cgiOut oneByte)).context, r⟩ =
        .refuses statusBadRequest := by
    decide
  obtain ⟨r, hr⟩ := Option.isSome_iff_exists.mp hsome
  obtain ⟨hpost, hcgi, hrefused⟩ := hverdict r hr
  exact bodyErrors_stick _ _ 3 4 0 [.clientIn (.receiving (chunkedPost ++ crlf))] [.cgiOut oneByte]
    statusBadRequest oneByte
    ⟨by decide, by decide, Or.inl rfl, r, hr, hpost, hcgi, Handler.exists_refuseBody oneByte hrefused⟩
    (fun sys' hmem => nomatch hmem)
    ⟨fun _ _ r' hr' => Or.inr (hagain r' hr'), trivial⟩

set_option maxRecDepth 10000 in
/-- The chunk size `zz` is refused, and the next event passes 2^64 - 2 bytes of the 4 unread ones to
`send`. -/
theorem not_bodyErrors_stick :
    let c := scriptClient.run
      [.clientIn (.receiving (chunkedPost ++ bytes "zz\r\n")), .cgiOut oneByte]
    c.context.response.statusCode = statusBadRequest ∧ c.context.world.calls = [] ∧
      (c.step (.cgiOut oneByte)).context.world.calls =
        [.send 7 4 (2 ^ 64 - 2) (bytes "z")] := by
  decide

end Client
end Webserv
