import Webserv.Phases

/-!
# The socket of the CGI

The base constructor looks the extension up for every method, but only GET and POST open the sockets of the
CGI.  So the body of a PUT whose extension is mapped to a CGI goes to descriptor -1.

* `Handler.spoils_readBody`: a body reader that comes to write, to send or to save calls on it.
* `reads_handleSocketIn`: a read of the client socket makes no call, or ends in a body reader.
* `CallsSafe`: the invariant of the runs.
* `cgiSockets_iff`: the calls on the socket of the CGI are on a descriptor that was opened, exactly as long
  as no PUT to the name of a CGI reaches the sink.
* `not_cgiSocket`: such a PUT sends on descriptor -1.

## Why a PUT comes to the socket of a CGI

`_writeChunk` and `_saveFile` ask whether there is a CGI for the request, and the answer is the `_cgiPath`
that the base constructor found.  For a POST this is also the question whether the CGI was started.  For a
PUT it is not: nothing starts a CGI, the descriptors stay at -1, and the reader takes the branch of the CGI
all the same.  A `send` on -1 fails, and the answer is an error; at the end of a body `shutdown` and
`epoll_ctl` are called on it, and the second of them throws.

## How the equivalence is proved

The record holds every call on the socket with its descriptor, and every descriptor that `_openCGI` got.  A
step of the client either leaves both alone, or makes calls on the one socket that the client has, or is a
read that comes to the body reader.  For the reader of a PUT there are two outcomes: it keeps away from the
sink (`Spares`), with no call and no error, or it comes to it, with a call on -1 and an error (`Spoils`).
Which of the two is decided by the bytes that are there, before the reader is called.  After the second the
client responds with the error and is dropped, so the run has a step with an error and a call that was on no
opened descriptor.  `CallsSafe` is what holds as long as the second has not happened.
-/

namespace Webserv
namespace Handler

/-! ## Calls that keep away from the sink -/

/-- An answer without a call on the socket of the CGI, and without an error: more of the body is awaited. -/
structure Spares (h : Handler) (r : Ret × Handler) : Prop where
  calls : r.2.context.world.calls = h.context.world.calls
  answer : r.1 = .reqContinue ∨ r.1 = .reqDone

theorem bodyRet_cases (h : Handler) : h.bodyRet = .reqContinue ∨ h.bodyRet = .reqDone := by
  unfold bodyRet
  cases h.request.cgiPath with
  | none => exact Or.inr rfl
  | some path => exact Or.inl rfl

/-- A reader that does not come to its sink makes no call and answers without an error. -/
theorem spares_readBody (sys : Sys) {h : Handler} (hsink : h.bodyVerdict ≠ .accepts) :
    Spares h (readBody sys h) := by
  have hsettled := settled_readBody sys hsink
  generalize readBody sys h = r at hsettled ⊢
  generalize h.bodyVerdict = v at hsettled hsink
  cases hsettled with
  | waits buffer n m => exact ⟨rfl, Or.inl rfl⟩
  | refuses code hret buffer n m =>
    refine ⟨rfl, ?_⟩
    rcases hret with rfl | rfl
    · exact Or.inr rfl
    · exact bodyRet_cases h

/-! ## The sink of an upload to the name of a CGI -/

/-- An error after a call on descriptor -1.  The call is in the record, and the error ends the client. -/
structure Spoils (r : Ret × Handler) : Prop where
  call : ∃ call ∈ r.2.context.world.calls, call.fd = -1
  answer : r.1 ≠ .reqContinue ∧ r.1 ≠ .reqDone

section NoSocket

variable {sys : Sys} {h : Handler} (hcgi : h.request.cgiPath.isSome = true)
  (hsocket : h.context.cgiSocket = -1)

include hcgi hsocket

/-- `send` on descriptor -1 fails, and with it the call of the body reader. -/
theorem writeChunk_of_noSocket (size : Nat) :
    ∃ h', writeChunk sys h size = (.reqError, h') ∧ Spoils (.reqError, h') := by
  obtain ⟨path, hpath⟩ := Option.isSome_iff_exists.mp hcgi
  unfold writeChunk
  rw [hpath]
  dsimp only
  unfold sendCGI
  dsimp only
  rw [if_pos hsocket]
  exact ⟨_, rfl, ⟨_, List.mem_append_right _ (List.mem_singleton.mpr rfl), hsocket⟩, by simp⟩

/-- `shutdown` and `epoll_ctl` are called on descriptor -1, and the second of them throws. -/
theorem saveFile_of_noSocket :
    ∃ h', saveFile sys h = (.throws .runtimeError, h') ∧ Spoils (.throws .runtimeError, h') := by
  obtain ⟨path, hpath⟩ := Option.isSome_iff_exists.mp hcgi
  have hepoll : ¬ epollCtl sys h.context.cgiSocket = true := by
    rw [hsocket]
    exact Bool.false_ne_true
  unfold saveFile
  rw [hpath]
  dsimp only
  rw [if_neg hepoll]
  exact ⟨_, rfl, ⟨_, List.mem_append_right _ (List.mem_singleton.mpr rfl), hsocket⟩, by simp⟩

theorem readChunk_of_noSocket : ∃ r, readChunk sys h = .error r ∧ Spoils r := by
  unfold readChunk
  dsimp only
  split_ifs
  · obtain ⟨h', hwrite, hspoils⟩ :=
      @writeChunk_of_noSocket sys h hcgi hsocket (toSize h.request.contentLength)
    rw [hwrite]
    exact ⟨_, rfl, hspoils⟩
  · obtain ⟨h', hwrite, hspoils⟩ :=
      @writeChunk_of_noSocket sys h hcgi hsocket h.context.buffer.length
    rw [hwrite]
    exact ⟨_, rfl, hspoils⟩

end NoSocket

/-- A size line that is accepted leads to the sink. -/
theorem readSize_of_noSocket (sys : Sys) {h : Handler} (hcgi : h.request.cgiPath.isSome = true)
    (hsocket : h.context.cgiSocket = -1)
    (haccepts : h.request.contentLength = -1 → h.sizeVerdict h.context.buffer = .accepts) :
    ∃ r, (readChunkSize sys h >>= readChunk sys) = .error r ∧ Spoils r := by
  by_cases hsize : h.request.contentLength = -1
  · have hverdict := haccepts hsize
    unfold sizeVerdict at hverdict
    cases hfind : BinaryBuffer.find h.context.buffer crlf with
    | none =>
      rw [hfind] at hverdict
      cases hverdict
    | some pos =>
      rw [hfind] at hverdict
      dsimp only at hverdict
      rw [readChunkSize_of_find sys hsize hfind rfl rfl]
      generalize sToContentLength (BinaryBuffer.substr h.context.buffer 0 pos) true = n at hverdict ⊢
      split_ifs at hverdict with hrefused hzero hend hpart hlimit
      · rw [not_or] at hrefused
        rw [if_neg hrefused.1, if_neg hrefused.2, if_pos hzero]
        refine ⟨_, rfl, ?_⟩
        unfold readEndOfTransfer
        have hend' : isTerminator (h.setContentLength n).context.buffer 0 = true := hend
        rw [if_pos hend']
        obtain ⟨h', hsave, hspoils⟩ :=
          @saveFile_of_noSocket sys (h.setContentLength n).clearBuffer hcgi hsocket
        rw [hsave]
        exact hspoils
      · rw [not_or] at hrefused
        rw [if_neg hrefused.1, if_neg hrefused.2, if_neg hzero, if_neg hlimit]
        obtain ⟨r, hr, hspoils⟩ := @readChunk_of_noSocket sys (h.startChunk pos n) hcgi hsocket
        exact ⟨r, (pure_bind (h.startChunk pos n) (readChunk sys)).trans hr, hspoils⟩
  · obtain ⟨r, hr, hspoils⟩ := @readChunk_of_noSocket sys h hcgi hsocket
    have hgo : readChunkSize sys h = .ok h := if_neg hsize
    rw [hgo]
    exact ⟨r, (pure_bind h (readChunk sys)).trans hr, hspoils⟩

/-- The round of a chunked upload that is accepted. -/
theorem readRound_of_noSocket (sys : Sys) {h : Handler} (hcgi : h.request.cgiPath.isSome = true)
    (hsocket : h.context.cgiSocket = -1) (hchunked : h.request.chunked = true)
    (hne : h.context.buffer ≠ []) (hsink : h.bodyVerdict = .accepts) :
    ∃ r, readRound sys h = .error r ∧ Spoils r := by
  unfold bodyVerdict at hsink
  dsimp only at hsink
  rw [if_pos hchunked, if_neg hne] at hsink
  split_ifs at hsink with hzero hprefix hcr hsize
  · rw [readRound_of_ok (readEndOfChunk_of_isPrefixOf hzero hprefix)]
    exact @readSize_of_noSocket sys (h.withCounters _ _ _) hcgi hsocket fun _ => hsink
  · rw [readRound_of_ok (if_neg hzero)]
    exact readSize_of_noSocket sys hcgi hsocket fun _ => hsink
  · rw [readRound_of_ok (if_neg hzero)]
    exact readSize_of_noSocket sys hcgi hsocket fun h => absurd h hsize

/-- An upload to the name of a CGI, without a CGI, calls on descriptor -1 when its reader comes to
the sink. -/
theorem spoils_readBody (sys : Sys) {h : Handler} (hcgi : h.request.cgiPath.isSome = true)
    (hsocket : h.context.cgiSocket = -1) (hsink : h.bodyVerdict = .accepts) :
    Spoils (readBody sys h) := by
  unfold readBody
  by_cases hchunked : h.request.chunked = true
  · rw [if_pos hchunked]
    have hne : h.context.buffer ≠ [] := by
      intro hnil
      unfold bodyVerdict at hsink
      dsimp only at hsink
      rw [if_pos hchunked, if_pos hnil] at hsink
      cases hsink
    obtain ⟨r, hr, hspoils⟩ := readRound_of_noSocket sys hcgi hsocket hchunked hne hsink
    unfold readChunked
    cases hlength : h.context.buffer.length with
    | zero => exact absurd (List.eq_nil_of_length_eq_zero hlength) hne
    | succ n =>
      rw [readChunkedLoop, if_neg hne, hr]
      exact hspoils
  · rw [if_neg hchunked]
    have hfits : toInt32 (h.request.contentLength - toInt32 h.context.buffer.length) ≥ 0 := by
      unfold bodyVerdict at hsink
      dsimp only at hsink
      rw [if_neg hchunked] at hsink
      by_contra hnot
      rw [if_neg hnot] at hsink
      cases hsink
    obtain ⟨h', hwrite, hspoils⟩ :=
      @writeChunk_of_noSocket sys h hcgi hsocket h.context.buffer.length
    unfold readContent
    rw [if_pos hfits, hwrite]
    exact hspoils

end Handler

namespace Client

/-! ## The body reader of a step -/

/-- The client with a head that is complete. -/
def parsed (c : Client) (sys : Sys) : Option Client :=
  if c.context.requestState.isClientReadComplete then some c
  else match c.parseRequest sys with | (.reqDone, c) => some c | _ => none

/-- The handler whose body is to be read, if there is a request object and its input is not complete. -/
def bodyHandler (c : Client) : Option Handler :=
  match c.request with
  | none => none
  | some request =>
    if c.context.requestState.isWorkInComplete then none else some ⟨c.context, request⟩

/-- The handler whose body reader a step of the client socket calls. -/
def bodyReader (c : Client) : Event → Option Handler
  | .clientIn sys => (c.received sys).bind fun c => (c.parsed sys).bind bodyHandler
  | _ => none

/-- The calls on the socket of the CGI are the same, and so are the sockets that were opened. -/
structure SameCalls (c c' : Client) : Prop where
  calls : c'.context.world.calls = c.context.world.calls
  opened : c'.context.world.opened = c.context.world.opened

theorem sameCalls_switchToWrite {c c' : Client} (h : SameCalls c c') (sys : Sys) :
    SameCalls c (c'.switchToWrite sys).2 := by
  rcases switchToWrite_cases c' sys with heq | heq <;> rw [heq]
  · exact h
  · exact { h with }

theorem sameCalls_startResponse (c : Client) (sys : Sys) : SameCalls c (c.startResponse sys).2 := by
  obtain ⟨f, heq, -⟩ := prepareError_cases c sys
  unfold startResponse
  rw [heq]
  dsimp only
  split_ifs
  · exact @sameCalls_switchToWrite c (c.withPage f).render ⟨rfl, rfl⟩ sys
  · exact @sameCalls_switchToWrite c (c.withPage f) ⟨rfl, rfl⟩ sys

theorem sameCalls_respondTimeout (c : Client) (sys : Sys) :
    SameCalls c (c.respondTimeout sys).2 := by
  unfold respondTimeout
  extract_lets c₁
  obtain ⟨f, heq, -⟩ := loadErrorPage_cases c₁ sys
  rw [heq]
  exact @sameCalls_switchToWrite c (c₁.withPage f).render ⟨rfl, rfl⟩ sys

theorem sameCalls_produce (c : Client) (sys : Sys) : SameCalls c (c.produce sys).2 := by
  unfold produce
  split_ifs
  · exact ⟨rfl, rfl⟩
  · unfold readErrorPage
    dsimp only
    split_ifs <;> exact ⟨rfl, rfl⟩
  · cases c.request with
    | none => exact ⟨rfl, rfl⟩
    | some request =>
      obtain ⟨⟨f, hf⟩, -⟩ := Handler.produces_workOut sys ⟨c.context, request⟩
      dsimp only
      generalize Handler.workOut sys ⟨c.context, request⟩ = r at hf ⊢
      obtain ⟨ret, h'⟩ := r
      have hsame : SameCalls c (c.withHandler h') := by
        constructor <;> rw [show (c.withHandler h').context = h'.context from rfl,
          show h' = _ from hf] <;> rfl
      cases ret <;> exact hsame

theorem sameCalls_handleSocketOut (c : Client) (sys : Sys) :
    SameCalls c (c.handleSocketOut sys).2 := by
  have hproduce := sameCalls_produce c sys
  unfold handleSocketOut
  generalize c.produce sys = r at hproduce ⊢
  obtain ⟨ret, c'⟩ := r
  cases ret with
  | reqContinue =>
    have hsend : SameCalls c' (c'.sendResponse sys).2 := by
      rcases sendResponse_cases c' sys with heq | ⟨n, heq⟩ <;> rw [heq]
      · exact ⟨rfl, rfl⟩
      · unfold takeResponse
        split_ifs <;> exact ⟨rfl, rfl⟩
    exact ⟨hsend.calls.trans hproduce.calls, hsend.opened.trans hproduce.opened⟩
  | _ => exact hproduce

theorem sameCalls_timeoutCheck (c : Client) (sys : Sys) : SameCalls c (c.timeoutCheck sys).2 := by
  unfold timeoutCheck
  split_ifs
  · exact { sameCalls_respondTimeout
      ((c.setStatusCode statusRequestTimeout).setState RequestState.setReadComplete) sys with }
  · exact { sameCalls_respondTimeout (c.setStatusCode statusRequestTimeout) sys with }
  · exact ⟨rfl, rfl⟩
  · exact { sameCalls_respondTimeout
      ((c.setResponse c.context.response.clear).setStatusCode statusGatewayTimeout) sys with }
  · exact ⟨rfl, rfl⟩

/-- The body reader of an upload, and what comes of its answer: an error of the reader becomes the response
of the client. -/
structure ReadsUpload (c : Client) (sys : Sys) (h : Handler) (r : Ret × Client) : Prop where
  awaits : AwaitsHead c ∨ AwaitsBody c
  calls : h.context.world.calls = c.context.world.calls
  cgiSocket : h.context.cgiSocket = -1
  kind : h.request.kind = .put ∨ h.request.kind = .post ∧ h.request.cgiPath = none
  result : r.2.context.world.calls = (Handler.readBody sys h).2.context.world.calls
  answer : (Handler.readBody sys h).1 ≠ .reqContinue → (Handler.readBody sys h).1 ≠ .reqDone →
    r.1 ≠ .reqContinue

theorem bodyHandler_of_workIn {c : Client} (h : c.context.requestState.workIn = true) :
    c.bodyHandler = none := by
  unfold bodyHandler
  cases c.request with
  | none => rfl
  | some request => exact if_pos h

/-- The body of an upload is to be read. -/
theorem AwaitsBody.bodyHandler_eq {c : Client} (h : AwaitsBody c) {r : ARequest} (hr : c.request = some r) :
    c.bodyHandler = some ⟨c.context, r⟩ := by
  unfold bodyHandler
  rw [hr]
  refine if_neg ?_
  rw [RequestState.isWorkInComplete, h.workIn]
  exact Bool.false_ne_true

theorem AwaitsBody.readsUpload {c : Client} (h : AwaitsBody c) (sys : Sys) :
    ∃ h₀, c.bodyHandler = some h₀ ∧ ReadsUpload c sys h₀ (c.handleRequest sys) := by
  obtain ⟨request, hrequest, hkind, heq⟩ := h.handleRequest_eq sys
  have hresult : (c.handleRequest sys).2.context.world.calls =
        (Handler.readBody sys ⟨c.context, request⟩).2.context.world.calls ∧
      ((Handler.readBody sys ⟨c.context, request⟩).1 ≠ .reqContinue →
        (Handler.readBody sys ⟨c.context, request⟩).1 ≠ .reqDone →
          (c.handleRequest sys).1 ≠ .reqContinue) := by
    rw [heq]
    generalize Handler.readBody sys ⟨c.context, request⟩ = r
    obtain ⟨ret, h'⟩ := r
    cases ret with
    | reqDone => exact ⟨(sameCalls_startResponse _ sys).calls, fun _ hdone => absurd rfl hdone⟩
    | _ => exact ⟨rfl, fun hret _ => hret⟩
  exact ⟨_, h.bodyHandler_eq hrequest, Or.inr h, rfl, h.cgiSocket, hkind, hresult.1, hresult.2⟩

/-- A read of the head makes no call, or goes on to the body. -/
theorem AwaitsHead.readsUpload {c : Client} (h : AwaitsHead c) (sys : Sys) :
    (c.parsed sys).bind bodyHandler = none ∧
        (c.handleRead sys).2.context.world.calls = c.context.world.calls ∨
      ∃ h₀, (c.parsed sys).bind bodyHandler = some h₀ ∧
        ReadsUpload c sys h₀ (c.handleRead sys) := by
  unfold parsed Client.handleRead
  rw [if_neg h.not_clientRead, if_neg h.not_clientRead]
  obtain ⟨-, hcalls, -, hgoesOn⟩ := h.parseRequest sys
  generalize c.parseRequest sys = r at hcalls hgoesOn ⊢
  obtain ⟨ret, c₁⟩ := r
  cases ret with
  | reqDone =>
    rcases hgoesOn rfl with hready | hbody
    · refine Or.inl ⟨bodyHandler_of_workIn hready.workIn, ?_⟩
      dsimp only
      rw [handleRequest_of_workIn sys hready.workIn]
      exact (sameCalls_startResponse c₁ sys).calls.trans hcalls
    · obtain ⟨h₀, hreader, hreads⟩ := hbody.readsUpload sys
      exact Or.inr ⟨h₀, hreader, { hreads with
        awaits := Or.inl h
        calls := hreads.calls.trans hcalls }⟩
  | _ => exact Or.inl ⟨rfl, hcalls⟩

/-- What a read from the client socket does: it makes no call, or it calls a body reader, whose
errors end the client. -/
theorem reads_handleSocketIn {c : Client} (h : Phase c) (hclosed : c.closed = false) (sys : Sys) :
    c.bodyReader (.clientIn sys) = none ∧
        (SameCalls c (c.handleSocketIn sys).2 ∨ AwaitsHead c ∧
          (c.handleSocketIn sys).2.context.world.calls = c.context.world.calls) ∨
      ∃ h₀, c.bodyReader (.clientIn sys) = some h₀ ∧
        ReadsUpload c sys h₀ (c.handleSocketIn sys) := by
  unfold bodyReader
  dsimp only
  rcases handleSocketIn_cases c sys with ⟨hnone, heq, -⟩ | ⟨-, buffer, timestamp, hsome, heq, htime⟩
  · rw [hnone, heq]
    exact Or.inl ⟨rfl, Or.inl ⟨rfl, rfl⟩⟩
  rw [hsome, heq, Option.bind_some]
  have hcomplete : c.context.requestState.isClientReadComplete = true →
      (c.withRead buffer timestamp).parsed sys = some (c.withRead buffer timestamp) ∧
        (c.withRead buffer timestamp).handleRead sys =
          (c.withRead buffer timestamp).handleRequest sys := fun hread =>
    ⟨if_pos hread, if_pos hread⟩
  rcases h with hc | hhead | hbody | hresponds
  · rw [hclosed] at hc
    cases hc
  · have hunread : c.context.requestState.isClientReadComplete = false :=
      Bool.eq_false_iff.mpr hhead.not_clientRead
    have hread : AwaitsHead (c.withRead buffer timestamp) :=
      { hhead with timestamp := by rw [withRead, htime hunread]; exact hhead.timestamp }
    rcases hread.readsUpload sys with ⟨hreader, hcalls⟩ | ⟨h₀, hreader, hreads⟩
    · exact Or.inl ⟨hreader, Or.inr ⟨hhead, hcalls⟩⟩
    · exact Or.inr ⟨h₀, hreader, { hreads with awaits := Or.inl hhead }⟩
  · have hread : AwaitsBody (c.withRead buffer timestamp) := { hbody with }
    obtain ⟨hparsed, hhandle⟩ := hcomplete hbody.clientRead
    obtain ⟨h₀, hreader, hreads⟩ := hread.readsUpload sys
    rw [hparsed, hhandle]
    exact Or.inr ⟨h₀, hreader, { hreads with awaits := Or.inr hbody }⟩
  · obtain ⟨hparsed, hhandle⟩ := hcomplete hresponds.clientRead
    rw [hparsed, hhandle,
      @handleRequest_of_workIn (c.withRead buffer timestamp) sys hresponds.workIn]
    exact Or.inl ⟨bodyHandler_of_workIn hresponds.workIn,
      Or.inl { sameCalls_startResponse (c.withRead buffer timestamp) sys with }⟩

/-- More calls were made, all of them on the socket of the CGI. -/
structure CallsSocket (c c' : Client) : Prop where
  calls : ∃ calls, c'.context.world.calls = c.context.world.calls ++ calls ∧
    ∀ call ∈ calls, call.fd = c.context.cgiSocket
  opened : c'.context.world.opened = c.context.world.opened

theorem SameCalls.callsSocket {c c' : Client} (h : SameCalls c c') : CallsSocket c c' :=
  ⟨⟨[], by rw [h.calls, List.append_nil], by simp⟩, h.opened⟩

theorem callsSocket_handleCGIIn (c : Client) (sys : Sys) : CallsSocket c (c.handleCGIIn sys).2 := by
  unfold handleCGIIn
  cases c.request with
  | none => exact SameCalls.callsSocket ⟨rfl, rfl⟩
  | some request =>
    have hread : CallsSocket c (c.withHandler (Handler.readCGI sys ⟨c.context, request⟩).2) := by
      obtain ⟨⟨f, hf⟩, -, ⟨calls, hcalls, hmem⟩, -⟩ := Handler.readsCGI_readCGI sys ⟨c.context, request⟩
      refine ⟨⟨calls, hcalls, fun call hcall => (hmem call hcall).1⟩, ?_⟩
      show (Handler.readCGI sys ⟨c.context, request⟩).2.context.world.opened = _
      rw [hf]
      rfl
    have hsame : CallsSocket c (c.withHandler ⟨c.context, request⟩) :=
      SameCalls.callsSocket ⟨rfl, rfl⟩
    dsimp only
    unfold Handler.CGIIn
    cases request.kind <;> first | exact hread | exact hsame

theorem callsSocket_handleCGIOut (c : Client) (sys : Sys) :
    CallsSocket c (c.handleCGIOut sys).2 := by
  unfold handleCGIOut
  cases c.request with
  | none => exact SameCalls.callsSocket ⟨rfl, rfl⟩
  | some request =>
    have hread : CallsSocket c (c.withHandler (Handler.readBody sys ⟨c.context, request⟩).2) := by
      obtain ⟨⟨f, hf⟩, -, calls, hcalls, hmem⟩ := Handler.reads_readBody sys ⟨c.context, request⟩
      refine ⟨⟨calls, hcalls, fun call hcall => (hmem call hcall).1⟩, ?_⟩
      show (Handler.readBody sys ⟨c.context, request⟩).2.context.world.opened = _
      rw [hf]
      rfl
    have hsame : CallsSocket c (c.withHandler ⟨c.context, request⟩) :=
      SameCalls.callsSocket ⟨rfl, rfl⟩
    dsimp only
    unfold Handler.CGIOut
    cases request.kind <;> first | exact hread | exact hsame

/-! ## Runs -/

/-- Every call on the socket of a CGI is on a descriptor that `_openCGI` has opened. -/
def SocketSafe (c : Client) : Prop :=
  ∀ call ∈ c.context.world.calls, call.fd ≠ -1 ∧ call.fd ∈ c.context.world.opened

/-- The step brings no PUT to the name of a CGI to the sink. -/
def KeepsUploads (c : Client) (e : Event) : Prop :=
  c.closed = false → ∀ h, c.bodyReader e = some h → h.request.kind = .put →
    h.request.cgiPath.isSome = true → h.bodyVerdict ≠ .accepts

/-- The body reader of the step ends without an error. -/
def AnswersUpload (c : Client) (e : Event) : Prop :=
  c.closed = false → ∀ sys h, e = .clientIn sys → c.bodyReader e = some h →
    (Handler.readBody sys h).1 = .reqContinue ∨ (Handler.readBody sys h).1 = .reqDone

theorem AwaitsHead.not_responds {c : Client} (h : AwaitsHead c) : ¬ Responds c := fun hresponds =>
  h.not_clientRead hresponds.clientRead

theorem AwaitsBody.not_responds {c : Client} (h : AwaitsBody c) : ¬ Responds c := by
  intro hresponds
  have hset := hresponds.workIn
  rw [h.workIn] at hset
  cases hset

/-- The reader of an upload, as long as it keeps away from the sink of a CGI. -/
theorem ReadsUpload.spares {c : Client} {sys : Sys} {h : Handler} {r : Ret × Client}
    (hreads : ReadsUpload c sys h r) (hkeeps : h.request.kind = .put →
      h.request.cgiPath.isSome = true → h.bodyVerdict ≠ .accepts) :
    Handler.Spares h (Handler.readBody sys h) := by
  cases hcgi : h.request.cgiPath with
  | none =>
    obtain ⟨-, -, calls, hcalls, hmem⟩ := Handler.reads_readBody sys h
    refine ⟨?_, Handler.answers_readBody sys hcgi⟩
    have hnil : calls = [] := by
      refine List.eq_nil_iff_forall_not_mem.mpr fun call hcall => ?_
      have hsome := (hmem call hcall).2
      rw [hcgi] at hsome
      cases hsome
    rw [hcalls, hnil, List.append_nil]
  | some path =>
    have hput : h.request.kind = .put := by
      rcases hreads.kind with hput | ⟨-, hnone⟩
      · exact hput
      · rw [hcgi] at hnone
        cases hnone
    exact Handler.spares_readBody sys (hkeeps hput (by rw [hcgi]; rfl))

/-- As long as no upload has reached the sink: every call was on an opened descriptor, and before the
response there was no call at all. -/
structure CallsSafe (c : Client) : Prop where
  phase : Phase c
  safe : SocketSafe c
  early : c.context.world.calls = [] ∨ c.closed = true ∨ Responds c

theorem CallsSafe.nil {c : Client} (h : CallsSafe c) (hclosed : c.closed = false)
    (hawaits : AwaitsHead c ∨ AwaitsBody c) : c.context.world.calls = [] := by
  rcases h.early with hnil | hc | hresponds
  · exact hnil
  · rw [hclosed] at hc
    cases hc
  · exact absurd hresponds (hawaits.elim AwaitsHead.not_responds AwaitsBody.not_responds)

theorem callsSocket_step {c : Client} (hclosed : c.closed = false) {e : Event}
    (he : ∀ sys, e ≠ .clientIn sys) : CallsSocket c (c.step e) ∧
      (c.context.cgiSocket = -1 → SameCalls c (c.step e)) := by
  unfold Client.step
  rw [if_neg (by rw [hclosed]; exact Bool.false_ne_true)]
  cases e with
  | clientIn sys => exact absurd rfl (he sys)
  | clientOut sys =>
    have hsame : SameCalls c (settle (c.handleSocketOut sys)) :=
      { sameCalls_handleSocketOut c sys with }
    exact ⟨hsame.callsSocket, fun _ => hsame⟩
  | cgiIn sys =>
    by_cases hsocket : c.context.cgiSocket = -1
    · dsimp only
      rw [if_pos hsocket]
      exact ⟨SameCalls.callsSocket ⟨rfl, rfl⟩, fun _ => ⟨rfl, rfl⟩⟩
    · dsimp only
      rw [if_neg hsocket]
      exact ⟨{ callsSocket_handleCGIIn c sys with }, fun h => absurd h hsocket⟩
  | cgiOut sys =>
    by_cases hsocket : c.context.cgiSocket = -1
    · dsimp only
      rw [if_pos hsocket]
      exact ⟨SameCalls.callsSocket ⟨rfl, rfl⟩, fun _ => ⟨rfl, rfl⟩⟩
    · dsimp only
      rw [if_neg hsocket]
      exact ⟨{ callsSocket_handleCGIOut c sys with }, fun h => absurd h hsocket⟩
  | timeoutCheck sys =>
    have hsame : SameCalls c (settle (c.timeoutCheck sys)) := { sameCalls_timeoutCheck c sys with }
    exact ⟨hsame.callsSocket, fun _ => hsame⟩
  | environment fs => exact ⟨SameCalls.callsSocket ⟨rfl, rfl⟩, fun _ => ⟨rfl, rfl⟩⟩

theorem SocketSafe.of_nil {c : Client} (h : c.context.world.calls = []) : SocketSafe c := by
  rw [SocketSafe, h]
  exact fun call hcall => nomatch hcall

theorem SocketSafe.of_same {c c' : Client} (h : SocketSafe c) (hsame : SameCalls c c') :
    SocketSafe c' := by
  rw [SocketSafe, hsame.calls, hsame.opened]
  exact h

/-- The calls of a step while the client responds: the socket of the CGI is one that `_openCGI` has opened,
or there is none and no call. -/
theorem SocketSafe.step {c : Client} (h : SocketSafe c) (hresponds : Responds c)
    (hclosed : c.closed = false) (e : Event) : SocketSafe (c.step e) := by
  by_cases he : ∃ sys, e = .clientIn sys
  · obtain ⟨sys, rfl⟩ := he
    have hstep : c.step (.clientIn sys) = settle (c.handleSocketIn sys) :=
      if_neg (by rw [hclosed]; exact Bool.false_ne_true)
    rcases reads_handleSocketIn hresponds.phase hclosed sys with ⟨-, hsame | ⟨hhead, -⟩⟩ |
      ⟨h₀, -, hreads⟩
    · rw [hstep]
      exact h.of_same { hsame with }
    · exact absurd hresponds hhead.not_responds
    · exact absurd hresponds
        (hreads.awaits.elim AwaitsHead.not_responds AwaitsBody.not_responds)
  · obtain ⟨⟨⟨calls, hcalls, hmem⟩, hopened⟩, hsame⟩ :=
      callsSocket_step hclosed fun sys heq => he ⟨sys, heq⟩
    by_cases hsocket : c.context.cgiSocket = -1
    · exact h.of_same (hsame hsocket)
    · rw [SocketSafe, hcalls, hopened]
      intro call hcall
      rcases List.mem_append.mp hcall with hold | hnew
      · exact h call hold
      · rw [hmem call hnew]
        exact ⟨hsocket, (hresponds.socket hsocket).1⟩

/-- A step that keeps uploads away from the sink of a CGI. -/
theorem CallsSafe.step {c : Client} (h : CallsSafe c) {e : Event} (hkeeps : c.KeepsUploads e) :
    CallsSafe (c.step e) ∧ c.AnswersUpload e := by
  cases hclosed : c.closed with
  | true =>
    have hstep : c.step e = c := if_pos hclosed
    rw [hstep]
    refine ⟨h, fun hopen => ?_⟩
    rw [hclosed] at hopen
    cases hopen
  | false =>
    have hphase := (phase_step h.phase e).1
    have hanswers : c.AnswersUpload e := by
      rintro - sys h₀ rfl hreader
      rcases reads_handleSocketIn h.phase hclosed sys with ⟨hnone, -⟩ | ⟨h₁, hsome, hreads⟩
      · rw [hnone] at hreader
        cases hreader
      · rw [hreader] at hsome
        cases hsome
        exact (hreads.spares (hkeeps hclosed h₀ hreader)).answer
    refine ⟨?_, hanswers⟩
    have hsafe : Responds c → CallsSafe (c.step e) := fun hresponds =>
      ⟨hphase, h.safe.step hresponds hclosed e, Or.inr (hresponds.step hclosed e).1⟩
    have hnil : c.context.world.calls = [] → (c.step e).context.world.calls =
        c.context.world.calls → CallsSafe (c.step e) := fun hnil hsame =>
      ⟨hphase, .of_nil (hsame.trans hnil), Or.inl (hsame.trans hnil)⟩
    by_cases hresponds : Responds c
    · exact hsafe hresponds
    have hawaits : AwaitsHead c ∨ AwaitsBody c := by
      rcases h.phase with hc | hhead | hbody | hr
      · rw [hclosed] at hc
        cases hc
      · exact Or.inl hhead
      · exact Or.inr hbody
      · exact absurd hr hresponds
    by_cases he : ∃ sys, e = .clientIn sys
    · obtain ⟨sys, rfl⟩ := he
      have hstep : c.step (.clientIn sys) = settle (c.handleSocketIn sys) :=
        if_neg (by rw [hclosed]; exact Bool.false_ne_true)
      rw [hstep] at hnil ⊢
      rcases reads_handleSocketIn h.phase hclosed sys with ⟨-, hsame | ⟨-, hsame⟩⟩ |
        ⟨h₀, hreader, hreads⟩
      · exact hnil (h.nil hclosed hawaits) hsame.calls
      · exact hnil (h.nil hclosed hawaits) hsame
      · have hspares := hreads.spares (hkeeps hclosed h₀ hreader)
        exact hnil (h.nil hclosed hawaits) (hreads.result.trans (hspares.calls.trans hreads.calls))
    · have hsocket : c.context.cgiSocket = -1 :=
        hawaits.elim AwaitsHead.cgiSocket AwaitsBody.cgiSocket
      have hsame := (callsSocket_step hclosed fun sys heq => he ⟨sys, heq⟩).2 hsocket
      exact hnil (h.nil hclosed hawaits) hsame.calls

/-- A step that brings a PUT to the name of a CGI to the sink calls on descriptor -1, and ends the
client. -/
theorem not_socketSafe_of_sink {c : Client} (h : Phase c) (hclosed : c.closed = false) {e : Event}
    {h₀ : Handler} (hreader : c.bodyReader e = some h₀) (hcgi : h₀.request.cgiPath.isSome = true)
    (hsink : h₀.bodyVerdict = .accepts) : (c.step e).closed = true ∧ ¬ SocketSafe (c.step e) := by
  cases e with
  | clientIn sys =>
    have hstep : c.step (.clientIn sys) = settle (c.handleSocketIn sys) :=
      if_neg (by rw [hclosed]; exact Bool.false_ne_true)
    rcases reads_handleSocketIn h hclosed sys with ⟨hnone, -⟩ | ⟨h₁, hsome, hreads⟩
    · rw [hreader] at hnone
      cases hnone
    · rw [hreader] at hsome
      cases hsome
      obtain ⟨⟨call, hcall, hfd⟩, hcontinue, hdone⟩ :=
        Handler.spoils_readBody sys hcgi hreads.cgiSocket hsink
      rw [hstep]
      refine ⟨decide_eq_true (hreads.answer hcontinue hdone), fun hsafe => ?_⟩
      rw [← hreads.result] at hcall
      exact (hsafe call hcall).1 hfd
  | _ => exact nomatch hreader

theorem run_of_closed {c : Client} (h : c.closed = true) (es : List Event) : c.run es = c := by
  induction es with
  | nil => rfl
  | cons e es ih =>
    have hstep : c.step e = c := if_pos h
    rw [run, Transition.run_cons, hstep]
    exact ih

/-- **The socket of the CGI is used only when there is a CGI**, and the reader of an upload ends
without an error, exactly as long as no PUT to the name of a CGI comes to write, to send or to
save. -/
theorem cgiSockets_iff (server : Server) (fs : FileSystem) (connectSocket fd : Fd) (now : Int)
    (es : List Event) :
    (SocketSafe ((init server fs connectSocket fd now).run es) ∧
        Transition.Along step AnswersUpload (init server fs connectSocket fd now) es) ↔
      Transition.Along step KeepsUploads (init server fs connectSocket fd now) es := by
  have hinit : Phase (init server fs connectSocket fd now) :=
    Or.inr (Or.inl (awaitsHead_init server fs connectSocket fd now))
  constructor
  · rintro ⟨hsafe, -⟩
    rw [Transition.along_iff]
    rintro before e after rfl hclosed h₀ hreader - hcgi hsink
    obtain ⟨hclosed', hspoiled⟩ :=
      not_socketSafe_of_sink (phase_run hinit before) hclosed hreader hcgi hsink
    have hend : (init server fs connectSocket fd now).run (before ++ e :: after) =
        ((init server fs connectSocket fd now).run before).step e := by
      have happend : (init server fs connectSocket fd now).run (before ++ e :: after) =
          (((init server fs connectSocket fd now).run before).step e).run after :=
        Transition.run_append ..
      rw [happend, run_of_closed hclosed']
    rw [hend] at hsafe
    exact hspoiled hsafe
  · intro hkeeps
    have hrun : ∀ {es : List Event} {c : Client}, CallsSafe c → Transition.Along step KeepsUploads c es →
        CallsSafe (c.run es) ∧ Transition.Along step AnswersUpload c es := by
      intro es
      induction es with
      | nil => exact fun hc _ => ⟨hc, trivial⟩
      | cons e es ih =>
        intro c hc hkeeps
        obtain ⟨hstep, hanswers⟩ := hc.step hkeeps.1
        obtain ⟨hsafe, halong⟩ := ih hstep hkeeps.2
        exact ⟨hsafe, hanswers, halong⟩
    obtain ⟨hsafe, halong⟩ := hrun ⟨hinit, .of_nil rfl, Or.inl rfl⟩ hkeeps
    exact ⟨hsafe.safe, halong⟩

/-! ## An upload to the name of a CGI -/

/-- A location that takes uploads, and runs `.php` files. -/
def uploadLocation : LocationBlock where
  path := Path.ofString (bytes "/")
  root := Path.ofString (bytes "/r/")
  maxBodySize := 100
  maxBodySize_le := hundred_le_int32Max
  allowed := 8
  gcis := OrderedMap.empty.insert (bytes "php") (Path.ofString (bytes "/php"))
  clientBodyUploadPath := Path.ofString (bytes "/u/")

def uploadClient : Client :=
  init (.single 3 { locations := [uploadLocation] } fun _ => 0)
    { table := fun p => if p = bytes "/u" ∨ p = bytes "/u/" then some { kind := .directory [] } else none } 3 4 0

def uploadRequest : Bytes :=
  bytes "PUT /x.php HTTP/1.1\r\nHost: h\r\nContent-Length: 1\r\n\r\na"

set_option maxRecDepth 10000 in
/-- The one byte of the body is sent on descriptor -1, which no `_openCGI` opened, and the client is
dropped. -/
theorem not_cgiSocket :
    let c := uploadClient.run [.clientIn (.receiving uploadRequest)]
    c.context.world.calls = [.send (-1) 1 1 []] ∧ c.closed = true ∧ ¬ SocketSafe c := by
  have hcalls : (uploadClient.run
      [.clientIn (.receiving uploadRequest)]).context.world.calls = [.send (-1) 1 1 []] := by
    decide
  refine ⟨hcalls, by decide, fun hsafe => ?_⟩
  rw [SocketSafe, hcalls] at hsafe
  exact (hsafe _ (List.mem_singleton.mpr rfl)).1 rfl

end Client
end Webserv
