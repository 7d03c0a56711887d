import Webserv.HeaderFrame
import Webserv.Effects.Starting

/-!
# The framing of a body

A request whose header lines come in another order.  The map keeps the last value of a name, and
`_checkHeaders` looks `Content-Length` up first: the order decides where a name is repeated, and
`Transfer-Encoding` has no say where there is a `Content-Length`.

* `Framing`, `Client.framing`: what is decided about the body once the head is read.
* `head_parseRequest`: a header block is refused, or it becomes a map.
* `parseRequest_agree`: heads with the same last values have the same outcome.
* `framing_perm`: permutations, and both headers together.

## Why the outcome is compared and not the map

A permutation of the lines may change the map: with a repeated name the last value wins, and another line
may be the last.  It may even change which lines are read, since a malformed line ends the reading and
leaves the rest in the buffer.  What should not change is what is decided about the request, which is the
answer with its status, or the framing that the body reader was given.  `framing` reads this off the client,
and the theorem compares two clients by it.

## Why two lines decide

Between the map and the decision stand three look-ups: `Host`, which chooses the server block and with it
the location and its limits, `Content-Length`, and `Transfer-Encoding`, at which the code looks only when
the other is missing.  `SameValues` asks for the same last values of these, and nothing of the other lines.
Two requests that agree in this go through the same code with the same answers of the kernel; they differ in
the header map and in the unread bytes, which nothing in between reads (`SameButHead`).  A `Content-Length`
also has the last word when both headers are there (`readsLength_resolveARequest`): the body is never read
as chunked, and the `Transfer-Encoding` is not looked at, let alone refused.
-/

namespace Webserv

/-- What is decided about the body of a request: it is answered before it is read, it is read in chunks or
with a length, or there is no decision yet. -/
inductive Framing where
  | answered (status : Nat)
  | chunked
  | contentLength (n : Int)
  | undecided
  deriving DecidableEq

namespace Client

/-- What is decided about the body of the request, once the head is read. -/
def framing (c : Client) : Framing :=
  if c.context.response.statusCode ≠ statusNone then .answered c.context.response.statusCode
  else
    match c.request with
    | none => .undecided
    | some request => if request.chunked then .chunked else .contentLength request.contentLength

/-- The request line has been read, and no header.  This is the state in which a header block is the next
thing to arrive. -/
structure AwaitsHeaders (c : Client) : Prop where
  requestLine : c.context.requestState.isReadRequestLineComplete = true
  headers : c.context.requestState.isReadHeadersComplete = false
  status : c.context.response.statusCode = statusNone
  none : c.context.headers = OrderedMap.empty
  request : c.request = .none

/-- The header lines arrive, and bytes after them.  Those are the first of the body, which the parser of the
head must leave. -/
def receiveHeaders (c : Client) (lines : List Bytes) (rest : Bytes) : Client :=
  { c with context := { c.context with buffer := headerBlock lines ++ rest } }

/-- The client once the header block is accepted. -/
def headersRead (c : Client) (rest : Bytes) : Client :=
  { c with context := { c.context with buffer := rest }.setState RequestState.setReadHeadersComplete }

/-- The client once the header block is refused. -/
def headersRefused (c : Client) (buffer : Bytes) (headers : StringMap) : Client :=
  { c with context :=
    { c.context with buffer := buffer, headers := headers }.refuse statusBadRequest }.setState
      RequestState.setWorkInComplete

variable {c : Client} {lines : List Bytes} {rest : Bytes}

/-- A head that is refused: a line is malformed, or there is no `Host`.  The order of the lines has no say
in this. -/
def Refused (lines : List Bytes) : Prop :=
  (∃ l ∈ lines, headerField l = none) ∨ lastValue lines headerHost = none

/-- What a head comes to: a refusal, or the header map of the lines. -/
inductive Head (c : Client) (sys : Sys) (lines : List Bytes) (rest : Bytes) : Ret × Client → Prop where
  | refused (buffer : Bytes) (headers : StringMap)
      (hreason : Refused lines) :
      Head c sys lines rest (.reqDone, c.headersRefused buffer headers)
  | read (haccepted : ¬ Refused lines) :
      Head c sys lines rest
        (match ((c.headersRead rest).withHeaders (headerMap lines)).resolveARequest sys with
          | (.reqContinue, c) => (.reqDone, c.setState RequestState.setWorkInComplete)
          | r => r)

/-- **The head.**  `_parseRequest` on a header block. -/
theorem head_parseRequest (sys : Sys) (h : c.AwaitsHeaders) (hlines : ∀ l ∈ lines, IsHeaderLine l) :
    Head c sys lines rest ((c.receiveHeaders lines rest).parseRequest sys) := by
  have hparse : (c.receiveHeaders lines rest).context.parseHead =
      (c.receiveHeaders lines rest).context.parseHeaders :=
    (if_pos h.requestLine).trans (if_neg (ne_true_of_eq_false h.headers))
  have hbuffer : (c.receiveHeaders lines rest).context.buffer = headerBlock lines ++ rest := rfl
  by_cases hfields : ∀ l ∈ lines, (headerField l).isSome = true
  · have hread := hparse.trans (RequestContext.parseHeaders_headerBlock hlines hfields hbuffer)
    have hmap : (c.receiveHeaders lines rest).context.headers.insertAll (headerFields lines) =
        headerMap lines := by
      show c.context.headers.insertAll (headerFields lines) = _
      rw [h.none, headerMap]
    rw [hmap] at hread
    unfold RequestContext.closeHeaders at hread
    dsimp only at hread
    rw [find?_headerMap] at hread
    cases hhost : lastValue lines headerHost with
    | none =>
      rw [hhost, if_pos (show (none : Option Bytes).isNone = true from rfl)] at hread
      rw [parseRequest_refused hread (by show statusBadRequest ≠ statusNone; decide)]
      exact .refused _ _ (Or.inr hhost)
    | some host =>
      rw [hhost, if_neg (by simp)] at hread
      rw [parseRequest_accepted hread h.status]
      refine .read ?_
      rintro (⟨l, hl, hnone⟩ | hnone)
      · have hsome := hfields l hl
        rw [hnone] at hsome
        cases hsome
      · rw [hhost] at hnone
        cases hnone
  · have hbad : ∃ l ∈ lines, headerField l = none := by simpa using hfields
    obtain ⟨buffer, headers, hread⟩ := RequestContext.parseHeaders_malformed hlines hbad hbuffer
    rw [parseRequest_refused (hparse.trans hread) (by show statusBadRequest ≠ statusNone; decide)]
    exact .refused _ _ (Or.inl hbad)

/-- The same client but for the header map and the bytes that are not read yet, at which nothing looks while
the framing is decided. -/
def SameButHead (c c' : Client) : Prop :=
  ∃ buffer headers, c' = { c with context := { c.context with buffer := buffer, headers := headers } }

theorem SameButHead.framing {c' : Client} (h : SameButHead c c') : c'.framing = c.framing := by
  obtain ⟨buffer, headers, rfl⟩ := h
  rfl

/-- Two heads have the same last values where the server looks: `Host`, `Content-Length`, and
`Transfer-Encoding` where there is no `Content-Length`. -/
structure SameValues (lines lines' : List Bytes) : Prop where
  host : lastValue lines' headerHost = lastValue lines headerHost
  length : lastValue lines' headerContentLength = lastValue lines headerContentLength
  coding : lastValue lines headerContentLength = none →
    lastValue lines' headerTransferEncoding = lastValue lines headerTransferEncoding

theorem SameValues.find?_host {lines lines' : List Bytes} (h : SameValues lines lines') :
    (headerMap lines').find? headerHost = (headerMap lines).find? headerHost := by
  rw [find?_headerMap, find?_headerMap, h.host]

theorem SameValues.sameFraming {lines lines' : List Bytes} (h : SameValues lines lines') :
    Handler.SameFraming (headerMap lines') (headerMap lines) where
  length := by rw [find?_headerMap, find?_headerMap, h.length]
  coding := by
    rw [find?_headerMap, find?_headerMap, find?_headerMap, h.length]
    exact h.coding

/-- Two heads that are both refused have the same answer. -/
theorem parseRequest_agree_of_refused (sys : Sys) (h : c.AwaitsHeaders) {lines' : List Bytes}
    (hlines : ∀ l ∈ lines, IsHeaderLine l) (hlines' : ∀ l ∈ lines', IsHeaderLine l)
    (hrefused : Refused lines) (hrefused' : Refused lines') :
    ((c.receiveHeaders lines' rest).parseRequest sys).1 =
        ((c.receiveHeaders lines rest).parseRequest sys).1 ∧
      SameButHead ((c.receiveHeaders lines rest).parseRequest sys).2
        ((c.receiveHeaders lines' rest).parseRequest sys).2 := by
  have hhead : Head c sys lines rest ((c.receiveHeaders lines rest).parseRequest sys) :=
    head_parseRequest sys h hlines
  have hhead' : Head c sys lines' rest ((c.receiveHeaders lines' rest).parseRequest sys) :=
    head_parseRequest sys h hlines'
  generalize (c.receiveHeaders lines rest).parseRequest sys = r at hhead ⊢
  generalize (c.receiveHeaders lines' rest).parseRequest sys = r' at hhead' ⊢
  cases hhead with
  | read haccepted => exact absurd hrefused haccepted
  | refused buffer headers _ =>
    cases hhead' with
    | read haccepted => exact absurd hrefused' haccepted
    | refused buffer' headers' _ => exact ⟨rfl, buffer', headers', rfl⟩

/-- **Two heads.**  Where both are accepted with the same last values, the two runs differ in the header
map and the unread bytes only. -/
theorem parseRequest_agree (sys : Sys) (h : c.AwaitsHeaders) {lines' : List Bytes}
    (hlines : ∀ l ∈ lines, IsHeaderLine l) (hlines' : ∀ l ∈ lines', IsHeaderLine l)
    (haccepted : ¬ Refused lines) (haccepted' : ¬ Refused lines') (hsame : SameValues lines lines') :
    ((c.receiveHeaders lines' rest).parseRequest sys).1 =
        ((c.receiveHeaders lines rest).parseRequest sys).1 ∧
      SameButHead ((c.receiveHeaders lines rest).parseRequest sys).2
        ((c.receiveHeaders lines' rest).parseRequest sys).2 := by
  have hhead : Head c sys lines rest ((c.receiveHeaders lines rest).parseRequest sys) :=
    head_parseRequest sys h hlines
  have hhead' : Head c sys lines' rest ((c.receiveHeaders lines' rest).parseRequest sys) :=
    head_parseRequest sys h hlines'
  generalize (c.receiveHeaders lines rest).parseRequest sys = r at hhead ⊢
  generalize (c.receiveHeaders lines' rest).parseRequest sys = r' at hhead' ⊢
  cases hhead with
  | refused buffer headers hreason => exact absurd hreason haccepted
  | read _ =>
    cases hhead' with
    | refused buffer headers hreason => exact absurd hreason haccepted'
    | read _ =>
      have hresolve := @resolveARequest_withHeaders sys
        ((c.headersRead rest).withHeaders (headerMap lines)) (headerMap lines') hsame.find?_host
        hsame.sameFraming
      change ((c.headersRead rest).withHeaders (headerMap lines')).resolveARequest sys = _ at hresolve
      rw [hresolve]
      generalize ((c.headersRead rest).withHeaders (headerMap lines)).resolveARequest sys = r
      obtain ⟨ret, c'⟩ := r
      cases ret <;> exact ⟨rfl, _, _, rfl⟩

/-- A name has no value just when no line has the name. -/
theorem lastValue_eq_none_iff {name : Bytes} :
    lastValue lines name = none ↔ ∀ f ∈ headerFields lines, f.1 ≠ name := by
  rw [lastValue, Option.map_eq_none_iff, List.getLast?_eq_none_iff, List.filter_eq_nil_iff]
  simp

/-- The order does not decide whether a head is refused, although it decides at which line. -/
theorem refused_iff_of_perm {lines' : List Bytes} (hperm : lines'.Perm lines) :
    Refused lines' ↔ Refused lines := by
  have hfields : (headerFields lines').Perm (headerFields lines) := hperm.filterMap _
  rw [Refused, Refused, lastValue_eq_none_iff, lastValue_eq_none_iff]
  simp only [hperm.mem_iff, hfields.mem_iff]

end Client

/-! ## Both headers -/

namespace Handler

variable (sys : Sys) {h h₁ : Handler}

/-- Opening a CGI does not change what was decided about the body. -/
theorem framing_openCGI (h : Handler) :
    (openCGI sys h).request.chunked = h.request.chunked ∧
      (openCGI sys h).request.contentLength = h.request.contentLength := by
  rcases openCGI_cases sys h with heq | ⟨pair, heq⟩ | ⟨pair, pid, heq⟩ <;> rw [heq] <;>
    exact ⟨rfl, rfl⟩

/-- Nor does the start of an upload. -/
theorem framing_upload (h : Handler) :
    (upload sys h).request.chunked = h.request.chunked ∧
      (upload sys h).request.contentLength = h.request.contentLength := by
  have huploads := uploads_upload sys h
  generalize upload sys h = h' at huploads ⊢
  cases huploads <;> exact ⟨rfl, rfl⟩

/-- What `Content-Length` says of the body. -/
def HasLength (value : Bytes) (request : ARequest) : Prop :=
  request.chunked = false ∧ request.contentLength = sToContentLength value false

/-- `_checkHeaders` looks `Content-Length` up first, and returns when it is there. -/
theorem hasLength_checkHeaders {value : Bytes} (hfresh : h.request.chunked = false)
    (hvalue : h.context.headers.find? headerContentLength = some value) :
    HasLength value (checkHeaders h).2.request := by
  unfold checkHeaders
  rw [hvalue]
  dsimp only
  split_ifs <;> exact ⟨hfresh, rfl⟩

/-- The request object of a POST or PUT with a `Content-Length`. -/
theorem hasLength_processing {value : Bytes} (hkind : h.request.kind = .post ∨ h.request.kind = .put)
    (hfresh : h.request.chunked = false)
    (hvalue : h.context.headers.find? headerContentLength = some value) :
    HasLength value (processing sys h).request := by
  have hchecked := hasLength_checkHeaders hfresh hvalue
  have hopen : ∀ h : Handler, HasLength value h.request → HasLength value (openCGI sys h).request := by
    intro h hlength
    obtain ⟨hchunked, hcounter⟩ := framing_openCGI sys h
    exact ⟨hchunked.trans hlength.1, hcounter.trans hlength.2⟩
  have hupload : ∀ h : Handler, HasLength value h.request → HasLength value (upload sys h).request := by
    intro h hlength
    obtain ⟨hchunked, hcounter⟩ := framing_upload sys h
    exact ⟨hchunked.trans hlength.1, hcounter.trans hlength.2⟩
  unfold processing
  rcases hkind with hpost | hput
  · rw [hpost]
    dsimp only
    unfold processingPOST
    generalize checkHeaders h = r at hchecked ⊢
    obtain ⟨ret, h₁⟩ := r
    cases ret with
    | reqContinue =>
      dsimp only
      cases h₁.request.cgiPath with
      | some cgi => exact hopen _ hchecked
      | none => exact hupload _ hchecked
    | reqDone | reqError | throws => exact hchecked
  · rw [hput]
    dsimp only
    unfold processingPUT
    generalize checkHeaders h = r at hchecked ⊢
    obtain ⟨ret, h₁⟩ := r
    cases ret with
    | reqContinue => exact hupload _ hchecked
    | reqDone | reqError | throws => exact hchecked

end Handler

namespace Client

variable {c : Client} {lines : List Bytes} {rest : Bytes}

/-- The body is not read as chunked, and where it is read it is read with this length. -/
def ReadsLength (value : Bytes) (c : Client) : Prop :=
  c.framing ≠ .chunked ∧ ∀ n, c.framing = .contentLength n → n = sToContentLength value false

theorem readsLength_of_status {value : Bytes} (h : c.context.response.statusCode ≠ statusNone) :
    ReadsLength value c := by
  have hframing : c.framing = .answered c.context.response.statusCode := if_pos h
  rw [ReadsLength, hframing]
  exact ⟨(fun h => nomatch h), fun _ h => nomatch h⟩

theorem readsLength_of_none {value : Bytes} (h : c.request = none) : ReadsLength value c := by
  unfold ReadsLength framing
  rw [h]
  split_ifs
  · exact ⟨(fun h => nomatch h), fun _ h => nomatch h⟩
  · exact ⟨(fun h => nomatch h), fun _ h => nomatch h⟩

theorem readsLength_of_request {value : Bytes} {request : ARequest} (h : c.request = some request)
    (hlength : Handler.HasLength value request) : ReadsLength value c := by
  by_cases hstatus : c.context.response.statusCode ≠ statusNone
  · exact readsLength_of_status hstatus
  · have hframing : c.framing = .contentLength (sToContentLength value false) := by
      rw [framing, if_neg hstatus, h]
      dsimp only
      rw [hlength.1, hlength.2]
      rfl
    rw [ReadsLength, hframing]
    exact ⟨(fun h => nomatch h), fun _ h => (Framing.contentLength.inj h).symm⟩

theorem readsLength_startRequest (sys : Sys) {value : Bytes} (hnone : c.request = none)
    (hmethod : c.context.method = .post ∨ c.context.method = .put)
    (hvalue : c.context.headers.find? headerContentLength = some value) :
    ReadsLength value (c.startRequest sys).2 := by
  obtain ⟨kind, hkind, hbody⟩ : ∃ kind, requestKind c.context.method = some kind ∧
      (kind = .post ∨ kind = .put) := by
    rcases hmethod with hpost | hput
    · exact ⟨.post, by rw [hpost]; rfl, Or.inl rfl⟩
    · exact ⟨.put, by rw [hput]; rfl, Or.inr rfl⟩
  unfold startRequest
  rw [hkind]
  dsimp only
  cases hh : createRequest kind c.context with
  | error fault => exact readsLength_of_none hnone
  | ok h =>
    obtain ⟨chopedTarget, -, rfl⟩ := createRequest_ok hh
    exact readsLength_of_request rfl (Handler.hasLength_processing sys hbody rfl hvalue)

/-- A `Content-Length` has the last word on the body of a POST or PUT. -/
theorem readsLength_resolveARequest (sys : Sys) {value : Bytes} (hnone : c.request = none)
    (hmethod : c.context.method = .post ∨ c.context.method = .put)
    (hvalue : c.context.headers.find? headerContentLength = some value) :
    ReadsLength value (c.resolveARequest sys).2 := by
  unfold resolveARequest
  dsimp only
  cases c.context.server.findServerBlock c.connectSocket
      ((c.context.headers.find? headerHost).getD []) with
  | none => exact readsLength_of_none hnone
  | some block =>
    dsimp only
    cases block.findLocationBlock (Path.ofString c.context.target) with
    | none => exact readsLength_of_none hnone
    | some loc =>
      dsimp only
      by_cases hroot : loc.root.isEmpty
      · rw [if_pos hroot]
        exact readsLength_of_none hnone
      rw [if_neg hroot]
      by_cases hallowed : ¬ loc.isAllowed c.context.method
      · rw [if_pos hallowed]
        exact readsLength_of_none hnone
      rw [if_neg hallowed]
      by_cases hredirect : loc.redirection.1 ≠ statusNone
      · rw [if_pos hredirect]
        exact readsLength_of_none hnone
      · rw [if_neg hredirect]
        exact @readsLength_startRequest
          { c with context := { c.context with serverBlock := some block, ruleBlock := some loc } }
          sys value hnone hmethod hvalue

/-- **The framing of a body.**  Let the header lines of a POST or PUT be permuted so that `Host`,
`Content-Length` and, without a `Content-Length`, `Transfer-Encoding` keep their last values, unless the
head is refused anyway.  Then the answer and the framing are the same; and a `Content-Length` decides,
whatever `Transfer-Encoding` says. -/
theorem framing_perm (sys : Sys) (h : c.AwaitsHeaders)
    (hmethod : c.context.method = .post ∨ c.context.method = .put) {lines' : List Bytes}
    (hlines : ∀ l ∈ lines, IsHeaderLine l) (hperm : lines'.Perm lines) :
    ((¬ Refused lines → SameValues lines lines') →
        ((c.receiveHeaders lines' rest).parseRequest sys).1 =
            ((c.receiveHeaders lines rest).parseRequest sys).1 ∧
          ((c.receiveHeaders lines' rest).parseRequest sys).2.framing =
            ((c.receiveHeaders lines rest).parseRequest sys).2.framing) ∧
      ∀ value, lastValue lines headerContentLength = some value →
        ReadsLength value ((c.receiveHeaders lines rest).parseRequest sys).2 := by
  have hlines' : ∀ l ∈ lines', IsHeaderLine l := fun l hl => hlines l (hperm.mem_iff.mp hl)
  refine ⟨fun hvalues => ?_, fun value hvalue => ?_⟩
  · by_cases hrefused : Refused lines
    · obtain ⟨hret, hclient⟩ := @parseRequest_agree_of_refused c lines rest sys h lines' hlines hlines'
        hrefused ((refused_iff_of_perm hperm).mpr hrefused)
      exact ⟨hret, hclient.framing⟩
    · obtain ⟨hret, hclient⟩ := @parseRequest_agree c lines rest sys h lines' hlines hlines' hrefused
        (fun hrefused' => hrefused ((refused_iff_of_perm hperm).mp hrefused')) (hvalues hrefused)
      exact ⟨hret, hclient.framing⟩
  · have hhead : Head c sys lines rest ((c.receiveHeaders lines rest).parseRequest sys) :=
      head_parseRequest sys h hlines
    generalize (c.receiveHeaders lines rest).parseRequest sys = r at hhead ⊢
    cases hhead with
    | refused buffer headers hreason =>
      exact readsLength_of_status (by show statusBadRequest ≠ statusNone; decide)
    | read _ =>
      have hread := @readsLength_resolveARequest ((c.headersRead rest).withHeaders (headerMap lines)) sys
        value h.request hmethod ((find?_headerMap lines _).trans hvalue)
      generalize ((c.headersRead rest).withHeaders (headerMap lines)).resolveARequest sys = r at hread ⊢
      obtain ⟨ret, c'⟩ := r
      cases ret <;> exact hread

end Client

/-! ## Repeated names -/

/-- A server with two hosts, of which the second has no location. -/
def twoHostServer : Server where
  serverBlocks := OrderedMap.empty.insert 3 [
    { names := [bytes "a"]
      locations := [{
        path := Path.ofString (bytes "/")
        root := Path.ofString (bytes "/r/")
        maxBodySize := 100
        maxBodySize_le := hundred_le_int32Max
        allowed := 10
        clientBodyUploadPath := Path.ofString (bytes "/u/") }] },
    { names := [bytes "b"] }]
  timeouts _ := 0
  mimetypes := OrderedMap.empty

/-- A PUT to it, of which the request line has been read. -/
def putClient : Client where
  connectSocket := 3
  fd := 4
  timestamp _ := 0
  context := {
    server := twoHostServer
    requestState := { requestLine := true }
    method := .put
    target := bytes "/x"
    world := {
      fs := {
        table := fun p =>
          if p = bytes "/u" ∨ p = bytes "/u/" then some { kind := .directory [] } else none } } }

theorem awaitsHeaders_putClient : putClient.AwaitsHeaders := ⟨rfl, rfl, rfl, rfl, rfl⟩

/-- What is decided about a body that is announced by these lines. -/
def putFraming (lines : List Bytes) : Framing :=
  ((putClient.receiveHeaders lines []).parseRequest (Sys.quiet 0)).2.framing

set_option maxRecDepth 10000 in
theorem framing_perm_reversed :
    putFraming [bytes "Content-Length: 3", bytes "Transfer-Encoding: chunked", bytes "Host: a"] =
        putFraming [bytes "Host: a", bytes "Transfer-Encoding: chunked", bytes "Content-Length: 3"] ∧
      Client.ReadsLength (bytes "3") ((putClient.receiveHeaders
        [bytes "Host: a", bytes "Transfer-Encoding: chunked", bytes "Content-Length: 3"] []).parseRequest
          (Sys.quiet 0)).2 := by
  have hperm := (List.reverse_perm
    [bytes "Host: a", bytes "Transfer-Encoding: chunked", bytes "Content-Length: 3"])
  have hframing := @Client.framing_perm putClient
    [bytes "Host: a", bytes "Transfer-Encoding: chunked", bytes "Content-Length: 3"] [] (Sys.quiet 0)
    awaitsHeaders_putClient (Or.inr rfl) _ (by decide +kernel) hperm
  exact ⟨(hframing.1 fun _ => ⟨by decide +kernel, by decide +kernel,
    by decide +kernel⟩).2, hframing.2 _ (by decide +kernel)⟩

set_option maxRecDepth 10000 in
/-- The order decides where a name is repeated, and a body with both headers is not read as chunked. -/
theorem framing_swapped :
    putClient.AwaitsHeaders ∧ putClient.context.method = .put ∧
      (∃ lines lines' : List Bytes, (∀ l ∈ lines, IsHeaderLine l) ∧ lines'.Perm lines ∧
        putFraming lines = .contentLength 2 ∧ putFraming lines' = .contentLength 1) ∧
      (∃ lines lines' : List Bytes, (∀ l ∈ lines, IsHeaderLine l) ∧ lines'.Perm lines ∧
        putFraming lines = .answered 415 ∧ putFraming lines' = .chunked) ∧
      (∃ lines lines' : List Bytes, (∀ l ∈ lines, IsHeaderLine l) ∧ lines'.Perm lines ∧
        putFraming lines = .answered 404 ∧ putFraming lines' = .contentLength 1) ∧
      ∃ lines : List Bytes, (∀ l ∈ lines, IsHeaderLine l) ∧
        bytes "Transfer-Encoding: chunked" ∈ lines ∧ bytes "Content-Length: 1" ∈ lines ∧
          putFraming lines = .contentLength 1 := by
  refine ⟨awaitsHeaders_putClient, rfl, ?_, ?_, ?_, ?_⟩
  · exact ⟨[bytes "Host: a", bytes "Content-Length: 1", bytes "Content-Length: 2"],
      [bytes "Host: a", bytes "Content-Length: 2", bytes "Content-Length: 1"], by decide +kernel,
      (List.Perm.swap _ _ _).cons _, by decide +kernel, by decide +kernel⟩
  · exact ⟨[bytes "Host: a", bytes "Transfer-Encoding: chunked", bytes "Transfer-Encoding: gzip"],
      [bytes "Host: a", bytes "Transfer-Encoding: gzip", bytes "Transfer-Encoding: chunked"],
      by decide +kernel, (List.Perm.swap _ _ _).cons _, by decide +kernel, by decide +kernel⟩
  · exact ⟨[bytes "Host: a", bytes "Host: b", bytes "Content-Length: 1"],
      [bytes "Host: b", bytes "Host: a", bytes "Content-Length: 1"], by decide +kernel,
      List.Perm.swap _ _ _, by decide +kernel, by decide +kernel⟩
  · exact ⟨[bytes "Host: a", bytes "Transfer-Encoding: chunked", bytes "Content-Length: 1"],
      by decide +kernel, by decide +kernel, by decide +kernel, by decide +kernel⟩

end Webserv
