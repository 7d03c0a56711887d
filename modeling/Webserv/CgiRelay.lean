import Webserv.Effects.Relaying
import Webserv.Effects.Processing
import Webserv.Lib.Transition

/-!
# The request body of a CGI

A POST to a CGI: the bytes of the client are appended to the buffer, and the body is sent on the socket of
the CGI whenever the socket can be written.  `_saveFile` closes the input of the CGI and asks epoll for the
output of the CGI only, so that `CGIOut` is not called after it.

* `RequestBody`: a well-formed body, and the stream that carries it.
* `relay`: appends and calls of `CGIOut`, in any order.
* `Stage`, `Progress`: the invariant of a run, and what it says of every prefix.
* `relays_body`: the CGI gets the body, and then the end of its input.

## Why appends and calls are events

The client and the CGI have a socket each, and epoll reports them in an order that nobody controls.  The
reader may be called when half of a size line has arrived, or not before the whole body has.  So a run is a
list of the two events, and the theorem is about every list whose appends are the stream in this order.
Nothing is said about how many bytes an append brings, and a call that finds nothing to do is a step like
the others.

## Why the bytes are marked

In a chunked stream most bytes are data and some are size lines.  Each byte is marked with whether it is
payload, and the position of the reader in the stream is a `Rest`: what of the current chunk is still to
come.  The bytes passed on are then the marked ones among those that were read, and the induction does not
look at the format again.  Both framings are one case with this.

## Why `CGIOut` is not called after the end

Once the body is complete, a further call of the reader would find a connection that is shut down.  The code
avoids it by the registration: `_openCGI` asks for `EPOLLOUT`, and `_saveFile` takes it out.
`watchesOutput` reads the registration from the record of `epoll_ctl`, and a report of `EPOLLOUT` without it
does not happen, which is the kernel's part.
-/

namespace Webserv

open Payload

/-! ## Bodies -/

/-- A chunk of a well-formed body: its size line is the number of its bytes in hexadecimal digits, and there
is at least one byte. -/
structure HexChunk where
  size : Bytes
  data : Bytes
  isNumeral : IsNumeral 16 size data.length
  ne_nil : data ≠ []

def HexChunk.stream (c : HexChunk) : Bytes := c.size ++ crlf ++ c.data ++ crlf

/-- The bytes of the chunk; its data is payload, and the framing around it is not. -/
def HexChunk.marked (c : HexChunk) : List (Byte × Bool) :=
  mark false (c.size ++ crlf) ++ (mark true c.data ++ mark false crlf)

/-- A well-formed body, with a length or in chunks.  A body with a length has data, and so has every chunk. -/
inductive RequestBody where
  | content (data : Bytes) (ne_nil : data ≠ [])
  | chunked (chunks : List HexChunk)

namespace RequestBody

/-- The data. -/
def data : RequestBody → Bytes
  | content data _ => data
  | chunked chunks => chunks.flatMap HexChunk.data

/-- The bytes that the client sends. -/
def stream : RequestBody → Bytes
  | content data _ => data
  | chunked chunks => chunks.flatMap HexChunk.stream ++ bytes "0\r\n\r\n"

/-- The same bytes; the data is payload. -/
def marked : RequestBody → List (Byte × Bool)
  | content data _ => mark true data
  | chunked chunks => chunks.flatMap HexChunk.marked ++ mark false (bytes "0\r\n\r\n")

/-- The headers that announce the body: its length in decimal, or that it is chunked. -/
def Announced (headers : StringMap) : RequestBody → Prop
  | content data _ => ∃ value, headers.find? headerContentLength = some value ∧
      IsNumeral 10 value data.length
  | chunked _ => headers.find? headerContentLength = none ∧
      headers.find? headerTransferEncoding = some headerTransferChunke

end RequestBody

theorem HexChunk.length_le (c : HexChunk) : c.data.length ≤ c.stream.length := by
  rw [stream]
  simp only [List.length_append]
  omega

theorem RequestBody.length_data_le (body : RequestBody) : body.data.length ≤ body.stream.length := by
  cases body with
  | content data hne => exact le_rfl
  | chunked chunks =>
    rw [data, stream, List.length_append]
    refine le_trans ?_ (Nat.le_add_right _ _)
    induction chunks with
    | nil => exact le_rfl
    | cons c chunks ih =>
      have hlength := c.length_le
      simp only [List.flatMap_cons, List.length_append]
      omega

/-- The reader takes the size line of a chunk for what it is. -/
def HexChunk.toChunk (c : HexChunk) (h : (c.data.length : Int) ≤ int32Max) : Chunk where
  line := c.size
  data := c.data
  cr_notMem := fun hmem => absurd (c.isNumeral.digits cr hmem) (by decide)
  size_eq := sToContentLength_of_isNumeral c.isNumeral h
  data_ne_nil := c.ne_nil

theorem HexChunk.raw_marked (c : HexChunk) : raw c.marked = c.stream := by
  simp only [marked, stream, raw_append, raw_mark, List.append_assoc]

theorem RequestBody.raw_marked (body : RequestBody) : raw body.marked = body.stream := by
  cases body with
  | content data hne => exact raw_mark _ _
  | chunked chunks =>
    rw [marked, stream, raw_append, raw_mark]
    congr 1
    induction chunks with
    | nil => rfl
    | cons c chunks ih => rw [List.flatMap_cons, List.flatMap_cons, raw_append, c.raw_marked, ih]

/-- The chunks of a stream as the reader sees them. -/
theorem exists_chunks (chunks : List HexChunk)
    (h : ((chunks.flatMap HexChunk.data).length : Int) ≤ int32Max) :
    ∃ cs : List Chunk, cs.flatMap Chunk.marked = chunks.flatMap HexChunk.marked ∧
      cs.flatMap Chunk.data = chunks.flatMap HexChunk.data := by
  induction chunks with
  | nil => exact ⟨[], rfl, rfl⟩
  | cons c chunks ih =>
    rw [List.flatMap_cons, List.length_append] at h
    obtain ⟨cs, hmarked, hdata⟩ := ih (by omega)
    refine ⟨c.toChunk (by omega) :: cs, ?_, ?_⟩
    · rw [List.flatMap_cons, List.flatMap_cons, hmarked]
      rfl
    · rw [List.flatMap_cons, List.flatMap_cons, hdata]
      rfl

namespace Handler

/-! ## Runs -/

/-- What happens to the request object while the CGI takes the body. -/
inductive RelayEvent where
  /-- The client socket was read. -/
  | append (data : Bytes)
  | cgiOut (sys : Sys)

/-- The bytes that an event appends. -/
def RelayEvent.appended : RelayEvent → Bytes
  | append data => data
  | cgiOut _ => []

/-- Every `send` of at most `size` bytes takes them all. -/
def RelayEvent.TakesAll (size : Nat) : RelayEvent → Prop
  | append _ => True
  | cgiOut sys => sys.TakesAll size

/-- Epoll watches the socket of the CGI for `EPOLLOUT`, as `_openCGI` asked, until the `epoll_ctl` of
`_saveFile`.  It is read from the record of the calls. -/
def watchesOutput (h : Handler) : Bool :=
  h.context.world.calls.all fun
    | .epollCtl _ => false
    | _ => true

/-- One event.  `CGIOut` is called when epoll reports `EPOLLOUT`. -/
def relayStep (h : Handler) : RelayEvent → Handler
  | .append data => { h with context := { h.context with buffer := h.context.buffer ++ data } }
  | .cgiOut sys => if h.watchesOutput then (CGIOut sys h).2 else h

/-- The request object after a list of events, which need not end with the end of the body. -/
abbrev relay (h : Handler) (es : List RelayEvent) : Handler := Transition.run relayStep h es

/-- The input of the CGI is closed, once, and the body was sent before. -/
def Closed (data : Bytes) (h : Handler) : Prop :=
  h.context.response.statusCode = statusOk ∧ ∃ sends fd,
    h.context.world.calls = sends ++ [.shutdown fd, .epollCtl fd] ∧ SendsOnly sends data

/-- No error status is set; a part of the body was sent, or the input of the CGI is closed. -/
inductive Progress (data : Bytes) (h : Handler) : Prop where
  | sending (hnone : h.context.response.statusCode = statusNone) {sent : Bytes}
      (hsends : SendsOnly h.context.world.calls sent) (hsent : sent <+: data)
  | closed (hclosed : Closed data h)

/-- The reader is at a rest of the body, or has come to its end; `future` is still to be appended. -/
inductive Stage (size : Nat) (data : Bytes) (h : Handler) (future : Bytes) : Prop where
  | reading {rest : Rest} {done : Bytes} {marked : List (Byte × Bool)} (hraw : raw marked = future)
      (hrelays : Relays size rest h marked) (hpost : h.request.kind = .post)
      (hdata : data = done ++ rest.body) (hsends : SendsOnly h.context.world.calls done)
      (hnone : h.context.response.statusCode = statusNone)
  | closed (hclosed : Closed data h)

theorem Stage.progress {size : Nat} {data future : Bytes} {h : Handler}
    (hstage : Stage size data h future) : Progress data h := by
  cases hstage with
  | reading hraw hrelays hpost hdata hsends hnone =>
    exact .sending hnone hsends (hdata ▸ List.prefix_append _ _)
  | closed hclosed => exact .closed hclosed

theorem watchesOutput_of_sendsOnly {h : Handler} {data : Bytes}
    (hsends : SendsOnly h.context.world.calls data) : h.watchesOutput = true := by
  refine List.all_eq_true.mpr fun call hmem => ?_
  have hsome := hsends.isSome call hmem
  cases call with
  | epollCtl fd => cases hsome
  | _ => rfl

theorem Closed.watchesOutput {h : Handler} {data : Bytes} (hclosed : Closed data h) :
    h.watchesOutput = false := by
  obtain ⟨-, sends, fd, hcalls, -⟩ := hclosed
  rw [Handler.watchesOutput, hcalls]
  simp

/-- Bytes of the stream are appended to the unread ones.  The stage does not change, since it is about what
the unread bytes and the future are together. -/
theorem Stage.append {size : Nat} {data bs future : Bytes} {h : Handler}
    (hstage : Stage size data h (bs ++ future)) : Stage size data (h.relayStep (.append bs)) future := by
  cases hstage with
  | closed hclosed => exact .closed hclosed
  | reading hraw hrelays hpost hdata hsends hnone =>
    obtain ⟨q, r, rfl, hq, hr⟩ := List.map_eq_append_iff.mp hraw
    obtain ⟨p, hp, hstream⟩ := hrelays.stream
    refine @Stage.reading _ _ _ _ _ _ r hr { hrelays with stream := ?_ } hpost hdata hsends hnone
    refine ⟨p ++ q, ?_, by rw [hstream, List.append_assoc]⟩
    rw [raw_append, hp, show raw q = bs from hq]
    rfl

theorem Sends.kind {h h' : Handler} {data : Bytes} (hsends : Sends h h' data) :
    h'.request.kind = h.request.kind := by
  obtain ⟨f, rfl⟩ := hsends.fields
  rfl

/-- The socket of the CGI can be written.  If nothing is to come, the body is sent to its end. -/
theorem Stage.cgiOut {size : Nat} {data future : Bytes} {h : Handler} {sys : Sys}
    (hstage : Stage size data h future) (htakes : sys.TakesAll size) (hsize : (size : Int) ≤ int32Max) :
    Stage size data (h.relayStep (.cgiOut sys)) future ∧
      (future = [] → Closed data (h.relayStep (.cgiOut sys))) := by
  cases hstage with
  | closed hclosed =>
    have hsame : h.relayStep (.cgiOut sys) = h := if_neg (by rw [hclosed.watchesOutput]; simp)
    rw [hsame]
    exact ⟨.closed hclosed, fun _ => hclosed⟩
  | reading hraw hrelays hpost hdata hsends hnone =>
    have hcall : h.relayStep (.cgiOut sys) = (readBody sys h).2 := by
      rw [relayStep, if_pos (watchesOutput_of_sendsOnly hsends), CGIOut, hpost]
    rw [hcall]
    have hcall := callSends_readBody htakes hsize hrelays
    generalize readBody sys h = r at hcall ⊢
    cases hcall with
    | @waits rest' h' done' hrelays' hfuture hbody hsends' =>
      obtain ⟨calls, hcalls, hmore⟩ := hsends'.calls
      refine ⟨.reading hraw hrelays' (hsends'.kind.trans hpost) ?_ (hcalls ▸ hsends.append hmore)
        (hsends'.statusCode.trans hnone), ?_⟩
      · rw [hdata, hbody, List.append_assoc]
      · intro hnil
        rw [hnil] at hraw
        exact absurd (List.map_eq_nil_iff.mp hraw) hfuture
    | @ends ret h' h'' hsends' hcalls' hstatus =>
      obtain ⟨calls, hcalls, hmore⟩ := hsends'.calls
      have hclosed : Closed data h'' := by
        refine ⟨hstatus, _, h'.context.cgiSocket, ?_, hdata ▸ hsends.append hmore⟩
        rw [hcalls', ← hcalls]
        exact List.append_assoc ..
      exact ⟨.closed hclosed, fun _ => hclosed⟩

/-- A run keeps the stage, and the stage bounds what was sent. -/
theorem Stage.relay {size : Nat} {data : Bytes} (hsize : (size : Int) ≤ int32Max) :
    ∀ (es : List RelayEvent) {h : Handler} {future : Bytes},
      Stage size data h (es.flatMap RelayEvent.appended ++ future) →
      (∀ e ∈ es, e.TakesAll size) → Stage size data (h.relay es) future
  | [], h, future, hstage, _ => hstage
  | .append bs :: es, h, future, hstage, htakes => by
    rw [List.flatMap_cons, List.append_assoc] at hstage
    exact Stage.relay hsize es hstage.append fun e he => htakes e (List.mem_cons_of_mem _ he)
  | .cgiOut sys :: es, h, future, hstage, htakes => by
    have hstep := hstage.cgiOut (htakes _ (List.mem_cons_self ..)) hsize
    exact Stage.relay hsize es hstep.1 fun e he => htakes e (List.mem_cons_of_mem _ he)

/-! ## The start -/

/-- The headers of a well-formed body within the limit pass the checks. -/
theorem checkHeaders_of_announced {h : Handler} {body : RequestBody}
    (hannounced : body.Announced h.context.headers) (hlimit : (body.data.length : Int) ≤ h.maxBodySize)
    (hint : (body.data.length : Int) ≤ int32Max) :
    ∃ chunked n, checkHeaders h = (.reqContinue,
        { h with request := { h.request with chunked := chunked, contentLength := n } }) ∧
      match body with
      | .content data _ => chunked = h.request.chunked ∧ n = data.length
      | .chunked _ => chunked = true ∧ n = -1 := by
  unfold checkHeaders
  cases body with
  | content data hne =>
    obtain ⟨value, hfind, hnumeral⟩ := hannounced
    have hvalue : sToContentLength value false = data.length :=
      @sToContentLength_of_isNumeral _ false _ hnumeral hint
    have hpos := List.length_pos_iff.mpr hne
    refine ⟨h.request.chunked, data.length, ?_, rfl, rfl⟩
    rw [hfind]
    dsimp only
    rw [hvalue]
    have hn : (h.setContentLength data.length).request.contentLength = data.length := rfl
    have hmax : (h.setContentLength data.length).maxBodySize = h.maxBodySize := rfl
    have hlimit' : (data.length : Int) ≤ h.maxBodySize := hlimit
    rw [hn, hmax, if_neg (by unfold contentLengthInvalid; omega),
      if_neg (by unfold contentLengthTooLarge; omega), if_neg (by omega)]
    rfl
  | chunked chunks =>
    obtain ⟨hlength, hcoding⟩ := hannounced
    refine ⟨true, -1, ?_, rfl, rfl⟩
    rw [hlength, hcoding]
    dsimp only
    rw [if_neg (by simp)]

/-- A POST whose CGI runs.  The request object keeps the state of the body, and only the socket and the
process are added. -/
theorem processingPOST_of_cgi {sys : Sys} {h h' : Handler} (hcheck : checkHeaders h = (.reqContinue, h'))
    (hcgi : h'.request.cgiPath.isSome = true)
    (hnone : (processingPOST sys h).context.response.statusCode = statusNone) :
    ∃ pair pid, processingPOST sys h =
      ((h'.setState RequestState.setWorkInComplete).attachCGI pair).startCGI pid := by
  obtain ⟨cgi, hcgi⟩ := Option.isSome_iff_exists.mp hcgi
  have hprocess : processingPOST sys h = openCGI sys (h'.setState RequestState.setWorkInComplete) := by
    unfold processingPOST
    rw [hcheck]
    dsimp only
    rw [hcgi]
  rw [hprocess] at hnone ⊢
  rcases openCGI_cases sys (h'.setState RequestState.setWorkInComplete) with
    heq | ⟨pair, heq⟩ | ⟨pair, pid, heq⟩
  · rw [heq] at hnone
    cases hnone
  · rw [heq] at hnone
    cases hnone
  · exact ⟨pair, pid, heq⟩

/-- Where the reader stands at the start of a body: nothing was passed on, and the whole stream is to come. -/
theorem exists_rest {body : RequestBody} (hint : (body.data.length : Int) ≤ int32Max) :
    ∃ rest : Rest, rest.marked terminator = body.marked ∧ rest.body = body.data ∧ rest.Proper ∧
      rest.pending.length ≤ body.data.length ∧
      match body with
      | .content data _ => rest.isChunked = false ∧ rest.counter = data.length
      | .chunked _ => rest.isChunked = true ∧ rest.counter = -1 := by
  cases body with
  | content data hne => exact ⟨.content data, rfl, rfl, ⟨hne, hint⟩, Nat.zero_le _, rfl, rfl⟩
  | chunked chunks =>
    obtain ⟨cs, hmarked, hdata⟩ := exists_chunks chunks hint
    refine ⟨.size cs, ?_, hdata, trivial, ?_, rfl, rfl⟩
    · rw [Rest.marked, markedChunks, hmarked]
      rfl
    · rw [Rest.pending, hdata]
      exact le_rfl

/-- The request object of a POST whose CGI runs is at the start of the body. -/
theorem stage_processing {ctx : RequestContext} {sys : Sys} {h : Handler}
    (hcreate : createRequest .post ctx = .ok h) (hcgi : h.request.cgiPath.isSome = true)
    (hcalls : ctx.world.calls = [])
    (hruns : (processing sys h).context.response.statusCode = statusNone)
    {body : RequestBody} (hannounced : body.Announced ctx.headers)
    (hlimit : (body.data.length : Int) ≤ ctx.rule.getMaxBodySize)
    (hsize : (body.stream.length : Int) ≤ int32Max) {future : Bytes}
    (hstream : ctx.buffer ++ future = body.stream) :
    Stage body.stream.length body.data (processing sys h) future := by
  obtain ⟨chopedTarget, -, rfl⟩ := createRequest_ok hcreate
  have hint : (body.data.length : Int) ≤ int32Max := by
    have := body.length_data_le
    omega
  have hpost : ∀ h : Handler, h.request.kind = .post → processing sys h = processingPOST sys h := by
    intro h hkind
    rw [processing, hkind]
  rw [hpost _ rfl] at hruns ⊢
  generalize hh : (⟨ctx.setState RequestKind.post.initState, _⟩ : Handler) = h at hcgi hruns ⊢
  have hheaders : h.context.headers = ctx.headers := by
    rw [← hh]
    rfl
  have hmax : h.maxBodySize = ctx.rule.getMaxBodySize := by
    rw [← hh]
    rfl
  obtain ⟨chunked, n, hcheck, hframed⟩ :=
    checkHeaders_of_announced (hheaders.symm ▸ hannounced) (hmax.symm ▸ hlimit) hint
  subst hh
  obtain ⟨pair, pid, heq⟩ := processingPOST_of_cgi hcheck hcgi hruns
  rw [heq] at hruns ⊢
  obtain ⟨rest, hmarked, hbody, hproper, hpending, hrest⟩ := exists_rest hint
  have hraw : raw (rest.marked terminator) = body.stream := by rw [hmarked, body.raw_marked]
  obtain ⟨p, q, hmarked, hp, hq⟩ := List.map_eq_append_iff.mp (hraw.trans hstream.symm)
  have hcounters : chunked = rest.isChunked ∧ n = rest.counter := by
    cases body with
    | content data hne => exact ⟨hframed.1.trans hrest.1.symm, hframed.2.trans hrest.2.symm⟩
    | chunked chunks => exact ⟨hframed.1.trans hrest.1.symm, hframed.2.trans hrest.2.symm⟩
  refine @Stage.reading _ _ _ _ rest [] q hq ⟨hcounters.1, hcounters.2, ⟨p, hp, hmarked⟩, hproper, ?_, ?_,
    ?_, ?_, hcgi, ?_⟩ rfl hbody.symm ?_ hruns
  · rw [← length_raw, hraw]
  · exact Int.le_refl 0
  · show (0 : Int) + rest.pending.length ≤ int32Max
    omega
  · show (0 : Int) + rest.pending.length ≤ ctx.rule.getMaxBodySize
    omega
  · exact fun hnone : (pair.1 : Int) = -1 => by omega
  · show SendsOnly ctx.world.calls []
    rw [hcalls]
    exact .nil

/-! ## The body -/

/-- **The request body of a CGI.**  A POST whose CGI runs gets a well-formed body within the limit, and
every `send` takes all the bytes it is given.  However the stream is cut into appends, and wherever
`CGIOut` is called in between, no error status is set and what was sent is a part of the body; and a
call of `CGIOut` after the last append, or one before, has sent the body to its end and then closed the
input of the CGI, once. -/
theorem relays_body {ctx : RequestContext} {sys : Sys} {h : Handler}
    (hcreate : createRequest .post ctx = .ok h) (hcgi : h.request.cgiPath.isSome = true)
    (hcalls : ctx.world.calls = [])
    (hruns : (processing sys h).context.response.statusCode = statusNone)
    (body : RequestBody) (hannounced : body.Announced ctx.headers)
    (hlimit : (body.data.length : Int) ≤ ctx.rule.getMaxBodySize)
    (hsize : (body.stream.length : Int) ≤ int32Max) (es : List RelayEvent)
    (hstream : ctx.buffer ++ es.flatMap RelayEvent.appended = body.stream)
    (htakes : ∀ e ∈ es, e.TakesAll body.stream.length) :
    (∀ before after, es = before ++ after → Progress body.data ((processing sys h).relay before)) ∧
      ∀ last : Sys, last.TakesAll body.stream.length →
        Closed body.data ((processing sys h).relay (es ++ [.cgiOut last])) := by
  constructor
  · rintro before after rfl
    rw [List.flatMap_append, ← List.append_assoc] at hstream
    rw [List.append_assoc] at hstream
    have hstage := stage_processing hcreate hcgi hcalls hruns hannounced hlimit hsize hstream
    exact (hstage.relay hsize before fun e he => htakes e (List.mem_append_left _ he)).progress
  · intro last hlast
    rw [← List.append_nil (es.flatMap RelayEvent.appended)] at hstream
    have hstage := stage_processing hcreate hcgi hcalls hruns hannounced hlimit hsize hstream
    rw [relay, Transition.run_append]
    exact ((hstage.relay hsize es htakes).cgiOut hlast hsize).2 rfl

/-! ## A body of one chunk -/

/-- The head of a chunked POST to a script was read, and nothing more. -/
def postContext : RequestContext where
  server := .single 3 {} fun _ => 0
  ruleBlock := some {
    path := Path.ofString (bytes "/")
    root := Path.ofString (bytes "/r/")
    maxBodySize := 100
    maxBodySize_le := hundred_le_int32Max
    gcis := OrderedMap.empty.insert (bytes "php") (Path.ofString (bytes "/php")) }
  target := bytes "/x.php"
  headers := OrderedMap.empty.insert headerTransferEncoding headerTransferChunke
  world := { fs := { table := fun p => if p = bytes "/php" then some { kind := .regular [] } else none } }

def postHandler : Handler where
  context := postContext.setState RequestKind.post.initState
  request := {
    kind := .post
    path := localPath postContext.rule (bytes "/x.php")
    cgiPath := some (Path.ofString (bytes "/php")) }

set_option maxRecDepth 10000 in
def oneChunk : HexChunk where
  size := bytes "1"
  data := bytes "a"
  isNumeral := ⟨by decide, by decide, by decide⟩
  ne_nil := by decide

set_option maxRecDepth 10000 in
/-- The size line is cut, and `CGIOut` is called in the middle of it. -/
theorem relays_body_cut :
    Closed (bytes "a") ((processing (.quiet 0) postHandler).relay
      ([.append (bytes "1\r"), .cgiOut (.quiet 0), .append (bytes "\na\r\n0\r\n\r\n")] ++
        [.cgiOut (.quiet 0)])) := by
  have htakes : (Sys.quiet 0).TakesAll (RequestBody.chunked [oneChunk]).stream.length :=
    fun _ => ⟨_, by decide, rfl⟩
  refine (@relays_body postContext (.quiet 0) postHandler rfl (by decide) (by decide) (by decide)
    (.chunked [oneChunk]) ⟨by decide, by decide⟩ (by decide) (by decide)
    [.append (bytes "1\r"), .cgiOut (.quiet 0), .append (bytes "\na\r\n0\r\n\r\n")] (by decide) ?_).2
      (.quiet 0) htakes
  simp only [List.forall_mem_cons]
  exact ⟨trivial, htakes, trivial, fun _ hmem => absurd hmem List.not_mem_nil⟩

end Handler
end Webserv
