import Webserv.Effects.Reading

/-!
# What a request adds to the response stream

The response stream is what was sent on the client socket and what waits to be sent.  `workOut` only adds to
it; `readCGI` adds to it after the head of the CGI, and renders that head once.

* `readsCGI_readCGI`: the fields that `readCGI` may change, and what it does to the stream.
* `produces_workOut`: the same for `workOut`.

## Why fields and effects are apart

Each of the two functions is looked at once, and everything that is asked about it later follows from what
is said here.  It has two parts.  The first says which fields may have changed at all: the new handler is
the old one with a few fields replaced (`withCGI`, `withOutput`), and all others come out equal by
computation, without a lemma for each.  The second says what happened to the fields that matter: the stream
was extended, or what waited was replaced by a response.  `Extends` composes, so that a function which calls
another has the effect of both.

## Why the end of the CGI's head is a case

The output of a CGI is read into a buffer of its own until its head is complete.  Then the head of the
response is rendered and assigned to the output, and whatever is left goes behind it; from then on the
output is extended.  A malformed head and the end of the file lead to an error that is rendered in the same
place.  `ReadsCGI` has these as alternatives, and the flag for the head of the CGI tells which of them it
was.
-/

namespace Webserv

/-! ## The response stream -/

/-- The response stream got more bytes at its end, and nothing of it was taken back: no head was rendered. -/
structure RequestContext.Extends (ctx ctx' : RequestContext) (data : Bytes) : Prop where
  responseBuffer : ctx'.responseBuffer = ctx.responseBuffer ++ data
  sent : ctx'.world.sent = ctx.world.sent
  heads : ctx'.world.heads = ctx.world.heads

/-- The bytes that waited to be sent were replaced by a response and what follows it. -/
structure RequestContext.Replaces (ctx ctx' : RequestContext) (r : Response) (data : Bytes) :
    Prop where
  responseBuffer : ctx'.responseBuffer = r.response ++ data
  sent : ctx'.world.sent = ctx.world.sent
  heads : ctx'.world.heads = ctx.world.heads ++ [r]

theorem RequestContext.Extends.refl (ctx : RequestContext) : ctx.Extends ctx [] :=
  ⟨(List.append_nil _).symm, rfl, rfl⟩

theorem RequestContext.Extends.trans {ctx₁ ctx₂ ctx₃ : RequestContext} {x y : Bytes}
    (h₁₂ : ctx₁.Extends ctx₂ x) (h₂₃ : ctx₂.Extends ctx₃ y) : ctx₁.Extends ctx₃ (x ++ y) where
  responseBuffer := by rw [h₂₃.responseBuffer, h₁₂.responseBuffer, List.append_assoc]
  sent := h₂₃.sent.trans h₁₂.sent
  heads := h₂₃.heads.trans h₁₂.heads

namespace Handler

/-! ## The output of the CGI -/

/-- The fields that `readCGI` may change; all others of a handler are the same after it by computation. -/
structure CGIFields where
  requestState : RequestState
  response : Response
  responseBuffer : Bytes
  heads : List Response
  calls : List CgiCall
  readBuffer : Bytes
  cgiSilent : Bool

def withCGI (h : Handler) (f : CGIFields) : Handler where
  context := { h.context with
    requestState := f.requestState
    response := f.response
    responseBuffer := f.responseBuffer
    world := { h.context.world with heads := f.heads, calls := f.calls } }
  request := { h.request with readBuffer := f.readBuffer, cgiSilent := f.cgiSilent }

/-- The fields of a handler that `readCGI` may change. -/
def cgiFields (h : Handler) : CGIFields where
  requestState := h.context.requestState
  response := h.context.response
  responseBuffer := h.context.responseBuffer
  heads := h.context.world.heads
  calls := h.context.world.calls
  readBuffer := h.request.readBuffer
  cgiSilent := h.request.cgiSilent

/-- The handler with other response headers and another buffer of bytes read from the CGI: what the
lines of a head that is not complete change. -/
def withLines (h : Handler) (headers : StringMap) (readBuffer : Bytes) : Handler where
  context := { h.context with response := { h.context.response with headers := headers } }
  request := { h.request with readBuffer := readBuffer }

/-- The three ends of `_parseCGIHeaders`: more lines are awaited, the empty line has come, or a line is
malformed. -/
inductive CGIParsed (h : Handler) : Handler → Prop where
  | waiting (headers : StringMap) (readBuffer : Bytes) : CGIParsed h (h.withLines headers readBuffer)
  | ended (headers : StringMap) (readBuffer : Bytes) :
      CGIParsed h (h.withLines headers readBuffer).endCGIHeaders
  | refused (headers : StringMap) (readBuffer : Bytes) :
      CGIParsed h (h.withLines headers readBuffer).refuseCGIHeaders

theorem cgiParsed_parseCGIHeadersLoop (h : Handler) : ∀ (n : Nat) (headers : StringMap)
    (readBuffer : Bytes), CGIParsed h (parseCGIHeadersLoop n (h.withLines headers readBuffer))
  | 0, headers, readBuffer => .waiting headers readBuffer
  | n + 1, headers, readBuffer => by
    rw [parseCGIHeadersLoop]
    have hread : (h.withLines headers readBuffer).request.readBuffer = readBuffer := rfl
    rw [hread]
    cases BinaryBuffer.find readBuffer crlf with
    | none => exact .waiting headers readBuffer
    | some pos =>
      dsimp only
      split_ifs
      · exact .ended headers (BinaryBuffer.erase readBuffer 0 (pos + 2))
      · cases Search.findSub (bytes ": ") (BinaryBuffer.substr readBuffer 0 pos) with
        | none => exact .refused headers (BinaryBuffer.erase readBuffer 0 (pos + 2))
        | some colon => exact cgiParsed_parseCGIHeadersLoop h n _ _

theorem cgiParsed_parseCGIHeaders (h : Handler) : CGIParsed h (parseCGIHeaders h) :=
  cgiParsed_parseCGIHeadersLoop h _ h.context.response.headers h.request.readBuffer

/-- What `readCGI` does to a handler: more output follows a head that is there, or a head is
rendered where none was. -/
structure ReadsCGI (h h' : Handler) : Prop where
  fields : ∃ f, h' = h.withCGI f
  le : h.context.requestState.Le h'.context.requestState
  calls : ∃ calls, h'.context.world.calls = h.context.world.calls ++ calls ∧
    ∀ call ∈ calls, call.fd = h.context.cgiSocket ∧ ∀ fd unread len sent,
      call ≠ .send fd unread len sent
  stream : (∃ data, h.context.Extends h'.context data ∧
        (data ≠ [] → h.context.requestState.cgiHeaders = true) ∧
        h'.context.requestState.cgiHeaders = h.context.requestState.cgiHeaders ∧
        h'.context.response.statusCode = h.context.response.statusCode) ∨
      h.context.requestState.cgiIn = false ∧ h.context.requestState.cgiHeaders = false ∧
        (h'.context.requestState.cgiIn = true ∨ h'.context.requestState.cgiHeaders = true) ∧
        ∃ r data, h.context.Replaces h'.context r data

/-- The head of the CGI is rendered with the status that it gives. -/
theorem endCGIHeaders_eq (h : Handler) :
    ∃ response, h.endCGIHeaders = render { h with
      context := { h.context with
        response := response
        requestState := h.context.requestState.setCgiHeadersComplete } } := by
  unfold endCGIHeaders setCGIStatus
  cases h.context.response.headers.find? headerStatus with
  | none => exact ⟨_, rfl⟩
  | some value => exact ⟨_, rfl⟩

/-- The bytes after a head that was just rendered follow it. -/
theorem readsCGI_forwardCGI {h h' : Handler} (hreads : ReadsCGI h h')
    (hnone : h.context.requestState.cgiHeaders = false) : ReadsCGI h h'.forwardCGI := by
  unfold forwardCGI
  split_ifs with hforward
  · obtain ⟨⟨f, rfl⟩, hle, hcalls, hstream⟩ := hreads
    refine ⟨⟨{ f with
      responseBuffer := f.responseBuffer ++ f.readBuffer, readBuffer := [], cgiSilent := false },
      rfl⟩, hle, hcalls, ?_⟩
    rcases hstream with ⟨data, -, -, hsame, -⟩ | ⟨hin, hheaders, hset, r, data, hreplaces⟩
    · have hset := hforward.1
      rw [RequestState.isCgiHeadersComplete, hsame, hnone] at hset
      cases hset
    · refine Or.inr ⟨hin, hheaders, hset, r, data ++ f.readBuffer, ?_, hreplaces.sent,
        hreplaces.heads⟩
      show f.responseBuffer ++ f.readBuffer = _
      rw [← List.append_assoc, ← hreplaces.responseBuffer]
      rfl
  · exact hreads

/-- `recv` was called, and nothing was done to the stream. -/
theorem ReadsCGI.of_extend {h : Handler} (f : CGIFields)
    (hle : h.context.requestState.Le f.requestState)
    (hcalls : f.calls = h.context.world.calls ++ [.recv h.context.cgiSocket]) {data : Bytes}
    (hextends : h.context.Extends (h.withCGI f).context data)
    (hdata : data ≠ [] → h.context.requestState.cgiHeaders = true)
    (hsame : f.requestState.cgiHeaders = h.context.requestState.cgiHeaders)
    (hstatus : f.response.statusCode = h.context.response.statusCode) :
    ReadsCGI h (h.withCGI f) := by
  refine ⟨⟨f, rfl⟩, hle, ⟨_, hcalls, ?_⟩, Or.inl ⟨data, hextends, hdata, hsame, hstatus⟩⟩
  intro call hmem
  rw [List.mem_singleton.mp hmem]
  exact ⟨rfl, by simp⟩

/-- `recv` was called, and a head was rendered. -/
theorem ReadsCGI.of_replace {h : Handler} (f : CGIFields)
    (hle : h.context.requestState.Le f.requestState)
    (hcalls : f.calls = h.context.world.calls ++ [.recv h.context.cgiSocket])
    (hin : h.context.requestState.cgiIn = false) (hheaders : h.context.requestState.cgiHeaders = false)
    (hset : f.requestState.cgiIn = true ∨ f.requestState.cgiHeaders = true)
    (hreplaces : h.context.Replaces (h.withCGI f).context f.response []) :
    ReadsCGI h (h.withCGI f) := by
  refine ⟨⟨f, rfl⟩, hle, ⟨_, hcalls, ?_⟩, Or.inr ⟨hin, hheaders, hset, _, _, hreplaces⟩⟩
  intro call hmem
  rw [List.mem_singleton.mp hmem]
  exact ⟨rfl, by simp⟩

/-- What `readCGI` does, whatever `recv` answers.  Its callers use this and do not open the function. -/
theorem readsCGI_readCGI (sys : Sys) (h : Handler) : ReadsCGI h (readCGI sys h).2 := by
  unfold readCGI
  by_cases hin : h.context.requestState.isCgiInComplete
  · rw [if_pos hin]
    exact ⟨⟨h.cgiFields, rfl⟩, .refl _, ⟨[], (List.append_nil _).symm, by simp⟩,
      Or.inl ⟨[], .refl _, fun hne => absurd rfl hne, rfl, rfl⟩⟩
  rw [if_neg hin]
  replace hin : h.context.requestState.cgiIn = false := Bool.eq_false_iff.mpr hin
  let calls := h.context.world.calls ++ [.recv h.context.cgiSocket]
  have hcomplete := h.context.requestState.le_setWorkComplete
  have hkeep : ∀ ctx : RequestContext, ctx.responseBuffer = h.context.responseBuffer →
      ctx.world.sent = h.context.world.sent → ctx.world.heads = h.context.world.heads →
      h.context.Extends ctx [] := fun ctx hbuffer hsent hheads =>
    ⟨by rw [hbuffer, List.append_nil], hsent, hheads⟩
  cases sys.recv with
  | closed =>
    dsimp only
    split_ifs with hheaders
    · exact .of_extend { h.cgiFields with
        calls := calls, requestState := h.context.requestState.setWorkComplete } hcomplete rfl
        (hkeep _ rfl rfl rfl) (fun hne => absurd rfl hne) rfl rfl
    · exact .of_replace { h.cgiFields with
        calls := calls, requestState := h.context.requestState.setWorkComplete,
        response := _, responseBuffer := _, heads := _ } hcomplete rfl hin
        (Bool.eq_false_iff.mpr hheaders) (Or.inl rfl) ⟨(List.append_nil _).symm, rfl, rfl⟩
  | error =>
    exact .of_extend { h.cgiFields with
      calls := calls, requestState := h.context.requestState.setWorkComplete } hcomplete rfl
      (hkeep _ rfl rfl rfl) (fun hne => absurd rfl hne) rfl rfl
  | data packet =>
    dsimp only
    split_ifs with hheaders
    · -- the head is there: what was read follows it
      unfold forwardCGI
      split_ifs
      · exact .of_extend { h.cgiFields with
          calls := calls, responseBuffer := _, readBuffer := [], cgiSilent := false } (.refl _) rfl
          ⟨rfl, rfl, rfl⟩ (fun _ => hheaders) rfl rfl
      · exact .of_extend { h.cgiFields with calls := calls, readBuffer := _ } (.refl _) rfl
          (hkeep _ rfl rfl rfl) (fun hne => absurd rfl hne) rfl rfl
    · have hnone : h.context.requestState.cgiHeaders = false := Bool.eq_false_iff.mpr hheaders
      refine readsCGI_forwardCGI ?_ hnone
      have hparsed := cgiParsed_parseCGIHeaders { h with
        context := h.context.record (.recv h.context.cgiSocket)
        request := { h.request with readBuffer := h.request.readBuffer ++ packet.bytes } }
      change CGIParsed _ (parseCGIHeaders _) at hparsed
      generalize parseCGIHeaders _ = h' at hparsed ⊢
      cases hparsed with
      | waiting headers readBuffer =>
        exact .of_extend { h.cgiFields with calls := calls, response := _, readBuffer := readBuffer }
          (.refl _) rfl (hkeep _ rfl rfl rfl) (fun hne => absurd rfl hne) rfl rfl
      | ended headers readBuffer =>
        obtain ⟨response, heq⟩ := endCGIHeaders_eq
          (withLines { h with
            context := h.context.record (.recv h.context.cgiSocket)
            request := { h.request with readBuffer := h.request.readBuffer ++ packet.bytes } }
            headers readBuffer)
        rw [heq]
        refine .of_replace { h.cgiFields with
          calls := calls, response := response, readBuffer := readBuffer, responseBuffer := _,
          heads := _, requestState := h.context.requestState.setCgiHeadersComplete } ?_ rfl hin
          hnone (Or.inr rfl) ⟨(List.append_nil _).symm, rfl, rfl⟩
        constructor <;> simp +contextual [RequestState.setCgiHeadersComplete]
      | refused headers readBuffer =>
        refine .of_replace { h.cgiFields with
          calls := calls, response := _, readBuffer := readBuffer, responseBuffer := _, heads := _,
          requestState := h.context.requestState.setCgiHeadersComplete.setCgiInComplete } ?_ rfl hin
          hnone (Or.inl rfl) ⟨(List.append_nil _).symm, rfl, rfl⟩
        constructor <;>
          simp +contextual [RequestState.setCgiHeadersComplete, RequestState.setCgiInComplete]

/-- A GET and a POST read from their CGI. -/
theorem CGIIn_eq (sys : Sys) {h : Handler} (hkind : h.request.kind = .get ∨ h.request.kind = .post) :
    CGIIn sys h = readCGI sys h := by
  unfold CGIIn
  rcases hkind with hkind | hkind <;> rw [hkind]

/-! ## The output of a GET -/

/-- The fields that `workOut` may change; all others of a handler are the same after it by computation. -/
structure OutputFields where
  workOut : Bool
  response : Response
  responseBuffer : Bytes
  input : IStream
  directory : Option (List Bytes)

def withOutput (h : Handler) (f : OutputFields) : Handler where
  context := { h.context with
    requestState := { h.context.requestState with workOut := f.workOut }
    response := f.response
    responseBuffer := f.responseBuffer }
  request := { h.request with input := f.input, directory := f.directory }

/-- The fields of a handler that `workOut` may change. -/
def outputFields (h : Handler) : OutputFields where
  workOut := h.context.requestState.workOut
  response := h.context.response
  responseBuffer := h.context.responseBuffer
  input := h.request.input
  directory := h.request.directory

/-- What `workOut` does to a handler: only a GET has output, and its stream grows by what was read. -/
structure Produces (h h' : Handler) : Prop where
  fields : ∃ f, h' = h.withOutput f
  workOut : h.context.requestState.workOut = true → h'.context.requestState.workOut = true
  stream : ∃ data, h.context.Extends h'.context data ∧ (data ≠ [] → h.request.kind = .get)

theorem Produces.of_silent {h : Handler} (f : OutputFields)
    (hworkOut : h.context.requestState.workOut = true → f.workOut = true)
    (hbuffer : f.responseBuffer = h.context.responseBuffer) : Produces h (h.withOutput f) :=
  ⟨⟨f, rfl⟩, hworkOut, [], ⟨by rw [List.append_nil]; exact hbuffer, rfl, rfl⟩,
    fun hne => absurd rfl hne⟩

theorem produces_readFile {h : Handler} (hget : h.request.kind = .get) : Produces h (readFile h).2 := by
  unfold readFile
  dsimp only
  split_ifs
  · exact .of_silent { h.outputFields with input := _, workOut := true } (fun _ => rfl) rfl
  · exact ⟨⟨{ h.outputFields with input := _, responseBuffer := _ }, rfl⟩, id, _, ⟨rfl, rfl, rfl⟩,
      fun _ => hget⟩

theorem Produces.trans {h₁ h₂ h₃ : Handler} (h₁₂ : Produces h₁ h₂) (h₂₃ : Produces h₂ h₃) :
    Produces h₁ h₃ := by
  obtain ⟨⟨f, rfl⟩, hworkOut, data, hextends, hdata⟩ := h₁₂
  obtain ⟨⟨g, rfl⟩, hworkOut', data', hextends', hdata'⟩ := h₂₃
  refine ⟨⟨g, rfl⟩, hworkOut' ∘ hworkOut, data ++ data', hextends.trans hextends', fun hne => ?_⟩
  by_cases hnil : data = []
  · rw [hnil, List.nil_append] at hne
    exact hdata' hne
  · exact hdata hnil

theorem produces_addBody (h : Handler) (body : Bytes) : Produces h (h.addBody body) :=
  .of_silent { h.outputFields with response := h.context.response.addBody body } id rfl

/-- A part of a listing is sent. -/
theorem produces_sendListing {h : Handler} (hget : h.request.kind = .get) : Produces h h.sendListing :=
  ⟨⟨{ h.outputFields with
      response := h.context.response.clearBody
      responseBuffer := h.context.responseBuffer ++ cstr h.context.response.body }, rfl⟩, id, _,
    ⟨rfl, rfl, rfl⟩, fun _ => hget⟩

theorem produces_readDir (sys : Sys) {h : Handler} (hget : h.request.kind = .get) :
    Produces h (readDir sys h).2 := by
  unfold readDir
  cases h.request.directory with
  | none => exact .of_silent h.outputFields id rfl
  | some entries =>
    dsimp only
    generalize readEntries (entryRow sys h) sys.readdirFails entries 0 0 [] = r
    obtain ⟨buffer, batch⟩ := r
    have hdirectory : ∀ entries : List Bytes, Produces h { h with
        request := { h.request with directory := some entries } } := fun entries =>
      .of_silent { h.outputFields with directory := some entries } id rfl
    cases batch with
    | failed => exact .of_silent { h.outputFields with response := _ } id rfl
    | full entries =>
      exact ((hdirectory entries).trans (produces_addBody _ buffer)).trans (produces_sendListing hget)
    | last =>
      refine (((hdirectory []).trans (produces_addBody _ buffer)).trans
        (produces_addBody _ htmlFooter)).trans (.trans ?_ (produces_sendListing hget))
      exact .of_silent { outputFields _ with workOut := true } (fun _ => rfl) rfl

/-- What `workOut` does, for each of the five classes.  Only a GET puts something out, and the base class
throws. -/
theorem produces_workOut (sys : Sys) (h : Handler) : Produces h (workOut sys h).2 := by
  have hsame : Produces h h := .of_silent h.outputFields id rfl
  unfold workOut
  cases hkind : h.request.kind with
  | get =>
    show Produces h (workOutGET sys h).2
    unfold workOutGET
    split_ifs
    · exact produces_readFile hkind
    · exact produces_readDir sys hkind
    · exact hsame
  | post => exact .of_silent { h.outputFields with workOut := true } (fun _ => rfl) rfl
  | delete => exact hsame
  | put => exact hsame
  | head => exact hsame

end Handler
end Webserv
