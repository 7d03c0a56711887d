import Webserv.Resolution
import Webserv.ResponseStream

/-!
# Responses to HEAD

`Response::response` puts a body after the head for every method.  A response to HEAD has none as long as
nobody gives it one, and two places do: the built-in error page is made the body, and a custom page is read
when `WORK_OUT` is clear, because a timeout has cleared it or because there is no request object whose
constructor set it.

* `HeadsOnly`: the bytes belong to heads, and nothing follows a whole head.
* `Client.answered`: the client for which a step starts a response.
* `Client.BringsBody`: the two places.
* `headsOnly_run`: the runs without these two places send nothing but heads.
* `not_headsOnly`: the built-in page of 404 is sent after the head.

## Why starts of heads

A head can be replaced when a part of it has been sent: a further packet of the client, or a timeout,
assigns the buffer.  The bytes on the wire are then a piece of the first head and the beginning of the
second.  None of them belongs to a body, so this is allowed here, and `HeadsOnly` says exactly that: starts
of heads, none of them whole, and at last a start of the last one.  With one head it is the plain statement
that a start of this head was sent.

## Why the method is carried along

Nothing in the output tells which method it answers.  The class of the request object is the method's, and
both stay for the life of the client, which is a part of the invariant (`Bodiless`): the object is of the
class of the method, and if that is HEAD, the client sends heads.  The constructor of HEAD sets `WORK_OUT`,
so `handleOut` reads nothing.  Without an object this flag is unset, and an error before the object exists
is where a page gets in.
-/

namespace Webserv

/-! ## Heads that are sent -/

/-- Starts of heads, one after the other, and none of the heads is whole. -/
inductive CutHeads : List Response → Bytes → Prop where
  | nil : CutHeads [] []
  | concat {heads : List Response} {sent piece : Bytes} {r : Response} (hcut : CutHeads heads sent)
      (hpiece : piece <+: r.head) (hne : piece ≠ r.head) : CutHeads (heads ++ [r]) (sent ++ piece)

/-- The bytes are a start of the last head, after starts of the heads that it replaced. -/
inductive HeadsOnly : List Response → Bytes → Prop where
  | nil : HeadsOnly [] []
  | concat {heads : List Response} {sent piece : Bytes} {r : Response} (hcut : CutHeads heads sent)
      (hpiece : piece <+: r.head) : HeadsOnly (heads ++ [r]) (sent ++ piece)

/-- The same, when the rest of the last head waits to be sent. -/
inductive HeadStream : List Response → Bytes → Bytes → Prop where
  | nil : HeadStream [] [] []
  | concat {heads : List Response} {sent piece rest : Bytes} {r : Response}
      (hcut : CutHeads heads sent) (hhead : piece ++ rest = r.head) :
      HeadStream (heads ++ [r]) (sent ++ piece) rest

theorem CutHeads.nil_iff {sent : Bytes} : CutHeads [] sent ↔ sent = [] := by
  constructor
  · intro h
    generalize hheads : ([] : List Response) = heads at h
    cases h with
    | nil => rfl
    | concat => exact absurd hheads.symm (List.append_ne_nil_of_right_ne_nil _ (List.cons_ne_nil _ _))
  · rintro rfl
    exact .nil

/-- With one head, the bytes are a start of it. -/
theorem headsOnly_singleton {r : Response} {sent : Bytes} : HeadsOnly [r] sent ↔ sent <+: r.head := by
  constructor
  · intro h
    generalize hheads : [r] = heads at h
    cases h with
    | nil => cases hheads
    | concat hcut hpiece =>
      rw [← List.nil_append [r]] at hheads
      obtain ⟨hnil, hr⟩ := List.append_inj' hheads rfl
      cases hr
      rw [← hnil, CutHeads.nil_iff] at hcut
      rw [hcut, List.nil_append]
      exact hpiece
  · intro h
    exact @HeadsOnly.concat [] [] sent r .nil h

namespace HeadStream

variable {heads : List Response} {sent rest : Bytes}

theorem headsOnly (h : HeadStream heads sent rest) : HeadsOnly heads sent := by
  cases h with
  | nil => exact .nil
  | concat hcut hhead => exact .concat hcut ⟨_, hhead⟩

/-- Some of the rest is sent. -/
theorem send (h : HeadStream heads sent rest) (n : Nat) :
    HeadStream heads (sent ++ rest.take n) (rest.drop n) := by
  cases h with
  | nil =>
    rw [List.take_nil, List.drop_nil]
    exact .nil
  | concat hcut hhead =>
    rw [List.append_assoc]
    refine .concat hcut ?_
    rw [List.append_assoc, List.take_append_drop]
    exact hhead

/-- A head is rendered in the place of the rest of the last one. -/
theorem render (h : HeadStream heads sent rest) (hrest : heads ≠ [] → rest ≠ []) (r : Response) :
    HeadStream (heads ++ [r]) sent r.head := by
  have hcut : CutHeads heads sent := by
    cases h with
    | nil => exact .nil
    | concat hcut hhead =>
      have hne := hrest (List.append_ne_nil_of_right_ne_nil _ (List.cons_ne_nil _ _))
      refine .concat hcut ⟨_, hhead⟩ fun hwhole => hne ?_
      rw [hwhole] at hhead
      exact List.append_right_eq_self.mp hhead
  have hstream := HeadStream.concat hcut (List.nil_append r.head)
  rw [List.append_nil] at hstream
  exact hstream

end HeadStream
namespace Client

/-! ## The client that is answered -/

/-- The client whose response can be started, with what is left of its body read. -/
def worked (c : Client) (sys : Sys) : Option Client :=
  match c.bodyHandler with
  | none => some c
  | some h =>
    match Handler.workIn sys h with
    | (.reqDone, h) => some ((c.touch .clientBody sys.now).withHandler h)
    | _ => none

/-- The client for which a step starts a response: `startResponse` is called for it after a read of the
socket, and `respondTimeout` after a timeout. -/
def answered (c : Client) : Event → Option Client
  | .clientIn sys => (c.received sys).bind fun c => (c.parsed sys).bind fun c => c.worked sys
  | .timeoutCheck sys =>
    if c.headerTimeout sys.now then
      some ((c.setStatusCode statusRequestTimeout).setState RequestState.setReadComplete)
    else if c.bodyTimeout sys.now then some (c.setStatusCode statusRequestTimeout)
    else if c.sendTimeout sys.now && !c.hasSpoken then
      some ((c.setResponse c.context.response.clear).setStatusCode statusGatewayTimeout)
    else none
  | _ => none

/-- The response gets the built-in error page, which is put into its body whatever the method is. -/
def needsBuiltIn (c : Client) (sys : Sys) : Bool := c.hasError && !(c.openErrorPage sys).1

/-- A custom error page is about to be sent. -/
def ReadsPage (c : Client) : Prop :=
  c.context.requestState.workOut = false ∧ c.hasError = true ∧
    (c.errorPage.read reqBufferSize).1 ≠ []

/-- The step makes the built-in error page a body, or sends a piece of a custom one. -/
def BringsBody (c : Client) (e : Event) : Prop :=
  match e with
  | .clientIn sys | .timeoutCheck sys => (c.answered e).any (needsBuiltIn · sys) = true
  | .clientOut _ => c.ReadsPage
  | _ => False

/-! ## Pages that are not sent -/

/-- A custom page leaves the flags and the body. -/
theorem loadErrorPage_page {c : Client} {sys : Sys} (h : (c.openErrorPage sys).1 = true) :
    ∃ response errorPage,
      c.loadErrorPage sys = c.withPage ⟨c.context.requestState, response, errorPage⟩ ∧
        response.body = c.context.response.body ∧
        response.statusCode = c.context.response.statusCode := by
  unfold loadErrorPage
  unfold openErrorPage at h ⊢
  cases hpage : c.customErrorPage sys with
  | none =>
    rw [hpage] at h
    cases h
  | some path =>
    rw [hpage] at h
    dsimp only at h ⊢
    split_ifs at h ⊢
    exact ⟨_, _, rfl, rfl, rfl⟩

/-- Without the built-in page the preparation of an error leaves the flags and the body. -/
theorem prepareError_page {c : Client} {sys : Sys} (h : c.needsBuiltIn sys = false) :
    ∃ response errorPage,
      c.prepareError sys = c.withPage ⟨c.context.requestState, response, errorPage⟩ ∧
        response.body = c.context.response.body ∧
        response.statusCode = c.context.response.statusCode := by
  unfold prepareError
  cases herror : c.hasError with
  | false =>
    rw [if_neg Bool.false_ne_true]
    exact ⟨c.context.response, c.errorPage, rfl, rfl, rfl⟩
  | true =>
    rw [if_pos rfl]
    rw [needsBuiltIn, herror, Bool.true_and, Bool.not_eq_false'] at h
    let c₁ := c.setResponse (c.context.response.setHeader headerContentType (bytes "text/html"))
    have hopen : (c₁.openErrorPage sys).1 = true := by
      rw [openErrorPage_fst] at h ⊢
      exact h
    exact loadErrorPage_page hopen

/-! ## A response without a body -/

/-- The client has sent nothing but heads, and has no body to send. -/
structure SendsHeads (c : Client) : Prop where
  stream : HeadStream c.context.world.heads c.context.world.sent c.context.responseBuffer
  body : c.context.response.body = []
  /-- A client whose head is sent is dropped. -/
  unsent : c.closed = false → c.context.world.heads ≠ [] → c.context.responseBuffer ≠ []
  rendered : c.context.world.heads ≠ [] → c.context.requestState.cgiIn = true
  work : c.context.requestState.cgiIn = true → c.context.requestState.cgiOut = true ∧
    (c.context.requestState.workOut = true ∨ c.hasError = true)

/-- Nothing was sent yet. -/
theorem sendsHeads_of_output {c : Client} (houtput : c.output = [])
    (hheads : c.context.world.heads = []) (hbody : c.context.response.body = [])
    (hwork : c.context.requestState.cgiIn = true → c.context.requestState.cgiOut = true ∧
      (c.context.requestState.workOut = true ∨ c.hasError = true)) : SendsHeads c where
  stream := by
    obtain ⟨hsent, hbuffer⟩ := List.append_eq_nil_iff.mp houtput
    rw [hheads, hsent, hbuffer]
    exact .nil
  body := hbody
  unsent := fun _ hne => absurd hheads hne
  rendered := fun hne => absurd hheads hne
  work := hwork

theorem AwaitsHead.sendsHeads {c : Client} (h : AwaitsHead c) : SendsHeads c := by
  obtain ⟨requestLine, hstate⟩ := h.requestState
  refine sendsHeads_of_output h.output h.heads ?_ fun hcgi => ?_
  · rw [h.response]
    rfl
  · rw [hstate] at hcgi
    cases hcgi

theorem SendsHeads.closed {c : Client} (h : SendsHeads c) : SendsHeads { c with closed := true } :=
  { h with unsent := fun hopen => nomatch hopen }

theorem SendsHeads.settle {r : Ret × Client} (h : SendsHeads r.2) (hopen : r.2.closed = false) :
    SendsHeads (settle r) :=
  { h with unsent := fun _ => h.unsent hopen }

theorem SendsHeads.switchToWrite {c : Client} (h : SendsHeads c) (sys : Sys) :
    SendsHeads (c.switchToWrite sys).2 := by
  rcases switchToWrite_cases c sys with heq | heq <;> rw [heq]
  · exact h
  · exact { h with }

/-- The head is rendered, and nothing after it. -/
theorem sendsHeads_render {c : Client}
    (hstream : HeadStream c.context.world.heads c.context.world.sent c.context.responseBuffer)
    (hunsent : c.context.world.heads ≠ [] → c.context.responseBuffer ≠ [])
    (hbody : c.context.response.body = []) (hcgiIn : c.context.requestState.cgiIn = true)
    (hwork : c.context.requestState.cgiOut = true ∧
      (c.context.requestState.workOut = true ∨ c.hasError = true)) : SendsHeads c.render where
  stream := by
    show HeadStream (c.context.world.heads ++ [c.context.response]) c.context.world.sent
      c.context.response.response
    rw [Response.response_eq, hbody, List.append_nil]
    exact hstream.render hunsent _
  body := rfl
  unsent := by
    intro _ _
    show c.context.response.response ≠ []
    rw [Response.response_eq, hbody, List.append_nil]
    exact Response.head_ne_nil _
  rendered := fun _ => hcgiIn
  work := fun _ => hwork

/-- The response is started without the built-in page. -/
theorem SendsHeads.startResponse {c : Client} (h : SendsHeads c) (hopen : c.closed = false)
    {sys : Sys} (hpage : c.needsBuiltIn sys = false) : SendsHeads (c.startResponse sys).2 := by
  obtain ⟨response, errorPage, heq, hbody, hstatus⟩ := prepareError_page hpage
  have herror : (c.prepareError sys).hasError = c.hasError := by
    rw [heq]
    exact congrArg isErrorCode hstatus
  unfold Client.startResponse
  dsimp only
  rw [heq] at herror ⊢
  split_ifs with hcgi
  · refine SendsHeads.switchToWrite (sendsHeads_render ?_ ?_ ?_ ?_ ?_) sys
    · exact h.stream
    · exact h.unsent hopen
    · exact hbody.trans h.body
    · exact hcgi
    · rw [herror]
      exact h.work hcgi
  · refine SendsHeads.switchToWrite ?_ sys
    exact {
      stream := h.stream
      body := hbody.trans h.body
      unsent := h.unsent
      rendered := h.rendered
      work := fun hset => absurd hset hcgi }

/-- A timeout is answered without the built-in page. -/
theorem SendsHeads.respondTimeout {c : Client} {sys : Sys} (hpage : c.needsBuiltIn sys = false)
    (herror : c.hasError = true)
    (hstream : HeadStream c.context.world.heads c.context.world.sent c.context.responseBuffer)
    (hunsent : c.context.world.heads ≠ [] → c.context.responseBuffer ≠ [])
    (hbody : c.context.response.body = []) : SendsHeads (c.respondTimeout sys).2 := by
  unfold Client.respondTimeout
  extract_lets c₁
  rw [needsBuiltIn, herror, Bool.true_and, Bool.not_eq_false'] at hpage
  have hopen : (c₁.openErrorPage sys).1 = true := by
    rw [openErrorPage_fst] at hpage ⊢
    exact hpage
  obtain ⟨response, errorPage, heq, hbody', hstatus⟩ := loadErrorPage_page hopen
  rw [heq]
  refine SendsHeads.switchToWrite (sendsHeads_render ?_ ?_ ?_ rfl ⟨rfl, Or.inr ?_⟩) sys
  · exact hstream
  · exact hunsent
  · exact hbody'.trans hbody
  · rw [← herror]
    exact congrArg isErrorCode hstatus

theorem closed_switchToWrite (c : Client) (sys : Sys) : (c.switchToWrite sys).2.closed = c.closed := by
  rcases switchToWrite_cases c sys with heq | heq <;> rw [heq]
  rfl

theorem closed_startResponse (c : Client) (sys : Sys) : (c.startResponse sys).2.closed = c.closed := by
  obtain ⟨f, heq, -⟩ := prepareError_cases c sys
  unfold Client.startResponse
  dsimp only
  rw [heq, closed_switchToWrite]
  split_ifs <;> rfl

theorem Resolves.closed {c : Client} {sys : Sys} {r : Ret × Client} (h : Resolves c sys r) :
    r.2.closed = c.closed := by
  cases h <;> rfl

theorem AwaitsHead.closed_parseRequest {c : Client} (h : AwaitsHead c) (sys : Sys) :
    (c.parseRequest sys).2.closed = c.closed := by
  have hends := h.headEnds sys
  generalize c.parseRequest sys = r at hends ⊢
  cases hends with
  | waits | refused => rfl
  | resolved f hhead hresolves hret => exact hresolves.closed
  | answered f hhead hresolves => exact hresolves.closed

theorem closed_respondTimeout (c : Client) (sys : Sys) :
    (c.respondTimeout sys).2.closed = c.closed := by
  unfold Client.respondTimeout
  extract_lets c₁
  obtain ⟨f, heq, -⟩ := loadErrorPage_cases c₁ sys
  rw [heq, closed_switchToWrite]
  rfl

/-- A timeout brings no body, as long as a custom page can be opened for it. -/
theorem SendsHeads.timeoutCheck {c : Client} (h : SendsHeads c) (hopen : c.closed = false) {sys : Sys}
    (hbrings : ¬ c.BringsBody (.timeoutCheck sys)) :
    SendsHeads (Client.settle (c.timeoutCheck sys)) := by
  have hpage : ∀ c', c.answered (.timeoutCheck sys) = some c' → c'.needsBuiltIn sys = false := by
    intro c' hc'
    rw [BringsBody, hc'] at hbrings
    exact Bool.eq_false_iff.mpr hbrings
  have hunsent := h.unsent hopen
  unfold Client.timeoutCheck
  unfold answered at hpage
  dsimp only at hpage
  by_cases hheader : c.headerTimeout sys.now = true
  · rw [if_pos hheader] at hpage ⊢
    refine SendsHeads.settle ?_ ((closed_respondTimeout _ sys).trans hopen)
    exact .respondTimeout (hpage _ rfl) rfl h.stream hunsent h.body
  rw [if_neg hheader] at hpage ⊢
  by_cases hbody : c.bodyTimeout sys.now = true
  · rw [if_pos hbody] at hpage ⊢
    refine SendsHeads.settle ?_ ((closed_respondTimeout _ sys).trans hopen)
    exact .respondTimeout (hpage _ rfl) rfl h.stream hunsent h.body
  rw [if_neg hbody] at hpage ⊢
  by_cases hsend : c.sendTimeout sys.now = true
  · rw [if_pos hsend]
    by_cases hspoken : c.hasSpoken = true
    · rw [if_pos hspoken]
      exact h.settle hopen
    · rw [if_neg hspoken]
      rw [hsend, Bool.eq_false_iff.mpr hspoken] at hpage
      refine SendsHeads.settle ?_ ((closed_respondTimeout _ sys).trans hopen)
      exact .respondTimeout (hpage _ rfl) rfl h.stream hunsent rfl
  · rw [if_neg hsend]
    exact h.settle hopen

/-! ## Output -/

theorem isWorkComplete_of_flags {x : RequestState} (hworkIn : x.workIn = true)
    (hworkOut : x.workOut = true) (hcgiIn : x.cgiIn = true) (hcgiOut : x.cgiOut = true) :
    x.isWorkComplete = true := by
  rw [RequestState.isWorkComplete, hworkIn, hworkOut, hcgiIn, hcgiOut]
  rfl

/-- The work before `_sendResponse`, when no page is read: nothing is added to the output. -/
theorem SendsHeads.produce {c : Client} (h : SendsHeads c) (hresponds : Responds c)
    (hopen : c.closed = false) (hkind : ∀ r, c.request = some r → r.kind = .head)
    (hpage : ¬ c.ReadsPage) (sys : Sys) :
    SendsHeads (c.produce sys).2 ∧ (c.produce sys).2.closed = false ∧
      ((c.produce sys).2.context.world.heads ≠ [] →
        (c.produce sys).2.context.requestState.isWorkComplete = true) := by
  have hcomplete : c.context.requestState.workOut = true → c.context.world.heads ≠ [] →
      c.context.requestState.isWorkComplete = true := by
    intro hworkOut hheads
    have hcgi := h.rendered hheads
    exact isWorkComplete_of_flags hresponds.workIn hworkOut hcgi (h.work hcgi).1
  unfold Client.produce
  split_ifs with hwork herror
  · exact ⟨h, hopen, hcomplete hwork⟩
  · have hread : (c.errorPage.read reqBufferSize).1 = [] := by
      by_contra hne
      exact hpage ⟨Bool.eq_false_iff.mpr hwork, herror, hne⟩
    unfold readErrorPage
    dsimp only
    rw [if_pos hread]
    refine ⟨{ h with work := fun hcgi => ⟨(h.work hcgi).1, Or.inl rfl⟩ }, hopen, fun hheads => ?_⟩
    have hcgi := h.rendered hheads
    exact isWorkComplete_of_flags hresponds.workIn rfl hcgi (h.work hcgi).1
  · -- without an error nothing was rendered yet
    have hheads : c.context.world.heads = [] := by
      by_contra hne
      exact (h.work (h.rendered hne)).2.elim hwork herror
    cases hrequest : c.request with
    | none => exact ⟨h, hopen, fun hne => absurd hheads hne⟩
    | some request =>
      have hcall : Handler.workOut sys ⟨c.context, request⟩ =
          (.throws .logicError, ⟨c.context, request⟩) := by
        unfold Handler.workOut
        rw [hkind request hrequest]
      dsimp only
      rw [hcall]
      exact ⟨{ h with }, hopen, fun hne => absurd hheads hne⟩

theorem SendsHeads.takeResponse {c : Client} (h : SendsHeads c) (sys : Sys) (n : Nat)
    (hclosed : (c.takeResponse sys n).sendRet = .reqContinue →
      (c.takeResponse sys n).context.world.heads ≠ [] →
        (c.takeResponse sys n).context.responseBuffer ≠ []) :
    SendsHeads (Client.settle ((c.takeResponse sys n).sendRet, c.takeResponse sys n)) := by
  have hstream : HeadStream (c.takeResponse sys n).context.world.heads
      (c.takeResponse sys n).context.world.sent (c.takeResponse sys n).context.responseBuffer := by
    have hsend := h.stream.send n
    rw [← BinaryBuffer.erase_zero] at hsend
    unfold Client.takeResponse
    split_ifs <;> exact hsend
  refine ⟨hstream, ?_, fun hopen => hclosed (not_not.mp (of_decide_eq_false hopen)), ?_, ?_⟩ <;>
    unfold Client.takeResponse <;> split_ifs
  · exact h.body
  · exact h.body
  · exact h.rendered
  · exact h.rendered
  · exact h.work
  · exact h.work

/-- A client whose work is complete is dropped with the last byte. -/
theorem SendsHeads.sendResponse {c : Client} (h : SendsHeads c) (hopen : c.closed = false)
    (hwork : c.context.world.heads ≠ [] → c.context.requestState.isWorkComplete = true) (sys : Sys) :
    SendsHeads (Client.settle (c.sendResponse sys)) := by
  unfold Client.sendResponse
  dsimp only
  split_ifs
  · cases sys.send with
    | error => exact h.closed
    | accepted n =>
      refine h.takeResponse sys _ fun hret hheads hnil => ?_
      generalize hm : min n _ = m at hret hheads hnil
      have hsame : (c.takeResponse sys m).context.requestState = c.context.requestState ∧
          (c.takeResponse sys m).context.world.heads = c.context.world.heads := by
        unfold Client.takeResponse
        split_ifs <;> exact ⟨rfl, rfl⟩
      rw [hsame.2] at hheads
      have hdone : (c.takeResponse sys m).sendRet = .reqDone := by
        refine if_pos ⟨hnil, ?_⟩
        rw [hsame.1]
        exact hwork hheads
      rw [hdone] at hret
      cases hret
  · exact h.settle hopen

theorem SendsHeads.handleSocketOut {c : Client} (h : SendsHeads c) (hresponds : Responds c)
    (hopen : c.closed = false) (hkind : ∀ r, c.request = some r → r.kind = .head)
    (hpage : ¬ c.ReadsPage) (sys : Sys) : SendsHeads (Client.settle (c.handleSocketOut sys)) := by
  obtain ⟨hsends, hproduced, hwork⟩ := h.produce hresponds hopen hkind hpage sys
  unfold Client.handleSocketOut
  generalize c.produce sys = r at hsends hproduced hwork ⊢
  obtain ⟨ret, c₁⟩ := r
  cases ret with
  | reqContinue => exact hsends.sendResponse hproduced hwork sys
  | reqDone | reqError | throws => exact hsends.closed

/-! ## The method -/

theorem Idles.method {c c' : Client} (h : Idles c c') : c'.context.method = c.context.method := by
  obtain ⟨f, rfl⟩ := h.fields
  rfl

theorem keeps_readBody (sys : Sys) (h : Handler) :
    (Handler.readBody sys h).2.context.method = h.context.method ∧
      (Handler.readBody sys h).2.context.cgiSocket = h.context.cgiSocket := by
  obtain ⟨f, hf⟩ := (Handler.reads_readBody sys h).fields
  rw [hf]
  exact ⟨rfl, rfl⟩

/-- So does a client whose body is read. -/
theorem AwaitsBody.method_handleRequest {c : Client} (h : AwaitsBody c) (sys : Sys) :
    (c.handleRequest sys).2.context.method = c.context.method := by
  obtain ⟨r, -, -, -, hidles, -⟩ := h.handleRequest_reads sys
  rw [hidles.method]
  exact (keeps_readBody sys ⟨c.context, r⟩).1

/-- A client whose head is done with keeps its method and the socket of its CGI. -/
theorem keeps_of_headDone {c : Client} (h : Phase c) (hdone : HeadDone c) (e : Event) :
    (c.step e).context.method = c.context.method ∧
      (c.step e).context.cgiSocket = c.context.cgiSocket := by
  by_cases hclosed : c.closed = true
  · have hstep : c.step e = c := if_pos hclosed
    rw [hstep]
    exact ⟨rfl, rfl⟩
  · have hread := hdone.resolve_left hclosed
    have heffect := effect_step h e
    generalize c.step e = c' at heffect ⊢
    cases heffect with
    | environment => exact ⟨rfl, rfl⟩
    | headOnly hhead => exact absurd hread hhead.not_clientRead
    | request hcreated hbody hidles =>
      rw [hidles.method, hidles.cgiSocket]
      cases hcreated with
      | created _ hhead => exact absurd hread hhead.not_clientRead
      | same =>
        cases hbody with
        | same => exact ⟨rfl, rfl⟩
        | @called sys h c₂ _ _ _ hread _ hcontext =>
          rw [← hread.method, ← hread.cgiSocket, hcontext]
          exact keeps_readBody sys h

theorem keeps_run {c : Client} (h : Phase c) (hdone : HeadDone c) (es : List Event) :
    (c.run es).context.method = c.context.method ∧
      (c.run es).context.cgiSocket = c.context.cgiSocket := by
  have hrun : (Phase (c.run es) ∧ HeadDone (c.run es)) ∧
      (c.run es).context.method = c.context.method ∧
        (c.run es).context.cgiSocket = c.context.cgiSocket :=
    Transition.run_invariant (C := fun _ _ => True)
      (I := fun c' => (Phase c' ∧ HeadDone c') ∧ c'.context.method = c.context.method ∧
        c'.context.cgiSocket = c.context.cgiSocket)
      (fun c' e hc _ => by
        obtain ⟨hmethod, hsocket⟩ := keeps_of_headDone hc.1.1 hc.1.2 e
        exact ⟨⟨(phase_step hc.1.1 e).1, hc.1.2.step e⟩, hmethod.trans hc.2.1, hsocket.trans hc.2.2⟩)
      ⟨⟨h, hdone⟩, rfl, rfl⟩ (Transition.along_of_forall (fun _ _ => trivial) es c)
  exact hrun.2

/-- The request object is of the class of the method, and with HEAD nothing but heads is sent. -/
structure Bodiless (c : Client) : Prop where
  kind : ∀ r, c.request = some r → requestKind c.context.method = some r.kind
  sends : c.context.method = .head → SendsHeads c

theorem Bodiless.of_request_none {c : Client} (hrequest : c.request = none) (h : SendsHeads c) :
    Bodiless c where
  kind := fun r hr => by
    rw [hrequest] at hr
    cases hr
  sends := fun _ => h

/-- Nothing was sent yet, and no head is due. -/
theorem Bodiless.of_output {c : Client} (hrequest : c.request = none) (houtput : c.output = [])
    (hheads : c.context.world.heads = []) (hbody : c.context.response.body = [])
    (hcgi : c.context.requestState.cgiIn = false) : Bodiless c :=
  .of_request_none hrequest (sendsHeads_of_output houtput hheads hbody fun hset => by
    rw [hcgi] at hset
    cases hset)

/-- The class and the method stay, and with them what forbids a body. -/
theorem Bodiless.of_same {c c' : Client} (h : Bodiless c)
    (hkind : c'.request.map ARequest.kind = c.request.map ARequest.kind)
    (hmethod : c'.context.method = c.context.method)
    (hsends : c'.context.method = .head → SendsHeads c') : Bodiless c' where
  kind := fun r hr => by
    rw [hr] at hkind
    obtain ⟨r₀, hr₀, hsame⟩ := Option.map_eq_some_iff.mp hkind.symm
    rw [hmethod, ← hsame]
    exact h.kind r₀ hr₀
  sends := hsends

theorem Bodiless.kind_head {c : Client} (h : Bodiless c) (hmethod : c.context.method = .head)
    {r : ARequest} (hr : c.request = some r) : r.kind = .head := by
  have hkind := h.kind r hr
  rw [hmethod] at hkind
  exact (Option.some.inj hkind).symm

end Client

/-! ## The end of the head -/

namespace Handler

/-- HEAD gives its response no body: it sets the headers of the file and opens nothing to send. -/
theorem body_processingHEAD (sys : Sys) (h : Handler) :
    (processingHEAD sys h).context.response.body = h.context.response.body := by
  have hp := processed_processFile openFileHEAD
    (fun h => h.setState RequestState.setWorkInComplete) openDirHEAD sys h
  change Processed _ _ _ h _ (processingHEAD sys h) at hp
  generalize processingHEAD sys h = h' at hp ⊢
  generalize selectFile sys h.context.world.fs h.rule.indexes h.request.path = selected at hp
  cases hp <;> rfl

end Handler

namespace Client

/-- A request object is created. -/
theorem HeadAccepted.bodiless_creates {c : Client} (h : HeadAccepted c)
    (hbody : c.context.response.body = []) {kind : RequestKind} {h₀ : Handler}
    (hkind : requestKind c.context.method = some kind) (hcreate : createRequest kind c.context = .ok h₀)
    (sys : Sys) : Bodiless (c.withHandler (h₀.processing sys)) := by
  have hstarted := Handler.started_processing sys hcreate
  obtain ⟨h₁, hctx, f, hf⟩ := hstarted.fields
  have hmethod : (h₀.processing sys).context.method = c.context.method := by
    rw [← hctx, hf]
    rfl
  refine ⟨?_, fun hhead => ?_⟩
  · rintro r ⟨⟩
    rw [hstarted.kind_eq, ← hkind]
    exact congrArg requestKind hmethod
  · -- the class is `RequestHEAD`
    have hhead' : c.context.method = .head := hmethod.symm.trans hhead
    rw [hhead'] at hkind
    obtain rfl : RequestKind.head = kind := Option.some.inj hkind
    obtain ⟨chopedTarget, -, hh⟩ := createRequest_ok hcreate
    have hcall : h₀.processing sys = h₀.processingHEAD sys := by
      unfold Handler.processing
      rw [hh]
    have hstate : (h₀.processing sys).context.requestState =
        c.context.requestState.setWorkComplete := by
      rw [hcall, (Handler.quiet_processingHEAD sys (by rw [hh]; rfl)).requestState, hh]
      rfl
    have hresponse : (h₀.processing sys).context.response.body = [] := by
      rw [hcall, Handler.body_processingHEAD, hh]
      exact hbody
    have hstream : SameStream c (c.withHandler (h₀.processing sys)) := by
      constructor <;>
        rw [← hctx, show (c.withHandler (h₀.processing sys)).context =
          (h₀.processing sys).context from rfl, hf] <;> rfl
    refine sendsHeads_of_output (hstream.output.trans h.output) (hstream.heads.trans h.heads)
      hresponse fun _ => ?_
    rw [show (c.withHandler (h₀.processing sys)).context.requestState = _ from hstate]
    exact ⟨rfl, Or.inl rfl⟩

theorem HeadAccepted.bodiless_resolves {c : Client} (h : HeadAccepted c)
    (hbody : c.context.response.body = []) {sys : Sys} {r : Ret × Client} (hresolves : Resolves c sys r) :
    Bodiless r.2 := by
  have hcgi : c.context.requestState.cgiIn = false := by rw [h.requestState]
  cases hresolves with
  | noServer | noTarget | answers => exact .of_output h.request h.output h.heads hbody hcgi
  | redirects redirection =>
    exact .of_request_none h.request
      (sendsHeads_of_output h.output h.heads hbody fun _ => ⟨rfl, Or.inl rfl⟩)
  | @creates block loc kind h₀ hfinds hkind hcreate =>
    have haccepted : HeadAccepted (c.withBlocks block (some loc)) := { h with }
    exact haccepted.bodiless_creates hbody hkind hcreate sys

theorem AwaitsHead.bodiless_parseRequest {c : Client} (h : AwaitsHead c) (sys : Sys) :
    Bodiless (c.parseRequest sys).2 := by
  have hbody : c.context.response.body = [] := by
    rw [h.response]
    rfl
  have hends := h.headEnds sys
  generalize c.parseRequest sys = r at hends ⊢
  cases hends with
  | waits | refused => exact .of_output h.request h.output h.heads hbody rfl
  | resolved f hhead hresolves hret => exact (h.headAccepted f).bodiless_resolves hbody hresolves
  | answered f hhead hresolves =>
    have hbodiless := (h.headAccepted f).bodiless_resolves hbody hresolves
    exact ⟨hbodiless.kind, fun hmethod => { hbodiless.sends hmethod with }⟩

/-! ## Steps -/

theorem answered_of_responds {c : Client} (h : Responds c) {sys : Sys} {buffer : Bytes}
    {timestamp : Timeout → Int} (hreceived : c.received sys = some (c.withRead buffer timestamp)) :
    c.answered (.clientIn sys) = some (c.withRead buffer timestamp) := by
  have hparsed : (c.withRead buffer timestamp).parsed sys = some (c.withRead buffer timestamp) :=
    if_pos h.clientRead
  have hhandler : (c.withRead buffer timestamp).bodyHandler = none := bodyHandler_of_workIn h.workIn
  rw [answered, hreceived, Option.bind_some, hparsed, Option.bind_some, worked, hhandler]

/-- A step of a client that responds to HEAD.  It renders heads and sends them; a body would have to come
from the step itself. -/
theorem SendsHeads.step {c : Client} (h : SendsHeads c) (hresponds : Responds c)
    (hopen : c.closed = false) (hkind : ∀ r, c.request = some r → r.kind = .head) {e : Event}
    (hbrings : ¬ c.BringsBody e) : SendsHeads (c.step e) := by
  unfold Client.step
  rw [if_neg (by rw [hopen]; exact Bool.false_ne_true)]
  have hsocket : c.context.cgiSocket = -1 := by
    by_contra hne
    obtain ⟨-, r, hr, hgetpost⟩ := hresponds.socket hne
    rw [hkind r hr] at hgetpost
    exact hgetpost.elim nofun nofun
  cases e with
  | clientIn sys =>
    rcases handleSocketIn_cases c sys with ⟨-, heq, -⟩ | ⟨-, buffer, timestamp, hreceived, heq, -⟩
    · refine SendsHeads.settle ?_ ?_ <;> rw [heq]
      · exact h
      · exact hopen
    · have hstart : c.handleSocketIn sys = (c.withRead buffer timestamp).startResponse sys :=
        heq.trans ((if_pos hresponds.clientRead).trans
          (@handleRequest_of_workIn (c.withRead buffer timestamp) sys hresponds.workIn))
      have hpage : (c.withRead buffer timestamp).needsBuiltIn sys = false := by
        rw [BringsBody, answered_of_responds hresponds hreceived] at hbrings
        exact Bool.eq_false_iff.mpr hbrings
      have hread : SendsHeads (c.withRead buffer timestamp) := { h with }
      dsimp only
      rw [hstart]
      have hstarted := hread.startResponse hopen hpage
      exact hstarted.settle ((closed_startResponse _ sys).trans hopen)
  | clientOut sys => exact h.handleSocketOut hresponds hopen hkind hbrings sys
  | cgiIn sys =>
    dsimp only
    rw [if_pos hsocket]
    exact h
  | cgiOut sys =>
    dsimp only
    rw [if_pos hsocket]
    exact h
  | timeoutCheck sys => exact h.timeoutCheck hopen hbrings
  | environment fs => exact { h with }

/-- The head of a request is read, and a request for a head is answered by nothing else. -/
theorem AwaitsHead.bodiless_clientIn {c : Client} (h : AwaitsHead c) (hopen : c.closed = false)
    {sys : Sys} (hbrings : ¬ c.BringsBody (.clientIn sys)) :
    Bodiless (Client.settle (c.handleSocketIn sys)) := by
  have hsame : ∀ {c' : Client} {r : Ret × Client}, Bodiless c' →
      r.2.request.map ARequest.kind = c'.request.map ARequest.kind →
      r.2.context.method = c'.context.method →
      (c'.context.method = .head → SendsHeads (Client.settle r)) → Bodiless (Client.settle r) :=
    fun hc' hkind hmethod hsends => hc'.of_same hkind hmethod fun hhead => hsends (hmethod ▸ hhead)
  rcases handleSocketIn_cases c sys with ⟨-, heq, -⟩ | ⟨-, buffer, timestamp, hreceived, heq, htime⟩
  · refine .of_request_none ?_ (SendsHeads.settle ?_ ?_)
    · show (c.handleSocketIn sys).2.request = none
      rw [heq]
      exact h.request
    · rw [heq]
      exact h.sendsHeads
    · rw [heq]
      exact hopen
  · have hunread : c.context.requestState.isClientReadComplete = false :=
      Bool.eq_false_iff.mpr h.not_clientRead
    have hread : AwaitsHead (c.withRead buffer timestamp) :=
      { h with timestamp := by rw [withRead, htime hunread]; exact h.timestamp }
    have hparsed := hread.bodiless_parseRequest sys
    have hpage : ∀ c', c.answered (.clientIn sys) = some c' → c'.needsBuiltIn sys = false := by
      intro c' hc'
      rw [BringsBody, hc'] at hbrings
      exact Bool.eq_false_iff.mpr hbrings
    rw [answered, hreceived, Option.bind_some, parsed, if_neg hread.not_clientRead] at hpage
    rw [heq, Client.handleRead, if_neg hread.not_clientRead]
    obtain ⟨-, -, -, hgoesOn⟩ := hread.parseRequest sys
    have hclosed := hread.closed_parseRequest sys
    generalize (c.withRead buffer timestamp).parseRequest sys = r at hparsed hpage hgoesOn hclosed ⊢
    obtain ⟨ret, c₁⟩ := r
    have hopen₁ : c₁.closed = false := hclosed.trans hopen
    cases ret with
    | reqDone =>
      dsimp only at hpage ⊢
      rw [Option.bind_some, worked] at hpage
      rcases hgoesOn rfl with hready | hbody
      · have hhandler : c₁.bodyHandler = none := bodyHandler_of_workIn hready.workIn
        rw [hhandler] at hpage
        rw [handleRequest_of_workIn sys hready.workIn]
        have hidles := idles_startResponse c₁ sys
        refine hsame hparsed hidles.retains.kind hidles.method fun hhead => ?_
        exact ((hparsed.sends hhead).startResponse hopen₁ (hpage _ rfl)).settle
          ((closed_startResponse c₁ sys).trans hopen₁)
      · -- a body is read for PUT and POST only
        refine hsame hparsed (retains_handleRequest c₁ sys).kind (hbody.method_handleRequest sys)
          fun hhead => ?_
        obtain ⟨request, hrequest, hkind⟩ := hbody.request
        rw [hparsed.kind_head hhead hrequest] at hkind
        rcases hkind with hput | ⟨hpost, -⟩
        · cases hput
        · cases hpost
    | reqContinue | reqError | throws =>
      exact hsame hparsed rfl rfl fun hhead => (hparsed.sends hhead).settle hopen₁

/-- **One step** with HEAD sends nothing but heads, unless it brings a body; with another method it keeps
the method. -/
theorem Bodiless.step {c : Client} (h : Bodiless c) (hphase : Phase c) {e : Event}
    (hbrings : c.closed = false → ¬ c.BringsBody e) : Bodiless (c.step e) := by
  by_cases hclosed : c.closed = true
  · have hstep : c.step e = c := if_pos hclosed
    rw [hstep]
    exact h
  have hopen : c.closed = false := Bool.eq_false_iff.mpr hclosed
  replace hbrings := hbrings hopen
  by_cases hdone : HeadDone c
  · have hread := hdone.resolve_left hclosed
    have hmethod := (keeps_of_headDone hphase hdone e).1
    refine h.of_same (retains_of_headDone hdone e).kind hmethod fun hhead => ?_
    rw [hmethod] at hhead
    have hkind : ∀ r, c.request = some r → r.kind = .head := fun r hr => h.kind_head hhead hr
    rcases hphase with hc | hawaits | hbody | hresponds
    · exact absurd hc hclosed
    · exact absurd hread hawaits.not_clientRead
    · obtain ⟨request, hrequest, hputpost⟩ := hbody.request
      rw [hkind request hrequest] at hputpost
      exact hputpost.elim nofun fun hpost => nomatch hpost.1
    · exact (h.sends hhead).step hresponds hopen hkind hbrings
  · have hawaits := hphase.awaitsHead hdone
    unfold Client.step
    rw [if_neg hclosed]
    cases e with
    | clientIn sys => exact hawaits.bodiless_clientIn hopen hbrings
    | clientOut sys =>
      dsimp only
      rw [hawaits.handleSocketOut sys, settle_continue hopen]
      exact h
    | cgiIn sys =>
      dsimp only
      rw [if_pos hawaits.cgiSocket]
      exact h
    | cgiOut sys =>
      dsimp only
      rw [if_pos hawaits.cgiSocket]
      exact h
    | timeoutCheck sys =>
      have hnone := (idles_timeoutCheck c sys).request_none hawaits.request
      exact .of_request_none hnone (hawaits.sendsHeads.timeoutCheck hopen hbrings)
    | environment fs => exact ⟨h.kind, fun hhead => { h.sends hhead with }⟩

/-- The step brings no body: neither the built-in page nor a part of a custom one. -/
def SparesBody (c : Client) (e : Event) : Prop := c.closed = false → ¬ c.BringsBody e

/-- A run whose steps bring no body, from any such state. -/
theorem bodiless_run {c : Client} (h : Phase c) (hc : Bodiless c) {es : List Event}
    (hspares : Transition.Along step SparesBody c es) : Phase (c.run es) ∧ Bodiless (c.run es) :=
  Transition.run_invariant (I := fun c => Phase c ∧ Bodiless c)
    (fun _ e hc hspares => ⟨(phase_step hc.1 e).1, hc.2.step hc.1 hspares⟩) ⟨h, hc⟩ hspares

/-- **With HEAD nothing but heads is sent**, in every run whose steps bring no body: a response is started
for an error only when a page of the server's own can be opened for it, and no byte of such a page is
read. -/
theorem headsOnly_run (server : Server) (fs : FileSystem) (connectSocket fd : Fd) (now : Int)
    (es : List Event)
    (hmethod : ((init server fs connectSocket fd now).run es).context.method = .head)
    (hspares : Transition.Along step SparesBody (init server fs connectSocket fd now) es) :
    ∀ before after, es = before ++ after →
      let c := (init server fs connectSocket fd now).run before
      HeadsOnly c.context.world.heads c.context.world.sent := by
  rintro before after rfl
  have hawaits := awaitsHead_init server fs connectSocket fd now
  obtain ⟨hphase, hbodiless⟩ := bodiless_run (Or.inr (Or.inl hawaits))
    (.of_request_none hawaits.request hawaits.sendsHeads) (Transition.along_append.mp hspares).1
  by_cases hdone : HeadDone ((init server fs connectSocket fd now).run before)
  · have hsame := (keeps_run hphase hdone after).1
    rw [run, Transition.run_append] at hmethod
    exact (hbodiless.sends (hsame.symm.trans hmethod)).stream.headsOnly
  · exact (hphase.awaitsHead hdone).sendsHeads.stream.headsOnly

/-- A client of a location with one file, for GET and HEAD. -/
def headClient : Client :=
  init (.single 3 { locations := [{ fileLocation with allowed := 17 }] } fun _ => 0) fileSystem 3 4 0

/-- A request for the head of the file. -/
def headRequest : Bytes := bytes "HEAD /a HTTP/1.1\r\nHost: h\r\n\r\n"

set_option maxRecDepth 10000 in
/-- The head of the file is sent. -/
theorem headsOnly_run_file :
    let es := [.clientIn (.receiving headRequest), .clientOut (.quiet 0)]
    (headClient.run es).context.world.sent = bytes "H" ∧
      ∀ before after, es = before ++ after →
        let c := headClient.run before
        HeadsOnly c.context.world.heads c.context.world.sent :=
  ⟨by decide +kernel, headsOnly_run _ fileSystem 3 4 0
    [.clientIn (.receiving headRequest), .clientOut (.quiet 0)] (by decide +kernel)
    ⟨fun _ => (show ¬ _ = true by decide +kernel),
      fun _ hpage => absurd hpage.1 (by decide +kernel), trivial⟩⟩

/-- One call of `handleOut` sends what the socket takes. -/
theorem sent_clientOut {c : Client} (hopen : c.closed = false)
    (hworkOut : c.context.requestState.workOut = true) (hne : c.context.responseBuffer ≠ []) {sys : Sys}
    {n : Nat} (hsend : sys.send = .accepted n) :
    (c.step (.clientOut sys)).context.method = c.context.method ∧
      (c.step (.clientOut sys)).context.world.heads = c.context.world.heads ∧
      (c.step (.clientOut sys)).context.world.sent = c.context.world.sent ++
        c.context.responseBuffer.take (min n (min reqBufferSize c.context.responseBuffer.length)) := by
  have hproduce : c.produce sys = (.reqContinue, c) := if_pos hworkOut
  have hsize : min reqBufferSize c.context.responseBuffer.length > 0 := by
    have hlength := List.length_pos_iff.mpr hne
    unfold reqBufferSize
    omega
  unfold Client.step
  rw [if_neg (by rw [hopen]; exact Bool.false_ne_true)]
  dsimp only
  rw [Client.handleSocketOut, hproduce]
  dsimp only
  rw [Client.sendResponse]
  dsimp only
  rw [if_pos hsize, hsend]
  dsimp only [Client.settle]
  unfold Client.takeResponse
  split_ifs <;> exact ⟨rfl, rfl, rfl⟩

/-- A server without locations. -/
def emptyClient : Client := init (.single 3 {} fun _ => 0) fileSystem 3 4 0

set_option maxRecDepth 10000 in
/-- Nothing is found, and the first byte of the built-in page is sent after the head. -/
theorem not_headsOnly :
    let c := emptyClient.run
      [.clientIn (.receiving headRequest), .clientOut { Sys.quiet 0 with send := .accepted 95 }]
    c.context.method = .head ∧ ¬ HeadsOnly c.context.world.heads c.context.world.sent := by
  have hmethod : (emptyClient.step (.clientIn (.receiving headRequest))).context.method = .head := by
    decide +kernel
  have hsent : (emptyClient.step (.clientIn (.receiving headRequest))).context.world.sent = [] := rfl
  have hopen : (emptyClient.step (.clientIn (.receiving headRequest))).closed = false := by
    decide +kernel
  have hworkOut : (emptyClient.step
    (.clientIn (.receiving headRequest))).context.requestState.workOut = true := by decide +kernel
  -- the length of the page is a header, so it is computed once for both
  have hlengths : (emptyClient.step (.clientIn (.receiving headRequest))).context.world.heads.map
        (fun r => r.head.length) = [94] ∧
      ((emptyClient.step (.clientIn (.receiving headRequest))).context.responseBuffer.take
        95).length = 95 := by decide +kernel
  rw [run, Transition.run_cons, Transition.run_cons, Transition.run_nil]
  generalize emptyClient.step (.clientIn (.receiving headRequest)) = c
    at hmethod hsent hopen hworkOut hlengths
  obtain ⟨hheads, hbuffer⟩ := hlengths
  have hlength : 95 ≤ c.context.responseBuffer.length := by
    rw [List.length_take] at hbuffer
    omega
  obtain ⟨hmethod', hheads', hsent'⟩ := @sent_clientOut c hopen hworkOut
    (List.ne_nil_of_length_pos (by omega)) { Sys.quiet 0 with send := .accepted 95 } 95 rfl
  refine ⟨hmethod'.trans hmethod, fun honly => ?_⟩
  obtain ⟨r, hr, hhead⟩ := List.map_eq_singleton_iff.mp hheads
  rw [hheads', hsent', hr, hsent, List.nil_append, headsOnly_singleton] at honly
  have hle := honly.length_le
  rw [List.length_take, hhead] at hle
  unfold reqBufferSize at hle
  omega

end Client
end Webserv
