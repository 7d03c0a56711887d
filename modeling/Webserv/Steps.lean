import Webserv.CgiSockets
import Webserv.Idle

/-!
# What a step can do to a request and its body

A step creates a request object, or calls a body reader, or leaves the body alone.

* `readerCall`: the call of a body reader in a step.
* `Effect`: what a step does, with the request object it creates and the reader it calls.
* `effect_step`: every step from a reachable state has such an effect.

## Why a step is described once more

`Client.step` is a definition with the control flow of the source.  An invariant about bodies has to go
through it for six events and three phases, and would do the same case analysis every time.  `effect_step`
does it once.  It says of every step from a reachable state that it is, in this order: perhaps the creation
of a request object, perhaps one call of a reader, and then something idle.  An invariant about bodies has
then three things to show: that it holds of a new object, that a reader keeps it, and that idle calls do.

## Why the three may come together

A packet may hold a head and the beginning of its body, and then one event creates the object and calls its
reader.  So `Effect.request` is a chain: `Created`, then `Read`, then `Idles`, each of which may be nothing.
The clause `hstatus` says that after a call of a reader the rest of the step leaves the status that the
reader set; `hanswered` that an object that was created and not asked to read is done with its body, or the
client is closed.

## Which reader is called

`readerCall` gives the handler that the reader is called with, before the call, and the answers of the
kernel to it.  It is what conditions on a run are stated with: "at every call of a body reader" is a
condition on this value.
-/

namespace Webserv
namespace Client

/-- The body reader that a step calls, with the answers of the kernel: of an upload for its client, or
of a POST for its CGI. -/
def readerCall (c : Client) : Event → Option (Sys × Handler)
  | .clientIn sys => if c.closed then none else (c.bodyReader (.clientIn sys)).map (sys, ·)
  | .cgiOut sys =>
    if c.closed ∨ c.context.cgiSocket = -1 then none
    else c.request.bind fun r => if r.kind = .post then some (sys, ⟨c.context, r⟩) else none
  | _ => none

/-- A client that was dropped calls no reader. -/
theorem readerCall_of_closed {c : Client} (h : c.closed = true) (e : Event) : c.readerCall e = none := by
  cases e with
  | clientIn sys => exact if_pos h
  | cgiOut sys => exact if_pos (Or.inl h)
  | _ => rfl

/-- Without a CGI only a read of the client socket calls a reader. -/
theorem readerCall_of_ne {c : Client} (hsocket : c.context.cgiSocket = -1) {e : Event}
    (hne : ∀ sys, e ≠ .clientIn sys) : c.readerCall e = none := by
  cases e with
  | clientIn sys => exact absurd rfl (hne sys)
  | cgiOut sys => exact if_pos (Or.inr hsocket)
  | _ => rfl

/-- The client after a request object was created, if one was: its head was awaited before, and the object
is that of the constructor after `processing`. -/
inductive Created (c : Client) : Event → Client → Prop where
  | same (e : Event) : Created c e c
  | created (sys : Sys) {kind : RequestKind} {ctx : RequestContext} {h : Handler}
      (hhead : AwaitsHead c) (hworld : ctx.world = c.context.world)
      (hserver : ctx.server = c.context.server) (hlocation : c.context.server.HasLocation ctx.rule)
      (hsocket : ctx.cgiSocket = c.context.cgiSocket) (hcreate : createRequest kind ctx = .ok h)
      (hpending : c.readerCall (.clientIn sys) ≠ none →
        (h.processing sys).context.response.statusCode = statusNone) :
      Created c (.clientIn sys) (c.withHandler (h.processing sys))

/-- The client after the body reader, if one was called: in between the client may have idled, and the
handler that the reader leaves is put back. -/
inductive Read (c : Client) (e : Event) (c₁ : Client) : Client → Prop where
  | same (hcall : c.readerCall e = none) : Read c e c₁ c₁
  | called {sys : Sys} {h : Handler} (c₂ : Client) (hcall : c.readerCall e = some (sys, h))
      (hkind : h.request.kind = .post ∨ h.request.kind = .put)
      (hready : h.context.requestState.workIn = false ∨ h.context.cgiSocket ≠ -1)
      (hidles : Idles c₁ c₂) (hrequest : c₂.request = some h.request) (hcontext : c₂.context = h.context) :
      Read c e c₁ (c₂.withHandler (Handler.readBody sys h).2)

/-- What a step does: another process changes the files, a head is read and no object is created, or a
request is created or read on. -/
inductive Effect (c : Client) (e : Event) : Client → Prop where
  | environment {fs : FileSystem} (he : e = .environment fs) :
      Effect c e { c with context := c.context.setFs fs }
  | headOnly {c' : Client} (hhead : AwaitsHead c) (hcall : c.readerCall e = none)
      (hrequest : c'.request = none) (hfs : c'.context.world.fs = c.context.world.fs)
      (hserver : c'.context.server = c.context.server)
      (hsocket : c'.context.cgiSocket = c.context.cgiSocket) : Effect c e c'
  | request {c₁ c₂ c' : Client} (hcreated : Created c e c₁) (hread : Read c e c₁ c₂)
      (hidles : Idles c₂ c')
      (hstatus : c.readerCall e ≠ none →
        c'.context.response.statusCode = c₂.context.response.statusCode)
      (hanswered : c.request = none → c'.request.isSome = true → c.readerCall e = none →
        c'.closed = true ∨ c'.context.requestState.workIn = true) : Effect c e c'

/-- The request object was there before, with the same core. -/
theorem Idles.exists_request {c c' : Client} (h : Idles c c') {r : ARequest}
    (hr : c'.request = some r) : ∃ r₀, c.request = some r₀ ∧ r.core = r₀.core := by
  have hmap := h.request
  rw [hr] at hmap
  obtain ⟨r₀, hr₀, hcore⟩ := Option.map_eq_some_iff.mp hmap.symm
  exact ⟨r₀, hr₀, hcore.symm⟩

/-- An idle call neither makes nor takes away a request object. -/
theorem Idles.request_none_iff {c c' : Client} (h : Idles c c') :
    c'.request = none ↔ c.request = none := by
  rw [← Option.map_eq_none_iff, h.request, Option.map_eq_none_iff]

theorem Idles.request_none {c c' : Client} (h : Idles c c') (hnone : c.request = none) :
    c'.request = none := h.request_none_iff.mpr hnone

/-- It touches no file. -/
theorem Idles.fs {c c' : Client} (h : Idles c c') : c'.context.world.fs = c.context.world.fs := by
  obtain ⟨f, rfl⟩ := h.fields
  rfl

/-- It changes no configuration. -/
theorem Idles.server {c c' : Client} (h : Idles c c') : c'.context.server = c.context.server := by
  obtain ⟨f, rfl⟩ := h.fields
  rfl

/-- It neither opens nor closes a CGI. -/
theorem Idles.cgiSocket {c c' : Client} (h : Idles c c') :
    c'.context.cgiSocket = c.context.cgiSocket := by
  obtain ⟨f, rfl⟩ := h.fields
  rfl

/-- The step leaves the body alone.  Most steps are of this kind, and for them nothing about the readers is
to be shown. -/
theorem Effect.of_idles {c c' : Client} {e : Event} (hcall : c.readerCall e = none)
    (hidles : Idles c c') : Effect c e c' :=
  .request (.same e) (.same hcall) hidles (fun hcalled => absurd hcall hcalled) fun hnone hsome => by
    rw [hidles.request_none hnone] at hsome
    cases hsome

/-- The step calls the reader of a request object that is there. -/
theorem Effect.of_read {c c' : Client} {e : Event} {sys : Sys} {h : Handler} {c₂ : Client}
    (hcall : c.readerCall e = some (sys, h)) (hkind : h.request.kind = .post ∨ h.request.kind = .put)
    (hready : h.context.requestState.workIn = false ∨ h.context.cgiSocket ≠ -1) (hidles : Idles c c₂)
    (hrequest : c₂.request = some h.request) (hcontext : c₂.context = h.context)
    (hafter : Idles (c₂.withHandler (Handler.readBody sys h).2) c')
    (hstatus : c'.context.response.statusCode =
      (Handler.readBody sys h).2.context.response.statusCode) : Effect c e c' :=
  .request (.same e) (.called c₂ hcall hkind hready hidles hrequest hcontext) hafter
    (fun _ => hstatus) fun _ _ hnone => by
    rw [hcall] at hnone
    cases hnone

/-! ## The end of a head -/

/-- What the call of `_parseRequest` leaves: no request object, or the one that was created. -/
inductive Parses (c : Client) (sys : Sys) : Ret × Client → Prop where
  | none {r : Ret × Client} (hrequest : r.2.request = none)
      (hfs : r.2.context.world.fs = c.context.world.fs)
      (hserver : r.2.context.server = c.context.server)
      (hsocket : r.2.context.cgiSocket = c.context.cgiSocket) : Parses c sys r
  | created {r : Ret × Client} {kind : RequestKind} {ctx : RequestContext} {h : Handler}
      (hworld : ctx.world = c.context.world) (hserver : ctx.server = c.context.server)
      (hlocation : c.context.server.HasLocation ctx.rule)
      (hsocket : ctx.cgiSocket = c.context.cgiSocket) (hcreate : createRequest kind ctx = .ok h)
      (hidles : Idles (c.withHandler (h.processing sys)) r.2)
      (hpending : r.1 = .reqDone → r.2.context.requestState.workIn = false →
        (h.processing sys).context.response.statusCode = statusNone) : Parses c sys r

/-- What `_resolveARequest` leaves, in the terms of `Parses`. -/
theorem parses_resolves {c : Client} (hnone : c.request = none) {sys : Sys} {r : Ret × Client}
    (hresolves : Resolves c sys r) : Parses c sys r := by
  cases hresolves with
  | noServer | noTarget | answers | redirects => exact .none hnone rfl rfl rfl
  | @creates block loc kind h hfinds hkind hcreate =>
    have hlocation := Server.hasLocation_of_find hfinds.serverBlock hfinds.ruleBlock
    refine @Parses.created c sys _ kind (c.withBlocks block (some loc)).context h rfl rfl hlocation rfl
      hcreate (.refl _) fun hdone _ => ?_
    dsimp only at hdone
    unfold registerCGI at hdone
    split_ifs at hdone with _ _ hstatus
    exact not_not.mp hstatus

/-- `_parseRequest` reads on, refuses, or resolves the request.  These are the three ways in which the first
phase goes on. -/
theorem AwaitsHead.parses {c : Client} (h : AwaitsHead c) (sys : Sys) :
    Parses c sys (c.parseRequest sys) := by
  have hends := h.headEnds sys
  generalize c.parseRequest sys = r at hends ⊢
  cases hends with
  | waits | refused => exact .none h.request rfl rfl rfl
  | resolved f hhead hresolves hret =>
    cases parses_resolves (h.headAccepted f).request hresolves with
    | none hrequest hfs hserver hsocket => exact .none hrequest hfs hserver hsocket
    | created hworld hserver hlocation hsocket hcreate hidles hpending =>
      exact .created hworld hserver hlocation hsocket hcreate hidles hpending
  | answered f hhead hresolves =>
    cases parses_resolves (h.headAccepted f).request hresolves with
    | none hrequest hfs hserver hsocket => exact .none hrequest hfs hserver hsocket
    | created hworld hserver hlocation hsocket hcreate hidles hpending =>
      refine .created hworld hserver hlocation hsocket hcreate (hidles.trans (idles_setState _ ?_)) nofun
      exact ⟨id, id, fun _ => rfl, id, id⟩

/-! ## Reads of the body -/

theorem idles_settle {c : Client} {r : Ret × Client} (h : Idles c r.2) : Idles c (settle r) :=
  h.trans (idles_closed r.2 _)

theorem idles_settleCGI {c : Client} {r : Ret × Client} (h : Idles c r.2) : Idles c (settleCGI r) :=
  h.trans (idles_closed r.2 _)

/-- The start of a response leaves its status. -/
theorem statusCode_startResponse (c : Client) (sys : Sys) :
    (c.startResponse sys).2.context.response.statusCode = c.context.response.statusCode := by
  obtain ⟨f, heq, hstatus, -⟩ := prepareError_cases c sys
  have hswitch : ∀ c' : Client,
      (c'.switchToWrite sys).2.context.response.statusCode = c'.context.response.statusCode := by
    intro c'
    rcases switchToWrite_cases c' sys with heq | heq <;> rw [heq]
    rfl
  unfold startResponse
  rw [heq]
  dsimp only
  rw [hswitch]
  split_ifs
  · exact hstatus
  · exact hstatus

/-- The reader of an upload is called, and the response may be started. -/
theorem AwaitsBody.handleRequest_reads {c : Client} (h : AwaitsBody c) (sys : Sys) :
    ∃ r, c.request = some r ∧ (r.kind = .post ∨ r.kind = .put) ∧
      c.bodyHandler = some ⟨c.context, r⟩ ∧
      Idles ((c.touch .clientBody sys.now).withHandler (Handler.readBody sys ⟨c.context, r⟩).2)
        (c.handleRequest sys).2 ∧
      (c.handleRequest sys).2.context.response.statusCode =
        (Handler.readBody sys ⟨c.context, r⟩).2.context.response.statusCode := by
  obtain ⟨request, hrequest, hkind, heq⟩ := h.handleRequest_eq sys
  refine ⟨request, hrequest, hkind.symm.imp_left And.left, h.bodyHandler_eq hrequest, ?_⟩
  rw [heq]
  generalize Handler.readBody sys ⟨c.context, request⟩ = r
  obtain ⟨ret, h'⟩ := r
  cases ret with
  | reqDone => exact ⟨idles_startResponse _ sys, statusCode_startResponse _ sys⟩
  | _ => exact ⟨.refl _, rfl⟩

/-- What a step does with the head and the body of a request whose head is awaited. -/
theorem AwaitsHead.effect {c : Client} (h : AwaitsHead c) (hclosed : c.closed = false) (sys : Sys)
    {buffer : Bytes} {timestamp : Timeout → Int}
    (hreceived : c.received sys = some (c.withRead buffer timestamp))
    (hhead : AwaitsHead (c.withRead buffer timestamp)) :
    Effect c (.clientIn sys) (settle ((c.withRead buffer timestamp).handleRead sys)) := by
  have hcall : c.readerCall (.clientIn sys) =
      (((c.withRead buffer timestamp).parsed sys).bind bodyHandler).map (sys, ·) := by
    unfold readerCall bodyReader
    dsimp only
    rw [if_neg (by rw [hclosed]; exact Bool.false_ne_true), hreceived]
    rfl
  unfold parsed at hcall
  unfold Client.handleRead
  rw [if_neg hhead.not_clientRead] at hcall ⊢
  have hparses := hhead.parses sys
  obtain ⟨-, -, hwaits, hgoesOn⟩ := hhead.parseRequest sys
  generalize (c.withRead buffer timestamp).parseRequest sys = r at hcall hparses hwaits hgoesOn ⊢
  obtain ⟨ret, c₁⟩ := r
  have hbase : ∀ h₀ : Handler,
      Idles (c.withHandler h₀) ((c.withRead buffer timestamp).withHandler h₀) := fun h₀ =>
    .of_fields { (c.withHandler h₀).idleFields with timestamp := timestamp } rfl
      (RequestState.Le.refl _).keeps rfl
  -- without a reader the request object, if any, is the one that was created
  have hquiet : c.readerCall (.clientIn sys) = none → ∀ r : Ret × Client, Idles c₁ r.2 →
      c₁.request = none ∨ (settle r).closed = true ∨ c₁.context.requestState.workIn = true →
      Effect c (.clientIn sys) (settle r) := by
    intro hnone r hidles hdone
    cases hparses with
    | none hrequest hfs hserver hsocket =>
      have hsettled := idles_settle hidles
      exact .headOnly h hnone (hsettled.request_none hrequest) (hsettled.fs.trans hfs)
        (hsettled.server.trans hserver) (hsettled.cgiSocket.trans hsocket)
    | created hworld hserver hlocation hsocket hcreate hparsed hpending =>
      replace hdone := hdone.resolve_left fun hnone' => by
        have hsome := hparsed.request
        rw [hnone'] at hsome
        cases hsome
      have hsettled := idles_settle hidles
      exact .request
        (.created sys h hworld hserver hlocation hsocket hcreate fun hcalled => absurd hnone hcalled)
        (.same hnone) ((hbase _).trans (hparsed.trans hsettled))
        (fun hcalled => absurd hnone hcalled)
        fun _ _ _ => hdone.imp_right fun hworkIn => hsettled.flags.workIn hworkIn
  cases ret with
  | reqDone =>
    dsimp only at hcall ⊢
    rw [Option.bind_some] at hcall
    rcases hgoesOn rfl with hready | hbody
    · rw [bodyHandler_of_workIn hready.workIn] at hcall
      rw [handleRequest_of_workIn sys hready.workIn]
      exact hquiet hcall _ (idles_startResponse c₁ sys) (Or.inr (Or.inr hready.workIn))
    · obtain ⟨request, hrequest, hkind, hbodyHandler, hidles, hstatus⟩ :=
        hbody.handleRequest_reads sys
      rw [hbodyHandler] at hcall
      cases hparses with
      | none hnone =>
        rw [show c₁.request = none from hnone] at hrequest
        cases hrequest
      | created hworld hserver hlocation hsocket hcreate hparsed hpending =>
        exact .request
          (.created sys h hworld hserver hlocation hsocket hcreate fun _ => hpending rfl hbody.workIn)
          (.called (c₁.touch .clientBody sys.now) hcall hkind (Or.inl hbody.workIn)
            ((hbase _).trans (hparsed.trans (idles_touch _ _ _))) hrequest rfl) (idles_settle hidles)
          (fun _ => hstatus) fun _ _ hnone => by
            rw [hcall] at hnone
            cases hnone
  | reqContinue => exact hquiet hcall _ (.refl c₁) (Or.inl (hwaits rfl).request)
  | _ => exact hquiet hcall _ (.refl c₁) (Or.inr (Or.inl rfl))

/-- A reading event, in each of the phases of a client. -/
theorem effect_clientIn {c : Client} (h : Phase c) (hclosed : c.closed = false) (sys : Sys) :
    Effect c (.clientIn sys) (settle (c.handleSocketIn sys)) := by
  have hopen : ¬ c.closed = true := by
    rw [hclosed]
    exact Bool.false_ne_true
  rcases handleSocketIn_cases c sys with ⟨hnone, heq, -⟩ | ⟨-, buffer, timestamp, hsome, heq, htime⟩
  · have hcall : c.readerCall (.clientIn sys) = none := by
      unfold readerCall bodyReader
      dsimp only
      rw [if_neg hopen, hnone]
      rfl
    refine .of_idles hcall (idles_settle ?_)
    rw [heq]
    exact .refl c
  · rw [heq]
    have hread := idles_withRead c buffer timestamp
    have hcall : c.context.requestState.isClientReadComplete = true →
        c.readerCall (.clientIn sys) = (c.withRead buffer timestamp).bodyHandler.map (sys, ·) := by
      intro hcomplete
      have hparsed : (c.withRead buffer timestamp).parsed sys = some (c.withRead buffer timestamp) :=
        if_pos hcomplete
      unfold readerCall bodyReader
      dsimp only
      rw [if_neg hopen, hsome, Option.bind_some, hparsed, Option.bind_some]
    have hhandle : c.context.requestState.isClientReadComplete = true →
        (c.withRead buffer timestamp).handleRead sys =
          (c.withRead buffer timestamp).handleRequest sys := fun hcomplete => if_pos hcomplete
    rcases h with hc | hhead | hbody | hresponds
    · exact absurd hc hopen
    · have hunread : c.context.requestState.isClientReadComplete = false :=
        Bool.eq_false_iff.mpr hhead.not_clientRead
      exact hhead.effect hclosed sys hsome
        { hhead with timestamp := by rw [withRead, htime hunread]; exact hhead.timestamp }
    · have hbody' : AwaitsBody (c.withRead buffer timestamp) := { hbody with }
      obtain ⟨request, hrequest, hkind, hbodyHandler, hidles, hstatus⟩ :=
        hbody'.handleRequest_reads sys
      have hcalled := hcall hbody.clientRead
      rw [hbodyHandler] at hcalled
      rw [hhandle hbody.clientRead]
      exact .of_read hcalled hkind (Or.inl hbody.workIn) (hread.trans (idles_touch _ _ _)) hrequest rfl
        (idles_settle hidles) hstatus
    · have hcalled := hcall hresponds.clientRead
      rw [bodyHandler_of_workIn (c := c.withRead buffer timestamp) hresponds.workIn] at hcalled
      rw [hhandle hresponds.clientRead,
        handleRequest_of_workIn (c := c.withRead buffer timestamp) sys hresponds.workIn]
      exact .of_idles hcalled (hread.trans (idles_settle (idles_startResponse _ sys)))

/-- A writing event of the CGI calls the reader of a POST, or throws. -/
theorem effect_cgiOut {c : Client} (hclosed : c.closed = false) (sys : Sys)
    (hsocket : c.context.cgiSocket ≠ -1) :
    Effect c (.cgiOut sys) (settleCGI (c.handleCGIOut sys)) := by
  have hopen : ¬ (c.closed = true ∨ c.context.cgiSocket = -1) := by
    rw [hclosed]
    exact fun hor => hor.elim Bool.false_ne_true hsocket
  have hcall : c.readerCall (.cgiOut sys) = c.request.bind fun r =>
      if r.kind = .post then some (sys, ⟨c.context, r⟩) else none := if_neg hopen
  unfold handleCGIOut
  cases hrequest : c.request with
  | none =>
    rw [hrequest] at hcall
    exact .of_idles hcall (idles_settleCGI (.refl c))
  | some request =>
    rw [hrequest, Option.bind_some] at hcall
    dsimp only
    unfold Handler.CGIOut
    cases hkind : request.kind with
    | post =>
      rw [if_pos hkind] at hcall
      exact .of_read hcall (Or.inl hkind) (Or.inr hsocket) (.refl c) hrequest rfl
        (idles_settleCGI (.refl _)) rfl
    | _ =>
      rw [hkind, if_neg (by decide)] at hcall
      exact .of_idles hcall (idles_settleCGI (idles_withHandler_self hrequest))

/-- **Every step** creates a request object, calls a body reader, or leaves the body alone.  Later modules
take a step apart with this and with nothing else. -/
theorem effect_step {c : Client} (h : Phase c) (e : Event) : Effect c e (c.step e) := by
  by_cases hclosed : c.closed = true
  · have hstep : c.step e = c := if_pos hclosed
    rw [hstep]
    exact .of_idles (readerCall_of_closed hclosed e) (.refl c)
  · have hopen : c.closed = false := Bool.eq_false_iff.mpr hclosed
    unfold Client.step
    rw [if_neg hclosed]
    cases e with
    | clientIn sys => exact effect_clientIn h hopen sys
    | clientOut sys => exact .of_idles rfl (idles_settle (idles_handleSocketOut c sys))
    | cgiIn sys =>
      dsimp only
      split_ifs
      · exact .of_idles rfl (.refl c)
      · exact .of_idles rfl (idles_settleCGI (idles_handleCGIIn c sys))
    | cgiOut sys =>
      dsimp only
      split_ifs with hsocket
      · exact .of_idles (if_pos (Or.inr hsocket)) (.refl c)
      · exact effect_cgiOut hopen sys hsocket
    | timeoutCheck sys => exact .of_idles rfl (idles_settle (idles_timeoutCheck c sys))
    | environment fs => exact .environment rfl

end Client
end Webserv
