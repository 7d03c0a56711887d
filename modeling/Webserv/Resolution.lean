import Webserv.Steps
import Webserv.Calls

/-!
# The resolution of a request

`_resolveARequest` is the one place where a request object is built, and with it the one place where a CGI
is opened or a file is deleted.  It is entered when the head is accepted, and the flags of the head are
never unset.

* `resolveCall`: the call of `_resolveARequest` in a step; `resolutions`: the calls of a run.
* `builds`: the request object that a call builds.
* `Retains`: what a step keeps that does not enter it.
* `resolution_step`: every step is one of the two.
* `resolved_once`: a request is executed at most once.

## Why calls are collected

That something happens at most once is a statement about a run, and the state of a client does not count.
So the call that a step makes is a function of the client and the event (`resolveCall`), and a run collects
the calls of its steps.  The list has one element at most, and whatever a call is responsible for, an
object, a socket, a deleted file, is bounded by the length of the list.  The record of the kernel is the
check on the other side: `opened` gets an entry for every socket of a CGI, wherever it may have been opened.

## Why once

The call is made in a read that completes the head.  After it the head is done with: the flags that say so
are set, and nothing unsets them (`HeadDone.step`).  A later read sees this and goes on to the body.  A head
that is refused never comes to the call, and is done with as well.  So at most one step of a run finds the
head not done with and completes it, and the invariant of the run keeps the number of calls together with
this flag (`ExecutedOnce`).

## Why the second half is about files

A DELETE removes its file in the call itself.  What remains to be said is that no later step does so again:
as soon as the request object is there and is a DELETE, the client leaves the file system alone
(`fs_step_of_delete`), so the single object has done the single removal.
-/

namespace Webserv

namespace Handler

/-! ## The sockets that are opened -/

/-- At most one socket was opened. -/
def OpensOne (h h' : Handler) : Prop :=
  h'.context.world.opened.length ≤ h.context.world.opened.length + 1

theorem opensOne_openCGI (sys : Sys) (h : Handler) : OpensOne h (openCGI sys h) := by
  unfold OpensOne
  rcases openCGI_cases sys h with heq | ⟨pair, heq⟩ | ⟨pair, pid, heq⟩ <;> rw [heq]
  · exact Nat.le_succ _
  · exact (List.length_append ..).le
  · exact (List.length_append ..).le

theorem Quiet.opensOne {h h₁ h' : Handler} (hquiet : Quiet h h₁) (hopens : OpensOne h₁ h') :
    OpensOne h h' := by
  rw [OpensOne, ← hquiet.opened]
  exact hopens

theorem opensOne_processing (sys : Sys) {h : Handler}
    (hhead : h.request.kind = .head → h.context.requestState.workIn = true) :
    OpensOne h (processing sys h) := by
  have hself : ∀ h : Handler, OpensOne h h := fun h => Nat.le_succ _
  unfold processing
  cases hkind : h.request.kind with
  | get =>
    show OpensOne h (processingGET sys h)
    rcases quiet_processingGET sys h with hquiet | ⟨h₁, hquiet, heq⟩
    · exact hquiet.opensOne (hself _)
    · rw [heq]
      exact hquiet.opensOne (opensOne_openCGI sys h₁)
  | post =>
    show OpensOne h (processingPOST sys h)
    rcases processes_processingPOST sys h with
      ⟨h₁, hquiet, -, heq⟩ | ⟨-, h₁, hquiet, heq⟩ | ⟨-, h₁, hquiet, hquiet'⟩
    · rw [heq]
      exact hquiet.opensOne (hself _)
    · rw [heq]
      exact hquiet.opensOne (opensOne_openCGI sys (h₁.setState RequestState.setWorkInComplete))
    · exact hquiet.opensOne (hquiet'.opensOne (hself _))
  | delete => exact (quiet_processingDELETE sys h).opensOne (hself _)
  | put => exact (quiet_processingPUT sys h).opensOne (hself _)
  | head => exact (quiet_processingHEAD sys (hhead hkind)).opensOne (hself _)

end Handler

namespace Client

/-! ## The call of `_resolveARequest` -/

/-- The call of `_resolveARequest` in a step: the answers of the kernel, and the client it is entered
on. -/
def resolveCall (c : Client) : Event → Option (Sys × Client)
  | .clientIn sys =>
    if c.closed then none
    else
      (c.received sys).bind fun c =>
        if c.context.requestState.isClientReadComplete then none
        else
          match c.context.parseHead with
          | (.reqDone, ctx) =>
            if ctx.response.statusCode = statusNone then some (sys, { c with context := ctx }) else none
          | _ => none
  | _ => none

/-- The request object that a call of `_resolveARequest` builds. -/
def builds (c : Client) : Option Handler :=
  match c.context.server.findServerBlock c.connectSocket
      ((c.context.headers.find? headerHost).getD []) with
  | none => none
  | some block =>
    let rule := block.findLocationBlock (Path.ofString c.context.target)
    let ctx := { c.context with serverBlock := some block, ruleBlock := rule }
    match rule with
    | none => none
    | some loc =>
      if loc.root.isEmpty then none
      else if ¬ loc.isAllowed ctx.method then none
      else if loc.redirection.1 ≠ statusNone then none
      else (requestKind ctx.method).bind fun kind => (createRequest kind ctx).toOption

/-- The calls of a run: each call of `_resolveARequest`, with the client as it is called. -/
def resolutions (c : Client) (es : List Event) : List (Sys × Client) :=
  Transition.record step (fun c e calls => calls ++ (c.resolveCall e).toList) c es []

/-- The request objects that a run builds, in the order in which it builds them. -/
def built (c : Client) (es : List Event) : List Handler :=
  (c.resolutions es).filterMap fun call => call.2.builds

/-- What a call of `_resolveARequest` leaves: the request object that it builds, and at most one more
socket. -/
structure Builds (c c' : Client) : Prop where
  kind : c'.request.map ARequest.kind = c.builds.map fun h => h.request.kind
  opened : c'.context.world.opened.length ≤ c.context.world.opened.length + 1

theorem builds_startRequest {c : Client} (hnone : c.request = none) (sys : Sys) :
    (c.startRequest sys).2.request.map ARequest.kind =
        ((requestKind c.context.method).bind fun kind => (createRequest kind c.context).toOption).map
          (fun h => h.request.kind) ∧
      (c.startRequest sys).2.context.world.opened.length ≤ c.context.world.opened.length + 1 := by
  unfold startRequest
  cases requestKind c.context.method with
  | none => exact ⟨congrArg (Option.map _) hnone, Nat.le_succ _⟩
  | some kind =>
    dsimp only [Option.bind_some]
    cases hcreate : createRequest kind c.context with
    | error fault => exact ⟨congrArg (Option.map _) hnone, Nat.le_succ _⟩
    | ok h =>
      obtain ⟨chopedTarget, -, hh⟩ := createRequest_ok hcreate
      have hhead : h.request.kind = .head → h.context.requestState.workIn = true := by
        rw [hh]
        rintro (rfl : kind = .head)
        rfl
      have hopened : h.context.world.opened = c.context.world.opened := by rw [hh]; rfl
      have hopens := Handler.opensOne_processing sys hhead
      rw [Handler.OpensOne, hopened] at hopens
      exact ⟨congrArg some (Handler.opens_processing sys hhead).processes.kind, hopens⟩

/-- `_resolveARequest` builds the request object, or none.  Since it is called where there is none, at most
one is built. -/
theorem builds_resolveARequest {c : Client} (hnone : c.request = none) (sys : Sys) :
    Builds c (c.resolveARequest sys).2 := by
  -- without a request object the client has none, and the world is the same
  have hrefused : ∀ (c' : Client) (o : Option Handler), c'.request = none → o = none →
      c'.context.world = c.context.world →
      c'.request.map ARequest.kind = o.map (fun h => h.request.kind) ∧
        c'.context.world.opened.length ≤ c.context.world.opened.length + 1 := by
    rintro c' o hrequest rfl hworld
    rw [hrequest, hworld]
    exact ⟨rfl, Nat.le_succ _⟩
  suffices h : (c.resolveARequest sys).2.request.map ARequest.kind =
      c.builds.map (fun h => h.request.kind) ∧
        (c.resolveARequest sys).2.context.world.opened.length ≤ c.context.world.opened.length + 1 from
    ⟨h.1, h.2⟩
  unfold resolveARequest builds
  dsimp only
  cases c.context.server.findServerBlock c.connectSocket
      ((c.context.headers.find? headerHost).getD []) with
  | none => exact hrefused _ _ hnone rfl rfl
  | some block =>
    dsimp only
    cases block.findLocationBlock (Path.ofString c.context.target) with
    | none => exact hrefused _ _ hnone rfl rfl
    | some loc =>
      dsimp only
      by_cases hroot : loc.root.isEmpty
      · rw [if_pos hroot, if_pos hroot]
        exact hrefused _ _ hnone rfl rfl
      rw [if_neg hroot, if_neg hroot]
      by_cases hallowed : ¬ loc.isAllowed c.context.method
      · rw [if_pos hallowed, if_pos hallowed]
        exact hrefused _ _ hnone rfl rfl
      rw [if_neg hallowed, if_neg hallowed]
      by_cases hredirect : loc.redirection.1 ≠ statusNone
      · rw [if_pos hredirect, if_pos hredirect]
        exact hrefused _ _ hnone rfl rfl
      · rw [if_neg hredirect, if_neg hredirect]
        exact @builds_startRequest
          { c with context := { c.context with serverBlock := some block, ruleBlock := some loc } } hnone sys

/-! ## What goes on without it -/

/-- The client keeps its request object and opens no socket, and the head stays complete. -/
structure Retains (c c' : Client) : Prop where
  kind : c'.request.map ARequest.kind = c.request.map ARequest.kind
  opened : c'.context.world.opened = c.context.world.opened
  clientRead : c.context.requestState.isClientReadComplete = true →
    c'.context.requestState.isClientReadComplete = true

theorem Retains.refl (c : Client) : Retains c c := ⟨rfl, rfl, id⟩

theorem Retains.trans {c₁ c₂ c₃ : Client} (h₁₂ : Retains c₁ c₂) (h₂₃ : Retains c₂ c₃) :
    Retains c₁ c₃ where
  kind := h₂₃.kind.trans h₁₂.kind
  opened := h₂₃.opened.trans h₁₂.opened
  clientRead := h₂₃.clientRead ∘ h₁₂.clientRead

theorem Idles.retains {c c' : Client} (h : Idles c c') : Retains c c' where
  kind := by
    have hkind := congrArg (Option.map ARequest.kind) h.request
    rw [Option.map_map, Option.map_map] at hkind
    exact hkind
  opened := by
    obtain ⟨f, rfl⟩ := h.fields
    rfl
  clientRead := fun hread => by
    obtain ⟨hline, hheaders⟩ := Bool.and_eq_true_iff.mp hread
    exact Bool.and_eq_true_iff.mpr ⟨h.flags.requestLine hline, h.flags.headers hheaders⟩

theorem retains_readBody {c : Client} {request : ARequest} (sys : Sys)
    (hrequest : c.request = some request) :
    Retains c (c.withHandler (Handler.readBody sys ⟨c.context, request⟩).2) := by
  have hread := (steady_readBody sys hrequest).clientRead
  obtain ⟨f, hf⟩ := (Handler.reads_readBody sys ⟨c.context, request⟩).fields
  rw [hf] at hread ⊢
  exact ⟨by rw [hrequest]; rfl, rfl, hread⟩

theorem retains_handleRequest (c : Client) (sys : Sys) : Retains c (c.handleRequest sys).2 := by
  unfold handleRequest
  cases hrequest : c.request with
  | none => exact (idles_startResponse c sys).retains
  | some request =>
    dsimp only
    split_ifs
    · exact (idles_startResponse c sys).retains
    · have htouch := (idles_touch c .clientBody sys.now).retains
      have hbody : Retains (c.touch .clientBody sys.now) ((c.touch .clientBody sys.now).withHandler
          (Handler.workIn sys ⟨(c.touch .clientBody sys.now).context, request⟩).2) := by
        unfold Handler.workIn
        cases request.kind with
        | post | put => exact @retains_readBody (c.touch .clientBody sys.now) request sys hrequest
        | get | delete | head => exact ⟨congrArg (Option.map _) hrequest.symm, rfl, id⟩
      generalize Handler.workIn sys ⟨(c.touch .clientBody sys.now).context, request⟩ = r at hbody ⊢
      obtain ⟨ret, h⟩ := r
      cases ret with
      | reqDone => exact (htouch.trans hbody).trans (idles_startResponse _ sys).retains
      | reqContinue | reqError | throws => exact htouch.trans hbody

theorem retains_handleCGIOut (c : Client) (sys : Sys) : Retains c (c.handleCGIOut sys).2 := by
  unfold handleCGIOut
  cases hrequest : c.request with
  | none => exact .refl c
  | some request =>
    dsimp only
    unfold Handler.CGIOut
    cases request.kind with
    | post => exact retains_readBody sys hrequest
    | get | delete | put | head => exact ⟨congrArg (Option.map _) hrequest.symm, rfl, id⟩

theorem Retains.settle {c : Client} {r : Ret × Client} (h : Retains c r.2) : Retains c (settle r) :=
  ⟨h.kind, h.opened, h.clientRead⟩

theorem Retains.settleCGI {c : Client} {r : Ret × Client} (h : Retains c r.2) :
    Retains c (settleCGI r) := ⟨h.kind, h.opened, h.clientRead⟩

/-- An event that is not one of the client socket. -/
theorem retains_step {c : Client} {e : Event} (he : ∀ sys, e ≠ .clientIn sys) : Retains c (c.step e) := by
  unfold step
  by_cases hclosed : c.closed = true
  · rw [if_pos hclosed]
    exact .refl c
  · rw [if_neg hclosed]
    cases e with
    | clientIn sys => exact absurd rfl (he sys)
    | clientOut sys => exact (idles_handleSocketOut c sys).retains.settle
    | cgiIn sys =>
      dsimp only
      split_ifs
      · exact .refl c
      · exact (idles_handleCGIIn c sys).retains.settleCGI
    | cgiOut sys =>
      dsimp only
      split_ifs
      · exact .refl c
      · exact (retains_handleCGIOut c sys).settleCGI
    | timeoutCheck sys => exact (idles_timeoutCheck c sys).retains.settle
    | environment fs => exact ⟨rfl, rfl, id⟩

/-! ## The head is done with -/

/-- The head was accepted or refused, or the client was dropped. -/
def HeadDone (c : Client) : Prop :=
  c.closed = true ∨ c.context.requestState.isClientReadComplete = true

theorem resolveCall_of_headDone {c : Client} (h : HeadDone c) (e : Event) : c.resolveCall e = none := by
  cases e with
  | clientIn sys =>
    rcases h with hclosed | hread
    · exact if_pos hclosed
    · unfold resolveCall
      dsimp only
      split_ifs
      · rfl
      · rcases handleSocketIn_cases c sys with ⟨hnone, -⟩ | ⟨-, buffer, timestamp, hsome, -⟩
        · rw [hnone]
          rfl
        · rw [hsome, Option.bind_some]
          exact if_pos hread
  | clientOut | cgiIn | cgiOut | timeoutCheck | environment => rfl

/-- A client whose head is done with keeps its request object. -/
theorem retains_of_headDone {c : Client} (h : HeadDone c) (e : Event) : Retains c (c.step e) := by
  by_cases hin : ∃ sys, e = .clientIn sys
  · obtain ⟨sys, rfl⟩ := hin
    unfold step
    by_cases hclosed : c.closed = true
    · rw [if_pos hclosed]
      exact .refl c
    rw [if_neg hclosed]
    have hread := h.resolve_left hclosed
    refine Retains.settle ?_
    rcases handleSocketIn_cases c sys with ⟨-, heq, -⟩ | ⟨-, buffer, timestamp, -, heq, -⟩
    · rw [heq]
      exact .refl c
    · have hhandle : (c.withRead buffer timestamp).handleRead sys =
          (c.withRead buffer timestamp).handleRequest sys := if_pos hread
      rw [heq, hhandle]
      exact (idles_withRead c buffer timestamp).retains.trans (retains_handleRequest _ sys)
  · exact retains_step fun sys heq => hin ⟨sys, heq⟩

theorem HeadDone.step {c : Client} (h : HeadDone c) (e : Event) : HeadDone (c.step e) := by
  rcases h with hclosed | hread
  · left
    unfold Client.step
    rw [if_pos hclosed]
    exact hclosed
  · exact Or.inr ((retains_of_headDone (Or.inr hread) e).clientRead hread)

theorem HeadDone.run {c : Client} (h : HeadDone c) (es : List Event) : HeadDone (c.run es) :=
  Transition.run_invariant (C := fun _ _ => True) (fun _ e h _ => h.step e) h
    (Transition.along_of_forall (fun _ _ => trivial) es c)

theorem Phase.awaitsHead {c : Client} (h : Phase c) (hnot : ¬ HeadDone c) : AwaitsHead c := by
  rcases h with hclosed | hhead | hbody | hresponds
  · exact absurd (Or.inl hclosed) hnot
  · exact hhead
  · exact absurd (Or.inr hbody.clientRead) hnot
  · exact absurd (Or.inr hresponds.clientRead) hnot

/-- A client whose head is awaited has not been answered. -/
theorem AwaitsHead.statusCode {c : Client} (h : AwaitsHead c) :
    c.context.response.statusCode = statusNone := by
  rw [h.response]
  rfl

theorem Builds.retains {c₁ c₂ c₃ : Client} (h : Builds c₁ c₂) (hretains : Retains c₂ c₃) :
    Builds c₁ c₃ := by
  refine ⟨hretains.kind.trans h.kind, ?_⟩
  rw [hretains.opened]
  exact h.opened

/-- What a step does that enters `_resolveARequest`: it parses to an accepted head, resolves it, and goes on
with the rest of the read. -/
structure Executes (c : Client) (e : Event) (sys : Sys) (c₁ : Client) : Prop where
  accepted : HeadAccepted c₁
  world : c₁.context.world = c.context.world
  timestamp : c₁.timestamp .clientBody = c.timestamp .clientBody
  builds : Builds c₁ (c.step e)
  headDone : HeadDone (c.step e)
  /-- The step parses the head, and goes on with what `_resolveARequest` returns. -/
  parses : ∃ c₀ : Client, ¬ c₀.context.requestState.isClientReadComplete = true ∧
    c.step e = settle (c₀.handleRead sys) ∧
      c₀.parseRequest sys = match c₁.resolveARequest sys with
        | (.reqContinue, c) => (.reqDone, c.setState RequestState.setWorkInComplete)
        | r => r

/-- The rest of the step after `_resolveARequest`. -/
theorem HeadAccepted.handleRead {c c₁ : Client} (h : HeadAccepted c₁) (sys : Sys)
    (hunread : ¬ c.context.requestState.isClientReadComplete = true)
    (hparse : c.parseRequest sys = match c₁.resolveARequest sys with
      | (.reqContinue, c) => (.reqDone, c.setState RequestState.setWorkInComplete)
      | r => r) :
    Builds c₁ (settle (c.handleRead sys)) ∧ HeadDone (settle (c.handleRead sys)) := by
  have hbuilds := builds_resolveARequest h.request sys
  have hread := (h.attaches_resolves (resolves_resolveARequest c₁ sys)).clientRead
  rw [Client.handleRead, if_neg hunread, hparse]
  generalize c₁.resolveARequest sys = r at hbuilds hread ⊢
  obtain ⟨ret, c₂⟩ := r
  cases ret with
  | reqContinue =>
    have hset : Retains c₂ (c₂.setState RequestState.setWorkInComplete) := ⟨rfl, rfl, id⟩
    have hretains := hset.trans (retains_handleRequest (c₂.setState RequestState.setWorkInComplete) sys)
    exact ⟨hbuilds.retains hretains.settle, Or.inr (hretains.clientRead hread)⟩
  | reqDone =>
    have hretains := retains_handleRequest c₂ sys
    exact ⟨hbuilds.retains hretains.settle, Or.inr (hretains.clientRead hread)⟩
  | reqError | throws => exact ⟨hbuilds.retains ⟨rfl, rfl, id⟩, Or.inl rfl⟩

/-- A step on the client socket, while the head is awaited. -/
theorem AwaitsHead.clientIn {c : Client} (h : AwaitsHead c) (hclosed : c.closed = false) (sys : Sys) :
    (c.resolveCall (.clientIn sys) = none ∧ Retains c (c.step (.clientIn sys))) ∨
      ∃ c₁, c.resolveCall (.clientIn sys) = some (sys, c₁) ∧ Executes c (.clientIn sys) sys c₁ := by
  have hopen : ¬ c.closed = true := by
    rw [hclosed]
    exact Bool.false_ne_true
  have hstep : c.step (.clientIn sys) = settle (c.handleSocketIn sys) := if_neg hopen
  have hcall : c.resolveCall (.clientIn sys) = (c.received sys).bind _ := if_neg hopen
  rcases handleSocketIn_cases c sys with ⟨hnone, heq, -⟩ | ⟨-, buffer, timestamp, hsome, heq, htime⟩
  · rw [hnone] at hcall
    refine Or.inl ⟨hcall, ?_⟩
    rw [hstep]
    refine Retains.settle ?_
    rw [heq]
    exact .refl c
  · have hunread : ¬ (c.withRead buffer timestamp).context.requestState.isClientReadComplete = true :=
      h.not_clientRead
    have hread : Retains c (c.withRead buffer timestamp) := ⟨rfl, rfl, id⟩
    obtain ⟨requestLine, hstate⟩ := h.requestState
    have hparsed := @RequestContext.headParsed_parseHead (c.withRead buffer timestamp).context requestLine
      hstate
    rw [hsome, Option.bind_some, if_neg hunread] at hcall
    rw [heq] at hstep
    rw [hstep]
    generalize hhead : (c.withRead buffer timestamp).context.parseHead = r at hparsed hcall
    cases hparsed with
    | waiting f requestLine =>
      refine Or.inl ⟨hcall, Retains.settle ?_⟩
      rw [Client.handleRead, if_neg hunread, Client.parseRequest, hhead]
      exact ⟨rfl, rfl, fun hread => absurd hread hunread⟩
    | refused f code hcode =>
      have hstatus : code ≠ statusNone := by
        rintro rfl
        cases hcode
      refine Or.inl ⟨hcall.trans (if_neg hstatus), Retains.settle ?_⟩
      rw [Client.handleRead, if_neg hunread, parseRequest_refused hhead hstatus]
      refine hread.trans (Retains.trans ?_ (retains_handleRequest _ sys))
      exact ⟨rfl, rfl, fun _ => rfl⟩
    | accepted f =>
      have haccepted : HeadAccepted { c.withRead buffer timestamp with
          context := (c.withRead buffer timestamp).context.withHeadState f
            { requestLine := true, headers := true } } :=
        ⟨h.request, rfl, h.statusCode, h.cgiSocket, h.errorPage, h.output, h.heads⟩
      have hparse := @parseRequest_accepted _ sys _ hhead haccepted.statusCode
      obtain ⟨hbuilds, hdone⟩ := haccepted.handleRead sys hunread hparse
      rw [← hstep] at hbuilds hdone
      have hclock : timestamp .clientBody = c.timestamp .clientBody := by
        rw [htime (Bool.eq_false_iff.mpr h.not_clientRead)]
      exact Or.inr ⟨_, hcall.trans (if_pos haccepted.statusCode), haccepted, rfl, hclock, hbuilds, hdone, _,
        hunread, hstep, hparse⟩

/-- **Every step** keeps the request object, or enters `_resolveARequest` for the first time; in the second
case the head is done with afterwards. -/
theorem resolution_step {c : Client} (h : Phase c) (e : Event) :
    (c.resolveCall e = none ∧ Retains c (c.step e)) ∨
      ¬ HeadDone c ∧ ∃ sys c₁, c.resolveCall e = some (sys, c₁) ∧ Executes c e sys c₁ := by
  by_cases hdone : HeadDone c
  · exact Or.inl ⟨resolveCall_of_headDone hdone e, retains_of_headDone hdone e⟩
  · have hclosed : c.closed = false := Bool.eq_false_iff.mpr fun hclosed => hdone (Or.inl hclosed)
    by_cases hin : ∃ sys, e = .clientIn sys
    · obtain ⟨sys, rfl⟩ := hin
      exact ((h.awaitsHead hdone).clientIn hclosed sys).imp_right
        fun ⟨c₁, hcall⟩ => ⟨hdone, sys, c₁, hcall⟩
    · have he : ∀ sys, e ≠ .clientIn sys := fun sys heq => hin ⟨sys, heq⟩
      refine Or.inl ⟨?_, retains_step he⟩
      cases e with
      | clientIn sys => exact absurd rfl (he sys)
      | clientOut | cgiIn | cgiOut | timeoutCheck | environment => rfl

/-! ## Runs -/

/-- The calls of a run, and what has become of them: there is one at most, none before the head is done
with, and the objects and sockets are theirs. -/
structure ExecutedOnce (c : Client) (calls : List (Sys × Client)) : Prop where
  phase : Phase c
  length : calls.length ≤ 1
  pending : ¬ HeadDone c → calls = []
  kind : c.request.map ARequest.kind =
    (calls.filterMap fun call => call.2.builds).head?.map fun h => h.request.kind
  opened : c.context.world.opened.length ≤ calls.length

theorem ExecutedOnce.step {c : Client} {calls : List (Sys × Client)} (h : ExecutedOnce c calls) (e : Event) :
    ExecutedOnce (c.step e) (calls ++ (c.resolveCall e).toList) := by
  have hphase := (phase_step h.phase e).1
  rcases resolution_step h.phase e with ⟨hnone, hretains⟩ | ⟨hnot, sys, c₁, hcall, hexecutes⟩
  · rw [hnone, Option.toList_none, List.append_nil]
    exact ⟨hphase, h.length, fun hnot => h.pending fun hdone => hnot (hdone.step e),
      hretains.kind.trans h.kind, by rw [hretains.opened]; exact h.opened⟩
  · obtain rfl := h.pending hnot
    rw [hcall, Option.toList_some, List.nil_append]
    refine ⟨hphase, le_rfl, fun hnot => absurd hexecutes.headDone hnot, ?_, ?_⟩
    · rw [hexecutes.builds.kind, List.filterMap_cons, List.filterMap_nil]
      cases c₁.builds <;> rfl
    · have hopened := hexecutes.builds.opened
      rw [hexecutes.world] at hopened
      exact hopened.trans (Nat.succ_le_succ h.opened)

theorem executedOnce_run (server : Server) (fs : FileSystem) (connectSocket fd : Fd) (now : Int)
    (es : List Event) :
    ExecutedOnce ((init server fs connectSocket fd now).run es)
      ((init server fs connectSocket fd now).resolutions es) := by
  have hinit : ExecutedOnce (init server fs connectSocket fd now) [] :=
    ⟨Or.inr (Or.inl (awaitsHead_init server fs connectSocket fd now)), Nat.zero_le _, fun _ => rfl, rfl,
      le_rfl⟩
  exact Transition.run_record (C := fun _ _ => True) (fun _ e _ h _ => h.step e) hinit
    (Transition.along_of_forall (fun _ _ => trivial) es _)

/-- Until `_resolveARequest` is entered no status is chosen.  A call of it therefore finds the context of a
request that was accepted. -/
theorem statusCode_of_resolveCall {c : Client} (h : Phase c) {es : List Event} {e : Event}
    (hcall : (c.run es).resolveCall e ≠ none) : c.context.response.statusCode = statusNone := by
  by_cases hdone : HeadDone c
  · exact absurd (resolveCall_of_headDone (hdone.run es) e) hcall
  · exact (h.awaitsHead hdone).statusCode

/-- The client on which `_resolveARequest` is entered has a head that was accepted. -/
theorem headAccepted_of_resolveCall {c c₁ : Client} (h : Phase c) {e : Event} {sys : Sys}
    (hcall : c.resolveCall e = some (sys, c₁)) : HeadAccepted c₁ := by
  rcases resolution_step h e with ⟨hnone, -⟩ | ⟨-, sys', c₁', hcall', hexecutes⟩
  · rw [hnone] at hcall
    cases hcall
  · rw [hcall'] at hcall
    cases hcall
    exact hexecutes.accepted

/-- Once a DELETE was performed, the client leaves the file system alone. -/
theorem fs_step_of_delete {c : Client} (h : Phase c) {request : ARequest} (hrequest : c.request = some request)
    (hkind : request.kind = .delete) {e : Event} (he : ∀ fs, e ≠ .environment fs) :
    (c.step e).context.world.fs = c.context.world.fs := by
  have hnone : c.request ≠ none := by
    rw [hrequest]
    exact fun h => nomatch h
  have heffect := effect_step h e
  generalize c.step e = c' at heffect ⊢
  cases heffect with
  | environment heq => exact absurd heq (he _)
  | headOnly hhead => exact absurd hhead.request hnone
  | request hcreated hread hidles =>
    rw [hidles.fs]
    cases hcreated with
    | created sys hhead => exact absurd hhead.request hnone
    | same =>
      cases hread with
      | same => rfl
      | called c₂ hcall hbody hready hafter hrequest' hcontext =>
        -- a body is read for a POST or a PUT only
        have hsame := hafter.retains.kind
        rw [hrequest', hrequest] at hsame
        have hkind' := (Option.some.inj hsame).trans hkind
        rcases hbody with hpost | hput
        · rw [hpost] at hkind'
          cases hkind'
        · rw [hput] at hkind'
          cases hkind'

/-- **A request is executed at most once.**  In every run of a client `_resolveARequest` is entered at most
once, on a head that was accepted, and no status was chosen before.  So at most one request object is built,
at most one CGI is opened and at most one DELETE is performed. -/
theorem resolved_once (server : Server) (fs : FileSystem) (connectSocket fd : Fd) (now : Int)
    (es : List Event) :
    let c := init server fs connectSocket fd now
    (c.resolutions es).length ≤ 1 ∧
      (∀ before e after sys c₁, es = before ++ e :: after →
        (c.run before).resolveCall e = some (sys, c₁) →
          c₁.context.requestState = { requestLine := true, headers := true } ∧
            c₁.context.response.statusCode = statusNone ∧
              ∀ earlier, earlier <+: before → (c.run earlier).context.response.statusCode = statusNone) ∧
      (c.built es).length ≤ 1 ∧
      (c.run es).request.map ARequest.kind = (c.built es).head?.map (fun h => h.request.kind) ∧
      (c.run es).context.world.opened.length ≤ 1 ∧
      ((c.built es).filter fun h => h.request.kind = .delete).length ≤ 1 ∧
      ∀ before e after request, es = before ++ e :: after → (c.run before).request = some request →
        request.kind = .delete → (∀ fs, e ≠ .environment fs) →
          (c.run (before ++ [e])).context.world.fs = (c.run before).context.world.fs := by
  intro c
  have hexecuted : ExecutedOnce (c.run es) (c.resolutions es) :=
    executedOnce_run server fs connectSocket fd now es
  have hphase : ∀ es, Phase (c.run es) :=
    phase_run (Or.inr (Or.inl (awaitsHead_init server fs connectSocket fd now)))
  have hbuilt : (c.built es).length ≤ 1 := (List.length_filterMap_le _ _).trans hexecuted.length
  refine ⟨hexecuted.length, ?_, hbuilt, hexecuted.kind, hexecuted.opened.trans hexecuted.length,
    (List.length_filter_le _ _).trans hbuilt, ?_⟩
  · rintro before e after sys c₁ - hcall
    have haccepted := headAccepted_of_resolveCall (hphase before) hcall
    refine ⟨haccepted.requestState, haccepted.statusCode, ?_⟩
    rintro earlier ⟨later, rfl⟩
    refine @statusCode_of_resolveCall _ (hphase earlier) later e ?_
    rw [run, ← Transition.run_append, hcall]
    exact Option.some_ne_none _
  · intro before e after request _ hrequest hkind he
    rw [run, Transition.run_append]
    exact fs_step_of_delete (hphase before) hrequest hkind he

end Client
end Webserv
