import Webserv.Resolution
import Webserv.SendTimeout

/-!
# The body timeout

`_readSocket` sets the timestamp of the body when the head is complete already, and `_handleSocketIn` sets
it before `workIn`.  The read that completes the head does neither for a POST to a CGI, whose `WORK_IN` is
set by `processing`: until the client sends again, its timestamp is the one that never expires.

* `ReadsClient`: a step reads bytes of the client after its head.
* `bodyClock_step`: a step sets the timestamp when it reads, and only then.
* `bodyClock_run`: after the head, the timestamp is that of the last step that reads.
* `bodyClock_iff`: when the timestamp of an awaited body is the time of an event.

## Why the step that accepts the request is special

A timestamp is set in two places, for two reasons.  A read sets it because the client has shown a sign of
life, and `workIn` sets it because the body is being read.  Every step after the head is one of these or
neither, so one equation says what it does (`bodyClock_step`), and a run is an induction with it.  The step
that completes the head is different, because `_readSocket` looks at the state from before the packet: the
head was not complete when it was read.  What is left is `workIn`, and this is called only when the server
is to read the body itself.  A PUT and a POST without a CGI come there; for a POST with a CGI the flag is
set by `processing`, since the body is read when the socket of the CGI can be written.

## Why the timestamp matters

`timeoutCheck` compares the time with the timestamp plus the timeout, and the initial timestamp is the
largest `time_t`.  A body that is awaited with this timestamp is awaited for ever
(`not_bodyTimeout_of_timeMax`), however long the client is silent; with any other, the first sweep after the
timeout answers 408 (`statusCode_of_bodyTimeout`).  So the condition of the theorem decides between the two:
the body is for the server, or the client was read from once more.
-/

namespace Webserv

/-- The time at which a call is made.  A change of the file system by others is no call and has none. -/
def Event.now : Event → Option Int
  | .clientIn sys | .clientOut sys | .cgiIn sys | .cgiOut sys | .timeoutCheck sys => some sys.now
  | .environment _ => none

namespace Client

/-- `_timestamp[CLIENT_BODY_TIMEOUT]`, which is the largest time until it is set. -/
def bodyClock (c : Client) : Int := c.timestamp .clientBody

/-! ## What leaves the timestamp alone -/

theorem bodyClock_switchToWrite (c : Client) (sys : Sys) :
    (c.switchToWrite sys).2.bodyClock = c.bodyClock := by
  rcases switchToWrite_cases c sys with heq | heq <;> rw [heq]
  rfl

theorem bodyClock_startResponse (c : Client) (sys : Sys) :
    (c.startResponse sys).2.bodyClock = c.bodyClock := by
  unfold startResponse
  obtain ⟨f, heq, -⟩ := prepareError_cases c sys
  rw [heq]
  dsimp only
  rw [bodyClock_switchToWrite]
  split_ifs <;> rfl

theorem bodyClock_respondTimeout (c : Client) (sys : Sys) :
    (c.respondTimeout sys).2.bodyClock = c.bodyClock := by
  unfold respondTimeout
  extract_lets c₁
  obtain ⟨f, heq, -⟩ := loadErrorPage_cases c₁ sys
  rw [heq, bodyClock_switchToWrite]
  rfl

theorem bodyClock_timeoutCheck (c : Client) (sys : Sys) :
    (c.timeoutCheck sys).2.bodyClock = c.bodyClock := by
  unfold timeoutCheck
  split_ifs
  · exact bodyClock_respondTimeout _ sys
  · exact bodyClock_respondTimeout _ sys
  · rfl
  · exact bodyClock_respondTimeout _ sys
  · rfl

theorem bodyClock_handleSocketOut (c : Client) (sys : Sys) :
    (c.handleSocketOut sys).2.bodyClock = c.bodyClock := by
  have hproduce : (c.produce sys).2.bodyClock = c.bodyClock := by
    unfold produce
    split_ifs
    · rfl
    · unfold readErrorPage
      dsimp only
      split_ifs <;> rfl
    · cases c.request with
      | none => rfl
      | some request =>
        dsimp only
        generalize Handler.workOut sys ⟨c.context, request⟩ = r
        obtain ⟨ret, h⟩ := r
        cases ret <;> rfl
  have hsend : ∀ c : Client, (c.sendResponse sys).2.bodyClock = c.bodyClock := by
    intro c
    rcases sendResponse_cases c sys with heq | ⟨n, heq⟩ <;> rw [heq]
    unfold takeResponse
    dsimp only
    split_ifs <;> rfl
  unfold handleSocketOut
  generalize c.produce sys = r at hproduce ⊢
  obtain ⟨ret, c'⟩ := r
  cases ret with
  | reqContinue => exact (hsend c').trans hproduce
  | reqDone | reqError | throws => exact hproduce

/-- The end of `_handleSocketIn` sets the timestamp before `workIn`, and leaves it alone otherwise. -/
theorem bodyClock_handleRequest (c : Client) (sys : Sys) :
    (c.handleRequest sys).2.bodyClock =
      if c.request.isSome ∧ c.context.requestState.workIn = false then sys.now else c.bodyClock := by
  unfold handleRequest
  cases c.request with
  | none => exact (bodyClock_startResponse c sys).trans (if_neg (fun h => nomatch h.1)).symm
  | some request =>
    dsimp only
    by_cases hworkIn : c.context.requestState.isWorkInComplete = true
    · rw [if_pos hworkIn, if_neg fun h => absurd (hworkIn.symm.trans h.2) (by decide)]
      exact bodyClock_startResponse c sys
    · rw [if_neg hworkIn, if_pos ⟨rfl, Bool.eq_false_iff.mpr hworkIn⟩]
      generalize Handler.workIn sys ⟨(c.touch .clientBody sys.now).context, request⟩ = r
      obtain ⟨ret, h⟩ := r
      cases ret with
      | reqDone => exact bodyClock_startResponse _ sys
      | reqContinue | reqError | throws => rfl

/-! ## Steps after the head -/

/-- The step reads bytes of the client, and the head is complete already. -/
def ReadsClient (c : Client) : Event → Prop
  | .clientIn sys => c.closed = false ∧ c.context.requestState.isClientReadComplete = true ∧
      c.context.requestState.isReadComplete = false ∧ ∃ packet, sys.recv = .data packet
  | _ => False

/-- **One step** after the head sets the timestamp when it reads, and only then. -/
theorem bodyClock_step {c : Client} (h : Phase c)
    (hread : c.context.requestState.isClientReadComplete = true) (e : Event) :
    (¬ ReadsClient c e → (c.step e).bodyClock = c.bodyClock) ∧
      (ReadsClient c e → e.now = some (c.step e).bodyClock) := by
  unfold step
  by_cases hclosed : c.closed = true
  · rw [if_pos hclosed]
    refine ⟨fun _ => rfl, fun hreads => ?_⟩
    cases e with
    | clientIn sys =>
      have hopen : c.closed = false := hreads.1
      rw [hclosed] at hopen
      cases hopen
    | clientOut | cgiIn | cgiOut | timeoutCheck | environment => exact hreads.elim
  rw [if_neg hclosed]
  cases e with
  | clientIn sys =>
    show (_ → (c.handleSocketIn sys).2.bodyClock = c.bodyClock) ∧
      (_ → some sys.now = some (c.handleSocketIn sys).2.bodyClock)
    have hhandle : ∀ c : Client, c.context.requestState.isClientReadComplete = true →
        c.handleRead sys = c.handleRequest sys := fun c hread => if_pos hread
    have hclock : ∀ c : Client, c.context.requestState.isClientReadComplete = true →
        c.bodyClock = sys.now → (c.handleRead sys).2.bodyClock = sys.now := by
      intro c hread hnow
      rw [hhandle c hread, bodyClock_handleRequest]
      split_ifs
      · rfl
      · exact hnow
    unfold handleSocketIn
    by_cases hcomplete : c.context.requestState.isReadComplete = true
    · -- nothing is read any more, and the body is not awaited
      have hworkIn : c.context.requestState.workIn = true := by
        rcases h with hc | hhead | hbody | hresponds
        · exact absurd hc hclosed
        · exact absurd hread hhead.not_clientRead
        · have hset := (Bool.and_eq_true_iff.mp hcomplete).2
          rw [hbody.read] at hset
          cases hset
        · exact hresponds.workIn
      rw [if_pos hcomplete, hhandle c hread, bodyClock_handleRequest,
        if_neg fun hawaits => absurd (hworkIn.symm.trans hawaits.2) (by decide)]
      refine ⟨fun _ => rfl, fun hreads => ?_⟩
      have hnot := hreads.2.2.1
      rw [hcomplete] at hnot
      cases hnot
    · rw [if_neg hcomplete]
      unfold readSocket
      cases hrecv : sys.recv with
      | closed => exact ⟨fun _ => rfl, fun ⟨_, _, _, packet, hdata⟩ => by rw [hrecv] at hdata; cases hdata⟩
      | error => exact ⟨fun _ => rfl, fun ⟨_, _, _, packet, hdata⟩ => by rw [hrecv] at hdata; cases hdata⟩
      | data packet =>
        have hreads : ReadsClient c (.clientIn sys) :=
          ⟨Bool.eq_false_iff.mpr hclosed, hread, Bool.eq_false_iff.mpr hcomplete, packet, hrecv⟩
        refine ⟨fun hnot => absurd hreads hnot, fun _ => ?_⟩
        dsimp only
        rw [if_pos hread]
        exact congrArg some (Eq.symm (hclock _ hread rfl))
  | clientOut sys => exact ⟨fun _ => bodyClock_handleSocketOut c sys, False.elim⟩
  | cgiIn sys =>
    refine ⟨fun _ => ?_, False.elim⟩
    dsimp only
    split_ifs
    · rfl
    · unfold handleCGIIn
      cases c.request <;> rfl
  | cgiOut sys =>
    refine ⟨fun _ => ?_, False.elim⟩
    dsimp only
    split_ifs
    · rfl
    · unfold handleCGIOut
      cases c.request <;> rfl
  | timeoutCheck sys => exact ⟨fun _ => bodyClock_timeoutCheck c sys, False.elim⟩
  | environment fs => exact ⟨fun _ => rfl, False.elim⟩

/-- Some step of a run reads bytes of the client, in the state that the steps before it have led to. -/
def ReadsAgain (c : Client) (es : List Event) : Prop :=
  ∃ before e after, es = before ++ e :: after ∧ ReadsClient (c.run before) e

theorem readsAgain_cons {c : Client} {e : Event} {es : List Event} :
    ReadsAgain c (e :: es) ↔ ReadsClient c e ∨ ReadsAgain (c.step e) es := by
  constructor
  · rintro ⟨before, e', after, heq, hreads⟩
    cases before with
    | nil =>
      obtain ⟨rfl, rfl⟩ := List.cons.inj heq
      exact Or.inl hreads
    | cons e₀ before =>
      obtain ⟨rfl, rfl⟩ := List.cons.inj heq
      exact Or.inr ⟨before, e', after, rfl, hreads⟩
  · rintro (hreads | ⟨before, e', after, rfl, hreads⟩)
    · exact ⟨[], e, es, rfl, hreads⟩
    · exact ⟨e :: before, e', after, rfl, hreads⟩

/-- **A run** after the head leaves the timestamp alone, or sets it to the time of a step that reads. -/
theorem bodyClock_run {es : List Event} {c : Client} (h : Phase c)
    (hread : c.context.requestState.isClientReadComplete = true) :
    (¬ ReadsAgain c es → (c.run es).bodyClock = c.bodyClock) ∧
      (ReadsAgain c es → ∃ e ∈ es, e.now = some (c.run es).bodyClock) := by
  induction es generalizing c with
  | nil =>
    refine ⟨fun _ => rfl, fun ⟨before, e, after, heq, _⟩ => ?_⟩
    exact absurd heq.symm (by simp)
  | cons e es ih =>
    have hread' : (c.step e).context.requestState.isClientReadComplete = true :=
      (retains_of_headDone (Or.inr hread) e).clientRead hread
    obtain ⟨hkeeps, hsets⟩ := ih (phase_step h e).1 hread'
    obtain ⟨hkeeps₁, hsets₁⟩ := bodyClock_step h hread e
    rw [run, Transition.run_cons, readsAgain_cons]
    by_cases hagain : ReadsAgain (c.step e) es
    · refine ⟨fun hnot => absurd (Or.inr hagain) hnot, fun _ => ?_⟩
      obtain ⟨e', he', hnow⟩ := hsets hagain
      exact ⟨e', List.mem_cons_of_mem e he', hnow⟩
    · change (_ → (Client.run (c.step e) es).bodyClock = _) ∧ _
      rw [hkeeps hagain]
      refine ⟨fun hnot => hkeeps₁ fun hreads => hnot (Or.inl hreads), fun hreads => ?_⟩
      exact ⟨e, List.mem_cons_self, hsets₁ (hreads.resolve_right hagain)⟩

/-! ## The step that reads the head -/

/-- The request object that a step builds, as the constructor leaves it and before `processing`. -/
def builtIn (c : Client) (e : Event) : Option Handler :=
  (c.resolveCall e).bind fun call => call.2.builds

end Client

namespace Handler

/-- The body of an accepted PUT or POST is read by the server, unless it is for a CGI. -/
theorem workIn_processing (sys : Sys) {kind : RequestKind} {ctx : RequestContext} {h : Handler}
    (hcreate : createRequest kind ctx = .ok h) (hunread : ctx.requestState.workIn = false)
    (hkind : h.request.kind = .put ∨ h.request.kind = .post)
    (haccepted : (processing sys h).context.response.statusCode = statusNone) :
    (processing sys h).context.requestState.workIn = false ↔
      h.request.kind = .put ∨ h.request.cgiPath = none := by
  obtain ⟨chopedTarget, -, hh⟩ := createRequest_ok hcreate
  have hstate : h.context.requestState = kind.initState ctx.requestState := by rw [hh]; rfl
  have hkind' : kind = h.request.kind := by rw [hh]
  rcases hkind with hput | hpost
  · have hquiet := (quiet_processingPUT sys h).requestState
    rw [hstate, hkind', hput] at hquiet
    have heq : processing sys h = processingPUT sys h := by rw [processing, hput]
    rw [heq, hquiet]
    exact iff_of_true hunread (Or.inl hput)
  · have hne : h.request.kind ≠ .put := by
      rw [hpost]
      decide
    have heq : processing sys h = processingPOST sys h := by rw [processing, hpost]
    rw [heq] at haccepted ⊢
    rw [hkind', hpost] at hstate
    rcases processes_processingPOST sys h with
      ⟨h₁, hquiet, hstatus, heq⟩ | ⟨hcgi, h₁, hquiet, heq⟩ | ⟨hcgi, h₁, hquiet, hquiet'⟩
    · rw [heq] at haccepted
      exact absurd haccepted hstatus
    · have hset : (openCGI sys (h₁.setState RequestState.setWorkInComplete)).context.requestState.workIn =
          true := by
        rcases (processes_openCGI sys (h₁.setState RequestState.setWorkInComplete)).2.1 with hflags | hflags <;>
          rw [hflags] <;> rfl
      rw [heq, hset]
      refine iff_of_false (by decide) fun hor => ?_
      rw [hor.resolve_left hne] at hcgi
      cases hcgi
    · refine iff_of_true ?_ (Or.inr hcgi)
      have hflags := hquiet.requestState
      rw [hstate] at hflags
      rw [hquiet'.requestState]
      show h₁.context.requestState.workIn = false
      rw [hflags]
      exact hunread

end Handler

namespace Client

/-- A call of `_resolveARequest` that builds a request object ends with it, whatever `processing` makes of
it. -/
theorem resolveARequest_of_builds {c : Client} {h : Handler} (hbuilds : c.builds = some h) (sys : Sys) :
    ∃ (c' : Client) (kind : RequestKind), c'.bodyClock = c.bodyClock ∧
      c'.context.requestState = c.context.requestState ∧ createRequest kind c'.context = .ok h ∧
        c.resolveARequest sys =
          ((c'.withHandler (h.processing sys)).registerCGI sys, c'.withHandler (h.processing sys)) := by
  unfold resolveARequest
  unfold builds at hbuilds
  dsimp only at hbuilds ⊢
  cases hblock : c.context.server.findServerBlock c.connectSocket
      ((c.context.headers.find? headerHost).getD []) with
  | none =>
    rw [hblock] at hbuilds
    cases hbuilds
  | some block =>
    rw [hblock] at hbuilds
    dsimp only at hbuilds ⊢
    cases hloc : block.findLocationBlock (Path.ofString c.context.target) with
    | none =>
      rw [hloc] at hbuilds
      cases hbuilds
    | some loc =>
      rw [hloc] at hbuilds
      dsimp only at hbuilds ⊢
      split_ifs at hbuilds ⊢ with hroot hallowed hredirect
      obtain ⟨kind, hkind, hcreate⟩ := Option.bind_eq_some_iff.mp hbuilds
      cases hstart : createRequest kind
          { c.context with serverBlock := some block, ruleBlock := some loc } with
      | error fault =>
        rw [hstart] at hcreate
        cases hcreate
      | ok h' =>
        rw [hstart] at hcreate
        obtain rfl := Option.some.inj hcreate
        refine ⟨{ c with context := { c.context with serverBlock := some block, ruleBlock := some loc } },
          kind, rfl, rfl, hstart, ?_⟩
        unfold startRequest
        dsimp only at hkind ⊢
        rw [hkind]
        dsimp only
        rw [hstart]

/-- The head of a request that was accepted is read: a body that the server reads is awaited from now on,
and the timestamp of a body for a CGI is not set. -/
theorem AwaitsHead.bodyClock {c : Client} (h : AwaitsHead c) {sys : Sys} {h₀ : Handler}
    (hbuilt : c.builtIn (.clientIn sys) = some h₀)
    (hkind : h₀.request.kind = .put ∨ h₀.request.kind = .post)
    (haccepted : (h₀.processing sys).context.response.statusCode = statusNone)
    (hopen : (c.step (.clientIn sys)).closed = false) :
    (c.step (.clientIn sys)).bodyClock =
      if h₀.request.kind = .put ∨ h₀.request.cgiPath = none then sys.now else timeMax := by
  obtain ⟨⟨sys', c₁⟩, hcall, hbuilds⟩ := Option.bind_eq_some_iff.mp hbuilt
  have hclosed : c.closed = false := by
    refine Bool.eq_false_iff.mpr fun hclosed => ?_
    rw [resolveCall_of_headDone (Or.inl hclosed)] at hcall
    cases hcall
  rcases h.clientIn hclosed sys with ⟨hnone, -⟩ | ⟨c₁', hcall', hexecutes⟩
  · rw [hnone] at hcall
    cases hcall
  rw [hcall'] at hcall
  obtain ⟨rfl, rfl⟩ := Prod.mk.inj (Option.some.inj hcall)
  obtain ⟨c₀, hunread, hstep, hparse⟩ := hexecutes.parses
  obtain ⟨c₂, kind, hclock, hstate, hcreate, hresolve⟩ := resolveARequest_of_builds hbuilds sys
  have hworkIn := Handler.workIn_processing sys hcreate (by rw [hstate, hexecutes.accepted.requestState])
    hkind haccepted
  have hclock : (c₂.withHandler (h₀.processing sys)).bodyClock = timeMax :=
    hclock.trans (hexecutes.timestamp.trans h.timestamp)
  rw [hresolve] at hparse
  rw [hstep, Client.handleRead, if_neg hunread, hparse] at hopen ⊢
  have hret : (c₂.withHandler (h₀.processing sys)).registerCGI sys ≠ .reqContinue := by
    unfold registerCGI
    split_ifs with hfails hadds hstatus
    · exact Ret.noConfusion
    · exact Ret.noConfusion
    · exact absurd haccepted hstatus
    · exact Ret.noConfusion
  generalize (c₂.withHandler (h₀.processing sys)).registerCGI sys = ret at hret hopen ⊢
  cases ret with
  | reqContinue => exact absurd rfl hret
  | reqError | throws => cases hopen
  | reqDone =>
    show ((c₂.withHandler (h₀.processing sys)).handleRequest sys).2.bodyClock = _
    rw [bodyClock_handleRequest, hclock]
    refine if_congr ?_ rfl rfl
    exact (and_iff_right rfl).trans hworkIn

/-! ## Awaited bodies -/

/-- The body is read by the server, or the client was read from after its head: the two ways to a timestamp.
-/
def Arms (h₀ : Handler) (c : Client) (after : List Event) : Prop :=
  h₀.request.kind = .put ∨ h₀.request.cgiPath = none ∨ ReadsAgain c after

/-- A body that is not complete is awaited: the head was accepted, and no error or response has taken its
place. -/
def AwaitsRest (c : Client) : Prop :=
  c.context.requestState.isWorkInComplete = false ∨ c.context.requestState.isCgiOutComplete = false

/-- Once the timeout of an awaited body has passed, a sweep answers 408. -/
theorem statusCode_of_bodyTimeout {c : Client} (hread : c.context.requestState.isClientReadComplete = true)
    (hawaits : AwaitsRest c) {sys : Sys} (htimeout : c.context.server.getTimeout .clientBody ≠ 0)
    (hpast : c.context.server.getTimeout .clientBody ≤ sys.now - c.bodyClock) :
    (c.timeoutCheck sys).2.context.response.statusCode = statusRequestTimeout := by
  have hflags : (!c.context.requestState.isWorkInComplete || !c.context.requestState.isCgiOutComplete) =
      true := by
    rcases hawaits with hflag | hflag <;> simp [hflag]
  have hbody : c.bodyTimeout sys.now = true := by
    have hpast' : c.context.server.getTimeout .clientBody ≤ sys.now - c.timestamp .clientBody := hpast
    rw [bodyTimeout, hflags, timedOut]
    simpa [htimeout] using hpast'
  unfold timeoutCheck
  rw [if_neg (not_headerTimeout hread sys.now), if_pos hbody, statusCode_respondTimeout]
  rfl

/-- A timestamp that was not set never expires, because no time is larger. -/
theorem not_bodyTimeout_of_timeMax {c : Client} (hclock : c.bodyClock = timeMax) (sys : Sys) :
    c.bodyTimeout sys.now = false := by
  have hle := sys.now_le
  have htime : c.timestamp .clientBody = timeMax := hclock
  refine Bool.eq_false_iff.mpr fun hbody => ?_
  rw [bodyTimeout, timedOut, htime] at hbody
  simp only [Bool.and_eq_true, decide_eq_true_eq] at hbody
  omega

/-- The timestamp in a run from the step that accepts a PUT or POST. -/
theorem bodyClock_accepted {c : Client} (h : Phase c) {sys : Sys} {h₀ : Handler} {after : List Event}
    (hbuilt : c.builtIn (.clientIn sys) = some h₀)
    (hkind : h₀.request.kind = .put ∨ h₀.request.kind = .post)
    (haccepted : (h₀.processing sys).context.response.statusCode = statusNone)
    (hopen : (c.run (.clientIn sys :: after)).closed = false) :
    (c.run (.clientIn sys :: after)).context.requestState.isClientReadComplete = true ∧
      (Arms h₀ (c.step (.clientIn sys)) after →
        ∃ e ∈ .clientIn sys :: after, e.now = some (c.run (.clientIn sys :: after)).bodyClock) ∧
      (¬ Arms h₀ (c.step (.clientIn sys)) after →
        (c.run (.clientIn sys :: after)).bodyClock = timeMax) := by
  obtain ⟨call, hcall, -⟩ := Option.bind_eq_some_iff.mp hbuilt
  obtain ⟨hnot, sys', c₁, -, hexecutes⟩ := (resolution_step h (.clientIn sys)).resolve_left fun hleft => by
    rw [hleft.1] at hcall
    cases hcall
  rw [run, Transition.run_cons] at hopen ⊢
  change ((c.step (.clientIn sys)).run after).closed = false at hopen
  have hopen₁ : (c.step (.clientIn sys)).closed = false := by
    refine Bool.eq_false_iff.mpr fun hclosed => ?_
    rw [run_of_closed hclosed, hclosed] at hopen
    cases hopen
  have hclock := (h.awaitsHead hnot).bodyClock hbuilt hkind haccepted hopen₁
  have hread := hexecutes.headDone.resolve_left (by rw [hopen₁]; exact Bool.false_ne_true)
  have hread' := (HeadDone.run (Or.inr hread) after).resolve_left (by rw [hopen]; exact Bool.false_ne_true)
  obtain ⟨hkeeps, hsets⟩ := @bodyClock_run after _ (phase_step h (.clientIn sys)).1 hread
  refine ⟨hread', fun harms => ?_, fun harms => ?_⟩
  · by_cases hagain : ReadsAgain (c.step (.clientIn sys)) after
    · obtain ⟨e, he, hnow⟩ := hsets hagain
      exact ⟨e, List.mem_cons_of_mem _ he, hnow⟩
    · have hupload : h₀.request.kind = .put ∨ h₀.request.cgiPath = none := by
        rcases harms with hput | hnone | hreads
        · exact Or.inl hput
        · exact Or.inr hnone
        · exact absurd hreads hagain
      refine ⟨_, List.mem_cons_self, congrArg some ?_⟩
      exact ((hkeeps hagain).trans (hclock.trans (if_pos hupload))).symm
  · obtain ⟨hput, hrest⟩ := not_or.mp harms
    obtain ⟨hcgi, hagain⟩ := not_or.mp hrest
    exact (hkeeps hagain).trans (hclock.trans (if_neg (not_or.mpr ⟨hput, hcgi⟩)))

/-- **The body timeout.**  In every run that accepts a PUT or POST, and in every state after it in which
the body is awaited, the timestamp of the body is the time of an event since the head was read exactly when
the body is not for a CGI, or bytes of the client were read after its head (or a clock shows the value of a
timestamp that is not set).  A set timestamp makes a later sweep answer 408; one that is not set never
expires. -/
theorem bodyClock_iff (server : Server) (fs : FileSystem) (connectSocket fd : Fd) (now : Int)
    (before after : List Event) (sys : Sys) {h₀ : Handler}
    (hbuilt : ((init server fs connectSocket fd now).run before).builtIn (.clientIn sys) = some h₀)
    (hkind : h₀.request.kind = .put ∨ h₀.request.kind = .post)
    (haccepted : (h₀.processing sys).context.response.statusCode = statusNone)
    (hopen : ((init server fs connectSocket fd now).run (before ++ .clientIn sys :: after)).closed = false)
    (hawaits : AwaitsRest ((init server fs connectSocket fd now).run (before ++ .clientIn sys :: after))) :
    let c := (init server fs connectSocket fd now).run (before ++ .clientIn sys :: after)
    let arms := Arms h₀ ((init server fs connectSocket fd now).run (before ++ [.clientIn sys])) after
    ((∃ e ∈ .clientIn sys :: after, e.now = some c.bodyClock) ↔
        arms ∨ ∃ e ∈ .clientIn sys :: after, e.now = some timeMax) ∧
      (∀ sys' : Sys, c.context.server.getTimeout .clientBody ≠ 0 →
        c.context.server.getTimeout .clientBody ≤ sys'.now - c.bodyClock →
          (c.timeoutCheck sys').2.context.response.statusCode = statusRequestTimeout) ∧
      (¬ arms → ∀ sys' : Sys, c.bodyTimeout sys'.now = false) := by
  intro c arms
  have hphase : Phase ((init server fs connectSocket fd now).run before) :=
    phase_run (Or.inr (Or.inl (awaitsHead_init server fs connectSocket fd now))) before
  have hc : c = ((init server fs connectSocket fd now).run before).run (.clientIn sys :: after) :=
    Transition.run_append ..
  have harms : arms = Arms h₀ (((init server fs connectSocket fd now).run before).step (.clientIn sys))
      after := congrArg (Arms h₀ · after) (Transition.run_append ..)
  change c.closed = false at hopen
  change AwaitsRest c at hawaits
  rw [hc] at hopen
  obtain ⟨hread, hset, hunset⟩ := bodyClock_accepted hphase hbuilt hkind haccepted hopen
  rw [← hc, ← harms] at hset hunset
  rw [← hc] at hread
  refine ⟨⟨fun htimed => ?_, ?_⟩, fun sys' => statusCode_of_bodyTimeout hread hawaits, fun hnot =>
    not_bodyTimeout_of_timeMax (hunset hnot)⟩
  · by_cases harmed : arms
    · exact Or.inl harmed
    · rw [hunset harmed] at htimed
      exact Or.inr htimed
  · rintro (harmed | htimed)
    · exact hset harmed
    · by_cases harmed : arms
      · exact hset harmed
      · rw [hunset harmed]
        exact htimed

/-! ## A POST to a CGI -/

/-- A server that runs `.php` files, and waits a second for a body. -/
def postServer : Server :=
  .single 3
    { locations := [{
        path := Path.ofString (bytes "/")
        root := Path.ofString (bytes "/r/")
        maxBodySize := 100
        maxBodySize_le := hundred_le_int32Max
        allowed := 2
        gcis := OrderedMap.empty.insert (bytes "php") (Path.ofString (bytes "/php")) }] }
    fun | .clientBody => 1 | _ => 0

def postClient : Client :=
  init postServer { table := fun p => if p = bytes "/php" then some { kind := .regular [] } else none } 3 4 0

def postHead : Bytes := bytes "POST /x.php HTTP/1.1\r\nHost: h\r\nContent-Length: 3\r\n\r\n"

set_option maxRecDepth 10000 in
theorem isSome_builtIn_post :
    (postClient.builtIn (.clientIn (.receiving postHead))).isSome = true := by decide +kernel

/-- The request object of the POST. -/
def postHandler : Handler :=
  (postClient.builtIn (.clientIn (.receiving postHead))).get isSome_builtIn_post

set_option maxRecDepth 10000 in
/-- The head comes alone, and then a byte of the body: the timestamp is set. -/
theorem bodyClock_iff_post :
    ∃ e ∈ [Event.clientIn (.receiving postHead), .clientIn (.receiving (bytes "a"))],
      e.now = some (postClient.run
        [.clientIn (.receiving postHead), .clientIn (.receiving (bytes "a"))]).bodyClock := by
  have hbuilt : postClient.builtIn (.clientIn (.receiving postHead)) = some postHandler :=
    (Option.some_get isSome_builtIn_post).symm
  have hreads : ReadsClient (postClient.run [.clientIn (.receiving postHead)])
      (.clientIn (.receiving (bytes "a"))) :=
    ⟨by decide +kernel, by decide +kernel, by decide +kernel, ⟨bytes "a", by decide, by decide⟩, rfl⟩
  have hclock := bodyClock_iff postServer
    { table := fun p => if p = bytes "/php" then some { kind := .regular [] } else none } 3 4 0 []
    [.clientIn (.receiving (bytes "a"))] (.receiving postHead) hbuilt (by decide +kernel) (by decide +kernel)
    (by decide +kernel) (Or.inr (by decide +kernel))
  exact hclock.1.mpr (Or.inl (Or.inr (Or.inr ⟨[], _, [], rfl, hreads⟩)))

set_option maxRecDepth 10000 in
/-- The head comes alone, and nothing more: the body is awaited for ever. -/
theorem not_bodyClock :
    let c := postClient.run [.clientIn (.receiving postHead)]
    c.closed = false ∧ AwaitsRest c ∧
      (postClient.builtIn (.clientIn (.receiving postHead))).map (fun h => h.request.kind) = some .post ∧
      c.context.response.statusCode = statusNone ∧
      (¬ ∃ e ∈ [Event.clientIn (.receiving postHead)], e.now = some c.bodyClock) ∧
      c.context.server.getTimeout .clientBody = 1 ∧
      (c.timeoutCheck (.quiet 1000000)).2.context.response.statusCode = statusNone := by
  have hclock : (postClient.run [.clientIn (.receiving postHead)]).bodyClock = timeMax := by
    decide +kernel
  refine ⟨by decide +kernel, Or.inr (by decide +kernel), by decide +kernel, by decide +kernel, ?_,
    rfl, by decide +kernel⟩
  rintro ⟨e, he, hnow⟩
  obtain rfl := List.mem_singleton.mp he
  rw [hclock] at hnow
  exact absurd hnow (by decide)

end Client
end Webserv
