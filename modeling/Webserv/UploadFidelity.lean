import Webserv.BodyLimit
import Webserv.SendTimeout
import Webserv.Unread
import Webserv.UploadReads

/-!
# What an upload stores

The reader of an upload is called with the bytes that came with the head, and then with each read of the
client socket.

* `bodyReads`: the bytes that the body readers of a run get, call by call.
* `UploadStage`: how far an upload has come, and what was written.
* `UploadStage.step`: one step of an upload.
* `uploaded_run`: the file is the body exactly when no read ends right before a byte of data.
* `not_uploaded`: a PUT whose body arrives in two reads.

## Why the reads are recorded

What is written depends on how the body was cut, and the state of a client does not tell.  So a run keeps a
list of what each call of a body reader got that the call before had not (`noteRead`).  The condition of the
theorem is about this list and the body: is there a read that ends right before a byte of data?  Where the
reads are cut is up to the network, and the list is a record of it, independent of what the readers do with
the bytes.

## Why stages

An upload goes through a head, a body and an answer, and a step of the client may be of any kind in any of
them: it may be a timeout or a failed read, and another process may touch the disk.  `UploadStage` says for
each stage what was read and what was written, with the case of a body that is neither complete nor refused
left to the relation of the readers (`UploadReads`).  A step goes from stage to stage or ends the client.
Only in the last one can the status be 201, and what was written is then known.

## Why others are assumed to stay away

That the target holds what was written is a statement about the disk after the save, and other processes may
change it in the next moment.  The half of the statement about the written bytes needs no such assumption,
and is made without it.
-/

namespace Webserv
namespace Client

open Handler

/-! ## What the readers get -/

/-- The body is announced by the headers and within the limit, which is an `int32_t`. -/
structure Accepts (c : Client) (body : RequestBody) : Prop where
  announced : body.Announced c.context.headers
  limit : (body.data.length : Int) ≤ c.maxBodySize
  int : (body.data.length : Int) ≤ int32Max

/-- The bytes that a reader gets and the reader before it has not got. -/
def newBytes (c : Client) (h : Handler) : Bytes :=
  match c.request with
  | none => h.context.buffer
  | some _ => h.context.buffer.drop c.context.buffer.length

/-- A step adds what its body reader gets that the call before has not got, if it calls one. -/
def noteRead (c : Client) (e : Event) (reads : List Bytes) : List Bytes :=
  match c.readerCall e with
  | none => reads
  | some x => reads ++ [c.newBytes x.2]

/-- What the body readers of a run get, call by call. -/
def bodyReads (c : Client) (es : List Event) : List Bytes := Transition.record step noteRead c es []

/-- The other processes leave the temporary file and the target of an upload alone. -/
def SparesUpload (c : Client) (e : Event) : Prop :=
  ∀ fs, e = .environment fs → ∀ r, c.request = some r →
    fs.node (cstr r.tmpFilename.str) = c.context.world.fs.node (cstr r.tmpFilename.str) ∧
      fs.node (cstr r.path.str) = c.context.world.fs.node (cstr r.path.str)

/-! ## The stages of an upload -/

/-- An upload whose body is done with: what was written if it was answered with 201. -/
def Answered (quiet : Prop) (c : Client) (reads : List Bytes) : Prop :=
  ∀ r, c.request = some r → r.IsUpload → c.context.cgiSocket = -1 ∧
    (c.context.response.statusCode = statusCreated → ∀ body, c.Accepts body →
      reads.flatten <+: body.stream → Faithful quiet body reads ⟨c.context, r⟩)

/-- How far an upload has come: its head is awaited, its body is read, or it is done with.  `reads` are the
bytes that its readers got so far. -/
inductive UploadStage (quiet : Prop) (c : Client) (reads : List Bytes) : Prop where
  | head (hhead : AwaitsHead c) (hline : c.context.NoLine) (hnil : reads = [])
  | body {r : ARequest} (hbody : AwaitsBody c) (hr : c.request = some r)
      (hpending : c.context.response.statusCode ≠ statusCreated)
      (hreading : r.cgiPath = none → ∀ body, c.Accepts body → reads.flatten <+: body.stream →
        Reading quiet body reads ⟨c.context, r⟩)
  | answered (hdone : c.closed = true ∨ c.context.requestState.isClientReadComplete = true ∧
        c.context.requestState.workIn = true)
      (hanswered : Answered quiet c reads)

variable {quiet : Prop} {c c' : Client} {reads : List Bytes} {sys : Sys}

theorem Accepts.of_idles {body : RequestBody} (h : c'.Accepts body) (hidles : Idles c c') :
    c.Accepts body := by
  obtain ⟨hannounced, hlimit, hint⟩ := h
  refine ⟨?_, ?_, hint⟩
  · obtain ⟨f, rfl⟩ := hidles.fields
    exact hannounced
  · rw [← hidles.maxBodySize]
    exact hlimit

/-- What follows leaves the request alone, and does not answer with 201. -/
theorem Answered.idles (h : Answered quiet c reads) (hidles : Idles c c')
    (hstatus : ∀ r, c.request = some r → r.IsUpload →
      c'.context.response.statusCode = statusCreated → c.context.response.statusCode = statusCreated) :
    Answered quiet c' reads := by
  intro r' hr' hupload
  obtain ⟨r, hr, hcore⟩ := hidles.exists_request hr'
  obtain ⟨hsocket, hfaithful⟩ := h r hr (hupload.of_core hcore)
  refine ⟨hidles.cgiSocket.trans hsocket, fun hcreated body haccepts hprefix => ?_⟩
  have hfile : r'.file = r.file := (show r'.core.file = r.core.file by rw [hcore])
  have hpath : r'.path = r.path := (show r'.core.path = r.core.path by rw [hcore])
  obtain ⟨hwritten, htarget⟩ := hfaithful
    (hstatus r hr (hupload.of_core hcore) hcreated) body (haccepts.of_idles hidles) hprefix
  constructor
  · show r'.file.written = body.data ↔ _
    rw [hfile]
    exact hwritten
  · intro hquiet
    show c'.context.world.fs.Holds r'.path.str r'.file.written
    rw [hidles.fs, hfile, hpath]
    exact htarget hquiet

/-- An upload that was not answered with 201 has promised nothing, so that nothing is to be shown of the
file. -/
theorem Answered.of_uncreated (hsocket : c.context.cgiSocket = -1)
    (hpending : c.context.response.statusCode ≠ statusCreated) : Answered quiet c reads :=
  fun _ _ _ => ⟨hsocket, fun hcreated => absurd hcreated hpending⟩

theorem Answered.of_none (hnone : c.request = none) : Answered quiet c reads := fun r hr => by
  rw [hnone] at hr
  cases hr

theorem isClientReadComplete_of_idles (hidles : Idles c c')
    (hread : c.context.requestState.isClientReadComplete = true) :
    c'.context.requestState.isClientReadComplete = true := by
  rw [RequestState.isClientReadComplete, Bool.and_eq_true] at hread ⊢
  exact ⟨hidles.flags.requestLine hread.1, hidles.flags.headers hread.2⟩

/-- The response is started. -/
theorem stage_startResponse (hread : c.context.requestState.isClientReadComplete = true)
    (hworkIn : c.context.requestState.workIn = true) (hanswered : Answered quiet c reads) (sys : Sys) :
    UploadStage quiet (settle (c.startResponse sys)) reads := by
  have hidles := idles_settle (idles_startResponse c sys)
  refine .answered (Or.inr ⟨isClientReadComplete_of_idles hidles hread, hidles.flags.workIn hworkIn⟩)
    (hanswered.idles hidles fun _ _ _ hcreated => ?_)
  rw [← statusCode_startResponse c sys]
  exact hcreated

/-! ## The body -/

theorem Accepts.of_reads {body : RequestBody} {h h' : Handler} (hreads : Handler.Reads h h')
    (hcontext : c.context = h.context) (haccepts : (c'.withHandler h').Accepts body) : c.Accepts body := by
  obtain ⟨f, rfl⟩ := hreads.fields
  obtain ⟨hannounced, hlimit, hint⟩ := haccepts
  refine ⟨?_, ?_, hint⟩
  · rw [hcontext]
    exact hannounced
  · rw [maxBodySize, hcontext]
    exact hlimit

/-- The reader is called with the last of `reads`.  It goes on, or saves the file and answers 201, or
refuses the body. -/
theorem AwaitsBody.stage_handleRequest (hbody : AwaitsBody c) {r : ARequest} (hr : c.request = some r)
    (hpending : c.context.response.statusCode ≠ statusCreated)
    (hloaded : r.cgiPath = none → ∀ body, c.Accepts body → reads.flatten <+: body.stream →
      Loaded quiet body reads ⟨c.context, r⟩) (sys : Sys) :
    UploadStage quiet (settle (c.handleRequest sys)) reads := by
  obtain ⟨r', hr', hkind, heq⟩ := hbody.handleRequest_eq sys
  obtain rfl : r' = r := Option.some.inj (hr'.symm.trans hr)
  have hphase := (hbody.handleRequest sys).1
  rw [heq] at hphase ⊢
  have hreads := reads_readBody sys ⟨c.context, r'⟩
  have hended := ended_readBody sys ⟨c.context, r'⟩
  have hon : r'.cgiPath = none → ∀ body, c.Accepts body → reads.flatten <+: body.stream →
      ReadsOn quiet body reads ⟨c.context, r'⟩ (readBody sys ⟨c.context, r'⟩) := fun hnone body ha hp =>
    readsOn_readBody sys (hloaded hnone body ha hp)
  have hcgi : r'.cgiPath.isSome = true →
      (readBody sys ⟨c.context, r'⟩).2.context.response.statusCode ≠ statusCreated := fun hsome =>
    uncreated_readBody sys hsome hbody.cgiSocket hpending
  have hwaits : r'.cgiPath = none → (readBody sys ⟨c.context, r'⟩).1 = .reqContinue →
      (readBody sys ⟨c.context, r'⟩).2.context.response.statusCode ≠ statusCreated := fun hnone =>
    (readerRule_pending sys).readBody ⟨hnone, hpending⟩
  generalize readBody sys ⟨c.context, r'⟩ = x at hphase hreads hended hon hcgi hwaits ⊢
  obtain ⟨ret, h'⟩ := x
  dsimp only at hreads hended hcgi hwaits
  have hsocket : h'.context.cgiSocket = -1 := by
    obtain ⟨f, rfl⟩ := hreads.fields
    exact hbody.cgiSocket
  have hread : h'.context.requestState.isClientReadComplete = true :=
    isClientReadComplete_of_le hreads.le hbody.clientRead
  -- what was written, if the reader has set 201
  have hanswered : (ret = .reqContinue → h'.context.requestState.workIn = true) →
      Answered quiet ((c.touch .clientBody sys.now).withHandler h') reads := by
    intro hdone r₁ hr₁ hupload
    obtain rfl : h'.request = r₁ := Option.some.inj hr₁
    refine ⟨hsocket, fun hcreated body haccepts hprefix => ?_⟩
    have hnone : r'.cgiPath = none := by
      by_contra hsome
      exact hcgi (Option.isSome_iff_ne_none.mpr hsome) hcreated
    have hfinal := hon hnone body (haccepts.of_reads hreads rfl) hprefix
    cases hfinal with
    | waits hreading hstate =>
      have hworkIn := hdone rfl
      rw [hstate, hbody.workIn] at hworkIn
      cases hworkIn
    | ends hfaithful => exact hfaithful hcreated
  cases ret with
  | reqDone => exact stage_startResponse hread (hended rfl) (hanswered fun hret => nomatch hret) sys
  | reqContinue =>
    cases hworkIn : h'.context.requestState.workIn with
    | true =>
      exact .answered (Or.inr ⟨hread, hworkIn⟩)
        ((hanswered fun _ => hworkIn).idles (idles_closed _ _) fun _ _ _ => id)
    | false =>
      have hbody' : AwaitsBody (settle (.reqContinue, (c.touch .clientBody sys.now).withHandler h')) := by
        rcases hphase with hclosed | hhead | hbody' | hresponds
        · cases hclosed
        · cases hhead.request
        · exact hbody'
        · have hdone : h'.context.requestState.workIn = true := hresponds.workIn
          rw [hworkIn] at hdone
          cases hdone
      have hpending' : h'.context.response.statusCode ≠ statusCreated := by
        cases hpath : r'.cgiPath with
        | none => exact hwaits hpath rfl
        | some path => exact hcgi (by rw [hpath]; rfl)
      refine .body hbody' rfl hpending' fun hnone body haccepts hprefix => ?_
      have hnone' : r'.cgiPath = none := by
        rw [← hnone]
        exact hreads.cgiPath.symm
      have hsame : Idles ((c.touch .clientBody sys.now).withHandler h')
          (settle (.reqContinue, (c.touch .clientBody sys.now).withHandler h')) := idles_closed _ _
      have hfinal := hon hnone' body ((haccepts.of_idles hsame).of_reads hreads rfl) hprefix
      cases hfinal with
      | waits hreading hstate => exact hreading
  | _ =>
    refine .answered (Or.inl rfl) ?_
    exact (hanswered fun hret => nomatch hret).idles (idles_closed _ _) fun _ _ _ => id

/-! ## Reads of the client socket -/

/-- More bytes are read, or the peer is gone. -/
theorem handleSocketIn_of_unread (hunread : c.context.requestState.read = false) (sys : Sys) :
    (c.received sys = none ∧ (c.handleSocketIn sys).2 = c ∧ (c.handleSocketIn sys).1 ≠ .reqContinue) ∨
      ∃ (packet : Packet) (timestamp : Timeout → Int),
        c.received sys = some (c.withRead (c.context.buffer ++ packet.bytes) timestamp) ∧
          c.handleSocketIn sys = (c.withRead (c.context.buffer ++ packet.bytes) timestamp).handleRead sys ∧
          (c.context.requestState.isClientReadComplete = false → timestamp = c.timestamp) := by
  have hread : ¬ c.context.requestState.isReadComplete = true := by
    rw [RequestState.isReadComplete, hunread, Bool.and_false]
    exact Bool.false_ne_true
  unfold received handleSocketIn
  rw [if_neg hread, if_neg hread]
  unfold readSocket
  cases sys.recv with
  | closed => exact Or.inl ⟨rfl, rfl, by simp⟩
  | error => exact Or.inl ⟨rfl, rfl, by simp⟩
  | data packet =>
    refine Or.inr ⟨packet, ?_⟩
    dsimp only
    split_ifs with hclient
    · exact ⟨_, rfl, rfl, fun hnot => by
        rw [show c.context.requestState.isClientReadComplete = true from hclient] at hnot
        cases hnot⟩
    · exact ⟨c.timestamp, rfl, rfl, fun _ => rfl⟩

/-- The reader that a read of the client socket calls. -/
theorem readerCall_clientIn (hclosed : c.closed = false) (sys : Sys) :
    c.readerCall (.clientIn sys) =
      ((c.received sys).bind fun c => (c.parsed sys).bind bodyHandler).map (sys, ·) :=
  if_neg (by rw [hclosed]; exact Bool.false_ne_true)

theorem noteRead_of_none {e : Event} (hcall : c.readerCall e = none) : noteRead c e reads = reads := by
  unfold noteRead
  rw [hcall]

/-- The client is dropped: nothing is answered any more. -/
theorem UploadStage.drop (h : UploadStage quiet c reads) :
    UploadStage quiet { c with closed := true } reads := by
  have hsame : Idles c { c with closed := true } := idles_closed c true
  cases h with
  | head hhead hline hnil => exact .head { hhead with } hline hnil
  | body hbody hr hpending hreading =>
    exact .body { hbody with } hr hpending fun hnone body haccepts =>
      hreading hnone body (haccepts.of_idles hsame)
  | answered hdone hanswered => exact .answered (Or.inl rfl) (hanswered.idles hsame fun _ _ _ => id)

theorem UploadStage.settle_of_ne {r : Ret × Client} (h : UploadStage quiet r.2 reads)
    (hret : r.1 ≠ .reqContinue) : UploadStage quiet (settle r) reads := by
  unfold settle
  rw [decide_eq_true hret]
  exact h.drop

/-- The step of an upload whose body is read.  Only a read of the client socket brings bytes, and any other
event leaves the stage. -/
theorem AwaitsBody.stage_step (hbody : AwaitsBody c) {r : ARequest} (hr : c.request = some r)
    (hpending : c.context.response.statusCode ≠ statusCreated)
    (hreading : r.cgiPath = none → ∀ body, c.Accepts body → reads.flatten <+: body.stream →
      Reading quiet body reads ⟨c.context, r⟩)
    (hclosed : c.closed = false) (e : Event) (hspares : quiet → c.SparesUpload e) :
    UploadStage quiet (c.step e) (noteRead c e reads) := by
  have hstage : UploadStage quiet c reads := .body hbody hr hpending hreading
  have hwaits := hbody.waits hclosed e
  generalize c.step e = c' at hwaits ⊢
  cases hwaits with
  | reads sys =>
    have hcall := readerCall_clientIn hclosed sys
    rcases handleSocketIn_of_unread hbody.read sys with ⟨hnone, hc, hret⟩ | ⟨packet, timestamp, hsome, heq, -⟩
    · rw [hnone] at hcall
      rw [noteRead_of_none hcall]
      refine UploadStage.settle_of_ne ?_ hret
      rw [hc]
      exact hstage
    · -- the reader is called with the packet
      generalize hc₁ : c.withRead (c.context.buffer ++ packet.bytes) timestamp = c₁ at hsome heq
      have hbody₁ : AwaitsBody c₁ := hc₁ ▸ { hbody with }
      have hr₁ : c₁.request = some r := hc₁ ▸ hr
      have hcontext : c₁.context = c.context.more packet.bytes := hc₁ ▸ rfl
      have hparsed : c₁.parsed sys = some c₁ := if_pos hbody₁.clientRead
      rw [hsome, Option.bind_some, hparsed, Option.bind_some, hbody₁.bodyHandler_eq hr₁] at hcall
      have hnote : noteRead c (.clientIn sys) reads = reads ++ [packet.bytes] := by
        unfold noteRead newBytes
        rw [hcall, hr]
        show reads ++ [c₁.context.buffer.drop c.context.buffer.length] = _
        rw [hcontext, RequestContext.more_buffer, List.drop_left]
      have hhandle : c₁.handleRead sys = c₁.handleRequest sys := if_pos hbody₁.clientRead
      rw [hnote, heq, hhandle]
      refine hbody₁.stage_handleRequest hr₁ ?_ (fun hnone body haccepts hprefix => ?_) sys
      · rw [hcontext]
        exact hpending
      · have hprefix' : reads.flatten <+: body.stream := by
          rw [List.flatten_append] at hprefix
          exact (List.prefix_append _ _).trans hprefix
        have haccepts' : c.Accepts body := by
          subst hc₁
          exact haccepts.of_idles (idles_withRead c _ timestamp)
        rw [hcontext]
        exact (hreading hnone body haccepts' hprefix').load packet.ne_nil packet.length_le hprefix
  | same hne =>
    rw [noteRead_of_none (readerCall_of_ne hbody.cgiSocket hne)]
    exact hstage
  | timesOut sys =>
    rw [noteRead_of_none rfl]
    obtain ⟨hresponds, -⟩ := @responds_respondTimeout
      (c.setStatusCode statusRequestTimeout) sys hbody.clientRead fun hne => absurd hbody.cgiSocket hne
    refine .answered (Or.inr ⟨hresponds.clientRead, hresponds.workIn⟩) (.of_uncreated ?_ ?_)
    · exact ((idles_setStatusCode c _).trans (idles_respondTimeout _ sys)).cgiSocket.trans hbody.cgiSocket
    · show ((c.setStatusCode statusRequestTimeout).respondTimeout sys).2.context.response.statusCode ≠ _
      rw [statusCode_respondTimeout]
      exact (show statusRequestTimeout ≠ statusCreated by decide)
  | environment fs =>
    rw [noteRead_of_none rfl]
    refine .body (r := r) { hbody with } hr hpending fun hnone body haccepts hprefix => ?_
    have haccepts' : c.Accepts body := ⟨haccepts.announced, haccepts.limit, haccepts.int⟩
    cases hreading hnone body haccepts' hprefix with
    | intro hstands hfits hreceived hstream hdata htally htemp =>
      refine .intro { hstands with } hfits hreceived hstream hdata htally fun hquiet => ?_
      obtain ⟨n, hnode, hkind⟩ := htemp hquiet
      exact ⟨n, ((hspares hquiet fs rfl r hr).1).trans hnode, hkind⟩

/-! ## The response -/

/-- The status of a timeout is not 201. -/
theorem created_of_timeoutCheck {sys : Sys}
    (hcreated : (c.timeoutCheck sys).2.context.response.statusCode = statusCreated) :
    c.context.response.statusCode = statusCreated := by
  unfold timeoutCheck at hcreated
  split_ifs at hcreated
  · rw [statusCode_respondTimeout] at hcreated
    exact absurd hcreated (show statusRequestTimeout ≠ statusCreated by decide)
  · rw [statusCode_respondTimeout] at hcreated
    exact absurd hcreated (show statusRequestTimeout ≠ statusCreated by decide)
  · exact hcreated
  · rw [statusCode_respondTimeout] at hcreated
    exact absurd hcreated (show statusGatewayTimeout ≠ statusCreated by decide)
  · exact hcreated

/-- An upload whose body is done with is not answered with 201 any more. -/
theorem created_of_step (hread : c.context.requestState.isClientReadComplete = true)
    (hworkIn : c.context.requestState.workIn = true) {r : ARequest} (hr : c.request = some r)
    (hupload : r.IsUpload) (hsocket : c.context.cgiSocket = -1) {e : Event}
    (hcreated : (c.step e).context.response.statusCode = statusCreated) :
    c.context.response.statusCode = statusCreated := by
  unfold Client.step at hcreated
  by_cases hclosed : c.closed = true
  · rw [if_pos hclosed] at hcreated
    exact hcreated
  rw [if_neg hclosed] at hcreated
  cases e with
  | clientIn sys =>
    replace hcreated : (c.handleSocketIn sys).2.context.response.statusCode = statusCreated := hcreated
    rcases handleSocketIn_cases c sys with ⟨-, heq, -⟩ | ⟨-, buffer, timestamp, -, heq, -⟩
    · rw [heq] at hcreated
      exact hcreated
    · have hhandle : (c.withRead buffer timestamp).handleRead sys =
          (c.withRead buffer timestamp).handleRequest sys := if_pos hread
      rw [heq, hhandle, handleRequest_of_workIn (c := c.withRead buffer timestamp) sys hworkIn,
        statusCode_startResponse] at hcreated
      exact hcreated
  | clientOut sys =>
    replace hcreated : (c.handleSocketOut sys).2.context.response.statusCode = statusCreated := hcreated
    rw [statusCode_handleSocketOut hr hupload] at hcreated
    exact hcreated
  | cgiIn sys =>
    dsimp only at hcreated
    rw [if_pos hsocket] at hcreated
    exact hcreated
  | cgiOut sys =>
    dsimp only at hcreated
    rw [if_pos hsocket] at hcreated
    exact hcreated
  | timeoutCheck sys => exact @created_of_timeoutCheck _ sys hcreated
  | environment fs => exact hcreated

/-- The step of a client whose body, if any, is done with. -/
theorem Answered.stage_step (hanswered : Answered quiet c reads) (hphase : Phase c)
    (hread : c.context.requestState.isClientReadComplete = true)
    (hworkIn : c.context.requestState.workIn = true) (e : Event) (hspares : quiet → c.SparesUpload e) :
    UploadStage quiet (c.step e) (noteRead c e reads) := by
  have hcreated : ∀ r, c.request = some r → r.IsUpload →
      (c.step e).context.response.statusCode = statusCreated →
        c.context.response.statusCode = statusCreated := fun r hr hupload =>
    created_of_step hread hworkIn hr hupload (hanswered r hr hupload).1
  have heffect := effect_step hphase e
  generalize c.step e = c' at hcreated heffect ⊢
  cases heffect with
  | @environment fs he =>
    subst he
    rw [noteRead_of_none rfl]
    refine .answered (Or.inr ⟨hread, hworkIn⟩) fun r hr hupload => ?_
    obtain ⟨hsocket, hfaithful⟩ := hanswered r hr hupload
    refine ⟨hsocket, fun hcreated body haccepts hprefix => ?_⟩
    obtain ⟨hwritten, htarget⟩ :=
      hfaithful hcreated body ⟨haccepts.announced, haccepts.limit, haccepts.int⟩ hprefix
    refine ⟨hwritten, fun hquiet => ?_⟩
    obtain ⟨n, hnode, hkind⟩ := htarget hquiet
    exact ⟨n, ((hspares hquiet fs rfl r hr).2).trans hnode, hkind⟩
  | headOnly hhead => exact absurd hread hhead.not_clientRead
  | request hcreated' hread' hidles =>
    cases hcreated' with
    | created sys hhead => exact absurd hread hhead.not_clientRead
    | same =>
      cases hread' with
      | same hcall =>
        rw [noteRead_of_none hcall]
        exact .answered (Or.inr ⟨isClientReadComplete_of_idles hidles hread, hidles.flags.workIn hworkIn⟩)
          (hanswered.idles hidles hcreated)
      | @called sys h c₃ hcall hkind hready hcalled hrequest hcontext =>
        have hreads := reads_readBody sys h
        have hread₃ := isClientReadComplete_of_idles hcalled hread
        have hworkIn₃ := hcalled.flags.workIn hworkIn
        rw [hcontext] at hread₃ hworkIn₃
        refine .answered (Or.inr ⟨?_, hidles.flags.workIn (hreads.le.workIn hworkIn₃)⟩) ?_
        · exact isClientReadComplete_of_idles hidles (isClientReadComplete_of_le hreads.le hread₃)
        · -- the reader that is called is that of a CGI
          intro r' hr' hupload
          obtain ⟨r₂, hr₂, hcore₂⟩ := hidles.exists_request hr'
          obtain rfl : (readBody sys h).2.request = r₂ := Option.some.inj hr₂
          have hupload₂ := hupload.of_core hcore₂
          have hupload₃ : h.request.IsUpload := by
            obtain ⟨f, hf⟩ := hreads.fields
            rw [hf] at hupload₂
            exact hupload₂
          obtain ⟨r, hr, hcore⟩ := hcalled.exists_request hrequest
          have hsocket := (hanswered r hr (hupload₃.of_core hcore)).1
          rw [← hcalled.cgiSocket, hcontext] at hsocket
          rcases hready with hfalse | hne
          · rw [hworkIn₃] at hfalse
            cases hfalse
          · exact absurd hsocket hne

/-! ## The head -/

/-- A request that was resolved has not been answered with 201. -/
theorem Resolves.answered {r : Ret × Client} (haccepted : HeadAccepted c) (hresolves : Resolves c sys r) :
    Answered quiet r.2 reads := by
  cases hresolves with
  | @creates block loc kind h hfinds hkind hcreate =>
    intro r₁ hr₁ hupload
    obtain rfl : (h.processing sys).request = r₁ := Option.some.inj hr₁
    obtain ⟨chopedTarget, -, hh⟩ := createRequest_ok hcreate
    have hupload' := isUpload_of_processing hcreate hupload
    have hpending : h.context.response.statusCode ≠ statusCreated := by
      rw [hh]
      show c.context.response.statusCode ≠ statusCreated
      rw [haccepted.statusCode]
      decide
    have hsocket : h.context.cgiSocket = -1 := by
      rw [hh]
      exact haccepted.cgiSocket
    exact Answered.of_uncreated ((cgi_processing sys hupload').1.trans hsocket)
      (processing_ne_created hupload' hpending) _ rfl hupload
  | _ => exact .of_none haccepted.request

/-- The reader is called with the bytes that came with the head. -/
theorem Resolves.loaded {r : Ret × Client} (haccepted : HeadAccepted c) (hresolves : Resolves c sys r)
    (hdone : r.1 = .reqDone) {r₁ : ARequest} (hr₁ : r.2.request = some r₁) (hupload : r₁.IsUpload)
    (hlength : c.context.buffer.length ≤ reqBufferSize) :
    r.2.context.response.statusCode ≠ statusCreated ∧
      (r₁.cgiPath = none → ∀ body, r.2.Accepts body → r.2.context.buffer <+: body.stream →
        Loaded quiet body [r.2.context.buffer] ⟨r.2.context, r₁⟩) := by
  cases hresolves with
  | @creates block loc kind h hfinds hkind hcreate =>
    obtain rfl : (h.processing sys).request = r₁ := Option.some.inj hr₁
    have hnone : (h.processing sys).context.response.statusCode = statusNone := by
      unfold registerCGI at hdone
      dsimp only at hdone
      split_ifs at hdone with _ _ hstatus
      exact not_not.mp hstatus
    refine ⟨?_, fun hpath body haccepts hprefix => ?_⟩
    · show (h.processing sys).context.response.statusCode ≠ statusCreated
      rw [hnone]
      decide
    have hstarted := started_processing sys hcreate
    have hupload' := isUpload_of_processing hcreate hupload
    have hpath' : h.request.cgiPath = none := (cgi_processing sys hupload').2.symm.trans hpath
    obtain ⟨h₀, hctx, f, hf⟩ := hstarted.fields
    have hbuffer : (h.processing sys).context.buffer = c.context.buffer := by
      rw [hf]
      show h₀.context.buffer = _
      rw [hctx]
      rfl
    have haccepts' : (c.withBlocks block (some loc)).Accepts body := by
      obtain ⟨hannounced, hlimit, hint⟩ := haccepts
      have hcontext : ((c.withBlocks block (some loc)).withHandler (h.processing sys)).context =
          (h₀.withProcessing f).context := congrArg Handler.context hf
      rw [hcontext] at hannounced
      rw [maxBodySize, hcontext] at hlimit
      have hannounced' : body.Announced h₀.context.headers := hannounced
      have hlimit' : (body.data.length : Int) ≤ h₀.context.rule.getMaxBodySize := hlimit
      rw [hctx] at hannounced' hlimit'
      exact ⟨hannounced', hlimit', hint⟩
    obtain ⟨t, ht⟩ := hprefix
    rw [← body.raw_marked] at ht
    obtain ⟨p, future, hstream, hp, -⟩ := List.map_eq_append_iff.mp ht.symm
    have hraw : Payload.raw p = (h.processing sys).context.buffer := hp
    obtain ⟨rest, hbegins⟩ := begins_processing hcreate hupload' hpath' hnone haccepts'.announced
      haccepts'.limit haccepts'.int (hraw.trans hbuffer) hstream hlength
    exact hbegins.load hraw hstream
  | redirects redirection =>
    have hnone : c.request = some r₁ := hr₁
    rw [haccepted.request] at hnone
    cases hnone
  | _ => cases hdone

/-- What the reader gets that is called once the head is complete, if one is. -/
def headReads : Option Handler → List Bytes
  | none => []
  | some h => [h.context.buffer]

/-- More bytes of the head are parsed. -/
theorem AwaitsHead.stage_handleRead (hhead : AwaitsHead c) {ctx : RequestContext} {x : Bytes}
    (hcontext : c.context = ctx.more x) (hline : ctx.NoLine) (hlength : x.length ≤ reqBufferSize)
    (sys : Sys) :
    UploadStage quiet (settle (c.handleRead sys)) (headReads ((c.parsed sys).bind bodyHandler)) := by
  unfold parsed Client.handleRead
  rw [if_neg hhead.not_clientRead, if_neg hhead.not_clientRead]
  have hends := hhead.headEnds sys
  obtain ⟨-, -, hwaits, hgoesOn⟩ := hhead.parseRequest sys
  generalize c.parseRequest sys = r at hends hwaits hgoesOn ⊢
  cases hends with
  | waits f requestLine hparse => exact .head { hwaits rfl with } (RequestContext.noLine_parseHead hparse) rfl
  | @refused f code hcode =>
    have hready := (hgoesOn rfl).resolve_right fun hbody => by
      obtain ⟨r, hr, -⟩ := hbody.request
      rw [show _ = none from hhead.request] at hr
      cases hr
    dsimp only at hready ⊢
    rw [Option.bind_some, bodyHandler_of_workIn hready.workIn, handleRequest_of_workIn sys hready.workIn]
    exact stage_startResponse hready.clientRead hready.workIn (.of_none hhead.request) sys
  | @resolved f r hparse hresolves hret =>
    have haccepted := hhead.headAccepted f
    have hanswered : ∀ reads, Answered quiet r.2 reads := fun reads => hresolves.answered haccepted
    -- what is left of the buffer came with the last read
    have hbuffer : (c.acceptHead f).context.buffer.length ≤ reqBufferSize := by
      obtain ⟨requestLine, hstate⟩ := hhead.requestState
      rw [hcontext, RequestContext.more_requestState] at hstate
      have hunread : ctx.requestState.isReadHeadersComplete = false := by rw [hstate]; rfl
      rw [hcontext] at hparse
      exact (RequestContext.length_parseHead hline hunread hparse haccepted.statusCode).trans hlength
    obtain ⟨ret, c₂⟩ := r
    dsimp only at hanswered hgoesOn ⊢
    cases ret with
    | reqDone =>
      dsimp only
      rw [Option.bind_some]
      rcases hgoesOn rfl with hready | hbody
      · rw [bodyHandler_of_workIn hready.workIn, handleRequest_of_workIn sys hready.workIn]
        exact stage_startResponse hready.clientRead hready.workIn (hanswered _) sys
      · obtain ⟨r₁, hr₁, hupload⟩ := hbody.request
        obtain ⟨hpending, hloaded⟩ := hresolves.loaded haccepted rfl hr₁ hupload hbuffer
        rw [hbody.bodyHandler_eq hr₁]
        refine hbody.stage_handleRequest hr₁ hpending (fun hnone body haccepts hprefix => ?_) sys
        refine hloaded hnone body haccepts ?_
        simpa [headReads] using hprefix
    | reqContinue => exact absurd rfl hret
    | _ => exact .answered (Or.inl rfl) ((hanswered []).idles (idles_closed _ _) fun _ _ _ => id)
  | @answered f c₂ hparse hresolves =>
    have hanswered : Answered quiet c₂ [] := hresolves.answered (hhead.headAccepted f)
    have hread : (c₂.setState RequestState.setWorkInComplete).context.requestState.isClientReadComplete =
        true := by
      rcases hgoesOn rfl with hready | hbody
      · exact hready.clientRead
      · exact hbody.clientRead
    have hworkIn : (c₂.setState RequestState.setWorkInComplete).context.requestState.workIn = true := rfl
    dsimp only
    rw [Option.bind_some, bodyHandler_of_workIn hworkIn, handleRequest_of_workIn sys hworkIn]
    refine stage_startResponse hread hworkIn (hanswered.idles (idles_setState c₂ ?_) fun _ _ _ => id) sys
    exact ⟨id, id, fun _ => rfl, id, id⟩

/-- The step of a client whose head is awaited.  The read that completes the head may bring a first part of
the body with it. -/
theorem AwaitsHead.stage_step (hhead : AwaitsHead c) (hline : c.context.NoLine) (hclosed : c.closed = false)
    (e : Event) : UploadStage quiet (c.step e) (noteRead c e []) := by
  have hstage : UploadStage quiet c [] := .head hhead hline rfl
  obtain ⟨requestLine, hstate⟩ := hhead.requestState
  have hwaits := hhead.waits hclosed e
  generalize c.step e = c' at hwaits ⊢
  cases hwaits with
  | reads sys =>
    have hcall := readerCall_clientIn hclosed sys
    have hunread : c.context.requestState.read = false := by rw [hstate]
    have hnot : c.context.requestState.isClientReadComplete = false :=
      Bool.eq_false_iff.mpr hhead.not_clientRead
    rcases handleSocketIn_of_unread hunread sys with
      ⟨hnone, hc, hret⟩ | ⟨packet, timestamp, hsome, heq, htime⟩
    · rw [hnone] at hcall
      rw [noteRead_of_none hcall]
      refine UploadStage.settle_of_ne ?_ hret
      rw [hc]
      exact hstage
    · rw [hsome, Option.bind_some] at hcall
      have hhead₁ : AwaitsHead (c.withRead (c.context.buffer ++ packet.bytes) timestamp) :=
        { hhead with timestamp := by rw [withRead, htime hnot]; exact hhead.timestamp }
      have hnote : noteRead c (.clientIn sys) [] =
          headReads (((c.withRead (c.context.buffer ++ packet.bytes) timestamp).parsed sys).bind bodyHandler) := by
        unfold noteRead newBytes
        rw [hcall, hhead.request]
        cases ((c.withRead (c.context.buffer ++ packet.bytes) timestamp).parsed sys).bind bodyHandler <;> rfl
      rw [hnote, heq]
      exact hhead₁.stage_handleRead rfl hline packet.length_le sys
  | same hne =>
    rw [noteRead_of_none (readerCall_of_ne hhead.cgiSocket hne)]
    exact hstage
  | timesOut sys =>
    rw [noteRead_of_none rfl]
    obtain ⟨hresponds, -⟩ := @responds_respondTimeout
      ((c.setStatusCode statusRequestTimeout).setState RequestState.setReadComplete) sys rfl
      fun hne => absurd hhead.cgiSocket hne
    have hidles := idles_respondTimeout
      ((c.setStatusCode statusRequestTimeout).setState RequestState.setReadComplete) sys
    exact .answered (Or.inr ⟨hresponds.clientRead, hresponds.workIn⟩)
      (.of_none (hidles.request_none hhead.request))
  | environment fs =>
    rw [noteRead_of_none rfl]
    exact .head { hhead with } hline rfl

/-! ## Runs -/

/-- **One step** of an upload leads from stage to stage, and the reads that are recorded grow with the bytes
that its readers get. -/
theorem UploadStage.step (h : UploadStage quiet c reads) (hphase : Phase c) {e : Event}
    (hspares : quiet → c.SparesUpload e) : UploadStage quiet (c.step e) (noteRead c e reads) := by
  by_cases hclosed : c.closed = true
  · have hstep : c.step e = c := if_pos hclosed
    rw [hstep, noteRead_of_none (readerCall_of_closed hclosed e)]
    exact h
  · have hopen : c.closed = false := Bool.eq_false_iff.mpr hclosed
    cases h with
    | head hhead hline hnil =>
      subst hnil
      exact hhead.stage_step hline hopen e
    | body hbody hr hpending hreading => exact hbody.stage_step hr hpending hreading hopen e hspares
    | answered hdone hanswered =>
      obtain ⟨hread, hworkIn⟩ := hdone.resolve_left hclosed
      exact hanswered.stage_step hphase hread hworkIn e hspares

/-- **Uploads.**  The file of an upload that is answered with 201 is its body exactly when no read ends
right before a byte of data; and as long as the other processes leave it alone, it is what the target
holds. -/
theorem uploaded_run (server : Server) (fs : FileSystem) (connectSocket fd : Fd) (now : Int)
    (es : List Event) :
    let c := (init server fs connectSocket fd now).run es
    let reads := (init server fs connectSocket fd now).bodyReads es
    ∀ r, c.request = some r → r.IsUpload → c.context.response.statusCode = statusCreated →
      ∀ body, c.Accepts body → reads.flatten <+: body.stream →
        (r.file.written = body.data ↔ ¬ Payload.Cuts body.marked reads) ∧
          (Transition.Along step SparesUpload (init server fs connectSocket fd now) es →
            c.context.world.fs.Holds r.path.str r.file.written) := by
  intro c reads r hr hupload hcreated body haccepts hprefix
  have hhead := awaitsHead_init server fs connectSocket fd now
  have hstart : UploadStage (Transition.Along step SparesUpload (init server fs connectSocket fd now) es)
      (init server fs connectSocket fd now) [] := .head hhead rfl rfl
  have halong : Transition.Along step
      (fun c e => Transition.Along step SparesUpload (init server fs connectSocket fd now) es →
        c.SparesUpload e) (init server fs connectSocket fd now) es :=
    Transition.along_iff.mpr fun before e after heq hspares =>
      Transition.along_iff.mp hspares before e after heq
  have hrun := @Transition.run_record _ _ step _ _ noteRead
    (fun c reads => Phase c ∧ UploadStage
      (Transition.Along step SparesUpload (init server fs connectSocket fd now) es) c reads)
    (fun c e reads h hc => ⟨(phase_step h.1 e).1, h.2.step h.1 hc⟩) es _ []
    ⟨Or.inr (Or.inl hhead), hstart⟩ halong
  cases hrun.2 with
  | head hhead' =>
    rw [show c.request = none from hhead'.request] at hr
    cases hr
  | body hbody hr' hpending => exact absurd hcreated hpending
  | answered hdone hanswered =>
    obtain ⟨hwritten, htarget⟩ := (hanswered r hr hupload).2 hcreated body haccepts hprefix
    exact ⟨hwritten, htarget⟩

/-- The body of five bytes. -/
def fiveBytes : RequestBody := .content (bytes "abcde") (by decide)

/-- A PUT of five bytes that arrives in one read. -/
def wholePut : List Event :=
  [.clientIn (.receiving (bytes "PUT /x HTTP/1.1\r\nHost: h\r\nContent-Length: 5\r\n\r\nabcde"))]

/-- The same in two reads. -/
def cutPut : List Event :=
  [.clientIn (.receiving (bytes "PUT /x HTTP/1.1\r\nHost: h\r\nContent-Length: 5\r\n\r\n" ++ bytes "ab")),
    .clientIn (.receiving (bytes "cde"))]

set_option maxRecDepth 10000 in
theorem accepts_wholePut : (dropClient.run wholePut).Accepts fiveBytes :=
  ⟨⟨bytes "5", by decide +kernel, by decide, by decide +kernel, by decide⟩, by decide +kernel, by decide⟩

set_option maxRecDepth 10000 in
theorem accepts_cutPut : (dropClient.run cutPut).Accepts fiveBytes :=
  ⟨⟨bytes "5", by decide +kernel, by decide, by decide +kernel, by decide⟩, by decide +kernel, by decide⟩

set_option maxRecDepth 10000 in
/-- In one read no byte of data is cut off. -/
theorem uploaded_run_whole :
    ∃ r, (dropClient.run wholePut).request = some r ∧
      (r.file.written = fiveBytes.data ↔
        ¬ Payload.Cuts fiveBytes.marked (dropClient.bodyReads wholePut)) ∧
      (Transition.Along step SparesUpload dropClient wholePut →
        (dropClient.run wholePut).context.world.fs.Holds r.path.str r.file.written) :=
  ⟨(dropClient.run wholePut).request.get (by decide +kernel), (Option.some_get _).symm,
    uploaded_run dropServer dropFiles 3 4 0 wholePut _ (Option.some_get _).symm (by decide +kernel)
      (by decide +kernel) fiveBytes accepts_wholePut (by decide +kernel)⟩

set_option maxRecDepth 10000 in
/-- With 201 three bytes more than the body are stored, which came from behind the buffer. -/
theorem not_uploaded :
    ∃ r, (dropClient.run cutPut).request = some r ∧ r.IsUpload ∧
      (dropClient.run cutPut).context.response.statusCode = statusCreated ∧
      (dropClient.run cutPut).Accepts fiveBytes ∧
      (dropClient.bodyReads cutPut).flatten = fiveBytes.stream ∧
      r.file.written ≠ fiveBytes.data ∧ r.file.written.length = 8 :=
  ⟨(dropClient.run cutPut).request.get (by decide +kernel), (Option.some_get _).symm, by decide +kernel,
    by decide +kernel, accepts_cutPut, by decide +kernel, by decide +kernel, by decide +kernel⟩

end Client
end Webserv
