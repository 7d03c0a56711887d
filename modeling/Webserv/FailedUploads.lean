import Webserv.CgiSockets
import Webserv.Effects.Saving
import Webserv.Effects.Starting
import Webserv.Steps

/-!
# Uploads that fail

The destructor of `RequestPUT` removes the temporary file.  The one of `RequestPOST` is empty, so that a
POST that is given up before its body is saved leaves the file behind.  A save that fails may have removed
the target, or replaced it; and an upload that was saved may still be answered with 504.

* `Client.destroy`: the file system after the destructors.
* `Client.others`: the file system as the other processes leave it, without the temporary file.
* `Client.Tidy`, `Client.Saved`: the invariant of a run, before a save and after it.
* `Client.failedUpload_destroy`: these are the same when the upload ends with another status than 201.
* `Client.not_failedUpload`: a POST whose client goes away after two of five bytes.

## What "no trace" means

Other processes write to the disk while the upload goes on, so the file system at the end cannot be compared
with the one at the start.  It is compared with what the others leave: `others` follows the run and keeps of
each change everything but the temporary file.  At every state before a save, the file system without the
temporary file is this one (`Clean`), and the file is there only while it is open.  The destructor removes
it, and the two are the same.

## Why the state after a save is apart

A save replaces the target, which is the purpose of an upload and no trace of a failure.  From then on
nothing is said of the file system, but the status is 201 and has to stay: with another one the upload
would count as failed.  It stays while the response is sent, unless a timeout makes it a 504.  So a run is
in `Tidy` until a save succeeds and in `Saved` after it, and the conclusion is about the first alone.

## What the condition excludes

For the kernel it is that the temporary file can be removed, and that a save does both of its calls or
neither; for the other processes, that they leave the temporary file alone; and for the client that it does
not run into a timeout after the save.  At the end there is one question more: a POST whose file is still
open has a destructor that does nothing.
-/

namespace Webserv

/-! ## Destructors -/

/-- `~RequestPUT`; the destructors of the other classes are empty. -/
def ARequest.destroy (sys : Sys) (r : ARequest) (fs : FileSystem) : FileSystem :=
  match r.kind with
  | .put => if r.tmpFilename.access fs .exists then (sys.remove fs r.tmpFilename.str).2 else fs
  | .get | .post | .delete | .head => fs

/-- A PUT, or a POST that is not for a CGI. -/
def ARequest.IsUpload (r : ARequest) : Prop := r.kind = .put ∨ r.kind = .post ∧ r.cgiPath = none

instance (r : ARequest) : Decidable r.IsUpload := inferInstanceAs (Decidable (_ ∨ _))

theorem ARequest.IsUpload.of_core {r r' : ARequest} (hupload : r'.IsUpload) (hcore : r'.core = r.core) :
    r.IsUpload := by
  have hkind : r'.core.kind = r.core.kind := by rw [hcore]
  have hcgi : r'.core.cgiPath = r.core.cgiPath := by rw [hcore]
  exact hupload.imp (fun hput => hkind.symm.trans hput) fun hpost =>
    ⟨hkind.symm.trans hpost.1, hcgi.symm.trans hpost.2⟩

namespace Handler

open FileSystem

theorem createFile_without {sys : Sys} {fs fs' : FileSystem} {path : Bytes}
    (hcreate : createFile sys fs path = some fs') : fs'.without path = fs.without path := by
  unfold createFile at hcreate
  split_ifs at hcreate
  cases hnode : fs.node (cstr path) with
  | none =>
    rw [hnode] at hcreate
    cases hcreate
    exact without_update _
  | some n =>
    rw [hnode] at hcreate
    dsimp only at hcreate
    split at hcreate
    · split_ifs at hcreate
      cases hcreate
      exact without_update _
    · cases hcreate

/-- What an upload is started with: no file, or the temporary file, open and under a name that was
free. -/
structure Fresh (fs : FileSystem) (ctx : RequestContext) (h : Handler) : Prop where
  cgiSocket : h.context.cgiSocket = ctx.cgiSocket
  without : h.context.world.fs.without h.request.tmpFilename.str = fs
  closed : h.request.file.isOpen = false →
    h.context.world.fs.node (cstr h.request.tmpFilename.str) = none

theorem Fresh.of_closed {fs : FileSystem} {ctx : RequestContext} {h : Handler}
    (hsocket : h.context.cgiSocket = ctx.cgiSocket) (hfs : h.context.world.fs = fs)
    (hnone : fs.node (cstr h.request.tmpFilename.str) = none) : Fresh fs ctx h where
  cgiSocket := hsocket
  without := by rw [hfs, without_of_none hnone]
  closed _ := by rw [hfs, hnone]

theorem Uploads.fresh {sys : Sys} {h h' : Handler} (huploads : Uploads sys h h')
    (hrandom : ∀ i, slash ∉ sys.random i)
    (htemp : squeeze h.rule.bodyTempPath.str = h.rule.bodyTempPath.str)
    (hname : h.request.tmpFilename = {}) (hempty : h.context.world.fs.node [] = none) :
    Fresh h.context.world.fs h.context h' := by
  cases huploads with
  | refused path hcode =>
    refine .of_closed rfl rfl ?_
    show h.context.world.fs.node (cstr h.request.tmpFilename.str) = none
    rw [hname]
    exact hempty
  | @unopened path tmp code hnamed hcode =>
    refine .of_closed rfl rfl ?_
    show h.context.world.fs.node (cstr (Path.ofString tmp).str) = none
    rw [Path.ofString_str, hnamed.squeeze_eq hrandom htemp]
    exact hnamed.free
  | @opened path tmp fs' hnamed hcreate =>
    refine ⟨rfl, ?_, fun hclosed => nomatch hclosed⟩
    show fs'.without (Path.ofString tmp).str = h.context.world.fs
    rw [createFile_without hcreate]
    refine without_of_none ?_
    rw [Path.ofString_str, hnamed.squeeze_eq hrandom htemp]
    exact hnamed.free

/-- `processing` of an upload. -/
theorem fresh_processing {sys : Sys} {kind : RequestKind} {ctx : RequestContext} {h : Handler}
    (hcreate : createRequest kind ctx = .ok h) (hupload : (processing sys h).request.IsUpload)
    (hrandom : ∀ i, slash ∉ sys.random i)
    (htemp : squeeze ctx.rule.bodyTempPath.str = ctx.rule.bodyTempPath.str)
    (hempty : ctx.world.fs.node [] = none) : Fresh ctx.world.fs ctx (processing sys h) := by
  have hkind : kind = .post ∨ kind = .put := by
    rw [← (started_processing sys hcreate).kind_eq]
    exact hupload.symm.imp_left And.left
  obtain ⟨chopedTarget, -, rfl⟩ := createRequest_ok hcreate
  have hstarts := startsBody_processing sys (h := ⟨ctx.setState kind.initState, {
    kind := kind
    path := localPath ctx.rule chopedTarget
    cgiPath := ctx.rule.findCGI (localPath ctx.rule chopedTarget).extension }⟩) hkind
  generalize processing sys _ = h' at hstarts hupload ⊢
  cases hstarts with
  | refused n hcode f => exact .of_closed rfl rfl hempty
  | @cgi h₁ hpost hcgi hchecked =>
    have hrequest := request_openCGI sys (h₁.setState RequestState.setWorkInComplete)
    rw [hrequest] at hupload
    have hkindEq : h₁.request.kind = kind := by cases hchecked <;> rfl
    rcases hupload with hput | ⟨-, hnone⟩
    · have hput' : h₁.request.kind = .put := hput
      have hpost' : kind = .post := hpost
      rw [hkindEq, hpost'] at hput'
      cases hput'
    · have hnone' : h₁.request.cgiPath = none := hnone
      rw [← hchecked.cgiPath, hnone'] at hcgi
      cases hcgi
  | @upload h₁ _ f hkind hchecked huploads =>
    cases hchecked with
    | chunked =>
      obtain ⟨hsocket, hwithout, hclosed⟩ := huploads.fresh hrandom htemp rfl hempty
      exact ⟨hsocket, hwithout, hclosed⟩
    | content =>
      obtain ⟨hsocket, hwithout, hclosed⟩ := huploads.fresh hrandom htemp rfl hempty
      exact ⟨hsocket, hwithout, hclosed⟩

end Handler

namespace Client

open FileSystem

/-- `~Client`: the file system after it.  A client without a request object destroys nothing. -/
def destroy (sys : Sys) (c : Client) : FileSystem :=
  match c.request with
  | none => c.context.world.fs
  | some r => r.destroy sys c.context.world.fs

/-- The name of the temporary file, if it has one. -/
def tmpName (c : Client) : Bytes :=
  match c.request with
  | none => []
  | some r => r.tmpFilename.str

/-- What an event makes of the file system that the other processes leave. -/
def noteOthers (c : Client) : Event → FileSystem → FileSystem
  | .environment fs, others => if c.closed then others else fs.without c.tmpName
  | _, others => others

/-- The file system as the other processes leave it, without the temporary file of the client. -/
def others (c : Client) (fs : FileSystem) (es : List Event) : FileSystem :=
  Transition.record step noteOthers c es fs

/-- No other process touches the file system, and so only the steps of the client itself can. -/
theorem others_of_quiet {es : List Event} (hquiet : ∀ fs, .environment fs ∉ es) (c : Client)
    (fs : FileSystem) : c.others fs es = fs := by
  unfold others
  induction es generalizing c with
  | nil => rfl
  | cons e es ih =>
    rw [Transition.record_cons]
    have hnote : noteOthers c e fs = fs := by
      cases e with
      | environment fs' => exact absurd List.mem_cons_self (hquiet fs')
      | _ => rfl
    rw [hnote]
    exact ih (fun fs' hmem => hquiet fs' (List.mem_cons_of_mem e hmem)) _

/-! ## Clean uploads -/

/-- The temporary directories of the configuration are paths. -/
def NormalTemps (server : Server) : Prop :=
  ∀ loc, server.HasLocation loc → squeeze loc.bodyTempPath.str = loc.bodyTempPath.str

/-- The file system is that of the others but for the temporary file, which is there only while it is
open. -/
structure Clean (fs : FileSystem) (c : Client) (r : ARequest) : Prop where
  without : c.context.world.fs.without r.tmpFilename.str = fs
  closed : r.file.isOpen = false → c.context.world.fs.node (cstr r.tmpFilename.str) = none

/-- A client whose upload, if it has one, was not saved: but for the temporary file the file system is that
of the others. -/
structure Tidy (fs : FileSystem) (c : Client) : Prop where
  temps : NormalTemps c.context.server
  unstarted : c.request = none → c.context.world.fs = fs ∧ fs.node [] = none
  upload : ∀ r, c.request = some r → r.IsUpload → c.context.cgiSocket = -1 ∧ Clean fs c r

/-- A client whose upload was saved, and is answered with 201.  Of the file system nothing is said any more.
-/
structure Saved (c : Client) : Prop where
  request : ∃ r, c.request = some r ∧ r.IsUpload
  statusCode : c.context.response.statusCode = statusCreated
  workIn : c.context.requestState.workIn = true
  cgiSocket : c.context.cgiSocket = -1

/-- A step that leaves the file system and the upload alone. -/
theorem Tidy.idles {fs : FileSystem} {c c' : Client} (htidy : Tidy fs c) (h : Idles c c') :
    Tidy fs c' where
  temps := by
    rw [h.server]
    exact htidy.temps
  unstarted hnone := by
    rw [h.fs]
    exact htidy.unstarted (h.request_none_iff.mp hnone)
  upload r' hr' hupload := by
    obtain ⟨r, hr, hcore⟩ := h.exists_request hr'
    obtain ⟨hsocket, hwithout, hclosed⟩ := htidy.upload r hr (hupload.of_core hcore)
    have htmp : r'.core.tmpFilename = r.core.tmpFilename := by rw [hcore]
    have hopen : r'.core.file = r.core.file := by rw [hcore]
    have htmp' : r'.tmpFilename = r.tmpFilename := htmp
    have hopen' : r'.file = r.file := hopen
    refine ⟨h.cgiSocket.trans hsocket, ?_, ?_⟩
    · rw [h.fs, htmp', hwithout]
    · rw [h.fs, htmp', hopen']
      exact hclosed

theorem Tidy.environment {fs fs' : FileSystem} {c : Client} (htidy : Tidy fs c)
    (hsame : fs'.node (cstr c.tmpName) = c.context.world.fs.node (cstr c.tmpName)) :
    Tidy (fs'.without c.tmpName) { c with context := c.context.setFs fs' } where
  temps := htidy.temps
  unstarted hnone := by
    have hname : c.tmpName = [] := by
      unfold tmpName
      rw [show c.request = none from hnone]
    obtain ⟨hfs, hempty⟩ := htidy.unstarted hnone
    rw [hname, hfs] at hsame
    have hempty' : fs'.node [] = none := hsame.trans hempty
    rw [hname, @without_of_none fs' [] hempty']
    exact ⟨rfl, hempty'⟩
  upload r hr hupload := by
    have hname : c.tmpName = r.tmpFilename.str := by
      unfold tmpName
      rw [show c.request = some r from hr]
    obtain ⟨hsocket, -, hclosed⟩ := htidy.upload r hr hupload
    rw [hname] at hsame ⊢
    exact ⟨hsocket, rfl, fun hopen => hsame.trans (hclosed hopen)⟩

/-- The client after a save, and what follows it in the same step. -/
theorem Saved.idles {c c' : Client} (h : Saved c) (hidles : Idles c c')
    (hstatus : c'.context.response.statusCode = c.context.response.statusCode) : Saved c' := by
  obtain ⟨r, hr, hupload⟩ := h.request
  have hsome : c'.request.map ARequest.core = some r.core := by
    rw [hidles.request, hr]
    rfl
  obtain ⟨r', hr', hcore⟩ := Option.map_eq_some_iff.mp hsome
  exact ⟨⟨r', hr', hupload.of_core hcore.symm⟩, hstatus.trans h.statusCode,
    hidles.flags.workIn h.workIn, hidles.cgiSocket.trans h.cgiSocket⟩

/-! ## The start of an upload -/

/-- The request object is an upload that was refused, or whose temporary file is open. -/
theorem Tidy.created {fs : FileSystem} {c c₁ : Client} {e : Event} (htidy : Tidy fs c)
    (hcreated : Created c e c₁) (hrandom : ∀ sys, e = .clientIn sys → ∀ i, slash ∉ sys.random i) :
    Tidy fs c₁ := by
  cases hcreated with
  | same => exact htidy
  | @created sys kind ctx h hhead hworld hserver hlocation hsocket hcreate =>
    obtain ⟨hfs, hempty⟩ := htidy.unstarted hhead.request
    have hrandom' := hrandom sys rfl
    have htemp := htidy.temps _ hlocation
    have hstarted := Handler.started_processing sys hcreate
    refine ⟨?_, (fun hnone => nomatch hnone), fun r hr hupload => ?_⟩
    · obtain ⟨h₀, hctx, ⟨f, hf⟩⟩ := hstarted.fields
      have hsame : (h.processing sys).context.server = c.context.server := by
        rw [show h.processing sys = h₀.withProcessing f from hf]
        show h₀.context.server = c.context.server
        rw [hctx, hserver]
      show NormalTemps (h.processing sys).context.server
      rw [hsame]
      exact htidy.temps
    · obtain rfl : (h.processing sys).request = r := Option.some.inj hr
      rw [← hworld] at hfs
      obtain ⟨hsame, hwithout, hclosed⟩ :=
        Handler.fresh_processing hcreate hupload hrandom' htemp (by rw [hfs, hempty])
      refine ⟨hsame.trans (hsocket.trans hhead.cgiSocket), ?_, hclosed⟩
      rw [← hfs]
      exact hwithout

/-! ## The reader of an upload -/

/-- The reader of an upload keeps it tidy, or saves it. -/
theorem Tidy.read {fs : FileSystem} {c c₁ c₂ : Client} {e : Event} (htidy : Tidy fs c₁)
    (hread : Read c e c₁ c₂)
    (hremove : ∀ x ∈ c.readerCall e, x.1.removeFails (cstr x.2.request.tmpFilename.str) = false)
    (hwhole : ∀ x ∈ c.readerCall e,
      (Handler.readBody x.1 x.2).2.request.file.isOpen = false → Handler.SavesWhole x.1 x.2) :
    Tidy fs c₂ ∨ c.readerCall e ≠ none ∧ Saved c₂ := by
  cases hread with
  | same => exact Or.inl htidy
  | @called sys h c₃ hcall hkind hready hidles hrequest hcontext =>
    have htidy₃ := htidy.idles hidles
    have hreads := Handler.reads_readBody sys h
    have hstores := Handler.stores_readBody sys h
    have hremove' : sys.removeFails (cstr h.request.tmpFilename.str) = false := hremove _ hcall
    have hwhole' := hwhole _ hcall
    dsimp only at hwhole'
    generalize (Handler.readBody sys h).2 = h' at hreads hstores hwhole' ⊢
    have hserver : h'.context.server = c₃.context.server := by
      obtain ⟨f, rfl⟩ := hreads.fields
      rw [hcontext]
      rfl
    have hsocket : h'.context.cgiSocket = c₃.context.cgiSocket := by
      obtain ⟨f, rfl⟩ := hreads.fields
      rw [hcontext]
      rfl
    have hbefore : h'.request.IsUpload → c₃.context.cgiSocket = -1 ∧ Clean fs c₃ h.request := by
      intro hupload
      obtain ⟨f, rfl⟩ := hreads.fields
      exact htidy₃.upload h.request hrequest hupload
    have htemps : NormalTemps h'.context.server := by
      rw [hserver]
      exact htidy₃.temps
    -- the file system is clean, if the request is an upload
    have hclean : (h'.request.IsUpload → Clean fs (c₃.withHandler h') h'.request) →
        Tidy fs (c₃.withHandler h') := by
      intro hclean
      refine ⟨htemps, (fun hnone => nomatch hnone), fun r hr hupload => ?_⟩
      obtain rfl : h'.request = r := Option.some.inj hr
      exact ⟨hsocket.trans (hbefore hupload).1, hclean hupload⟩
    cases hstores with
    | appends happends =>
      refine Or.inl (hclean fun hupload => ?_)
      obtain ⟨-, hwithout, hclosed⟩ := hbefore hupload
      rw [hcontext] at hwithout hclosed
      refine ⟨?_, fun hclosed' => ?_⟩
      · show h'.context.world.fs.without _ = fs
        rw [hreads.tmpFilename, happends.without, hwithout]
      · have hnotOpen : h.request.file.isOpen = false := happends.isOpen.symm.trans hclosed'
        show h'.context.world.fs.node _ = none
        rw [hreads.tmpFilename, happends.closed hnotOpen]
        exact hclosed hnotOpen
    | @saves h₁ _ happends _ hfs hstatus hclosed hdone =>
      by_cases hupload : h'.request.IsUpload
      · obtain ⟨hnone, hwithout, -⟩ := hbefore hupload
        rw [hcontext] at hwithout
        have htmp : h₁.request.tmpFilename = h.request.tmpFilename := happends.reads.tmpFilename
        have hwhole₀ : Handler.SavesWhole sys h₁ := (hwhole' hclosed).of_appends happends
        have hwhole₁ : Handler.SavesWhole sys h₁.closeFile := hwhole₀
        have hremove₁ : sys.removeFails (cstr h₁.closeFile.request.tmpFilename.str) = false := by
          show sys.removeFails (cstr h₁.request.tmpFilename.str) = false
          rw [htmp, hremove']
        rcases Handler.publish_clean sys hremove₁ hwhole₁ with hcreated | hcleaned
        · have hcalled' : c.readerCall e ≠ none := by
            rw [hcall]
            exact fun heq => nomatch heq
          refine Or.inr ⟨hcalled', ⟨_, rfl, hupload⟩, ?_, hdone, ?_⟩
          · exact hstatus.trans hcreated
          · exact hsocket.trans hnone
        · have hnow : h'.context.world.fs = fs := by
            rw [hfs, hcleaned]
            show h₁.context.world.fs.without h₁.request.tmpFilename.str = fs
            rw [htmp, happends.without, hwithout]
          have hgone : h'.context.world.fs.node (cstr h.request.tmpFilename.str) = none := by
            rw [hnow, ← hwithout, node_without_self]
          refine Or.inl (hclean fun _ => ⟨?_, fun _ => ?_⟩)
          · show h'.context.world.fs.without _ = fs
            rw [hreads.tmpFilename, without_of_none hgone, hnow]
          · show h'.context.world.fs.node _ = none
            rw [hreads.tmpFilename, hgone]
      · exact Or.inl (hclean fun hupload' => absurd hupload' hupload)

/-! ## An upload that was saved -/

/-- One of the timeouts of the client is over, so that a check drops the client or answers it with 408 or
504. -/
def timesOut (c : Client) (now : Int) : Bool :=
  c.headerTimeout now || c.bodyTimeout now || c.sendTimeout now

theorem timeoutCheck_of_timely {c : Client} {sys : Sys} (htimely : c.timesOut sys.now = false) :
    c.timeoutCheck sys = (.reqContinue, c) := by
  unfold timesOut at htimely
  obtain ⟨htimely, hsend⟩ := Bool.or_eq_false_iff.mp htimely
  obtain ⟨hheader, hbody⟩ := Bool.or_eq_false_iff.mp htimely
  unfold timeoutCheck
  rw [hheader, hbody, hsend]
  rfl

/-- The work of an upload on its response leaves the status. -/
theorem statusCode_handleSocketOut {c : Client} {r : ARequest} (hr : c.request = some r)
    (hupload : r.IsUpload) (sys : Sys) :
    (c.handleSocketOut sys).2.context.response.statusCode = c.context.response.statusCode := by
  have hproduce : (c.produce sys).2.context.response.statusCode = c.context.response.statusCode := by
    unfold produce
    split_ifs
    · rfl
    · unfold readErrorPage
      dsimp only
      split_ifs <;> rfl
    · rw [hr]
      unfold Handler.workOut
      dsimp only
      rcases hupload with hput | ⟨hpost, -⟩
      · rw [hput]
        rfl
      · rw [hpost]
        rfl
  unfold handleSocketOut
  generalize c.produce sys = result at hproduce ⊢
  obtain ⟨ret, c'⟩ := result
  cases ret with
  | reqContinue =>
    dsimp only at hproduce ⊢
    rw [← hproduce]
    rcases sendResponse_cases c' sys with heq | ⟨n, heq⟩ <;> rw [heq]
    unfold takeResponse
    split_ifs <;> rfl
  | _ => exact hproduce

/-- The answer 201 stays, as long as no timeout is over. -/
theorem Saved.statusCode_step {c : Client} (h : Saved c) (hphase : Phase c) {e : Event}
    (htimely : ∀ sys, e = .timeoutCheck sys → c.timesOut sys.now = false) :
    (c.step e).context.response.statusCode = statusCreated := by
  obtain ⟨r, hr, hupload⟩ := h.request
  rw [← h.statusCode]
  unfold Client.step
  by_cases hclosed : c.closed = true
  · rw [if_pos hclosed]
  · rw [if_neg hclosed]
    cases e with
    | clientIn sys =>
      have hresponds : Responds c := by
        rcases hphase with hc | hhead | hbody | hresponds
        · exact absurd hc hclosed
        · rw [hhead.request] at hr
          cases hr
        · have hnot := hbody.workIn
          rw [h.workIn] at hnot
          cases hnot
        · exact hresponds
      show (c.handleSocketIn sys).2.context.response.statusCode = _
      rcases handleSocketIn_cases c sys with ⟨-, heq, -⟩ | ⟨-, buffer, timestamp, -, heq, -⟩ <;> rw [heq]
      have hread : (c.withRead buffer timestamp).handleRead sys =
          (c.withRead buffer timestamp).handleRequest sys := if_pos hresponds.clientRead
      rw [hread, handleRequest_of_workIn (c := c.withRead buffer timestamp) sys h.workIn,
        statusCode_startResponse]
      rfl
    | clientOut sys => exact statusCode_handleSocketOut hr hupload sys
    | cgiIn sys =>
      dsimp only
      rw [if_pos h.cgiSocket]
    | cgiOut sys =>
      dsimp only
      rw [if_pos h.cgiSocket]
    | timeoutCheck sys =>
      show (c.timeoutCheck sys).2.context.response.statusCode = _
      rw [timeoutCheck_of_timely (htimely sys rfl)]
    | environment fs => rfl

/-- A client whose upload was saved stays so, as long as it does not time out. -/
theorem Saved.step {c : Client} (h : Saved c) (hphase : Phase c) {e : Event}
    (htimely : ∀ sys, e = .timeoutCheck sys → c.timesOut sys.now = false) : Saved (c.step e) := by
  have hstatus := h.statusCode_step hphase htimely
  obtain ⟨r, hr, hupload⟩ := h.request
  have heffect := effect_step hphase e
  generalize c.step e = c' at hstatus heffect ⊢
  cases heffect with
  | environment he => exact ⟨h.request, hstatus, h.workIn, h.cgiSocket⟩
  | headOnly hhead =>
    rw [hhead.request] at hr
    cases hr
  | request hcreated hread hidles =>
    cases hcreated with
    | created sys hhead =>
      rw [hhead.request] at hr
      cases hr
    | same =>
      cases hread with
      | same => exact h.idles hidles (hstatus.trans h.statusCode.symm)
      | called c₃ hcall hkind hready hcalled hrequest hcontext =>
        -- no reader is called any more
        rw [← hcontext] at hready
        rcases hready with hfalse | hne
        · rw [hcalled.flags.workIn h.workIn] at hfalse
          cases hfalse
        · exact absurd (hcalled.cgiSocket.trans h.cgiSocket) hne

/-! ## Runs -/

/-- A run leaves no trace as long as its steps do so: what the kernel and the other processes do, and
what the client must not run into. -/
structure LeavesNoTrace (c : Client) (e : Event) : Prop where
  /-- `generateRandomString` gives lower-case letters. -/
  letters : ∀ sys, e = .clientIn sys → ∀ i, ∀ b ∈ sys.random i, b ∈ bytes "abcdefghijklmnopqrstuvwxyz"
  /-- The temporary file can be removed. -/
  removes : ∀ x ∈ c.readerCall e, x.1.removeFails (cstr x.2.request.tmpFilename.str) = false
  /-- The other processes leave the temporary file alone. -/
  environment : ∀ fs, e = .environment fs →
    fs.node (cstr c.tmpName) = c.context.world.fs.node (cstr c.tmpName)
  /-- A save removes the target and renames the temporary file to it, or does neither. -/
  saves : ∀ x ∈ c.readerCall e,
    (Handler.readBody x.1 x.2).2.request.file.isOpen = false → Handler.SavesWhole x.1 x.2
  /-- A client whose upload was saved does not time out. -/
  timely : Saved c → ∀ sys, e = .timeoutCheck sys → c.timesOut sys.now = false

/-- **One step** of a client whose upload was not saved. -/
theorem Tidy.step {fs : FileSystem} {c : Client} (htidy : Tidy fs c) (hphase : Phase c) {e : Event}
    (hleaves : LeavesNoTrace c e) : Tidy (noteOthers c e fs) (c.step e) ∨ Saved (c.step e) := by
  by_cases hclosed : c.closed = true
  · have hstep : c.step e = c := if_pos hclosed
    have hnote : noteOthers c e fs = fs := by
      cases e with
      | environment fs' => exact if_pos hclosed
      | _ => rfl
    rw [hstep, hnote]
    exact Or.inl htidy
  · have hrandom : ∀ sys, e = .clientIn sys → ∀ i, slash ∉ sys.random i := fun sys he i hmem =>
      absurd (hleaves.letters sys he i slash hmem) (by decide)
    have heffect := effect_step hphase e
    by_cases henv : ∃ fs', e = .environment fs'
    · obtain ⟨fs', rfl⟩ := henv
      have hstep : c.step (.environment fs') = { c with context := c.context.setFs fs' } :=
        if_neg hclosed
      have hnote : noteOthers c (.environment fs') fs = fs'.without c.tmpName := if_neg hclosed
      rw [hstep, hnote]
      exact Or.inl (htidy.environment (hleaves.environment fs' rfl))
    · have hnote : noteOthers c e fs = fs := by
        cases e with
        | environment fs' => exact absurd ⟨fs', rfl⟩ henv
        | _ => rfl
      rw [hnote]
      generalize c.step e = c' at heffect ⊢
      cases heffect with
      | environment he => exact absurd ⟨_, he⟩ henv
      | headOnly hhead hcall hrequest hfs hserver hsocket =>
        refine Or.inl ⟨?_, fun _ => ?_, fun r hr => ?_⟩
        · rw [hserver]
          exact htidy.temps
        · rw [hfs]
          exact htidy.unstarted hhead.request
        · rw [hrequest] at hr
          cases hr
      | request hcreated hread hidles hstatus =>
        have htidy₁ := htidy.created hcreated hrandom
        rcases htidy₁.read hread hleaves.removes hleaves.saves with htidy₂ | ⟨hcalled, hsaved⟩
        · exact Or.inl (htidy₂.idles hidles)
        · exact Or.inr (hsaved.idles hidles (hstatus hcalled))

/-- The file system that the client was given, or that the others left, is what the destructors leave,
unless the upload ends with 201. -/
theorem Tidy.destroy_eq {fs : FileSystem} {c : Client} (htidy : Tidy fs c) (sys : Sys)
    (hupload : ∀ r, c.request = some r → r.IsUpload)
    (hclosed : ∀ r, c.request = some r → r.kind = .post → r.file.isOpen = false)
    (hremoves : sys.removeFails (cstr c.tmpName) = false) : c.destroy sys = fs := by
  unfold destroy
  cases hr : c.request with
  | none => exact (htidy.unstarted hr).1
  | some r =>
    obtain ⟨-, hwithout, hgone⟩ := htidy.upload r hr (hupload r hr)
    have hremoves' : sys.removeFails (cstr r.tmpFilename.str) = false := by
      unfold tmpName at hremoves
      rwa [hr] at hremoves
    dsimp only
    unfold ARequest.destroy
    rcases hupload r hr with hput | ⟨hpost, -⟩
    · rw [hput]
      dsimp only
      unfold Path.access
      rw [access_exists]
      split_ifs with hexists
      · rw [remove_eq_without hremoves', hwithout]
      · rw [← hwithout, without_of_none (Option.not_isSome_iff_eq_none.mp hexists)]
    · rw [hpost]
      dsimp only
      rw [← hwithout, without_of_none (hgone (hclosed r hr hpost))]

/-- **Uploads that fail** leave no trace, when they are not a POST whose temporary file is still open,
and no save fails halfway. -/
theorem failedUpload_destroy (server : Server) (fs : FileSystem) (connectSocket fd : Fd) (now : Int)
    (es : List Event) (sys : Sys) (htemps : NormalTemps server) (hempty : fs.node [] = none)
    (hleaves : Transition.Along step LeavesNoTrace (init server fs connectSocket fd now) es) :
    let c := (init server fs connectSocket fd now).run es
    (∀ r, c.request = some r → r.IsUpload) → c.context.response.statusCode ≠ statusCreated →
      sys.removeFails (cstr c.tmpName) = false →
      (∀ r, c.request = some r → r.kind = .post → r.file.isOpen = false) →
        c.destroy sys = (init server fs connectSocket fd now).others fs es := by
  intro c hupload hstatus hremoves hclosed
  have hphase : Phase (init server fs connectSocket fd now) :=
    Or.inr (Or.inl (awaitsHead_init server fs connectSocket fd now))
  have htidy : Tidy fs (init server fs connectSocket fd now) :=
    ⟨htemps, fun _ => ⟨rfl, hempty⟩, fun r hr => nomatch hr⟩
  have hrun := @Transition.run_record _ _ step LeavesNoTrace _ noteOthers
    (fun c fs => Phase c ∧ (Tidy fs c ∨ Saved c))
    (fun c e fs h hc => ⟨(phase_step h.1 e).1, h.2.elim (fun htidy => htidy.step h.1 hc) fun hsaved =>
      Or.inr (hsaved.step h.1 (hc.timely hsaved))⟩) es _ fs ⟨hphase, Or.inl htidy⟩ hleaves
  have htidy' := hrun.2.resolve_right fun hsaved => hstatus hsaved.statusCode
  exact htidy'.destroy_eq sys hupload hclosed hremoves

/-! ## Two uploads -/

/-- A location that takes uploads by POST and PUT. -/
def dropLocation : LocationBlock where
  path := Path.ofString (bytes "/")
  root := Path.ofString (bytes "/r/")
  maxBodySize := 100
  maxBodySize_le := hundred_le_int32Max
  allowed := 10
  clientBodyUploadPath := Path.ofString (bytes "/u/")

def dropServer : Server := .single 3 { locations := [dropLocation] } fun _ => 0

/-- A file system with the upload directory. -/
def dropFiles : FileSystem :=
  { table := fun p => if p = bytes "/u" ∨ p = bytes "/u/" then some { kind := .directory [] } else none }

def dropClient : Client := init dropServer dropFiles 3 4 0

theorem normalTemps_dropServer : NormalTemps dropServer := by
  rintro loc ⟨socket, blocks, block, hfind, hblock, hloc⟩
  obtain rfl : loc = dropLocation := by
    by_cases hsocket : socket = 3
    · subst hsocket
      rw [dropServer, Server.single, OrderedMap.find?_insert_self] at hfind
      obtain rfl := Option.some.inj hfind
      obtain rfl := List.mem_singleton.mp hblock
      exact List.mem_singleton.mp hloc
    · rw [dropServer, Server.single, OrderedMap.find?_insert_of_ne _ hsocket] at hfind
      cases hfind
  decide

/-- Two of the five bytes of a PUT arrive, and then the client goes away. -/
def givenUpPut : List Event :=
  [.clientIn (.receiving (bytes "PUT /x HTTP/1.1\r\nHost: h\r\nContent-Length: 5\r\n\r\nab")),
    .clientIn (.quiet 0)]

/-- The same for a POST. -/
def givenUpPost : List Event :=
  [.clientIn (.receiving (bytes "POST /x HTTP/1.1\r\nHost: h\r\nContent-Length: 5\r\n\r\nab")),
    .clientIn (.quiet 0)]

set_option maxRecDepth 10000 in
/-- The PUT leaves the file system as it was. -/
theorem failedUpload_destroy_put :
    (dropClient.run givenUpPut).destroy (.quiet 0) = dropClient.others dropFiles givenUpPut := by
  have hletters : ∀ b : Bytes, ∀ hne hle, ∀ sys, Event.clientIn (.receiving b hne hle) = .clientIn sys →
      ∀ i, ∀ b ∈ sys.random i, b ∈ bytes "abcdefghijklmnopqrstuvwxyz" := by
    rintro b hne hle _ ⟨⟩ i
    show ∀ b ∈ bytes "aaaaaaaa", b ∈ bytes "abcdefghijklmnopqrstuvwxyz"
    decide
  have hquiet : ∀ sys, Event.clientIn (.quiet 0) = .clientIn sys →
      ∀ i, ∀ b ∈ sys.random i, b ∈ bytes "abcdefghijklmnopqrstuvwxyz" := by
    rintro _ ⟨⟩ i
    show ∀ b ∈ bytes "aaaaaaaa", b ∈ bytes "abcdefghijklmnopqrstuvwxyz"
    decide
  refine failedUpload_destroy dropServer dropFiles 3 4 0 givenUpPut (.quiet 0) normalTemps_dropServer
    (by decide) ⟨⟨hletters _ _ _, by decide, (fun _ he => nomatch he), by decide,
      fun _ _ he => nomatch he⟩, ⟨hquiet, by decide, (fun _ he => nomatch he), by decide,
      fun _ _ he => nomatch he⟩, trivial⟩ ?_ ?_ rfl ?_
  · decide
  · decide
  · decide

set_option maxRecDepth 10000 in
/-- The POST leaves its temporary file. -/
theorem not_failedUpload :
    let c := dropClient.run givenUpPost
    c.closed = true ∧ c.context.response.statusCode ≠ statusCreated ∧
      (dropFiles.node (bytes "/u/x.aaaaaaaa.tmp")).isSome = false ∧
      ((c.destroy (.quiet 0)).node (bytes "/u/x.aaaaaaaa.tmp")).isSome = true ∧
      c.destroy (.quiet 0) ≠ dropClient.others dropFiles givenUpPost := by
  have hleft : (((dropClient.run givenUpPost).destroy (.quiet 0)).node
      (bytes "/u/x.aaaaaaaa.tmp")).isSome = true := by
    decide
  have hnone : ((dropClient.others dropFiles givenUpPost).node
      (bytes "/u/x.aaaaaaaa.tmp")).isSome = false := by
    decide
  refine ⟨by decide, by decide, by decide, hleft, fun heq => ?_⟩
  rw [heq, hnone] at hleft
  cases hleft

end Client
end Webserv
